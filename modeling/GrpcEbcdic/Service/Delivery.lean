import GrpcEbcdic.Service.TrailerGuard

/-!
# The guard delivers

Over any sequence of sends, polls and timers the transport gets the items sent, in order, up to the
first that is final, and an error behind them if the parse ended without one. Nothing the guard has
gathered stays behind, and no call comes back empty unless the channel did.
-/

namespace GrpcEbcdic

variable [F64]

/-! ## All calls -/

namespace GuardRun

/-- The items handed over so far. -/
def handed (run : GuardRun) : List Item := handedBy run.calls

/-- What holds of a run whatever has happened. -/
structure Inv (run : GuardRun) : Prop where
  holds : run.guard.Holds run.sent run.handed
  idle : run.call = none → run.guard.Idle
  polling : ∀ answers, run.call = some answers → run.guard.Polling
  /-- A call comes back empty only if the channel did. -/
  pending : ∀ call ∈ run.calls, call.result = .pending → .pending ∈ call.answers
  /-- The stream ends only behind a final item. -/
  ended : ∀ before call after, run.calls = before ++ call :: after → call.result = .ready none →
    ∃ item ∈ handedBy before, IsFinal item

lemma handedBy_concat (calls : List PollCall) (call : PollCall) :
    handedBy (calls ++ [call]) = handedBy calls ++ call.item.toList := by
  rw [handedBy, List.filterMap_append]
  cases eq : call.item <;> simp [handedBy, eq]

/-- The calls after another one has come to its end. -/
lemma ended_concat {calls : List PollCall}
    (ended : ∀ before call after, calls = before ++ call :: after → call.result = .ready none →
      ∃ item ∈ handedBy before, IsFinal item)
    {call : PollCall} (last : call.result = .ready none → ∃ item ∈ handedBy calls, IsFinal item) :
    ∀ before call' after, calls ++ [call] = before ++ call' :: after → call'.result = .ready none →
      ∃ item ∈ handedBy before, IsFinal item := by
  intro before call' after eq none
  rcases List.eq_nil_or_concat' after with rfl | ⟨after', last', rfl⟩
  · obtain ⟨rfl, same⟩ := List.append_inj' eq rfl
    obtain rfl := List.singleton_inj.mp same
    exact last none
  · rw [← List.cons_append, ← List.append_assoc] at eq
    exact ended before call' after' (List.append_inj' eq rfl).1 none

/-- A call that goes on as it should keeps the invariant. -/
lemma Inv.turn {run : GuardRun} (inv : run.Inv) {answers : List (Poll (Option Item))} {turn : Turn}
    (keeps : TrailerGuard.Keeps run.sent run.handed (.pending ∈ answers) turn) :
    (run.turn answers turn).Inv := by
  obtain ⟨_, _, _, pending, ended⟩ := inv
  cases turn with
  | polls guard =>
    exact ⟨keeps.1, nofun, fun _ _ => keeps.2, pending, ended⟩
  | returns result guard =>
    have handed := handedBy_concat run.calls ⟨answers, result⟩
    obtain ⟨holds, idle, of_pending, of_none⟩ :
        guard.Holds run.sent (run.handed ++ (PollCall.item ⟨answers, result⟩).toList) ∧ guard.Idle ∧
          (result = .pending → .pending ∈ answers) ∧
          (result = .ready none → ∃ item ∈ run.handed, IsFinal item) := by
      rcases result with (_ | item) | _
      · refine ⟨?_, keeps.2.1, nofun, fun _ => keeps.2.2⟩
        exact (List.append_nil run.handed).symm ▸ keeps.1
      · exact ⟨keeps.1, keeps.2, nofun, nofun⟩
      · refine ⟨?_, keeps.2.1, fun _ => keeps.2.2, nofun⟩
        exact (List.append_nil run.handed).symm ▸ keeps.1
    refine ⟨?_, fun _ => idle, nofun, ?_, ended_concat ended of_none⟩
    · change guard.Holds run.sent (handedBy (run.calls ++ [⟨answers, result⟩]))
      rw [handed]
      exact holds
    · exact List.forall_mem_append.mpr ⟨pending, List.forall_mem_singleton.mpr of_pending⟩

variable (encodedLen : Pb.ParseEbcdicResponse → Nat)

/-- Whatever happens next, the invariant is kept. -/
lemma Inv.step {run : GuardRun} (inv : run.Inv) (act : Act) : (run.step encodedLen act).Inv := by
  cases act with
  | send item =>
    unfold GuardRun.step
    split_ifs with closed
    · exact inv
    · obtain ⟨holds, idle, polling, pending, ended⟩ := inv
      exact ⟨holds.send (Bool.eq_false_iff.mpr closed) item, fun none => ⟨(idle none).1, (idle none).2⟩,
        fun answers some => ⟨(polling answers some).1, (polling answers some).2, (polling answers some).3⟩,
        pending, ended⟩
  | close =>
    obtain ⟨holds, idle, polling, pending, ended⟩ := inv
    exact ⟨holds.close, fun none => ⟨(idle none).1, (idle none).2⟩,
      fun answers some => ⟨(polling answers some).1, (polling answers some).2, (polling answers some).3⟩,
      pending, ended⟩
  | poll elapsed =>
    unfold GuardRun.step
    cases call : run.call with
    | some _ => exact inv
    | none => exact inv.turn (inv.holds.pollNext (inv.idle call) elapsed)
  | resume ready elapsed =>
    unfold GuardRun.step
    cases call : run.call with
    | none => exact inv
    | some answers =>
      refine inv.turn (inv.holds.answered encodedLen (inv.polling answers call) ready elapsed ?_)
      intro pending
      rw [pending]
      exact List.mem_append_right _ List.mem_cons_self

lemma inv_start : start.Inv where
  holds := ⟨fun _ => ⟨fun _ mem => absurd mem List.not_mem_nil, rfl⟩, nofun, nofun, nofun⟩
  idle _ := ⟨fun _ _ => ⟨rfl, Nat.zero_lt_succ 255⟩, fun _ _ none => absurd rfl none⟩
  polling := nofun
  pending _ mem := absurd mem List.not_mem_nil
  ended before _ _ eq := absurd eq (by simp [start])

/-- The invariant holds of every run. -/
theorem inv_after (acts : List Act) : (after encodedLen acts).Inv := by
  have from_inv (run : GuardRun) (inv : run.Inv) : (acts.foldl (step encodedLen) run).Inv := by
    induction acts generalizing run with
    | nil => exact inv
    | cons act acts ih => exact ih _ (inv.step encodedLen act)
  exact from_inv start inv_start

end GuardRun

/-! ## Nothing stays behind -/

/-- The guard a call leaves. -/
def Turn.guard : Turn → TrailerGuard
  | .polls guard => guard
  | .returns _ guard => guard

/-- Whether a call ends with an item. -/
def Turn.Hands (turn : Turn) : Prop := ∃ item guard, turn = .returns (.ready (some item)) guard

namespace TrailerGuard

variable (guard : TrailerGuard)

lemma release_events : guard.release.guard.events = guard.events := by
  unfold release
  split <;> rfl

lemma gathered_events (elapsed : Bool) : (guard.gathered elapsed).guard.events = guard.events := by
  unfold gathered
  split_ifs
  · rfl
  · rfl
  · exact release_events _

lemma gather_events (elapsed : Bool) : (guard.gather elapsed).guard.events = guard.events := by
  unfold gather
  split_ifs
  · rfl
  · exact guard.gathered_events elapsed

lemma pollNext_events (elapsed : Bool) : (guard.pollNext elapsed).guard.events = guard.events := by
  unfold pollNext
  split_ifs
  · rfl
  · exact guard.release_events
  · exact guard.gather_events elapsed

lemma answered_events (encodedLen : Pb.ParseEbcdicResponse → Nat) (elapsed : Bool)
    (answer : Poll (Option Item)) :
    (guard.answered encodedLen elapsed answer).guard.events = guard.events := by
  rcases answer with (_ | item) | _
  · exact gather_events _ elapsed
  · exact gather_events _ elapsed
  · exact guard.gathered_events elapsed

variable {guard}

lemma release_hands (some : guard.batch ≠ []) : guard.release.Hands := by
  unfold release
  split
  · contradiction
  · exact ⟨_, _, rfl⟩
  · exact ⟨_, _, rfl⟩

/-- When the timer has elapsed a batch that is not empty goes out. -/
lemma gathered_hands (some : guard.batch ≠ []) : (guard.gathered true).Hands := by
  unfold gathered
  rw [if_neg some, if_neg (fun waits => Bool.noConfusion waits.2)]
  exact release_hands some

end TrailerGuard

namespace GuardRun

variable (encodedLen : Pb.ParseEbcdicResponse → Nat)

lemma turn_closed (run : GuardRun) (answers : List (Poll (Option Item))) {turn : Turn}
    (same : turn.guard.events.closed = run.guard.events.closed) :
    (run.turn answers turn).sent = run.sent ∧
      (run.turn answers turn).guard.events.closed = run.guard.events.closed := by
  cases turn <;> exact ⟨rfl, same⟩

/-- The guard sends nothing and closes nothing. -/
lemma advance_closed (run : GuardRun) :
    (run.advance encodedLen).sent = run.sent ∧
      (run.advance encodedLen).guard.events.closed = run.guard.events.closed := by
  unfold advance
  cases call : run.call with
  | none =>
    simp only [step, call]
    exact run.turn_closed _ (congrArg _ (run.guard.pollNext_events true))
  | some answers =>
    simp only [step, call]
    refine run.turn_closed _ ((congrArg _ (TrailerGuard.answered_events _ _ _ _)).trans ?_)
    rw [ReceiverStream.pollNext, if_pos rfl]
    split <;> rfl

lemma turn_handed (run : GuardRun) (answers : List (Poll (Option Item))) (turn : Turn) :
    run.handed <+: (run.turn answers turn).handed := by
  cases turn with
  | polls guard => exact List.prefix_rfl
  | returns result guard => exact ⟨_, (handedBy_concat run.calls ⟨answers, result⟩).symm⟩

/-- What has been handed over stays so. -/
lemma advance_handed (run : GuardRun) : run.handed <+: (run.advance encodedLen).handed := by
  unfold advance
  cases call : run.call with
  | none =>
    simp only [step, call]
    exact run.turn_handed _ _
  | some answers =>
    simp only [step, call]
    exact run.turn_handed _ _

lemma turn_hands (run : GuardRun) (answers : List (Poll (Option Item))) {turn : Turn}
    (hands : turn.Hands) : run.handed.length < (run.turn answers turn).handed.length := by
  obtain ⟨item, guard, rfl⟩ := hands
  have one := handedBy_concat run.calls ⟨answers, .ready (some item)⟩
  change (handedBy run.calls).length < (handedBy (run.calls ++ [⟨answers, .ready (some item)⟩])).length
  rw [one, List.length_append]
  exact Nat.lt_succ_self _

/-- Whether the transport is due more than it has. -/
def Owes (run : GuardRun) : Prop := run.handed ≠ due run.guard.events.closed run.sent

lemma Inv.advance {run : GuardRun} (inv : run.Inv) : (run.advance encodedLen).Inv := by
  unfold GuardRun.advance
  cases run.call with
  | none => exact inv.step encodedLen _
  | some answers => exact inv.step encodedLen _

lemma Owes.advance {run : GuardRun} (owes : run.Owes)
    (same : (run.advance encodedLen).handed = run.handed) : (run.advance encodedLen).Owes := by
  obtain ⟨sent, closed⟩ := run.advance_closed encodedLen
  rw [Owes, same, sent, closed]
  exact owes

/-- A guard with nothing in its batch owes nothing once the channel is empty. -/
lemma Inv.batch_of_owes {run : GuardRun} (inv : run.Inv) (owes : run.Owes)
    (opened : run.guard.events.closed = false) (none : run.guard.events.queue = [])
    (gathering : run.guard.batchFinal = false) : run.guard.batch ≠ [] := by
  intro empty
  obtain ⟨before, all⟩ := inv.holds.gathering gathering
  rw [none, List.append_nil] at all
  have all_due := due_append before run.guard.events.closed []
  rw [List.append_nil, all, opened, due, if_neg Bool.false_ne_true, List.append_nil] at all_due
  rw [empty, List.append_nil] at all
  exact owes (by rw [opened, all_due, all])

/-- A call that polls the channel while something is due hands over an item sooner or later. -/
lemma Inv.polling_progress {run : GuardRun} (inv : run.Inv) (owes : run.Owes)
    {answers : List (Poll (Option Item))} (call : run.call = some answers) :
    ∃ n, run.handed.length < ((GuardRun.advance encodedLen)^[n] run).handed.length := by
  induction len : run.guard.events.queue.length generalizing run answers with
  | zero =>
    -- The queue is dry: what was gathered is handed on now, or the end is.
    have none := List.eq_nil_of_length_eq_zero len
    have polling := inv.polling answers call
    refine ⟨1, ?_⟩
    simp only [Function.iterate_one, GuardRun.advance, call, GuardRun.step, ReceiverStream.pollNext,
      none, if_true]
    apply run.turn_hands _
    cases closed : run.guard.events.closed with
    | false => exact TrailerGuard.gathered_hands (inv.batch_of_owes owes closed none polling.gathers.1)
    | true =>
      have full : ¬ run.guard.pushEnd.Gathers := fun gathers => Bool.noConfusion gathers.1
      simp only [if_true, TrailerGuard.answered, TrailerGuard.gather]
      rw [if_neg full]
      exact TrailerGuard.gathered_hands (by simp [TrailerGuard.pushEnd])
  | succ size ih =>
    obtain ⟨item, queue, next⟩ := List.exists_cons_of_length_eq_add_one len
    let pushed := { run.guard with events := { run.guard.events with queue := queue } }.push
      encodedLen item
    have stepped : run.advance encodedLen
        = run.turn (answers ++ [.ready (some item)]) (pushed.gather true) := by
      simp only [GuardRun.advance, call, GuardRun.step, ReceiverStream.pollNext, next, if_true,
        TrailerGuard.answered, pushed]
    by_cases gathers : pushed.Gathers
    · rw [TrailerGuard.gather, if_pos gathers] at stepped
      -- The item was gathered and nothing handed on, but the queue is shorter.
      have same : (run.advance encodedLen).handed = run.handed := by rw [stepped]; rfl
      have call' : (run.advance encodedLen).call = some (answers ++ [.ready (some item)]) := by
        rw [stepped]; rfl
      have shorter : (run.advance encodedLen).guard.events.queue.length = size := by
        rw [next, List.length_cons] at len
        rw [stepped]
        exact Nat.succ.inj len
      obtain ⟨n, longer⟩ := ih (inv.advance encodedLen) (owes.advance encodedLen same) call' shorter
      exact ⟨n + 1, same ▸ longer⟩
    · rw [TrailerGuard.gather, if_neg gathers] at stepped
      refine ⟨1, ?_⟩
      rw [Function.iterate_one, stepped]
      exact run.turn_hands _ (TrailerGuard.gathered_hands (by simp [pushed, TrailerGuard.push]))

/-- While something is due, the next calls hand over an item. -/
lemma Inv.progress {run : GuardRun} (inv : run.Inv) (owes : run.Owes) :
    ∃ n, run.handed.length < ((GuardRun.advance encodedLen)^[n] run).handed.length := by
  cases call : run.call with
  | some answers => exact inv.polling_progress encodedLen owes call
  | none =>
    have idle := inv.idle call
    have stepped : run.advance encodedLen = run.turn [] (run.guard.pollNext true) := by
      simp only [GuardRun.advance, call, GuardRun.step]
    cases finished : run.guard.finished with
    | true =>
      obtain ⟨none, last⟩ := inv.holds.finished finished
      have all := (inv.holds.final last).1
      rw [none, List.append_nil] at all
      exact absurd all owes
    | false =>
      rw [TrailerGuard.pollNext, if_neg (Bool.eq_false_iff.mp finished)] at stepped
      cases releasing : run.guard.releasing with
      | true =>
        rw [if_pos releasing] at stepped
        refine ⟨1, ?_⟩
        rw [Function.iterate_one, stepped]
        exact run.turn_hands _ (TrailerGuard.release_hands (inv.holds.releasing releasing))
      | false =>
        rw [if_neg (Bool.eq_false_iff.mp releasing), TrailerGuard.gather,
          if_pos (idle.gathers finished releasing)] at stepped
        have same : (run.advance encodedLen).handed = run.handed := by rw [stepped]; rfl
        have call' : (run.advance encodedLen).call = some [] := by rw [stepped]; rfl
        obtain ⟨n, longer⟩ := (inv.advance encodedLen).polling_progress encodedLen
          (owes.advance encodedLen same) call'
        exact ⟨n + 1, same ▸ longer⟩

lemma iterate_advance (run : GuardRun) (n : Nat) :
    ((advance encodedLen)^[n] run).sent = run.sent ∧
      ((advance encodedLen)^[n] run).guard.events.closed = run.guard.events.closed ∧
      run.handed <+: ((advance encodedLen)^[n] run).handed ∧
      (run.Inv → ((advance encodedLen)^[n] run).Inv) := by
  induction n generalizing run with
  | zero => exact ⟨rfl, rfl, List.prefix_rfl, id⟩
  | succ n ih =>
    obtain ⟨sent, closed⟩ := run.advance_closed encodedLen
    obtain ⟨sent', closed', handed, inv⟩ := ih (run.advance encodedLen)
    exact ⟨sent'.trans sent, closed'.trans closed, (run.advance_handed encodedLen).trans handed,
      fun inv₀ => inv (inv₀.advance encodedLen)⟩

/-- The calls go on until all that is due has been handed over, and hand over no more. -/
theorem Inv.delivers {run : GuardRun} (inv : run.Inv) :
    ∃ n, ∀ m, n ≤ m →
      ((GuardRun.advance encodedLen)^[m] run).handed = due run.guard.events.closed run.sent := by
  induction left : (due run.guard.events.closed run.sent).length - run.handed.length
    using Nat.strong_induction_on generalizing run with
  | _ left ih =>
    by_cases owes : run.Owes
    · obtain ⟨n, longer⟩ := inv.progress encodedLen owes
      obtain ⟨sent, closed, _, keeps⟩ := run.iterate_advance encodedLen n
      have bound := (keeps inv).holds.handed_prefix.length_le
      rw [sent, closed] at bound
      obtain ⟨n', all⟩ := ih _ (by rw [sent, closed, ← left]; omega) (keeps inv) rfl
      rw [sent, closed] at all
      refine ⟨n' + n, fun m le => ?_⟩
      obtain ⟨k, rfl⟩ := Nat.exists_eq_add_of_le le
      have more := all (n' + k) (Nat.le_add_right n' k)
      rw [← Function.iterate_add_apply] at more
      rw [Nat.add_right_comm]
      exact more
    · refine ⟨0, fun m _ => ?_⟩
      obtain ⟨sent, closed, handed, keeps⟩ := run.iterate_advance encodedLen m
      have within := (keeps inv).holds.handed_prefix
      rw [sent, closed] at within
      rw [not_not.mp owes] at handed
      exact (handed.eq_of_length_le within.length_le).symm

/-- What the transport gets of a parse. -/
structure Delivers (run : GuardRun) : Prop where
  /-- The items are those sent, in order, up to the first final one, or else the error behind them. -/
  order : run.handed <+: due run.guard.events.closed run.sent
  /-- The stream ends only when all of these have been handed over, the last of them final. -/
  ended : ∀ before call after, run.calls = before ++ call :: after → call.result = .ready none →
    handedBy before = due run.guard.events.closed run.sent ∧ ∃ item ∈ handedBy before, IsFinal item
  /-- A call comes back empty only if the channel did in this call. -/
  pending : ∀ call ∈ run.calls, call.result = .pending → .pending ∈ call.answers
  /-- Once the channel gives what it has and the timer elapses, no more is left. -/
  complete : ∃ n, ∀ m, n ≤ m →
    ((advance encodedLen)^[m] run).handed = due run.guard.events.closed run.sent

end GuardRun

/-- The guard delivers every event and never ends silently, however the parse task, the channel, the
timer and the transport take turns. -/
theorem trailerGuard_delivers (encodedLen : Pb.ParseEbcdicResponse → Nat) (acts : List Act) :
    (GuardRun.after encodedLen acts).Delivers encodedLen := by
  have inv := GuardRun.inv_after encodedLen acts
  have order := inv.holds.handed_prefix
  refine ⟨order, fun before call after eq none => ?_, inv.pending, inv.delivers encodedLen⟩
  obtain ⟨item, mem, final⟩ := inv.ended before call after eq none
  refine ⟨?_, item, mem, final⟩
  -- A final item is the last that is due, so what came before the end is all of it.
  have before_prefix : handedBy before <+: due (GuardRun.after encodedLen acts).guard.events.closed
      (GuardRun.after encodedLen acts).sent := by
    refine List.IsPrefix.trans ⟨handedBy (call :: after), ?_⟩ order
    rw [GuardRun.handed, eq]
    exact (List.filterMap_append).symm
  obtain ⟨rest, all⟩ := before_prefix
  obtain ⟨front, back, split⟩ := List.append_of_mem mem
  rw [split, List.append_assoc, List.cons_append] at all
  have last := due_last all.symm final
  obtain ⟨rfl, rfl⟩ := List.append_eq_nil_iff.mp last
  rw [split, ← all]
  rfl

/-- A parse task that is gone without a word ends the call with an error. -/
example : (GuardRun.after (fun _ => 0) [.close, .poll false, .resume true false]).handed = [noTrailer] :=
  rfl

end GrpcEbcdic

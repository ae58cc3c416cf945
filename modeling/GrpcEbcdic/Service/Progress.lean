import GrpcEbcdic.Service.Backpressure

/-!
# No call is stuck

From wherever a call has got to, among any other calls, a client that ends its request stream and reads on
brings it to the end of its response stream: no timer has to run out for it, and no other call to do
anything.
-/

namespace GrpcEbcdic
open Rust Interleaved

/-- What happens to a connection whose client ends its request stream and reads on. -/
inductive Signal.OfReader : Signal → Prop where
  | hear :
    OfReader (.hear none)
  | send :
    OfReader (.send false)
  | tick :
    OfReader .tick
  | poll :
    OfReader (.poll true)
  | resume :
    OfReader (.resume true true)

section Progress

variable [F64] [Unicode] [SerdeJson] (encodedLen : Pb.ParseEbcdicResponse → Nat) (service : EbcdicGrpc)

/-- A connection that a client can bring somewhere by itself. -/
def Drives (conn : Connection) (shared : Shared) (conn' : Connection) (shared' : Shared) : Prop :=
  ∃ signals : List Signal, (∀ signal ∈ signals, signal.OfReader) ∧
    (service.connections encodedLen).alone conn shared signals = (conn', shared')

variable {encodedLen service} {conn conn' conn'' : Connection} {shared shared' shared'' : Shared}

lemma Drives.refl : Drives encodedLen service conn shared conn shared :=
  ⟨[], fun _ mem => absurd mem List.not_mem_nil, rfl⟩

lemma Drives.one {signal : Signal} (reader : signal.OfReader) :
    Drives encodedLen service conn shared ((service.connections encodedLen).act signal conn shared).1
      ((service.connections encodedLen).act signal conn shared).2 :=
  ⟨[signal], List.forall_mem_singleton.mpr reader, rfl⟩

lemma Drives.trans (drives : Drives encodedLen service conn shared conn' shared')
    (drives' : Drives encodedLen service conn' shared' conn'' shared'') :
    Drives encodedLen service conn shared conn'' shared'' := by
  obtain ⟨signals, reader, ran⟩ := drives
  obtain ⟨signals', reader', ran'⟩ := drives'
  refine ⟨signals ++ signals', List.forall_mem_append.mpr ⟨reader, reader'⟩, ?_⟩
  rw [System.alone, List.foldl_append]
  rw [System.alone] at ran ran'
  rw [ran, ran']

/-- The transport can go on with its polls as long as it likes. -/
lemma Drives.advance (conn : Connection) (reading : conn.reading = true)
    (streams : conn.call.phase.streams = true) (n : Nat) :
    Drives encodedLen service conn shared
      { conn with response := (GuardRun.advance encodedLen)^[n] conn.response } shared := by
  induction n generalizing conn with
  | zero => exact .refl
  | succ n ih =>
    have polled (act : Act) : conn.transport encodedLen act
        = { conn with response := conn.response.step encodedLen act } := if_pos ⟨reading, streams⟩
    have first : Drives encodedLen service conn shared
        { conn with response := conn.response.advance encodedLen } shared := by
      unfold GuardRun.advance
      cases conn.response.call with
      | none =>
        have poll : Drives encodedLen service conn shared
          (conn.transport encodedLen (.poll true)) shared := .one .poll
        rw [polled] at poll
        exact poll
      | some answers =>
        have resume : Drives encodedLen service conn shared
          (conn.transport encodedLen (.resume true true)) shared := .one .resume
        rw [polled] at resume
        exact resume
    exact first.trans (ih { conn with response := conn.response.advance encodedLen } reading streams)

omit [Unicode] [SerdeJson] in
/-- A call that waits has sent nothing final. -/
lemma Phase.Finals.waiting {phase : Phase} {sent : List Item} (finals : phase.Finals sent)
    {item : Except Status Pb.Event} (waits : phase.waiting = some item) : NoFinal sent := by
  cases phase with
  | parsing limits task =>
    cases task with
    | sending fold event next => exact finals.1
    | receiving fold walk => cases waits
    | decided res => cases waits
  | failing e => exact finals
  | _ => cases waits

omit [Unicode] [SerdeJson] in
/-- Once all that was sent has been handed over, the channel is empty. -/
lemma GuardRun.Inv.emptied {run : GuardRun} (inv : run.Inv) (opened : run.guard.events.closed = false)
    (none : NoFinal run.sent) (handed : run.handed = due run.guard.events.closed run.sent) :
    run.guard.events.queue = [] := by
  have all_due := due_append none false []
  rw [List.append_nil, due, if_neg Bool.false_ne_true, List.append_nil] at all_due
  rw [opened, all_due] at handed
  rcases final : run.guard.batchFinal with _ | _
  · obtain ⟨_, all⟩ := inv.holds.gathering final
    rw [handed, List.append_assoc] at all
    exact (List.append_eq_nil_iff.mp (List.append_right_eq_self.mp all)).2
  · obtain ⟨all, item, mem, is⟩ := inv.holds.final final
    rw [all, opened, all_due] at mem
    exact absurd is (none item mem)

/-- A client that reads makes room. -/
lemma Drives.room (service : EbcdicGrpc) (shared : Shared) (wired : conn.Wired encodedLen)
    (reading : conn.reading = true) (streams : conn.call.phase.streams = true) {item : Except Status Pb.Event}
    (waits : conn.call.phase.waiting = some item) (none : NoFinal (conn.call.items.map toItem)) :
    ∃ response, Drives encodedLen service conn shared { conn with response := response } shared ∧
      response.guard.events.queue = [] := by
  obtain ⟨n, all⟩ := wired.inv.delivers encodedLen
  obtain ⟨sent, closed, _, keeps⟩ := conn.response.iterate_advance encodedLen n
  refine ⟨(GuardRun.advance encodedLen)^[n] conn.response, .advance conn reading streams n, ?_⟩
  apply (keeps wired.inv).emptied
  · rw [closed]
    exact wired.open_of_waiting waits
  · rw [sent, wired.sent]
    exact none
  · rw [closed, sent]
    exact all n le_rfl

/-- A call that waits to send gets its event taken when its client reads. -/
lemma Drives.taken (service : EbcdicGrpc) (shared : Shared) (wired : conn.Wired encodedLen)
    (reading : conn.reading = true) (streams : conn.call.phase.streams = true) {item : Except Status Pb.Event}
    (waits : conn.call.phase.waiting = some item) (none : NoFinal (conn.call.items.map toItem)) :
    ∃ conn', Drives encodedLen service conn shared conn' (ParseCall.sent .taken conn.call shared).2 ∧
      conn'.call = (ParseCall.sent .taken conn.call shared).1 ∧ conn'.reading = true := by
  obtain ⟨response, drives, empty⟩ := Drives.room service shared wired reading streams waits none
  have room : Connection.outcome { conn with response := response } false = some .taken := by
    unfold Connection.outcome
    dsimp only
    rw [reading, empty]
    rfl
  have sends : Connection.send encodedLen false { conn with response := response } shared
      = (⟨(ParseCall.sent .taken conn.call shared).1,
          Connection.offer encodedLen { conn with response := response } .taken item, conn.reading⟩,
        (ParseCall.sent .taken conn.call shared).2) := by
    unfold Connection.send
    dsimp only
    rw [waits, room]
  have last : Drives encodedLen service { conn with response := response } shared
      (Connection.send encodedLen false { conn with response := response } shared).1
      (Connection.send encodedLen false { conn with response := response } shared).2 := .one .send
  rw [sends] at last
  exact ⟨_, drives.trans last, rfl, reading⟩

/-- How far a phase is from the next. -/
def Phase.rank : Phase → Nat
  | .parsing _ (.receiving _ _) => 6
  | .parsing _ (.sending _ _ _) => 5
  | .parsing _ (.decided _) => 4
  | .released _ => 3
  | .failed _ => 2
  | .failing _ => 1
  | _ => 0

/-- How far a call is from its end when nothing more is let in: each send it waits for is one of those
that are left to it. -/
def ParseCall.left (call : ParseCall) : Nat :=
  7 * (totalBytes call.letIn + 4 - call.outcomes.length) + call.phase.rank

omit [Unicode] [SerdeJson] in
lemma Phase.rank_le (phase : Phase) : phase.rank ≤ 6 := by
  unfold rank
  split <;> decide

omit [SerdeJson] in
/-- Behind the end of its input a task receives no more. -/
lemma Task.drain_rank (limits : Limits) (walk : RecordStream) (fold : Option DocumentFold)
    (metrics : Metrics) : (Phase.parsing limits (drain true walk fold metrics).1).rank ≤ 5 := by
  unfold drain
  rcases walk.nextRecord with ⟨e | _ | row, walk'⟩
  · exact Nat.le_succ 4
  · dsimp only
    rw [if_pos rfl]
    rcases walk'.status with e | status
    · exact Nat.le_succ 4
    · cases fold with
      | none => exact le_rfl
      | some fold => exact le_rfl
  · exact le_rfl

/-- A send that is taken is one fewer left. -/
lemma ParseCall.sent_left {call : ParseCall} (within : call.phase.Within service call.toHistory)
    {item : Except Status Pb.Event} (waits : call.phase.waiting = some item) (shared : Shared) :
    (ParseCall.sent .taken call shared).1.left < call.left ∧
      (ParseCall.sent .taken call shared).1.phase.streams = true := by
  have bounds := (act_within service (.sent .taken) call shared within).bounds.2
  change Accounted (ParseCall.sent .taken call shared).1.toHistory 1 at bounds
  obtain ⟨rows, offered, outcomes⟩ := bounds
  have counted (call' : ParseCall) (letIn : call'.letIn = call.letIn)
      (sent : call'.outcomes = call.outcomes ++ [.taken]) (rank : 0 < call.phase.rank)
      (bound : call'.outcomes.length ≤ totalBytes call'.letIn + 4)
      (nearer : call'.phase.rank < 7 + call.phase.rank) : call'.left < call.left := by
    unfold left
    rw [letIn, sent, List.length_append, List.length_singleton] at *
    omega
  obtain ⟨past, phase, found⟩ := call
  cases phase with
  | parsing limits task =>
    cases task with
    | sending fold event next =>
      refine ⟨counted _ rfl rfl (Nat.zero_lt_succ 4) ?_ ?_, rfl⟩
      · omega
      · exact (Phase.rank_le _).trans_lt (show 6 < 7 + 5 by decide)
    | receiving fold walk => cases waits
    | decided res => cases waits
  | failing e =>
    refine ⟨counted _ rfl rfl (Nat.zero_lt_succ 0) ?_ ?_, rfl⟩
    · omega
    · exact (Phase.rank_le _).trans_lt (show 6 < 7 + 1 by decide)
  | _ => cases waits

/-- A client that ends its request stream and reads brings its call nearer to its end. -/
lemma Drives.nearer (wired : conn.Wired encodedLen) (reading : conn.reading = true)
    (streams : conn.call.phase.streams = true)
    (finals : conn.call.phase.Finals (conn.call.items.map toItem))
    (within : conn.call.phase.Within service conn.call.toHistory)
    (goes_on : ∀ res, conn.call.phase ≠ .ended res) (shared : Shared) :
    ∃ conn' shared', Drives encodedLen service conn shared conn' shared' ∧ conn'.reading = true ∧
      conn'.call.phase.streams = true ∧ conn'.call.left < conn.call.left := by
  have sends {item : Except Status Pb.Event} (waits : conn.call.phase.waiting = some item) :
      ∃ conn' shared', Drives encodedLen service conn shared conn' shared' ∧ conn'.reading = true ∧
        conn'.call.phase.streams = true ∧ conn'.call.left < conn.call.left := by
    obtain ⟨conn', drives, call, reading'⟩ :=
      Drives.taken service shared wired reading streams waits (finals.waiting waits)
    obtain ⟨nearer, streams'⟩ := ParseCall.sent_left within waits shared
    exact ⟨conn', _, drives, reading', call ▸ streams', call ▸ nearer⟩
  have ticks (ticked : conn.tick encodedLen shared
        = ({ conn with call := (conn.call.tick shared).1 }, (conn.call.tick shared).2))
      (streams' : (conn.call.tick shared).1.phase.streams = true)
      (nearer : (conn.call.tick shared).1.left < conn.call.left) :
      ∃ conn' shared', Drives encodedLen service conn shared conn' shared' ∧ conn'.reading = true ∧
        conn'.call.phase.streams = true ∧ conn'.call.left < conn.call.left := by
    have one : Drives encodedLen service conn shared (conn.tick encodedLen shared).1
      (conn.tick encodedLen shared).2 := .one .tick
    rw [ticked] at one
    exact ⟨_, _, one, reading, streams', nearer⟩
  obtain ⟨⟨past, phase, found⟩, response, reads⟩ := conn
  cases phase with
  | parsing limits task =>
    cases task with
    | sending fold event next => exact sends rfl
    | receiving fold walk =>
      refine ⟨_, _, .one .hear, reading, rfl, ?_⟩
      have rank := Task.drain_rank limits walk.finishInput fold shared.metrics
      show 7 * (totalBytes (past.letIn ++ []) + 4 - past.outcomes.length)
          + (Phase.parsing limits (Task.drain true walk.finishInput fold shared.metrics).1).rank
        < 7 * (totalBytes past.letIn + 4 - past.outcomes.length) + 6
      rw [List.append_nil]
      exact Nat.add_lt_add_left (Nat.lt_succ_of_le rank) _
    | decided res => exact ticks rfl rfl (Nat.lt_succ_self _)
  | released res =>
    cases res with
    | error e => exact ticks rfl rfl (Nat.lt_succ_self _)
    | ok done => exact ticks rfl rfl (Nat.lt_add_of_pos_right (Nat.zero_lt_succ 2))
  | failed e => exact ticks rfl rfl (Nat.lt_succ_self _)
  | failing e => exact sends rfl
  | ended res => exact absurd rfl (goes_on res)
  | _ => cases streams

omit [Unicode] [SerdeJson] in
/-- What is due of a stream that is closed ends it. -/
lemma due_closed (sent : List Item) : ∃ item ∈ due true sent, IsFinal item := by
  induction sent with
  | nil => exact ⟨noTrailer, List.mem_singleton_self _, trivial⟩
  | cons item sent ih =>
    rw [due]
    split_ifs with final
    · exact ⟨item, List.mem_singleton_self _, final⟩
    · obtain ⟨last, mem, is⟩ := ih
      exact ⟨last, List.mem_cons_of_mem _ mem, is⟩

omit [Unicode] [SerdeJson] in
/-- A guard that has handed over all that was due, to its end, is finished. -/
lemma GuardRun.Inv.finished {run : GuardRun} (inv : run.Inv)
    (all : run.handed = due run.guard.events.closed run.sent)
    (last : ∃ item ∈ run.handed, IsFinal item) : run.call = none ∧ run.guard.finished = true := by
  obtain ⟨item, mem, is⟩ := last
  have final : run.guard.batchFinal = true := by
    rcases final : run.guard.batchFinal with _ | _
    · exact absurd is ((inv.holds.gathering final).1 item (List.mem_append_left _ mem))
    · rfl
  have empty : run.guard.batch = [] := by
    obtain ⟨both, _⟩ := inv.holds.final final
    rw [← all] at both
    exact List.append_right_eq_self.mp both
  have idle : run.call = none := by
    cases call : run.call with
    | none => rfl
    | some answers =>
      have gathers := (inv.polling answers call).gathers
      exact absurd (gathers.1.symm.trans final) Bool.false_ne_true
  refine ⟨idle, ?_⟩
  rcases finished : run.guard.finished with _ | _
  · rcases releasing : run.guard.releasing with _ | _
    · have gathers := (inv.idle idle).gathers finished releasing
      exact absurd (gathers.1.symm.trans final) Bool.false_ne_true
    · exact absurd empty (inv.holds.releasing releasing)
  · rfl

/-- When a call has ended, a client that reads gets to the end of its response stream. -/
lemma Drives.closing (service : EbcdicGrpc) (shared : Shared) (wired : conn.Wired encodedLen)
    (reading : conn.reading = true) {res : Except ParseError Unit}
    (ended : conn.call.phase = .ended res) :
    ∃ response, Drives encodedLen service conn shared { conn with response := response } shared ∧
      ∃ poll ∈ response.calls, poll.result = .ready none := by
  have streams : conn.call.phase.streams = true := by rw [ended]; rfl
  have closes : Drives encodedLen service conn shared
      { conn with response := conn.response.step encodedLen .close } shared := by
    have one : Drives encodedLen service conn shared (conn.tick encodedLen shared).1
      (conn.tick encodedLen shared).2 := .one .tick
    unfold Connection.tick at one
    rw [ended] at one
    exact one
  have inv := wired.inv.step encodedLen .close
  have closed : (conn.response.step encodedLen .close).guard.events.closed = true := rfl
  generalize conn.response.step encodedLen .close = response at closes inv closed
  obtain ⟨n, all⟩ := inv.delivers encodedLen
  obtain ⟨sent, closed', _, keeps⟩ := response.iterate_advance encodedLen n
  have all := all n le_rfl
  have inv := keeps inv
  have polls : Drives encodedLen service { conn with response := response } shared
      { conn with response := (GuardRun.advance encodedLen)^[n] response } shared :=
    .advance { conn with response := response } reading streams n
  generalize (GuardRun.advance encodedLen)^[n] response = response' at polls inv all sent closed'
  rw [← closed', ← sent] at all
  obtain ⟨idle, finished⟩ := inv.finished all (by rw [all, closed', closed]; exact due_closed _)
  have last : Drives encodedLen service { conn with response := response' } shared
      (Connection.transport encodedLen (.poll true) { conn with response := response' }) shared :=
    .one .poll
  have polled : Connection.transport encodedLen (.poll true) { conn with response := response' }
      = { conn with response := response'.turn [] (.returns (.ready none) response'.guard) } := by
    unfold Connection.transport GuardRun.step TrailerGuard.pollNext
    rw [if_pos ⟨reading, streams⟩]
    dsimp only
    rw [idle, if_pos finished]
  rw [polled] at last
  exact ⟨_, (closes.trans polls).trans last, _, List.mem_append_right _ (List.mem_singleton_self _), rfl⟩

/-- A call comes to its end by some signals, while the others stay as they are. -/
structure ComesToEnd (encodedLen : Pb.ParseEbcdicResponse → Nat) (service : EbcdicGrpc)
    (events : List (Event Signal)) (i : Nat) (signals : List Signal) : Prop where
  reader : ∀ signal ∈ signals, signal.OfReader
  ended : ∃ conn,
    (service.connect encodedLen (events ++ signals.map (.act i))).components[i]? = some conn ∧
    (∃ res, conn.call.phase = .ended res) ∧
    ∃ poll ∈ conn.response.calls, poll.result = .ready none
  others : ∀ j, j ≠ i →
    (service.connect encodedLen (events ++ signals.map (.act i))).components[j]?
      = (service.connect encodedLen events).components[j]?

/-- Whatever has happened, a call whose response stream has opened comes to its end when its client ends
its request stream and reads on: no timer has to run out for it, and no other call to do anything. -/
theorem call_can_end (encodedLen : Pb.ParseEbcdicResponse → Nat) (service : EbcdicGrpc)
    (events : List (Event Signal)) (i : Nat) (conn : Connection)
    (at_i : (service.connect encodedLen events).components[i]? = some conn)
    (reading : conn.reading = true) (streams : conn.call.phase.streams = true) :
    ∃ signals, ComesToEnd encodedLen service events i signals := by
  induction left : conn.call.left using Nat.strong_induction_on generalizing events conn with
  | _ left ih =>
    have mem := List.mem_of_getElem? at_i
    have wired := connect_wired encodedLen service events conn mem
    obtain ⟨events', call_mem⟩ := connect_call encodedLen service events mem
    have within := (List.getElem?_eq_some_iff.mp at_i).1
    -- What drives a connection leaves the others as they are.
    have goes {conn' : Connection} {shared' : Shared} {signals : List Signal}
        (ran : (service.connections encodedLen).alone conn
          (service.connect encodedLen events).shared signals = (conn', shared')) :
        (service.connect encodedLen (events ++ signals.map (.act i))).components
          = (service.connect encodedLen events).components.set i conn' := by
      have after := (service.connections encodedLen).after_alone at_i signals
      rw [EbcdicGrpc.connect, after]
      exact congrArg (fun ran : Connection × Shared => List.set _ i ran.1) ran
    by_cases ended : ∃ res, conn.call.phase = .ended res
    · obtain ⟨res, ended⟩ := ended
      obtain ⟨response, ⟨signals, reader, ran⟩, poll⟩ :=
        Drives.closing service (service.connect encodedLen events).shared wired reading ended
      refine ⟨signals, reader, ⟨{ conn with response := response }, ?_, ⟨res, ended⟩, poll⟩,
        fun j other => ?_⟩
      · rw [goes ran]
        exact List.getElem?_set_self within
      · rw [goes ran]
        exact List.getElem?_set_ne other.symm
    · obtain ⟨conn', shared', ⟨signals, reader, ran⟩, reading', streams', nearer⟩ :=
        Drives.nearer wired reading streams (serve_finals service events' conn.call call_mem)
          (serve_within service events' conn.call call_mem) (fun res phase => ended ⟨res, phase⟩)
          (service.connect encodedLen events).shared
      have at_i' : (service.connect encodedLen (events ++ signals.map (.act i))).components[i]?
          = some conn' := by
        rw [goes ran]
        exact List.getElem?_set_self within
      obtain ⟨signals', reader', ended', others'⟩ :=
        ih _ (left ▸ nearer) _ conn' at_i' reading' streams' rfl
      rw [List.append_assoc, ← List.map_append] at ended' others'
      refine ⟨signals ++ signals', List.forall_mem_append.mpr ⟨reader, reader'⟩, ended',
        fun j other => ?_⟩
      rw [others' j other, goes ran]
      exact List.getElem?_set_ne other.symm

end Progress

section Sample

attribute [local instance] asciiUnicode noJson coreF64

theorem call_can_end_sample :
    ∃ signals, ComesToEnd (fun _ => 2) sampleService sampleEvents 0 signals :=
  call_can_end (fun _ => 2) sampleService sampleEvents 0 _ rfl rfl rfl

end Sample

end GrpcEbcdic

import GrpcEbcdic.Service.Connection

/-!
# What a client gets, and how far a parse runs ahead of it

The channel holds a few events and a batch a few more, so a parse is never far ahead of its client; and
what the client gets is what the sequential parse says, to its trailer or its error.
-/

namespace GrpcEbcdic
open Rust Interleaved

section Finals

variable [F64]

/-- Nothing has been said for the last time. -/
def NoFinal (sent : List Item) : Prop := ∀ item ∈ sent, ¬ IsFinal item

/-- What is said for the last time is the last. -/
def FinalLast (sent : List Item) : Prop :=
  ∀ front item back, sent = front ++ item :: back → IsFinal item → back = []

lemma NoFinal.last {sent : List Item} (none : NoFinal sent) : FinalLast sent := by
  rintro front item back rfl final
  exact absurd final (none item (List.mem_append_right _ List.mem_cons_self))

lemma NoFinal.concat {sent : List Item} (none : NoFinal sent) {item : Item} (open_ : ¬ IsFinal item) :
    NoFinal (sent ++ [item]) := List.forall_mem_append.mpr ⟨none, List.forall_mem_singleton.mpr open_⟩

/-- Behind what is not final comes one item more. -/
lemma NoFinal.concat_last {sent : List Item} (none : NoFinal sent) (item : Item) :
    FinalLast (sent ++ [item]) := by
  intro front item' back eq final
  rcases List.eq_nil_or_concat' back with rfl | ⟨back', last, rfl⟩
  · rfl
  · rw [← List.cons_append, ← List.append_assoc] at eq
    obtain ⟨rfl, _⟩ := List.append_inj' eq rfl
    exact absurd final (none item' (List.mem_append_right _ List.mem_cons_self))

/-- Of what is final only at its end, all is due. -/
lemma FinalLast.length_le {sent : List Item} (last : FinalLast sent) (closed : Bool) :
    sent.length ≤ (due closed sent).length := by
  induction sent with
  | nil => exact Nat.zero_le _
  | cons item sent ih =>
    rw [due]
    split_ifs with final
    · rw [last [] item sent rfl final]
    · apply Nat.succ_le_succ
      apply ih
      rintro front item' back rfl final'
      exact last (item :: front) item' back rfl final'

lemma due_mem {closed : Bool} {sent : List Item} {item : Item} (mem : item ∈ due closed sent) :
    item ∈ sent ∨ item = noTrailer := by
  induction sent with
  | nil =>
    rw [due] at mem
    split_ifs at mem
    · exact .inr (List.mem_singleton.mp mem)
    · cases mem
  | cons first sent ih =>
    rw [due] at mem
    split_ifs at mem
    · exact .inl (List.mem_singleton.mp mem ▸ List.mem_cons_self)
    · rcases List.mem_cons.mp mem with rfl | mem
      · exact .inl List.mem_cons_self
      · exact (ih mem).imp_left (List.mem_cons_of_mem first)

/-- What is due while the channel is open is due whatever else is sent. -/
lemma due_front (closed : Bool) (sent more : List Item) : due false sent <+: due closed (sent ++ more) := by
  induction sent with
  | nil => exact List.nil_prefix
  | cons item sent ih =>
    rw [List.cons_append, due, due]
    split_ifs
    · exact List.prefix_rfl
    · exact (List.prefix_cons_inj item).mpr ih

lemma isFinal_ok {event : Pb.Event} : IsFinal (toItem (.ok event)) ↔ ∃ status, event = .status status := by
  show (∃ status, some event = some (Pb.Event.status status)) ↔ _
  simp only [Option.some_inj]

/-- What a task has sent of what is final: nothing before the trailer, which it then ends with. -/
def Task.Finals (sent : List Item) : Task → Prop
  | .sending _ event next => NoFinal sent ∧ ((∃ status, event = .status status) → next = .done)
  | .receiving _ _ => NoFinal sent
  | .decided (.ok ()) => FinalLast sent
  | .decided (.error _) => NoFinal sent

/-- What a call has sent of what is final. -/
def Phase.Finals (sent : List Item) : Phase → Prop
  | .parsing _ task => task.Finals sent
  | .released res => Task.Finals sent (.decided res)
  | .ended _ => FinalLast sent
  | _ => NoFinal sent

lemma Phase.Finals.last {phase : Phase} {sent : List Item} (finals : phase.Finals sent) :
    FinalLast sent := by
  have decided (res : Except ParseError Unit) (finals : Task.Finals sent (.decided res)) :
      FinalLast sent := by
    cases res with
    | error e => exact NoFinal.last finals
    | ok done => exact finals
  cases phase with
  | parsing limits task =>
    cases task with
    | sending fold event next => exact NoFinal.last finals.1
    | receiving fold walk => exact NoFinal.last finals
    | decided res => exact decided res finals
  | released res => exact decided res finals
  | ended res => exact finals
  | _ => exact NoFinal.last finals

namespace Task

variable {sent : List Item} [Unicode]

lemma finish_finals (none : NoFinal sent) (fold : Option DocumentFold) (status : Pb.ParseStatus) :
    (finish fold status).Finals sent := by
  cases fold with
  | none => exact ⟨none, fun _ => rfl⟩
  | some fold => exact ⟨none, nofun⟩

lemma drain_finals (none : NoFinal sent) (last : Bool) (walk : RecordStream) (fold : Option DocumentFold)
    (metrics : Metrics) : (drain last walk fold metrics).1.Finals sent := by
  unfold drain
  rcases walk.nextRecord with ⟨e | _ | row, walk'⟩
  · exact none
  · dsimp only
    split_ifs
    · rcases walk'.status with e | status
      · exact none
      · exact finish_finals none fold status
    · exact none
  · exact ⟨none, nofun⟩

lemma receive_finals (none : NoFinal sent) (limits : Limits) (walk : RecordStream)
    (fold : Option DocumentFold) (item : Option Inbound) (metrics : Metrics) :
    (receive limits walk fold item metrics).1.Finals sent := by
  cases item with
  | none => exact drain_finals none true walk.finishInput fold metrics
  | some item =>
    unfold receive
    dsimp only
    rcases nextFrame limits.idleTimeout item with (⟨_, text⟩ | e) | ⟨_ | (options | chunk)⟩
    · exact none
    · exact none
    · exact none
    · exact none
    · dsimp only
      split_ifs
      · exact none
      · exact drain_finals none false _ fold _

lemma taken_finals {event : Pb.Event} {next : Next} (none : NoFinal sent)
    (closes : (∃ status, event = .status status) → next = .done) (fold : Option DocumentFold)
    (metrics : Metrics) : (taken fold next metrics).1.Finals (sent ++ [toItem (.ok event)]) := by
  have opened (goes_on : next ≠ .done) : NoFinal (sent ++ [toItem (.ok event)]) :=
    none.concat fun final => goes_on (closes (isFinal_ok.mp final))
  cases next with
  | receive walk => exact opened nofun
  | drain last walk => exact drain_finals (opened nofun) last walk fold metrics
  | trailer status => exact ⟨opened nofun, fun _ => rfl⟩
  | done => exact none.concat_last _

end Task

variable [Unicode] [SerdeJson]

/-- Every act keeps what a call has sent of what is final. -/
lemma act_finals (service : EbcdicGrpc) (happening : Happening) (call : ParseCall) (shared : Shared)
    (finals : call.phase.Finals (call.items.map toItem)) :
    (service.server.act happening call shared).1.phase.Finals
      ((service.server.act happening call shared).1.items.map toItem) := by
  have moves := act_moves service happening call shared
  generalize service.server.act happening call shared = after at moves
  cases moves with
  | stay => exact finals
  | refuse phase _ => rw [phase] at finals; exact finals
  | start phase _ => rw [phase] at finals; exact ⟨finals, nofun⟩
  | hear item phase =>
    rw [phase] at finals
    exact Task.receive_finals finals _ _ _ item shared.metrics
  | @sent limits fold event next outcome phase =>
    rw [phase] at finals
    obtain ⟨none, closes⟩ := finals
    cases outcome with
    | taken =>
      show Task.Finals ((call.items ++ [Except.ok event]).map toItem) _
      rw [List.map_append]
      exact Task.taken_finals none closes fold shared.metrics
    | closed => exact none
    | stalled => exact none
  | @told e outcome phase =>
    rw [phase] at finals
    cases outcome with
    | taken =>
      show FinalLast ((call.items ++ [_]).map toItem)
      rw [List.map_append]
      exact NoFinal.concat_last finals _
    | closed => exact NoFinal.last finals
    | stalled => exact NoFinal.last finals
  | release phase => rw [phase] at finals; exact finals
  | complete phase => rw [phase] at finals; exact finals
  | fail phase => rw [phase] at finals; exact finals
  | charge phase => rw [phase] at finals; exact finals
  | cancel phase => rw [phase] at finals; exact finals

lemma serve_finals (service : EbcdicGrpc) (events : List (Event Happening)) :
    ∀ call ∈ (service.serve events).components, call.phase.Finals (call.items.map toItem) := by
  have enter (shared : Shared) : (ParseCall.arrive service shared).1.phase.Finals
      ((ParseCall.arrive service shared).1.items.map toItem) := by
    have none : NoFinal [] := fun _ mem => absurd mem List.not_mem_nil
    unfold ParseCall.arrive
    dsimp only
    split_ifs
    · exact none
    · exact none
  exact System.after_component
    (P := fun call : ParseCall => call.phase.Finals (call.items.map toItem)) (Q := fun _ => True)
    (fun _ => trivial) (fun shared _ => enter shared)
    (fun happening call shared _ before => act_finals service happening call shared before) events

end Finals

section Light

variable [F64] {encodedLen : Pb.ParseEbcdicResponse → Nat}

/-- A batch that was light before its last event, and has nothing final before it. -/
structure TrailerGuard.Light (encodedLen : Pb.ParseEbcdicResponse → Nat) (guard : TrailerGuard) :
    Prop where
  weighs : (guard.batch.map (itemBytes encodedLen)).sum ≤ guard.batchBytes
  light : (guard.batch.dropLast.map (itemBytes encodedLen)).sum < GrpcEbcdic.batchBytes
  opened : NoFinal guard.batch.dropLast

namespace TrailerGuard

variable {guard : TrailerGuard}

lemma Light.release (light : guard.Light encodedLen) : guard.release.guard.Light encodedLen := by
  unfold TrailerGuard.release
  rcases eq : guard.batch with _ | ⟨item, _ | ⟨next, batch⟩⟩
  · exact light
  · exact ⟨le_rfl, Nat.zero_lt_succ 255, fun _ mem => absurd mem List.not_mem_nil⟩
  · obtain ⟨weighs, light, opened⟩ := light
    rw [eq] at weighs light opened
    exact ⟨(Nat.le_add_left ..).trans weighs, (Nat.le_add_left ..).trans_lt light,
      fun item mem => opened item (List.mem_cons_of_mem _ mem)⟩

lemma Light.gathered (light : guard.Light encodedLen) (elapsed : Bool) :
    (guard.gathered elapsed).guard.Light encodedLen := by
  unfold TrailerGuard.gathered
  split_ifs
  · exact light
  · exact ⟨light.weighs, light.light, light.opened⟩
  · exact Light.release ⟨light.weighs, light.light, light.opened⟩

lemma Light.gather (light : guard.Light encodedLen) (elapsed : Bool) :
    (guard.gather elapsed).guard.Light encodedLen := by
  unfold TrailerGuard.gather
  split_ifs
  · exact light
  · exact light.gathered elapsed

lemma Light.pollNext (light : guard.Light encodedLen) (elapsed : Bool) :
    (guard.pollNext elapsed).guard.Light encodedLen := by
  unfold TrailerGuard.pollNext
  split_ifs
  · exact light
  · exact light.release
  · exact light.gather elapsed

/-- A batch that takes another event was light with all it has. -/
lemma Light.answered (light : guard.Light encodedLen) (gathers : guard.Gathers)
    (opened : NoFinal guard.batch) (elapsed : Bool) (answer : Poll (Option Item)) :
    (guard.answered encodedLen elapsed answer).guard.Light encodedLen := by
  have before : (guard.batch.map (itemBytes encodedLen)).sum < GrpcEbcdic.batchBytes :=
    light.weighs.trans_lt gathers.2
  have another (item : Item) (bytes : Nat) (adds : itemBytes encodedLen item ≤ bytes) (guard' : TrailerGuard)
      (batch : guard'.batch = guard.batch ++ [item])
      (batchBytes : guard'.batchBytes = guard.batchBytes + bytes) : guard'.Light encodedLen := by
    refine ⟨?_, ?_, ?_⟩
    · rw [batch, batchBytes, List.map_append, List.sum_append]
      exact Nat.add_le_add light.weighs adds
    · rw [batch, List.dropLast_concat]
      exact before
    · rw [batch, List.dropLast_concat]
      exact opened
  rcases answer with (_ | item) | _
  · exact (another noTrailer 0 le_rfl guard.pushEnd rfl rfl).gather elapsed
  · exact (another item _ le_rfl (guard.push encodedLen item) rfl rfl).gather elapsed
  · exact light.gathered elapsed

end TrailerGuard

/-- What the transport does. -/
inductive Act.Polls : Act → Prop where
  | poll {elapsed} :
    Polls (.poll elapsed)
  | resume {ready elapsed} :
    Polls (.resume ready elapsed)

/-- A poll of the channel takes from it at most. -/
lemma ReceiverStream.pollNext_takes (events : ReceiverStream) (ready : Bool) :
    (events.pollNext ready).2.closed = events.closed ∧
      (events.pollNext ready).2.queue.length ≤ events.queue.length := by
  obtain ⟨queue, closed⟩ := events
  cases ready with
  | false => exact ⟨rfl, le_rfl⟩
  | true =>
    cases queue with
    | nil => exact ⟨rfl, le_rfl⟩
    | cons item queue => exact ⟨rfl, Nat.le_succ _⟩

namespace GuardRun

lemma turn_guard (run : GuardRun) (answers : List (Poll (Option Item))) (turn : Turn) :
    (run.turn answers turn).guard = turn.guard := by
  cases turn <;> rfl

/-- Every act leaves the batch light. -/
lemma Inv.step_light {run : GuardRun} (inv : run.Inv) (light : run.guard.Light encodedLen) (act : Act) :
    (run.step encodedLen act).guard.Light encodedLen := by
  cases act with
  | send item =>
    unfold GuardRun.step
    split_ifs
    · exact light
    · exact ⟨light.weighs, light.light, light.opened⟩
  | close => exact ⟨light.weighs, light.light, light.opened⟩
  | poll elapsed =>
    unfold GuardRun.step
    cases run.call with
    | none =>
      dsimp only
      rw [turn_guard]
      exact light.pollNext elapsed
    | some answers => exact light
  | resume ready elapsed =>
    unfold GuardRun.step
    cases call : run.call with
    | none => exact light
    | some answers =>
      have gathers := (inv.polling answers call).gathers
      have opened : NoFinal run.guard.batch := fun item mem =>
        (inv.holds.gathering gathers.1).1 item (List.mem_append_right _ mem)
      have light' : TrailerGuard.Light encodedLen
          { run.guard with events := (run.guard.events.pollNext ready).2 } :=
        ⟨light.weighs, light.light, light.opened⟩
      dsimp only
      rw [turn_guard]
      exact light'.answered gathers opened elapsed _

/-- A poll of the guard sends nothing and closes nothing, and takes from the channel at most. -/
lemma step_poll (encodedLen : Pb.ParseEbcdicResponse → Nat) (run : GuardRun) {act : Act}
    (polls : act.Polls) :
    (run.step encodedLen act).sent = run.sent ∧
      (run.step encodedLen act).guard.events.closed = run.guard.events.closed ∧
      (run.step encodedLen act).guard.events.queue.length ≤ run.guard.events.queue.length := by
  cases polls with
  | @poll elapsed =>
    unfold GuardRun.step
    cases run.call with
    | none =>
      dsimp only
      rw [turn_guard, TrailerGuard.pollNext_events]
      exact ⟨(run.turn_closed _ (congrArg _ (run.guard.pollNext_events elapsed))).1, rfl, le_rfl⟩
    | some answers => exact ⟨rfl, rfl, le_rfl⟩
  | @resume ready elapsed =>
    unfold GuardRun.step
    cases run.call with
    | none => exact ⟨rfl, rfl, le_rfl⟩
    | some answers =>
      dsimp only
      rw [turn_guard, TrailerGuard.answered_events]
      refine ⟨?_, run.guard.events.pollNext_takes ready⟩
      generalize TrailerGuard.answered .. = turn
      cases turn <;> rfl

end GuardRun

end Light

section Wired

variable [F64]

/-- What holds of a call with its response stream. -/
structure Connection.Wired (encodedLen : Pb.ParseEbcdicResponse → Nat) (conn : Connection) : Prop where
  /-- The channel has carried what it took, and nothing else. -/
  sent : conn.response.sent = conn.call.items.map toItem
  inv : conn.response.Inv
  light : conn.response.guard.Light encodedLen
  room : conn.response.guard.events.queue.length ≤ eventChannelCapacity
  /-- The sender is gone only when the call has ended. -/
  closed : conn.response.guard.events.closed = true → ∃ res, conn.call.phase = .ended res

variable {encodedLen : Pb.ParseEbcdicResponse → Nat}

/-- A call whose send is taken has sent what it waited to send. -/
lemma ParseCall.sent_items [Unicode] {call : ParseCall} {item : Except Status Pb.Event}
    (waits : call.phase.waiting = some item) (outcome : SendOutcome) (shared : Shared) :
    (ParseCall.sent outcome call shared).1.items
      = if outcome = .taken then call.items ++ [item] else call.items := by
  obtain ⟨past, phase, found⟩ := call
  cases phase with
  | parsing limits task =>
    cases task with
    | sending fold event next =>
      cases waits
      rfl
    | receiving fold walk => cases waits
    | decided res => cases waits
  | failing e =>
    cases waits
    rfl
  | _ => cases waits

namespace Connection

variable {conn : Connection}

/-- A call that waits to send has its sender. -/
lemma Wired.open_of_waiting (wired : conn.Wired encodedLen) {item : Except Status Pb.Event}
    (waits : conn.call.phase.waiting = some item) : conn.response.guard.events.closed = false := by
  rcases closed : conn.response.guard.events.closed with _ | _
  · rfl
  · obtain ⟨res, phase⟩ := wired.closed closed
    rw [phase] at waits
    cases waits

/-- A call that goes on without its response stream. -/
lemma Wired.congr (wired : conn.Wired encodedLen) {call : ParseCall} (reading : Bool)
    (items : call.items = conn.call.items)
    (ended : ∀ res, conn.call.phase = .ended res → call.phase = .ended res) :
    Wired encodedLen ⟨call, conn.response, reading⟩ where
  sent := wired.sent.trans (congrArg _ items.symm)
  inv := wired.inv
  light := wired.light
  room := wired.room
  closed closed := (wired.closed closed).imp ended

/-- A response stream that is polled without its call. -/
lemma Wired.polled (wired : conn.Wired encodedLen) {act : Act} (polls : act.Polls) :
    (conn.transport encodedLen act).Wired encodedLen := by
  obtain ⟨sent, closed, queue⟩ := conn.response.step_poll encodedLen polls
  unfold transport
  split_ifs
  · exact ⟨sent.trans wired.sent, wired.inv.step encodedLen act, wired.inv.step_light wired.light act,
      queue.trans wired.room, fun gone => wired.closed (closed ▸ gone)⟩
  · exact wired

variable [Unicode]

/-- A send that is answered is offered to the channel. -/
lemma Wired.send (wired : conn.Wired encodedLen) (elapsed : Bool) (shared : Shared) :
    (conn.send encodedLen elapsed shared).1.Wired encodedLen := by
  rcases conn.send_call encodedLen elapsed shared with same | ⟨item, outcome, waits, comes, sent⟩
  · rw [same]
    exact wired
  · have opened := wired.open_of_waiting waits
    have items := ParseCall.sent_items waits outcome shared
    rw [sent]
    cases outcome with
    | taken =>
      have room : conn.response.guard.events.queue.length < eventChannelCapacity := by
        unfold Connection.outcome at comes
        split_ifs at comes
        · cases comes
        · assumption
        · cases comes
      have stepped : conn.response.step encodedLen (.send (toItem item))
          = { conn.response.withEvents ⟨conn.response.guard.events.queue ++ [toItem item], false⟩ with
              sent := conn.response.sent ++ [toItem item] } := by
        rw [GuardRun.step, if_neg (Bool.eq_false_iff.mp opened)]
      have offered : conn.offer encodedLen .taken item
          = conn.response.step encodedLen (.send (toItem item)) := if_pos rfl
      rw [offered]
      refine ⟨?_, wired.inv.step encodedLen (.send (toItem item)),
        wired.inv.step_light wired.light (.send (toItem item)), ?_, ?_⟩
      · show (conn.response.step encodedLen (.send (toItem item))).sent = _
        rw [stepped, items, if_pos rfl, List.map_append, ← wired.sent]
        rfl
      · show (conn.response.step encodedLen (.send (toItem item))).guard.events.queue.length ≤ _
        rw [stepped]
        show (conn.response.guard.events.queue ++ [toItem item]).length ≤ _
        rw [List.length_append]
        exact room
      · intro closed
        change (conn.response.step encodedLen (.send (toItem item))).guard.events.closed = true at closed
        rw [stepped] at closed
        cases closed
    | closed =>
      apply wired.congr
      · exact items
      · intro res phase
        rw [phase] at waits
        cases waits
    | stalled =>
      apply wired.congr
      · exact items
      · intro res phase
        rw [phase] at waits
        cases waits

variable [SerdeJson]

/-- What a call hears sends nothing. -/
lemma Wired.hear (wired : conn.Wired encodedLen) (service : EbcdicGrpc) (item : Option Inbound)
    (shared : Shared) : (conn.hear service item shared).1.Wired encodedLen := by
  have items : (conn.call.hear service item shared).1.items = conn.call.items := by
    unfold ParseCall.hear
    split
    · split <;> rfl
    · rfl
    · rfl
  refine wired.congr conn.reading items fun res phase => ?_
  show (conn.call.hear service item shared).1.phase = _
  unfold ParseCall.hear
  rw [phase]
  exact phase

omit [Unicode] [SerdeJson] in
/-- What a task does by itself sends nothing; at its end the channel closes. -/
lemma Wired.tick (wired : conn.Wired encodedLen) (shared : Shared) :
    (conn.tick encodedLen shared).1.Wired encodedLen := by
  rcases conn.tick_call encodedLen shared with ⟨res, phase, closed⟩ | ticked
  · rw [closed]
    exact ⟨wired.sent, wired.inv.step encodedLen .close, wired.inv.step_light wired.light .close,
      wired.room, fun _ => ⟨res, phase⟩⟩
  · have items : (conn.call.tick shared).1.items = conn.call.items := by
      unfold ParseCall.tick
      split <;> rfl
    rw [ticked]
    refine wired.congr conn.reading items fun res phase => ?_
    unfold ParseCall.tick
    rw [phase]
    exact phase

omit [Unicode] [SerdeJson] in
lemma Wired.hangUp (wired : conn.Wired encodedLen) (shared : Shared) :
    (conn.hangUp shared).1.Wired encodedLen := by
  have items : (conn.call.cancel shared).1.items = conn.call.items := by
    unfold ParseCall.cancel
    split <;> rfl
  refine wired.congr false items fun res phase => ?_
  show (conn.call.cancel shared).1.phase = _
  unfold ParseCall.cancel
  rw [phase]
  exact phase

end Connection

variable [Unicode] [SerdeJson]

/-- Over any interleaving every call is wired to its response stream. -/
lemma connect_wired (encodedLen : Pb.ParseEbcdicResponse → Nat) (service : EbcdicGrpc)
    (events : List (Event Signal)) :
    ∀ conn ∈ (service.connect encodedLen events).components, conn.Wired encodedLen := by
  have enter (shared : Shared) : (Connection.arrive service shared).1.Wired encodedLen := by
    refine ⟨?_, GuardRun.inv_start, ⟨le_rfl, Nat.zero_lt_succ 255, ?_⟩, Nat.zero_le _, nofun⟩
    · unfold Connection.arrive ParseCall.arrive
      dsimp only
      split_ifs
      · rfl
      · rfl
    · exact fun _ mem => absurd mem List.not_mem_nil
  refine System.after_component (P := fun conn : Connection => conn.Wired encodedLen)
    (Q := fun _ => True) (fun _ => trivial) (fun shared _ => enter shared) ?_ events
  intro signal conn shared _ wired
  cases signal with
  | hear item => exact wired.hear service item shared
  | send elapsed => exact wired.send elapsed shared
  | tick => exact wired.tick shared
  | hangUp => exact wired.hangUp shared
  | poll elapsed => exact wired.polled .poll
  | resume ready elapsed => exact wired.polled .resume

/-- A call with its response stream is a call of the server in some run. -/
lemma connect_call (encodedLen : Pb.ParseEbcdicResponse → Nat) (service : EbcdicGrpc)
    (events : List (Event Signal)) {conn : Connection}
    (mem : conn ∈ (service.connect encodedLen events).components) :
    ∃ events', conn.call ∈ (service.serve events').components := by
  obtain ⟨events', ran⟩ := connect_serve encodedLen service events
  refine ⟨events', ?_⟩
  rw [ran]
  exact List.mem_map_of_mem mem

/-- What the parse that runs alone says, for a call whose response stream has opened. -/
lemma ParseCall.AsAlone.whole {service : EbcdicGrpc} {call : ParseCall} {client : Nat → SendOutcome}
    (alone : call.AsAlone service client) (streams : call.phase.streams = true) :
    ∃ whole, service.parseEbcdic call.found client call.heard = .ok whole ∧ call.items <+: whole ∧
      ∀ res, call.phase = .ended res → whole = call.items := by
  have running (left : ∃ left, service.parseEbcdic call.found client call.heard = .ok (call.items ++ left))
      (goes_on : ∀ res, call.phase ≠ .ended res) :
      ∃ whole, service.parseEbcdic call.found client call.heard = .ok whole ∧ call.items <+: whole ∧
        ∀ res, call.phase = .ended res → whole = call.items := by
    obtain ⟨left, eq⟩ := left
    exact ⟨_, eq, List.prefix_append .., fun res phase => absurd phase (goes_on res)⟩
  unfold ParseCall.AsAlone at alone
  cases phase : call.phase with
  | opening => rw [phase] at streams; cases streams
  | cancelled => rw [phase] at streams; cases streams
  | rejected status => rw [phase] at streams; cases streams
  | refused status => rw [phase] at streams; cases streams
  | parsing limits task =>
    rw [phase] at alone
    exact phase ▸ running alone (by rw [phase]; nofun)
  | released res =>
    rw [phase] at alone
    exact phase ▸ running alone (by rw [phase]; nofun)
  | failed e =>
    rw [phase] at alone
    exact phase ▸ running alone (by rw [phase]; nofun)
  | failing e =>
    rw [phase] at alone
    exact phase ▸ running alone (by rw [phase]; nofun)
  | ended res =>
    rw [phase] at alone
    exact ⟨call.items, alone, List.prefix_rfl, fun _ _ => rfl⟩

namespace Connection

/-- What a client gets of a call, and how far the call runs ahead of it. -/
structure Served (service : EbcdicGrpc) (conn : Connection) : Prop where
  /-- It gets what the sequential parse says, in order, and all of it when its stream has ended: up to the
  trailer or the error, or to the error that stands for these. -/
  gets : conn.call.phase.streams = true → ∀ client, AnswersAs client conn.call.outcomes →
    ∃ whole, service.parseEbcdic conn.call.found client conn.call.heard = .ok whole ∧
      conn.call.items <+: whole ∧ conn.response.handed <+: due true (whole.map toItem) ∧
      ((∃ poll ∈ conn.response.calls, poll.result = .ready none) →
        conn.response.handed = due true (whole.map toItem))
  /-- What was sent and the client has not got is in the channel and in one batch. -/
  lead : conn.call.items.length
    ≤ conn.response.handed.length + conn.response.guard.batch.length + eventChannelCapacity
  batch : conn.response.guard.batch.length ≤ 128

variable {encodedLen : Pb.ParseEbcdicResponse → Nat} {conn : Connection}

/-- A client gets what the parse that runs alone says, in order. -/
lemma Wired.whole (wired : conn.Wired encodedLen) {service : EbcdicGrpc} {client : Nat → SendOutcome}
    (alone : conn.call.AsAlone service client) (streams : conn.call.phase.streams = true) :
    ∃ whole, service.parseEbcdic conn.call.found client conn.call.heard = .ok whole ∧
      conn.call.items <+: whole ∧ conn.response.handed <+: due true (whole.map toItem) := by
  obtain ⟨whole, said, front, ended⟩ := alone.whole streams
  refine ⟨whole, said, front, ?_⟩
  have handed := wired.inv.holds.handed_prefix
  rw [wired.sent] at handed
  rcases closed : conn.response.guard.events.closed with _ | _
  · obtain ⟨left, rfl⟩ := front
    rw [closed] at handed
    rw [List.map_append]
    exact handed.trans (due_front ..)
  · obtain ⟨res, phase⟩ := wired.closed closed
    rw [closed] at handed
    rw [ended res phase]
    exact handed

omit [Unicode] [SerdeJson] in
/-- What was sent and is not handed over is in the batch or in the channel. -/
lemma Wired.lead (wired : conn.Wired encodedLen) (last : FinalLast (conn.call.items.map toItem)) :
    conn.call.items.length
      ≤ conn.response.handed.length + conn.response.guard.batch.length + eventChannelCapacity := by
  have sent : conn.response.sent.length = conn.call.items.length := by
    rw [wired.sent, List.length_map]
  rw [← sent]
  rcases final : conn.response.guard.batchFinal with _ | _
  · obtain ⟨_, all⟩ := wired.inv.holds.gathering final
    rw [← all, List.length_append, List.length_append]
    exact Nat.add_le_add_left wired.room _
  · obtain ⟨all, _⟩ := wired.inv.holds.final final
    rw [← wired.sent] at last
    apply (last.length_le conn.response.guard.events.closed).trans
    rw [← all, List.length_append]
    exact Nat.le_add_right ..

omit [Unicode] [SerdeJson] in
/-- A batch that is light before its last event has few of them. -/
lemma Wired.batch (wired : conn.Wired encodedLen) (encodes : ∀ event, 2 ≤ encodedLen ⟨some event⟩) :
    conn.response.guard.batch.length ≤ 128 := by
  have due_batch : ∀ item ∈ conn.response.guard.batch,
      item ∈ conn.response.sent ∨ item = noTrailer := by
    intro item mem
    rcases final : conn.response.guard.batchFinal with _ | _
    · obtain ⟨_, all⟩ := wired.inv.holds.gathering final
      rw [← all]
      exact .inl (List.mem_append_left _ (List.mem_append_right _ mem))
    · obtain ⟨all, _⟩ := wired.inv.holds.final final
      exact due_mem (all ▸ List.mem_append_right _ mem)
  obtain ⟨_, light, opened⟩ := wired.light
  have heavy : ∀ item ∈ conn.response.guard.batch.dropLast, 2 ≤ TrailerGuard.itemBytes encodedLen item := by
    intro item mem
    rcases due_batch item (List.mem_of_mem_dropLast mem) with sent | rfl
    · rw [wired.sent] at sent
      obtain ⟨e | event, _, rfl⟩ := List.mem_map.mp sent
      · exact absurd trivial (opened _ mem)
      · exact encodes event
    · exact absurd trivial (opened _ mem)
  have count : 2 * conn.response.guard.batch.dropLast.length
      ≤ (conn.response.guard.batch.dropLast.map (TrailerGuard.itemBytes encodedLen)).sum := by
    rw [Nat.mul_comm, ← List.length_map (TrailerGuard.itemBytes encodedLen)]
    exact List.card_nsmul_le_sum _ 2 (List.forall_mem_map.mpr heavy)
  have length : conn.response.guard.batch.dropLast.length = conn.response.guard.batch.length - 1 :=
    List.length_dropLast
  have bytes : GrpcEbcdic.batchBytes = 256 := rfl
  omega

end Connection

/-- Over any interleaving of calls, each client gets what the sequential parse says, and no parse is more
than a batch and a full channel ahead of its client. -/
theorem connections_serve (encodedLen : Pb.ParseEbcdicResponse → Nat)
    (encodes : ∀ event, 2 ≤ encodedLen ⟨some event⟩) (service : EbcdicGrpc)
    (events : List (Event Signal)) :
    ∀ conn ∈ (service.connect encodedLen events).components, conn.Served service := by
  intro conn mem
  have wired := connect_wired encodedLen service events conn mem
  obtain ⟨events', call_mem⟩ := connect_call encodedLen service events mem
  have last := (serve_finals service events' conn.call call_mem).last
  refine ⟨fun streams client answers => ?_, wired.lead last, wired.batch encodes⟩
  obtain ⟨admitted, keeps, _⟩ := serve_keeps service events' conn.call call_mem
  obtain ⟨whole, said, front, order⟩ := wired.whole (keeps.alone admitted answers) streams
  refine ⟨whole, said, front, order, fun ⟨poll, polled, gone⟩ => ?_⟩
  obtain ⟨before, after, split⟩ := List.append_of_mem polled
  obtain ⟨item, handed, final⟩ := wired.inv.ended before poll after split gone
  have mem : item ∈ conn.response.handed := by
    rw [GuardRun.handed, split, handedBy, List.filterMap_append]
    exact List.mem_append_left _ handed
  obtain ⟨front, back, eq⟩ := List.append_of_mem mem
  obtain ⟨more, all⟩ := order
  rw [eq, List.append_assoc, List.cons_append] at all
  have last := due_last all.symm final
  obtain ⟨rfl, rfl⟩ := List.append_eq_nil_iff.mp last
  exact eq.trans all

end Wired

section Sample

attribute [local instance] asciiUnicode noJson coreF64

/-- A call that has sent its layout. -/
theorem connections_serve_sample :
    ∃ conn, (sampleService.connect (fun _ => 2) (sampleEvents ++ [.act 0 (.send false)])).components[0]?
        = some conn ∧ conn.call.items.length = 1 ∧ conn.Served sampleService := by
  refine ⟨_, rfl, rfl, ?_⟩
  apply connections_serve (fun _ => 2) (fun _ => le_rfl) sampleService
    (sampleEvents ++ [.act 0 (.send false)])
  exact List.mem_of_getElem? (i := 0) rfl

end Sample

end GrpcEbcdic

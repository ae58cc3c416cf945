import GrpcEbcdic.Service.Language
import GrpcEbcdic.Service.Slots
import GrpcEbcdic.Stream.Backlog

/-!
# How often a call waits

A row costs at least one of the bytes that were let in, so a call offers no more events than it has
received bytes, and a few more. Over any interleaving a call has therefore waited no more often than it
has heard items of its request stream and been let in bytes, and a few times more.
-/

namespace GrpcEbcdic
open Rust Interleaved

namespace RecordStream

lemma push_layout (walk : RecordStream) (chunk : List UInt8) :
    (walk.push chunk).layout = walk.layout := by
  unfold push
  dsimp only
  split_ifs <;> rfl

/-- A chunk makes no more available than it holds. -/
lemma available_push (walk : RecordStream) (chunk : List UInt8) :
    (walk.push chunk).available ≤ walk.available + chunk.length := by
  unfold push available pending decodableEnd
  dsimp only
  split_ifs
  · simp
  · simp only [List.length_append, List.length_drop, List.drop_zero]
    omega

variable [Unicode]

/-- Looking for a record makes nothing available. -/
lemma nextRecord_none_available {walk walk' : RecordStream}
    (none : walk.nextRecord = (.ok none, walk')) : walk'.available ≤ walk.available := by
  have body {t : RecordStream} (e : t.nextBody = (.ok .none, walk')) : walk' = t := by
    rcases t.nextBody_cases with ⟨same, _⟩ | ⟨_, _, _, _, _, _, emits⟩
    · rw [e] at same
      exact same
    · rw [e] at emits
      cases emits
  have skipped := available_skipHeader walk
  cases cut : walk.truncated with
  | true =>
    rw [nextRecord_cut cut] at none
    cases none
    exact le_rfl
  | false =>
    by_cases left : 0 < walk.headerLeft
    · rw [nextRecord_header cut left] at none
      split_ifs at none
      · cases none
        omega
      · obtain rfl := body none
        omega
    · rw [nextRecord_body cut (Nat.eq_zero_of_not_pos left)] at none
      obtain rfl := body none
      exact le_rfl

end RecordStream

lemma totalBytes_append (chunks chunks' : List (List UInt8)) :
    totalBytes (chunks ++ chunks') = totalBytes chunks + totalBytes chunks' := by
  rw [totalBytes, List.map_append, List.sum_append]
  rfl

section Calls

variable [F64]

/-- The rows a call has offered. -/
def History.rows (past : History) : Nat := (rowsIn past.offered).length

/-- The history of a call whose task offers another event, or none. -/
def History.offer (past : History) (task : Task) : History :=
  { past with offered := past.offered ++ task.offering.toList }

/-- The history of a call that has heard an item, or the end, and let in some chunks. -/
def History.hear (past : History) (item : Option Inbound) (chunks : List (List UInt8)) : History :=
  { past with heard := past.heard ++ item.toList, letIn := past.letIn ++ chunks }

/-- A call at a walk: what it has offered are the layout and the rows, which with those to come are no
more than the bytes that were let in. -/
structure AtWalk (past : History) (walk : RecordStream) : Prop where
  valid : walk.layout.Valid
  received : walk.received = totalBytes past.letIn
  rows : past.rows + walk.available ≤ totalBytes past.letIn
  offered : past.offered.length = past.rows + 1

/-- A call that has offered a row for a byte at most, up to three other events, and has been answered
some sends more than these. -/
structure Accounted (past : History) (more : Nat) : Prop where
  rows : past.rows ≤ totalBytes past.letIn
  offered : past.offered.length ≤ past.rows + 3
  outcomes : past.outcomes.length ≤ past.offered.length + more

/-- What holds of a call whose event waits for room. -/
def Next.Within (past : History) : Next → Prop
  | .receive walk => AtWalk past walk
  | .drain _ walk => AtWalk past walk
  | .trailer _ => past.rows ≤ totalBytes past.letIn ∧ past.offered.length ≤ past.rows + 2
  | .done => past.rows ≤ totalBytes past.letIn ∧ past.offered.length ≤ past.rows + 3

/-- What holds of a call with its task. -/
def Task.Within (past : History) : Task → Prop
  | .sending _ _ next => past.outcomes.length + 1 = past.offered.length ∧ next.Within past
  | .receiving _ walk => past.outcomes.length = past.offered.length ∧ AtWalk past walk
  | .decided _ => Accounted past 0

/-- What holds of a call in each phase. -/
def Phase.Within (service : EbcdicGrpc) (past : History) : Phase → Prop
  | .parsing limits task =>
    limits.byteCap ≤ service.maxDocumentBytes ∧ totalBytes past.letIn ≤ limits.byteCap ∧
      task.Within past
  | .released _ => totalBytes past.letIn ≤ service.maxDocumentBytes ∧ Accounted past 0
  | .failed _ => totalBytes past.letIn ≤ service.maxDocumentBytes ∧ Accounted past 0
  | .failing _ => totalBytes past.letIn ≤ service.maxDocumentBytes ∧ Accounted past 0
  | .ended _ => totalBytes past.letIn ≤ service.maxDocumentBytes ∧ Accounted past 1
  | _ => past.letIn = [] ∧ past.offered = [] ∧ past.outcomes = []

variable {past : History}

/-- A task that offers nothing leaves the history as it is. -/
lemma History.offer_quiet (past : History) {task : Task} (quiet : task.offering = none) :
    past.offer task = past := by
  rw [offer, quiet, Option.toList_none, List.append_nil]

/-- An event that is no row. -/
lemma History.offer_other (past : History) (task : Task) {event : Pb.Event}
    (offering : task.offering = some event) (other : rowsIn [event] = []) :
    (past.offer task).offered.length = past.offered.length + 1 ∧
      (past.offer task).rows = past.rows := by
  rw [rows, offer, offering]
  show (past.offered ++ [event]).length = _ ∧ (rowsIn (past.offered ++ [event])).length = _
  rw [rowsIn, List.filterMap_append, ← rowsIn, ← rowsIn, other, List.append_nil]
  exact ⟨List.length_append .., rfl⟩

/-- A row. -/
lemma History.offer_row (past : History) (task : Task) {row : Pb.RecordRow}
    (offering : task.offering = some (.record row)) :
    (past.offer task).offered.length = past.offered.length + 1 ∧
      (past.offer task).rows = past.rows + 1 := by
  rw [rows, offer, offering]
  show (past.offered ++ [Pb.Event.record row]).length = _ ∧
    (rowsIn (past.offered ++ [Pb.Event.record row])).length = _
  rw [rowsIn, List.filterMap_append]
  exact ⟨List.length_append .., List.length_append ..⟩

lemma AtWalk.accounted {walk : RecordStream} (at_walk : AtWalk past walk)
    (answered : past.outcomes.length = past.offered.length) : Accounted past 0 where
  rows := (Nat.le_add_right ..).trans at_walk.rows
  offered := by
    have offered := at_walk.offered
    omega
  outcomes := answered.le

/-- A call that offers another event stands where the history says. -/
lemma AtWalk.congr {walk walk' : RecordStream} (at_walk : AtWalk past walk)
    (layout : walk'.layout = walk.layout) (received : walk'.received = walk.received)
    (available : walk'.available ≤ walk.available) : AtWalk past walk' where
  valid := layout ▸ at_walk.valid
  received := received.trans at_walk.received
  rows := (Nat.add_le_add_left available _).trans at_walk.rows
  offered := at_walk.offered

/-- A walk that has been pushed what was let in. -/
lemma AtWalk.hear {walk walk' : RecordStream} (at_walk : AtWalk past walk) (item : Option Inbound)
    {chunks : List (List UInt8)} (layout : walk'.layout = walk.layout)
    (received : walk'.received = walk.received + totalBytes chunks)
    (available : walk'.available ≤ walk.available + totalBytes chunks) :
    AtWalk (past.hear item chunks) walk' := by
  have total : totalBytes (past.hear item chunks).letIn
      = totalBytes past.letIn + totalBytes chunks := totalBytes_append ..
  have rows := at_walk.rows
  refine ⟨layout ▸ at_walk.valid, ?_, ?_, at_walk.offered⟩
  · rw [total, received, at_walk.received]
  · rw [total]
    show past.rows + walk'.available ≤ _
    omega

/-- What holds of an event that waits is about what was let in and offered. -/
lemma Next.Within.congr {past past' : History} {next : Next} (within : next.Within past)
    (letIn : past'.letIn = past.letIn) (offered : past'.offered = past.offered) :
    next.Within past' := by
  have rows : past'.rows = past.rows := congrArg (fun events => (rowsIn events).length) offered
  cases next with
  | receive walk =>
    obtain ⟨valid, received, bound, count⟩ := within
    exact ⟨valid, letIn ▸ received, by rwa [rows, letIn], by rwa [rows, offered]⟩
  | drain last walk =>
    obtain ⟨valid, received, bound, count⟩ := within
    exact ⟨valid, letIn ▸ received, by rwa [rows, letIn], by rwa [rows, offered]⟩
  | trailer status => exact ⟨by rw [rows, letIn]; exact within.1, by rw [rows, offered]; exact within.2⟩
  | done => exact ⟨by rw [rows, letIn]; exact within.1, by rw [rows, offered]; exact within.2⟩

variable [Unicode]

namespace Task

/-- Finishing offers one event that is no row. -/
lemma finish_within {walk : RecordStream} (at_walk : AtWalk past walk)
    (answered : past.outcomes.length = past.offered.length) (fold : Option DocumentFold)
    (status : Pb.ParseStatus) :
    (finish fold status).Within (past.offer (finish fold status)) := by
  have rows : past.rows ≤ totalBytes past.letIn := (Nat.le_add_right ..).trans at_walk.rows
  have offered := at_walk.offered
  cases fold with
  | none =>
    obtain ⟨one, same⟩ := past.offer_other (finish none status) rfl rfl
    refine ⟨?_, same.le.trans rows, ?_⟩
    · rw [one, ← answered]
      rfl
    · omega
  | some fold =>
    obtain ⟨one, same⟩ := past.offer_other (finish (some fold) status) rfl rfl
    refine ⟨?_, same.le.trans rows, ?_⟩
    · rw [one, ← answered]
      rfl
    · omega

/-- A drain offers a row it has the bytes for, or goes on from its walk. -/
lemma drain_within {walk : RecordStream} (at_walk : AtWalk past walk)
    (answered : past.outcomes.length = past.offered.length) (last : Bool)
    (fold : Option DocumentFold) (metrics : Metrics) :
    (drain last walk fold metrics).1.Within (past.offer (drain last walk fold metrics).1) := by
  have layout := walk.nextRecord_layout
  unfold drain
  rcases next : walk.nextRecord with ⟨e | _ | row, walk'⟩
  · rw [past.offer_quiet rfl]
    exact at_walk.accounted answered
  · rw [next] at layout
    have at_walk' := at_walk.congr layout (RecordStream.nextRecord_received next)
      (RecordStream.nextRecord_none_available next)
    dsimp only
    split_ifs
    · rcases walk'.status with e | status
      · rw [past.offer_quiet rfl]
        exact at_walk'.accounted answered
      · exact finish_within at_walk' answered fold status
    · rw [past.offer_quiet rfl]
      exact ⟨answered, at_walk'⟩
  · obtain ⟨pos, less⟩ := RecordStream.nextRecord_row at_walk.valid next
    rw [next] at layout
    have received := RecordStream.nextRecord_received next
    obtain ⟨one, rows⟩ := past.offer_row (send fold (.record row) (.drain last walk')) rfl
    have before := at_walk.rows
    have offered := at_walk.offered
    refine ⟨?_, layout ▸ at_walk.valid, received.trans at_walk.received, ?_, ?_⟩
    · rw [one, ← answered]
      rfl
    · show _ ≤ totalBytes past.letIn
      rw [rows]
      omega
    · show (past.offer (send fold (.record row) (.drain last walk'))).offered.length = _ + 1
      rw [one, offered, ← rows]

/-- A send that has been answered lets the task go on, or ends it. -/
lemma sent_within (idleTimeout : Nat) (outcome : SendOutcome) (fold : Option DocumentFold)
    {next : Next} (within : next.Within past)
    (answered : past.outcomes.length = past.offered.length) (metrics : Metrics) :
    (sent idleTimeout outcome fold next metrics).1.Within
      (past.offer (sent idleTimeout outcome fold next metrics).1) := by
  have ended (rows : past.rows ≤ totalBytes past.letIn)
      (offered : past.offered.length ≤ past.rows + 3) : Accounted past 0 :=
    ⟨rows, offered, answered.le⟩
  have accounted : Accounted past 0 := by
    cases next with
    | receive walk => exact within.accounted answered
    | drain last walk => exact within.accounted answered
    | trailer status => exact ended within.1 (within.2.trans (Nat.le_succ _))
    | done => exact ended within.1 within.2
  cases outcome with
  | taken =>
    cases next with
    | receive walk =>
      show Within (past.offer (.receiving fold walk)) (.receiving fold walk)
      rw [past.offer_quiet rfl]
      exact ⟨answered, within⟩
    | drain last walk => exact drain_within within answered last fold metrics
    | trailer status =>
      obtain ⟨rows, offered⟩ := within
      obtain ⟨one, same⟩ := past.offer_other (send fold (.status status) .done) rfl rfl
      refine ⟨?_, same.le.trans rows, ?_⟩
      · show _ = (past.offer (send fold (.status status) .done)).offered.length
        rw [one, ← answered]
        rfl
      · show (past.offer (send fold (.status status) .done)).offered.length
          ≤ (past.offer (send fold (.status status) .done)).rows + 3
        omega
    | done =>
      show Within (past.offer (.decided (.ok ()))) (.decided (.ok ()))
      rw [past.offer_quiet rfl]
      exact accounted
  | closed =>
    show Within (past.offer (.decided _)) (.decided _)
    rw [past.offer_quiet rfl]
    exact accounted
  | stalled =>
    show Within (past.offer (.decided _)) (.decided _)
    rw [past.offer_quiet rfl]
    exact accounted

/-- An item that is heard is let in with its bytes, or ends the parse. -/
lemma receive_within (limits : Limits) {walk : RecordStream} (at_walk : AtWalk past walk)
    (answered : past.outcomes.length = past.offered.length) (fold : Option DocumentFold)
    (item : Option Inbound) (metrics : Metrics) :
    (receive limits walk fold item metrics).1.Within
      ((past.hear item (admitted limits walk.received item.toList).1).offer
        (receive limits walk fold item metrics).1) := by
  have same : AtWalk (past.hear item []) walk := at_walk.hear item rfl rfl le_rfl
  have ended (e : ParseError) :
      Within ((past.hear item []).offer (.decided (.error e))) (.decided (.error e)) := by
    rw [History.offer_quiet _ rfl]
    exact same.accounted answered
  cases item with
  | none =>
    have finished : AtWalk (past.hear none []) walk.finishInput := at_walk.hear none rfl rfl le_rfl
    exact drain_within finished answered true fold metrics
  | some item =>
    unfold receive admitted
    dsimp only [Option.toList_some]
    rcases nextFrame limits.idleTimeout item with (⟨_, text⟩ | e) | ⟨_ | (options | chunk)⟩
    · exact ended _
    · exact ended _
    · show Within ((past.hear (some item) []).offer (.receiving fold walk)) (.receiving fold walk)
      rw [History.offer_quiet _ rfl]
      exact ⟨answered, same⟩
    · exact ended _
    · dsimp only
      split_ifs with exceeds
      · exact ended _
      · have pushed : AtWalk (past.hear (some item) [chunk]) (walk.push chunk) :=
          at_walk.hear _ (walk.push_layout chunk) (walk.push_received chunk) (walk.available_push chunk)
        exact drain_within pushed answered false fold _

end Task

variable [SerdeJson]

/-- What a parse starts from is valid, and its byte cap is no more than the operator's. -/
lemma begin_within {service : EbcdicGrpc} {item : Option Inbound} {opening : Opening}
    (ok : service.begin item = .ok opening) :
    opening.walk.layout.Valid ∧ opening.walk.received = 0 ∧ opening.walk.available = 0 ∧
      opening.limits.byteCap ≤ service.maxDocumentBytes := by
  obtain ⟨options, codec, layout, _, _, resolved, rfl⟩ := begin_ok ok
  refine ⟨resolve_valid resolved, rfl, Nat.min_zero _, ?_⟩
  show service.byteCap options ≤ _
  unfold EbcdicGrpc.byteCap
  split_ifs
  · exact le_rfl
  · exact Nat.min_le_right ..

/-- Every act keeps what holds of a call. -/
lemma act_within (service : EbcdicGrpc) (happening : Happening) (call : ParseCall) (shared : Shared)
    (within : call.phase.Within service call.toHistory) :
    (service.server.act happening call shared).1.phase.Within service
      (service.server.act happening call shared).1.toHistory := by
  have moves := act_moves service happening call shared
  generalize service.server.act happening call shared = after at moves
  cases moves with
  | stay => exact within
  | refuse phase _ =>
    rw [phase] at within
    exact within
  | @start _ opening phase ok =>
    rw [phase] at within
    obtain ⟨letIn, offered, outcomes⟩ := within
    obtain ⟨valid, received, available, cap⟩ := begin_within ok
    refine ⟨cap, ?_, ?_, ?_⟩
    · show totalBytes call.letIn ≤ _
      rw [letIn]
      exact Nat.zero_le _
    · show call.outcomes.length + 1 = (call.offered ++ [_]).length
      rw [outcomes, offered]
      rfl
    · refine ⟨valid, ?_, ?_, ?_⟩
      · show _ = totalBytes call.letIn
        rw [letIn, received]
        rfl
      · show (rowsIn (call.offered ++ [_])).length + _ ≤ _
        rw [offered, available]
        exact Nat.zero_le _
      · show (call.offered ++ [_]).length = (rowsIn (call.offered ++ [_])).length + 1
        rw [offered]
        rfl
  | @hear limits fold walk item phase =>
    rw [phase] at within
    obtain ⟨cap, let_in, answered, at_walk⟩ := within
    refine ⟨cap, ?_, Task.receive_within limits at_walk answered fold item shared.metrics⟩
    have more := admitted_within limits item.toList (at_walk.received.trans_le let_in)
    rw [at_walk.received, ← totalBytes_append] at more
    exact at_walk.received ▸ more
  | @sent limits fold event next outcome phase =>
    rw [phase] at within
    obtain ⟨cap, let_in, offered, ready⟩ := within
    have answered : (call.outcomes ++ [outcome]).length = call.offered.length := by
      rw [List.length_append]
      exact offered
    have ready' : next.Within (call.answer outcome (.ok event)).toHistory := ready.congr rfl rfl
    exact ⟨cap, let_in,
      Task.sent_within limits.idleTimeout outcome fold ready' answered shared.metrics⟩
  | @told e outcome phase =>
    rw [phase] at within
    obtain ⟨cap, rows, offered, outcomes⟩ := within
    refine ⟨cap, rows, offered, ?_⟩
    show (call.outcomes ++ [outcome]).length ≤ call.offered.length + 1
    rw [List.length_append]
    exact Nat.succ_le_succ outcomes
  | release phase =>
    rw [phase] at within
    exact ⟨within.2.1.trans within.1, within.2.2⟩
  | complete phase =>
    rw [phase] at within
    obtain ⟨cap, rows, offered, outcomes⟩ := within
    exact ⟨cap, rows, offered, outcomes.trans (Nat.le_succ _)⟩
  | fail phase =>
    rw [phase] at within
    exact within
  | charge phase =>
    rw [phase] at within
    exact within
  | cancel phase =>
    rw [phase] at within
    exact within

lemma serve_within (service : EbcdicGrpc) (events : List (Event Happening)) :
    ∀ call ∈ (service.serve events).components, call.phase.Within service call.toHistory := by
  have enter (shared : Shared) : (ParseCall.arrive service shared).1.phase.Within service
      (ParseCall.arrive service shared).1.toHistory := by
    unfold ParseCall.arrive
    dsimp only
    split_ifs
    · exact ⟨rfl, rfl, rfl⟩
    · exact ⟨rfl, rfl, rfl⟩
  exact System.after_component (P := fun call => call.phase.Within service call.toHistory)
    (Q := fun _ => True) (fun _ => trivial) (fun shared _ => enter shared)
    (fun happening call shared _ before => act_within service happening call shared before) events

omit [Unicode] [SerdeJson] in
/-- In every phase a call has rows for its bytes, bytes for the operator's cap, and a send for each event
and one for the error. -/
lemma Phase.Within.bounds {service : EbcdicGrpc} {phase : Phase} (within : phase.Within service past) :
    totalBytes past.letIn ≤ service.maxDocumentBytes ∧ Accounted past 1 := by
  have idle (none : past.letIn = [] ∧ past.offered = [] ∧ past.outcomes = []) :
      totalBytes past.letIn ≤ service.maxDocumentBytes ∧ Accounted past 1 := by
    obtain ⟨letIn, offered, outcomes⟩ := none
    have rows : past.rows = 0 := by rw [History.rows, offered]; rfl
    refine ⟨by rw [letIn]; exact Nat.zero_le _, ?_, ?_, ?_⟩
    · exact rows ▸ Nat.zero_le _
    · exact offered ▸ Nat.zero_le _
    · exact outcomes ▸ Nat.zero_le _
  have later (decided : totalBytes past.letIn ≤ service.maxDocumentBytes ∧ Accounted past 0) :
      totalBytes past.letIn ≤ service.maxDocumentBytes ∧ Accounted past 1 :=
    ⟨decided.1, decided.2.rows, decided.2.offered, decided.2.outcomes.trans (Nat.le_succ _)⟩
  cases phase with
  | parsing limits task =>
    obtain ⟨cap, let_in, within⟩ := within
    apply later
    refine ⟨let_in.trans cap, ?_⟩
    cases task with
    | sending fold event next =>
      obtain ⟨sent, ready⟩ := within
      have outcomes : past.outcomes.length ≤ past.offered.length + 0 := by omega
      cases next with
      | receive walk =>
        exact ⟨(Nat.le_add_right ..).trans ready.rows, by rw [ready.offered]; omega, outcomes⟩
      | drain last walk =>
        exact ⟨(Nat.le_add_right ..).trans ready.rows, by rw [ready.offered]; omega, outcomes⟩
      | trailer status => exact ⟨ready.1, ready.2.trans (Nat.le_succ _), outcomes⟩
      | done => exact ⟨ready.1, ready.2, outcomes⟩
    | receiving fold walk => exact within.2.accounted within.1
    | decided res => exact within
  | released res => exact later within
  | failed e => exact later within
  | failing e => exact later within
  | ended res => exact within
  | opening => exact idle within
  | rejected status => exact idle within
  | refused status => exact idle within
  | cancelled => exact idle within

/-- Whatever has happened, a call has been answered no more sends than four more than its bytes, which
are no more than the operator's cap. If it has a slot and its client falls silent, neither sending nor
reading, it gives the slot back after the timer of its await, without any other call; but a client that
keeps sending frames without a payload keeps its slot. -/
theorem slot_comes_back (service : EbcdicGrpc) (events : List (Event Happening)) (i : Nat)
    (call : ParseCall) (at_i : (service.serve events).components[i]? = some call) :
    call.outcomes.length ≤ totalBytes call.letIn + 4 ∧
      totalBytes call.letIn ≤ service.maxDocumentBytes ∧
      (call.phase.holds = true →
        (timersOf call.phase).length ≤ 2 ∧ GivesBack service events i (timersOf call.phase)) ∧
      ∀ limits fold walk, call.phase = .parsing limits (.receiving fold walk) → ∀ n,
        ∃ call', (service.serve (events ++ (List.replicate n emptyFrame).map (.act i))).components[i]?
          = some call' ∧ call'.phase.holds = true := by
  have within := serve_within service events call (List.mem_of_getElem? at_i)
  obtain ⟨cap, rows, offered, outcomes⟩ := within.bounds
  refine ⟨by omega, cap, fun holds => ⟨timersOf_length _, ?_⟩, fun limits fold walk reads n => ?_⟩
  · exact stalled_gives_back service events i call at_i holds
  obtain ⟨call', at_i', same⟩ := empty_frames_hold service events i call at_i reads n
  exact ⟨call', at_i', by rw [same, reads]; rfl⟩

end Calls

section Sample

attribute [local instance] asciiUnicode noJson coreF64

/-- A server for one parse. -/
def sampleService : EbcdicGrpc := { EbcdicGrpc.new with maxConcurrentParses := 1 }

/-- A call whose layout has been taken, and that waits for its first chunk. -/
def sampleReading : List (Event Happening) :=
  [.enter, .act 0 (.hear (some (.message ⟨some (.options sampleRequest)⟩))), .act 0 (.sent .taken)]

/-- It gives its slot back when it falls idle, and has it still behind three empty frames. -/
theorem slot_comes_back_sample :
    ∃ call, (sampleService.serve sampleReading).components[0]? = some call ∧
      call.outcomes.length ≤ totalBytes call.letIn + 4 ∧
      totalBytes call.letIn ≤ sampleService.maxDocumentBytes ∧
      GivesBack sampleService sampleReading 0 [.hear (some .idle), .tick] ∧
      ∃ call', (sampleService.serve
          (sampleReading ++ (List.replicate 3 emptyFrame).map (.act 0))).components[0]? = some call' ∧
        call'.phase.holds = true := by
  obtain ⟨sends, bytes, back, on⟩ := slot_comes_back sampleService sampleReading 0 _ rfl
  exact ⟨_, rfl, sends, bytes, (back rfl).2, on _ _ _ rfl 3⟩

end Sample

end GrpcEbcdic

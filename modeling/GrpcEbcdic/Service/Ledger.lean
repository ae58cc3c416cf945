import GrpcEbcdic.Service.Language
import GrpcEbcdic.Service.Waits
import Mathlib.Algebra.BigOperators.Ring.List

/-!
# What the counters say

Every counter adds up what the calls did: over any interleaving it holds, round 64 bits, the sum of what
each call has to be charged with, which is read off the call alone.
-/

namespace GrpcEbcdic
open Rust Interleaved

/-- The part of a counter's value that is for one counter alone. -/
def only (counter other : Counter) (amount : Nat) : ZMod (2 ^ 64) :=
  if other = counter then amount else 0

@[simp] lemma only_zero (counter other : Counter) : only counter other 0 = 0 := by
  unfold only
  split_ifs
  · exact Nat.cast_zero
  · rfl

lemma only_add (counter other : Counter) (m n : Nat) :
    only counter other (m + n) = only counter other m + only counter other n := by
  unfold only
  split_ifs
  · exact Nat.cast_add m n
  · exact (add_zero 0).symm

/-- What a bump adds to each counter. -/
def bumps (counter other : Counter) : Nat := if other = counter then 1 else 0

lemma only_one (counter other : Counter) : only counter other 1 = (bumps counter other : Nat) := by
  unfold only bumps
  split_ifs <;> rfl

lemma Metrics.count_bump (metrics : Metrics) (counter other : Counter) :
    (metrics.bump counter).count other = metrics.count other + only counter other 1 :=
  metrics.count_add ..

variable [F64]

/-- The rows among the events a task offers. -/
def Task.rows (task : Task) : Nat := (rowsIn task.offering.toList).length

variable [Unicode]

namespace Task

lemma finish_rows (fold : Option DocumentFold) (status : Pb.ParseStatus) :
    (finish fold status).rows = 0 := by
  cases fold <;> rfl

/-- A drain counts the row it offers. -/
lemma drain_count (last : Bool) (walk : RecordStream) (fold : Option DocumentFold)
    (metrics : Metrics) (counter : Counter) :
    (drain last walk fold metrics).2.count counter
      = metrics.count counter
        + only .recordsEmitted counter (drain last walk fold metrics).1.rows := by
  have same {task : Task} (none : task.rows = 0) :
      metrics.count counter = metrics.count counter + only .recordsEmitted counter task.rows := by
    rw [none, only_zero, add_zero]
  unfold drain
  rcases walk.nextRecord with ⟨e | _ | row, walk'⟩
  · exact same rfl
  · cases last with
    | false => exact same rfl
    | true =>
      dsimp only
      rw [if_pos rfl]
      rcases walk'.status with e | status
      · exact same rfl
      · exact same (finish_rows fold status)
  · exact metrics.count_bump ..

/-- Going on behind a send counts the row that is offered next. -/
lemma sent_count (idleTimeout : Nat) (outcome : SendOutcome) (fold : Option DocumentFold)
    (next : Next) (metrics : Metrics) (counter : Counter) :
    (sent idleTimeout outcome fold next metrics).2.count counter
      = metrics.count counter + only .recordsEmitted counter
          (sent idleTimeout outcome fold next metrics).1.rows := by
  have same : metrics.count counter = metrics.count counter + only .recordsEmitted counter 0 := by
    rw [only_zero, add_zero]
  cases outcome with
  | taken =>
    cases next with
    | receive walk => exact same
    | drain last walk => exact drain_count last walk fold metrics counter
    | trailer status => exact same
    | done => exact same
  | closed => exact same
  | stalled => exact same

/-- Hearing a frame counts the bytes that are let in and the row that is offered next. -/
lemma receive_count (limits : Limits) (walk : RecordStream) (fold : Option DocumentFold)
    (item : Option Inbound) (metrics : Metrics) (counter : Counter) :
    (receive limits walk fold item metrics).2.count counter
      = metrics.count counter
        + only .bytesReceived counter (totalBytes (admitted limits walk.received item.toList).1)
        + only .recordsEmitted counter (receive limits walk fold item metrics).1.rows := by
  have same : metrics.count counter
      = metrics.count counter + only .bytesReceived counter 0 + only .recordsEmitted counter 0 := by
    rw [only_zero, only_zero, add_zero, add_zero]
  cases item with
  | none =>
    have drained := drain_count true walk.finishInput fold metrics counter
    show _ = metrics.count counter + only .bytesReceived counter 0 + _
    rw [only_zero, add_zero]
    exact drained
  | some item =>
    unfold receive admitted
    dsimp only [Option.toList_some]
    rcases nextFrame limits.idleTimeout item with (⟨_, text⟩ | e) | ⟨_ | (options | chunk)⟩
    · exact same
    · exact same
    · exact same
    · exact same
    · dsimp only
      split_ifs with exceeds
      · exact same
      · rw [drain_count, Metrics.count_add]
        rfl

end Task

section Charges

omit [Unicode]

/-- What a call's phase charges the counters of parses with. -/
def Phase.charged (phase : Phase) : Counter → Nat
  | .parsesStarted =>
    match phase with
    | .parsing _ _ => 1
    | .released _ => 1
    | .failed _ => 1
    | .failing _ => 1
    | .ended _ => 1
    | _ => 0
  | .parsesCompleted =>
    match phase with
    | .ended (.ok ()) => 1
    | _ => 0
  | .parsesFailed =>
    match phase with
    | .failed _ => 1
    | .failing _ => 1
    | .ended (.error _) => 1
    | _ => 0
  | .parsesRejected =>
    match phase with
    | .rejected _ => 1
    | _ => 0
  | .byteCapHits =>
    match phase with
    | .failing e => if e.code = .resourceExhausted then 1 else 0
    | .ended (.error e) => if e.code = .resourceExhausted then 1 else 0
    | _ => 0
  | .recordsEmitted => 0
  | .bytesReceived => 0

/-- What a call is to charge a counter with: its rows, its bytes, and what has become of it. -/
def ParseCall.charged (call : ParseCall) (counter : Counter) : Nat :=
  match counter with
  | .recordsEmitted => (rowsIn call.offered).length
  | .bytesReceived => totalBytes call.letIn
  | counter => call.phase.charged counter

/-- The charge of a call, round 64 bits. -/
def ParseCall.charge (call : ParseCall) (counter : Counter) : ZMod (2 ^ 64) := call.charged counter

/-- The charge of a phase, round 64 bits. -/
def Phase.charge (phase : Phase) (counter : Counter) : ZMod (2 ^ 64) := phase.charged counter

/-- The charges of a call, counter by counter. -/
lemma ParseCall.charge_eq (call : ParseCall) (counter : Counter) :
    call.charge counter
      = call.phase.charge counter + only .bytesReceived counter (totalBytes call.letIn)
        + only .recordsEmitted counter (rowsIn call.offered).length := by
  cases counter <;> simp [charge, charged, Phase.charge, Phase.charged, only]

/-- A task that goes on charges the row it offers. -/
lemma ParseCall.goOn_charge (call : ParseCall) (limits : Limits) (task : Task) (counter : Counter) :
    (call.goOn limits task).charge counter
      = (Phase.parsing limits task).charge counter
        + only .bytesReceived counter (totalBytes call.letIn)
        + only .recordsEmitted counter (rowsIn call.offered).length
        + only .recordsEmitted counter task.rows := by
  have offered : (rowsIn (call.offered ++ task.offering.toList)).length
      = (rowsIn call.offered).length + task.rows := by
    rw [rowsIn, List.filterMap_append, List.length_append]
    rfl
  rw [charge_eq]
  show _ + only .bytesReceived counter (totalBytes call.letIn)
    + only .recordsEmitted counter (rowsIn (call.offered ++ task.offering.toList)).length = _
  rw [offered, only_add, ← add_assoc]
  rfl

/-- A call of which nothing is new but its phase, and what the phase is charged with. -/
lemma ParseCall.phase_charge {call call' : ParseCall} {phase : Phase} {amount : Counter → Nat}
    (was : call.phase = phase) (letIn : call'.letIn = call.letIn)
    (offered : call'.offered = call.offered)
    (charged : ∀ counter, call'.phase.charged counter = phase.charged counter + amount counter)
    (counter : Counter) : call'.charge counter = call.charge counter + (amount counter : Nat) := by
  rw [charge_eq, charge_eq, letIn, offered, was, Phase.charge, charged, Nat.cast_add, ← Phase.charge]
  ring

/-- A call that is charged with what its counter is bumped by. -/
lemma ParseCall.bump_charge {call call' : ParseCall} {phase : Phase} {counter : Counter}
    (was : call.phase = phase) (letIn : call'.letIn = call.letIn)
    (offered : call'.offered = call.offered)
    (charged : ∀ other, call'.phase.charged other = phase.charged other + bumps counter other)
    (metrics : Metrics) (other : Counter) :
    (metrics.bump counter).count other + call.charge other
      = metrics.count other + call'.charge other := by
  rw [phase_charge was letIn offered charged, Metrics.count_bump, only_one]
  ring

/-- A call that is charged with nothing new. -/
lemma ParseCall.same_charge {call call' : ParseCall} {phase : Phase} (was : call.phase = phase)
    (letIn : call'.letIn = call.letIn) (offered : call'.offered = call.offered)
    (charged : ∀ counter, call'.phase.charged counter = phase.charged counter) (counter : Counter) :
    call.charge counter = call'.charge counter := by
  rw [charge_eq, charge_eq, letIn, offered, was, Phase.charge, Phase.charge, charged]

lemma Phase.parsing_charge (limits limits' : Limits) (task task' : Task) (counter : Counter) :
    (Phase.parsing limits task).charge counter = (Phase.parsing limits' task').charge counter := by
  cases counter <;> rfl

end Charges

variable [SerdeJson]

/-- An act adds to a counter what it charges its call with. -/
lemma act_charge (service : EbcdicGrpc) (happening : Happening) (call : ParseCall)
    (shared : Shared) (counter : Counter) :
    (service.server.act happening call shared).2.metrics.count counter + call.charge counter
      = shared.metrics.count counter
        + (service.server.act happening call shared).1.charge counter := by
  have moves := act_moves service happening call shared
  generalize service.server.act happening call shared = after at moves
  cases moves with
  | stay => rfl
  | refuse phase _ =>
    apply congrArg (shared.metrics.count counter + ·)
    apply ParseCall.same_charge phase
    · rfl
    · rfl
    · exact fun counter => by cases counter <;> rfl
  | start phase _ =>
    dsimp only
    rw [Metrics.count_bump, ParseCall.goOn_charge, ParseCall.charge_eq, phase]
    have started (limits : Limits) (task : Task) : (Phase.parsing limits task).charge counter
        = Phase.opening.charge counter + only .parsesStarted counter 1 := by
      cases counter <;> simp [Phase.charge, Phase.charged, only]
    rw [started]
    show _ = shared.metrics.count counter + (_ + only .bytesReceived counter (totalBytes call.letIn)
      + only .recordsEmitted counter (rowsIn call.offered).length + only .recordsEmitted counter 0)
    rw [only_zero]
    ring
  | hear item phase =>
    dsimp only
    rw [Task.receive_count, ParseCall.goOn_charge, totalBytes_append, only_add, ParseCall.charge_eq,
      phase, Phase.parsing_charge]
    ring
  | sent outcome phase =>
    dsimp only
    rw [Task.sent_count, ParseCall.goOn_charge, ParseCall.charge_eq, phase, Phase.parsing_charge]
    show _ = shared.metrics.count counter + (_ + only .bytesReceived counter (totalBytes call.letIn)
      + only .recordsEmitted counter (rowsIn call.offered).length + _)
    ring
  | told outcome phase =>
    apply congrArg (shared.metrics.count counter + ·)
    apply ParseCall.same_charge phase
    · rfl
    · rfl
    · exact fun counter => by cases counter <;> rfl
  | release phase =>
    apply congrArg (shared.metrics.count counter + ·)
    apply ParseCall.same_charge phase
    · rfl
    · rfl
    · exact fun counter => by cases counter <;> rfl
  | complete phase =>
    apply ParseCall.bump_charge phase
    · rfl
    · rfl
    · exact fun counter => by cases counter <;> rfl
  | fail phase =>
    apply ParseCall.bump_charge phase
    · rfl
    · rfl
    · exact fun counter => by cases counter <;> rfl
  | @charge e phase =>
    dsimp only
    by_cases exhausted : e.code = .resourceExhausted
    · rw [if_pos exhausted]
      apply ParseCall.bump_charge phase
      · rfl
      · rfl
      · exact fun counter => by cases counter <;> simp [Phase.charged, bumps, exhausted]
    · rw [if_neg exhausted]
      apply congrArg (shared.metrics.count counter + ·)
      apply ParseCall.same_charge phase
      · rfl
      · rfl
      · exact fun counter => by cases counter <;> simp [Phase.charged, exhausted]
  | cancel phase =>
    apply congrArg (shared.metrics.count counter + ·)
    apply ParseCall.same_charge phase
    · rfl
    · rfl
    · exact fun counter => by cases counter <;> rfl

/-- What the calls of a server are to charge a counter with. -/
def charges (calls : List ParseCall) (counter : Counter) : Nat :=
  (calls.map (·.charged counter)).sum

/-- Whether a parse has been started and not been counted yet. -/
def Phase.uncounted : Phase → Bool
  | .parsing _ _ => true
  | .released _ => true
  | _ => false

/-- What holds of the counters of a server and its calls. -/
structure Balanced (service : EbcdicGrpc) (server : State Shared ParseCall) : Prop where
  /-- A counter holds what the calls are to charge it with, round 64 bits. -/
  counts : ∀ counter, (server.shared.metrics.read counter).toNat
    = charges server.components counter % 2 ^ 64
  /-- A parse that was started is counted once, as completed or as failed, or will be. -/
  settled : charges server.components .parsesStarted
    = charges server.components .parsesCompleted + charges server.components .parsesFailed
      + server.components.countP (·.phase.uncounted)
  hits : charges server.components .byteCapHits ≤ charges server.components .parsesFailed
  bytes : charges server.components .bytesReceived
    ≤ charges server.components .parsesStarted * service.maxDocumentBytes
  records : charges server.components .recordsEmitted ≤ charges server.components .bytesReceived

omit [Unicode] [SerdeJson] in
/-- What is less for every call is less in sum. -/
lemma charges_le {calls : List ParseCall} {f g : ParseCall → Nat} (le : ∀ call ∈ calls, f call ≤ g call) :
    (calls.map f).sum ≤ (calls.map g).sum := by
  induction calls with
  | nil => exact le_rfl
  | cons call calls ih =>
    obtain ⟨first, rest⟩ := List.forall_mem_cons.mp le
    rw [List.map_cons, List.map_cons, List.sum_cons, List.sum_cons]
    exact Nat.add_le_add first (ih rest)

omit [Unicode] [SerdeJson] in
/-- A call that arrives is charged with its rejection. -/
lemma arrive_charge (service : EbcdicGrpc) (shared : Shared) (counter : Counter) :
    (ParseCall.arrive service shared).2.metrics.count counter
      = shared.metrics.count counter + (ParseCall.arrive service shared).1.charge counter := by
  unfold ParseCall.arrive
  dsimp only
  split_ifs
  · rw [Metrics.count_bump, only_one]
    cases counter <;> rfl
  · have nothing (call : ParseCall) (opening : call.phase = .opening) (letIn : call.letIn = [])
        (offered : call.offered = []) : call.charge counter = 0 := by
      rw [ParseCall.charge_eq, opening, letIn, offered]
      cases counter <;> rfl
    rw [nothing _ rfl rfl rfl, add_zero]

/-- The counters hold what the calls are to charge them with. -/
lemma serve_counts (service : EbcdicGrpc) (events : List (Event Happening)) (counter : Counter) :
    (service.serve events).shared.metrics.count counter
      = (charges (service.serve events).components counter : Nat) := by
  have credited := System.after_credited (fun shared : Shared => shared.metrics.count counter)
    (fun call : ParseCall => call.charge counter) (fun shared => arrive_charge service shared counter)
    (fun happening call shared => act_charge service happening call shared counter)
    ⟨service.maxConcurrentParses, .new⟩ events
  have zero : Metrics.new.count counter = 0 := rfl
  rw [zero, zero_add] at credited
  rw [charges, ← Nat.coe_castRingHom, map_list_sum, List.map_map]
  exact credited

/-- Over any interleaving of calls the counters balance. -/
theorem counters_balance (service : EbcdicGrpc) (events : List (Event Happening)) :
    Balanced service (service.serve events) := by
  have counts := serve_counts service events
  have within := serve_within service events
  generalize service.serve events = server at counts within
  refine ⟨fun counter => Metrics.read_eq (counts counter), ?_, ?_, ?_, ?_⟩
  · rw [← sum_toNat, charges, charges, charges, ← List.sum_map_add, ← List.sum_map_add]
    congr 1
    apply List.map_congr_left
    intro call _
    obtain ⟨past, phase, found⟩ := call
    cases phase with
    | ended res => cases res <;> rfl
    | _ => rfl
  · apply charges_le
    intro call _
    obtain ⟨past, phase, found⟩ := call
    have one (e : ParseError) : (if e.code = .resourceExhausted then 1 else 0) ≤ 1 := by
      split_ifs <;> decide
    cases phase with
    | failing e => exact one e
    | ended res =>
      cases res with
      | error e => exact one e
      | ok done => exact Nat.zero_le _
    | _ => exact Nat.zero_le _
  · rw [charges, charges, ← List.sum_map_mul_right]
    apply charges_le
    intro call mem
    have cap := (within call mem).bounds.1
    have idle := within call mem
    obtain ⟨past, phase, found⟩ := call
    have started (one : phase.charged .parsesStarted = 1) :
        totalBytes past.letIn ≤ phase.charged .parsesStarted * service.maxDocumentBytes := by
      rw [one, Nat.one_mul]
      exact cap
    have silent (none : past.letIn = []) :
        totalBytes past.letIn ≤ phase.charged .parsesStarted * service.maxDocumentBytes := by
      rw [none]
      exact Nat.zero_le _
    cases phase with
    | opening => exact silent idle.1
    | rejected status => exact silent idle.1
    | refused status => exact silent idle.1
    | cancelled => exact silent idle.1
    | _ => exact started rfl
  · apply charges_le
    intro call mem
    exact (within call mem).bounds.2.rows

end GrpcEbcdic

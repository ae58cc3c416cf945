import GrpcEbcdic.Fold.Account
import GrpcEbcdic.Service.DocumentRun
import GrpcEbcdic.Service.Waits
import GrpcEbcdic.Stream.Backlog

/-!
# Bytes at work

A walk keeps the bytes of the chunk it was given last and what it waited with before, a fold the rows it
has charged for. Both are bounded however long the inputs are, and only a call that has a slot reads or
folds; so the bytes at work in all calls together are bounded by the slots, over any interleaving.

This is not all a server holds. The events that wait to be taken and a Document that has been written are
not counted, nor is the walk behind the closing events, nor anything of a call that gave its slot back.
-/

namespace GrpcEbcdic
open Rust Interleaved

namespace RecordStream

/-- A walk over a valid layout whose buffer has no more than it waited with and `chunk` bytes. -/
structure Holding (chunk : Nat) (walk : RecordStream) : Prop where
  valid : walk.layout.Valid
  follows : ∃ input σ, Follows walk.layout walk.options input σ walk
  buffer : walk.buffer.length ≤ walk.layout.backlog + chunk

/-- A walk that waits for more. -/
structure Waiting (chunk : Nat) (walk : RecordStream) : Prop extends Holding chunk walk where
  pending : walk.pending.length < walk.layout.backlog

variable {chunk : Nat} {walk walk' : RecordStream}

lemma Holding.mono (holding : walk.Holding chunk) {chunk' : Nat} (le : chunk ≤ chunk') :
    walk.Holding chunk' where
  valid := holding.valid
  follows := holding.follows
  buffer := holding.buffer.trans (Nat.add_le_add_left le _)

/-- A new walk waits. -/
lemma waiting_new {layout : Layout} (v : layout.Valid) (options : DecodeOptions) :
    (RecordStream.new layout options).Waiting 0 where
  valid := v
  follows := ⟨[], walkStart layout, follows_new layout options⟩
  buffer := Nat.zero_le _
  pending := (Nat.zero_le _).trans_lt v.backlog_gt

lemma Holding.finishInput (holding : walk.Holding chunk) : walk.finishInput.Holding chunk where
  valid := holding.valid
  follows := by
    obtain ⟨input, σ, fol⟩ := holding.follows
    exact ⟨input, σ, fol.finishInput⟩
  buffer := holding.buffer

/-- A chunk takes the place of what was consumed. -/
lemma Waiting.push (waiting : walk.Waiting chunk) (bytes : List UInt8) :
    (walk.push bytes).Holding bytes.length := by
  obtain ⟨input, σ, fol⟩ := waiting.follows
  have layout : (walk.push bytes).layout = walk.layout := (fol.push bytes).sameLayout
  have options : (walk.push bytes).options = walk.options := (fol.push bytes).sameOptions
  refine ⟨layout ▸ waiting.valid, ⟨input ++ bytes, σ, by rw [layout, options]; exact fol.push bytes⟩, ?_⟩
  rw [layout]
  unfold RecordStream.push
  dsimp only
  split_ifs
  · exact Nat.zero_le _
  · rw [List.length_append]
    exact Nat.add_le_add_right waiting.pending.le _

variable [Unicode]

/-- A call takes nothing into the buffer. -/
lemma nextRecord_buffer (walk : RecordStream) :
    walk.nextRecord.2.buffer.length ≤ walk.buffer.length := by
  have body (walk : RecordStream) : walk.nextBody.2.buffer.length ≤ walk.buffer.length := by
    rcases walk.nextBody_cases with ⟨same, _⟩ | ⟨record, size, row, _, _, _, emits⟩
    · rw [same]
    · rw [emits]
      unfold commit
      dsimp only
      split_ifs
      · exact Nat.zero_le _
      · exact le_rfl
  cases cut : walk.truncated with
  | true => rw [nextRecord_cut cut]
  | false =>
    by_cases left : 0 < walk.headerLeft
    · rw [nextRecord_header cut left]
      split_ifs
      · exact le_rfl
      · exact body walk.skipHeader
    · rw [nextRecord_body cut (Nat.eq_zero_of_not_pos left)]
      exact body walk

/-- A call keeps the bound. -/
lemma Holding.next (holding : walk.Holding chunk) : walk.nextRecord.2.Holding chunk := by
  obtain ⟨input, σ, fol⟩ := holding.follows
  obtain ⟨σ', fol'⟩ := fol.nextRecord
  have layout : walk.nextRecord.2.layout = walk.layout := fol'.sameLayout
  refine ⟨layout ▸ holding.valid, ⟨input, σ', ?_⟩, ?_⟩
  · rw [layout, show walk.nextRecord.2.options = walk.options from fol'.sameOptions]
    exact fol'
  · rw [layout]
    exact walk.nextRecord_buffer.trans holding.buffer

/-- A call that returns none leaves a walk that waits. -/
lemma Holding.idle (holding : walk.Holding chunk) (idle : walk.nextRecord = (.ok none, walk')) :
    walk'.Waiting chunk := by
  have next := holding.next
  rw [idle] at next
  obtain ⟨input, σ, fol⟩ := holding.follows
  obtain ⟨settled, wait⟩ := fol.idle holding.valid idle
  have layout : walk'.layout = walk.layout := settled.sameLayout
  exact ⟨next, layout ▸ settled.pending_lt holding.valid wait⟩

end RecordStream

section Layouts

variable {layout : Layout}

/-- Bytes that wait for a record of any layout. -/
def maxBacklog : Nat := maxFooterBytes + 3 * maxRecordBytes + 1

lemma Layout.Valid.largestSize_le (v : layout.Valid) : layout.largestSize ≤ maxRecordBytes := by
  have all : ∀ record ∈ layout.records, record.size ≤ maxRecordBytes := fun record mem =>
    (v.record record mem).size_le
  unfold Layout.largestSize
  generalize layout.records = records at all
  induction records with
  | nil => exact Nat.zero_le _
  | cons record records ih =>
    obtain ⟨first, rest⟩ := List.forall_mem_cons.mp all
    exact max_le first (ih rest)

/-- No layout waits for more. -/
lemma Layout.Valid.backlog_le (v : layout.Valid) : layout.backlog ≤ maxBacklog := by
  have small (field : Option Field) (pv : ∀ f ∈ field, f.PrefixValid) :
      optionalSize field ≤ maxRecordBytes := by
    cases field with
    | none => exact Nat.zero_le _
    | some f => exact (pv f rfl).width.trans (widthLimit_le f.kind)
  have length := small layout.recordLengthField fun f mem => (v.lengthField f mem).1
  have type := small layout.recordTypeField v.typeField
  have eq := v.prefix_eq
  have footer := v.footer_le
  have largest := v.largestSize_le
  unfold Layout.backlog maxBacklog
  cases layout.recordLengthField with
  | none => dsimp only; omega
  | some field => dsimp only; omega

end Layouts

/-- The longest of some chunks. -/
def longest (chunks : List (List UInt8)) : Nat := (chunks.map List.length).foldr max 0

lemma longest_le {chunks : List (List UInt8)} {n : Nat} (all : ∀ chunk ∈ chunks, chunk.length ≤ n) :
    longest chunks ≤ n := by
  unfold longest
  induction chunks with
  | nil => exact Nat.zero_le _
  | cons chunk chunks ih =>
    obtain ⟨first, rest⟩ := List.forall_mem_cons.mp all
    exact max_le first (ih rest)

lemma le_longest {chunks : List (List UInt8)} {chunk : List UInt8} (mem : chunk ∈ chunks) :
    chunk.length ≤ longest chunks := by
  unfold longest
  induction chunks with
  | nil => cases mem
  | cons first chunks ih =>
    cases mem with
    | head => exact le_max_left _ _
    | tail _ mem => exact (ih mem).trans (le_max_right _ _)

lemma max_longest_le (before after : List (List UInt8)) :
    max (longest before) (longest after) ≤ longest (before ++ after) := by
  apply max_le
  · exact longest_le fun chunk mem => le_longest (List.mem_append_left _ mem)
  · exact longest_le fun chunk mem => le_longest (List.mem_append_right _ mem)

section Calls

variable [F64]

/-- A fold under the caps it starts with, within its budget. -/
def DocumentFold.Affordable (fold : DocumentFold) : Prop :=
  fold.byteCap = defaultByteCap ∧ fold.bytes ≤ defaultByteCap

/-- No event takes a fold over its budget. -/
lemma DocumentFold.Affordable.consume {fold : DocumentFold} (affordable : fold.Affordable)
    (event : Pb.Event) : (fold.consume event).Affordable := by
  obtain ⟨cap, within⟩ := affordable
  cases event with
  | layoutInfo info =>
    show (fold.begin info).Affordable
    have schemas (schemas : List Pb.RecordSchema) (fold : DocumentFold) (affordable : fold.Affordable) :
        (schemas.foldl DocumentFold.addSchema fold).Affordable := by
      induction schemas generalizing fold with
      | nil => exact affordable
      | cons schema schemas ih => exact ih _ affordable
    rcases started : fold.started with _ | _
    · unfold DocumentFold.begin
      rw [started, if_neg Bool.false_ne_true]
      exact schemas info.records _ ⟨cap, within⟩
    · rw [DocumentFold.begin, started, if_pos rfl]
      exact ⟨cap, within⟩
  | record row =>
    show (fold.row row).Affordable
    have step := fold.rowStep row
    generalize fold.row row = fold' at step
    cases step with
    | unknown => exact ⟨cap, within⟩
    | closed => exact ⟨cap, within⟩
    | exceeds => exact ⟨cap, within⟩
    | keep _ _ _ fits =>
      rw [cap, satAdd, min_le_iff] at fits
      have charged := fits.resolve_right (by decide)
      exact ⟨cap, (Nat.mod_le _ _).trans charged⟩
  | status status => exact ⟨cap, within⟩
  | document document => exact ⟨cap, within⟩

/-- What a fold has charged for. -/
def foldBytes (fold : Option DocumentFold) : Nat := (fold.map DocumentFold.bytes).getD 0

/-- The walk a parse goes on with once its event has been taken: none behind the closing events. -/
def Next.memory : Next → Nat
  | .receive walk => walk.buffer.length
  | .drain _ walk => walk.buffer.length
  | .trailer _ => 0
  | .done => 0

/-- Bytes at work in a parse at an await: the buffer of a walk that reads or drains on, and what a fold that
is still open has charged for. The event that waits is not counted, and a written Document is one. -/
def Task.memory : Task → Nat
  | .sending fold _ next => foldBytes fold + next.memory
  | .receiving fold walk => foldBytes fold + walk.buffer.length
  | .decided _ => 0

/-- Bytes at work in a call: none before its parse starts or once it has given its slot back. -/
def ParseCall.memory (call : ParseCall) : Nat :=
  match call.phase with
  | .parsing _ task => task.memory
  | _ => 0

/-- The walk a parse goes on with is bounded. -/
def Next.Bounded (chunk : Nat) : Next → Prop
  | .receive walk => walk.Waiting chunk
  | .drain _ walk => walk.Holding chunk
  | .trailer _ => True
  | .done => True

/-- The walk and the fold of a parse are bounded. -/
def Task.Bounded (chunk : Nat) : Task → Prop
  | .sending fold _ next => (∀ f ∈ fold, f.Affordable) ∧ next.Bounded chunk
  | .receiving fold walk => (∀ f ∈ fold, f.Affordable) ∧ walk.Waiting chunk
  | .decided _ => True

/-- The bytes of a bounded parse. -/
lemma Task.Bounded.memory_le {chunk : Nat} {task : Task} (bounded : task.Bounded chunk) :
    task.memory ≤ maxBacklog + defaultByteCap + chunk := by
  have folds (fold : Option DocumentFold) (affordable : ∀ f ∈ fold, f.Affordable) :
      foldBytes fold ≤ defaultByteCap := by
    cases fold with
    | none => exact Nat.zero_le _
    | some fold => exact (affordable fold rfl).2
  have walks (walk : RecordStream) (holding : walk.Holding chunk) :
      walk.buffer.length ≤ maxBacklog + chunk :=
    holding.buffer.trans (Nat.add_le_add_right holding.valid.backlog_le _)
  cases task with
  | decided res => exact Nat.zero_le _
  | receiving fold walk =>
    have charged := folds fold bounded.1
    have held := walks walk bounded.2.toHolding
    show foldBytes fold + walk.buffer.length ≤ _
    omega
  | sending fold event next =>
    have charged := folds fold bounded.1
    have held : next.memory ≤ maxBacklog + chunk := by
      cases next with
      | receive walk => exact walks walk bounded.2.toHolding
      | drain last walk => exact walks walk bounded.2
      | trailer status => exact Nat.zero_le _
      | done => exact Nat.zero_le _
    show foldBytes fold + next.memory ≤ _
    omega

namespace Task

variable {chunk : Nat} {fold : Option DocumentFold}

lemma send_bounded (affordable : ∀ f ∈ fold, f.Affordable) (event : Pb.Event) {next : Next}
    (bounded : next.Bounded chunk) : (send fold event next).Bounded chunk := by
  refine ⟨fun f mem => ?_, bounded⟩
  obtain ⟨g, has, rfl⟩ := Option.map_eq_some_iff.mp mem
  exact (affordable g has).consume event

variable [Unicode]

lemma finish_bounded (fold : Option DocumentFold) (status : Pb.ParseStatus) :
    (finish fold status).Bounded chunk := by
  cases fold with
  | none => exact ⟨fun _ mem => (nomatch mem), trivial⟩
  | some fold => exact ⟨fun _ mem => (nomatch mem), trivial⟩

lemma drain_bounded (affordable : ∀ f ∈ fold, f.Affordable) {walk : RecordStream}
    (holding : walk.Holding chunk) (last : Bool) (metrics : Metrics) :
    (drain last walk fold metrics).1.Bounded chunk := by
  have next := holding.next
  unfold drain
  rcases answer : walk.nextRecord with ⟨e | _ | row, walk'⟩
  · exact trivial
  · have waiting := holding.idle answer
    dsimp only
    split_ifs
    · rcases walk'.status with e | status
      · exact trivial
      · exact finish_bounded fold status
    · exact ⟨affordable, waiting⟩
  · rw [answer] at next
    exact send_bounded affordable (.record row) next

/-- Every send of a parse keeps the bound. -/
lemma sent_bounded (affordable : ∀ f ∈ fold, f.Affordable) {next : Next} (bounded : next.Bounded chunk)
    (idleTimeout : Nat) (outcome : SendOutcome) (metrics : Metrics) :
    (sent idleTimeout outcome fold next metrics).1.Bounded chunk := by
  cases outcome with
  | closed => exact trivial
  | stalled => exact trivial
  | taken =>
    cases next with
    | receive walk => exact ⟨affordable, bounded⟩
    | drain last walk => exact drain_bounded affordable bounded last metrics
    | trailer status => exact send_bounded affordable (.status status) trivial
    | done => exact trivial

/-- Every item of the request stream keeps it, but for a longer chunk. -/
lemma receive_bounded (affordable : ∀ f ∈ fold, f.Affordable) {walk : RecordStream}
    (waiting : walk.Waiting chunk) (limits : Limits) (item : Option Inbound) (metrics : Metrics) :
    (receive limits walk fold item metrics).1.Bounded
      (max chunk (longest (admitted limits walk.received item.toList).1)) := by
  have stays : (Task.receiving fold walk).Bounded
      (max chunk (longest (admitted limits walk.received item.toList).1)) :=
    ⟨affordable, waiting.mono (le_max_left _ _), waiting.pending⟩
  rcases item with _ | ⟨_ | options | bytes⟩ | ⟨status, text⟩ | _
  · exact drain_bounded affordable (waiting.finishInput.mono (le_max_left _ _)) true metrics
  · exact stays
  · exact trivial
  · unfold receive
    dsimp only [nextFrame]
    split_ifs with exceeds
    · exact trivial
    · have let_in : bytes ∈ (admitted limits walk.received
          (some (Inbound.message ⟨some (.chunk bytes)⟩)).toList).1 := by
        show bytes ∈ (admitted limits walk.received [_]).1
        unfold admitted
        dsimp only [nextFrame]
        rw [if_neg exceeds]
        exact List.mem_cons_self
      refine drain_bounded affordable ((waiting.push bytes).mono ?_) false _
      exact (le_longest let_in).trans (le_max_right _ _)
  · exact trivial
  · exact trivial

end Task

/-- A longer chunk bounds as well. -/
lemma Task.Bounded.mono {chunk chunk' : Nat} {task : Task} (bounded : task.Bounded chunk)
    (le : chunk ≤ chunk') : task.Bounded chunk' := by
  have waits (walk : RecordStream) (waiting : walk.Waiting chunk) : walk.Waiting chunk' :=
    ⟨waiting.mono le, waiting.pending⟩
  cases task with
  | decided res => trivial
  | receiving fold walk => exact ⟨bounded.1, waits walk bounded.2⟩
  | sending fold event next =>
    refine ⟨bounded.1, ?_⟩
    cases next with
    | receive walk => exact waits walk bounded.2
    | drain last walk => exact bounded.2.mono le
    | trailer status => trivial
    | done => trivial

/-- The walk and the fold of a call are bounded by the longest chunk that was let in. -/
def ParseCall.Bounded (call : ParseCall) : Prop :=
  ∀ limits task, call.phase = .parsing limits task → task.Bounded (longest call.letIn)

variable [Unicode] [SerdeJson]

/-- Every act of a call keeps its bound. -/
lemma act_bounded (service : EbcdicGrpc) (happening : Happening) (call : ParseCall) (shared : Shared)
    (bounded : call.Bounded) : (service.server.act happening call shared).1.Bounded := by
  have moves := act_moves service happening call shared
  generalize service.server.act happening call shared = after at moves
  cases moves with
  | stay => exact bounded
  | refuse phase _ => exact fun _ _ parsing => (nomatch parsing)
  | @start item opening phase ok =>
    obtain ⟨options, codec, layout, _, _, resolved, rfl⟩ := begin_ok ok
    rintro _ _ ⟨⟩
    have new : (service.openingOf options codec layout).walk.Waiting 0 :=
      RecordStream.waiting_new (resolve_valid resolved) _
    apply Task.send_bounded
    · intro fold mem
      show fold.Affordable
      unfold EbcdicGrpc.openingOf at mem
      dsimp only at mem
      split_ifs at mem
      · cases mem
        exact ⟨rfl, Nat.zero_le _⟩
      · cases mem
    · exact ⟨new.mono (Nat.zero_le _), new.pending⟩
  | @hear limits fold walk item phase =>
    obtain ⟨affordable, waiting⟩ := bounded _ _ phase
    rintro _ _ ⟨⟩
    exact (Task.receive_bounded affordable waiting limits item shared.metrics).mono (max_longest_le _ _)
  | @sent limits fold event next outcome phase =>
    obtain ⟨affordable, next⟩ := bounded _ _ phase
    rintro _ _ ⟨⟩
    exact Task.sent_bounded affordable next limits.idleTimeout outcome shared.metrics
  | told outcome phase => exact fun _ _ parsing => (nomatch parsing)
  | release phase => exact fun _ _ parsing => (nomatch parsing)
  | complete phase => exact fun _ _ parsing => (nomatch parsing)
  | fail phase => exact fun _ _ parsing => (nomatch parsing)
  | charge phase => exact fun _ _ parsing => (nomatch parsing)
  | cancel phase => exact fun _ _ parsing => (nomatch parsing)

lemma serve_bounded (service : EbcdicGrpc) (events : List (Event Happening)) :
    ∀ call ∈ (service.serve events).components, call.Bounded := by
  have enter (shared : Shared) : (ParseCall.arrive service shared).1.Bounded := by
    unfold ParseCall.arrive
    dsimp only
    split_ifs
    · exact fun _ _ parsing => (nomatch parsing)
    · exact fun _ _ parsing => (nomatch parsing)
  exact System.after_component (P := ParseCall.Bounded) (Q := fun _ => True) (fun _ => trivial)
    (fun shared _ => enter shared)
    (fun happening call shared _ before => act_bounded service happening call shared before) events

omit [Unicode] [SerdeJson] in
/-- Bytes are at work in a call only while it has a slot. -/
lemma ParseCall.Bounded.memory_le {call : ParseCall} (bounded : call.Bounded) {chunk : Nat}
    (all : ∀ bytes ∈ call.letIn, bytes.length ≤ chunk) :
    call.memory ≤ call.slots * (maxBacklog + defaultByteCap + chunk) := by
  unfold ParseCall.memory ParseCall.slots
  split
  · next limits task phase =>
    rw [phase]
    show _ ≤ 1 * _
    rw [Nat.one_mul]
    exact ((bounded limits task phase).mono (longest_le all)).memory_le
  · exact Nat.zero_le _

/-- Over any interleaving of calls whose chunks have at most `chunk` bytes each, the walks that read or drain
and the folds that are open have no more bytes together than the slots let them, however long the inputs are
and however many calls there have been. -/
theorem memory_bounded (service : EbcdicGrpc) (events : List (Event Happening)) (chunk : Nat)
    (all : ∀ call ∈ (service.serve events).components, ∀ bytes ∈ call.letIn, bytes.length ≤ chunk) :
    ((service.serve events).components.map ParseCall.memory).sum
      ≤ service.maxConcurrentParses * (maxBacklog + defaultByteCap + chunk) := by
  have bounded := serve_bounded service events
  have slots := serve_slots service events
  generalize service.serve events = server at all bounded slots
  rw [← sum_toNat] at slots
  have taken : (server.components.map ParseCall.slots).sum ≤ service.maxConcurrentParses := by
    rw [← slots]
    exact Nat.le_add_left ..
  calc (server.components.map ParseCall.memory).sum
    _ ≤ (server.components.map fun call => call.slots * (maxBacklog + defaultByteCap + chunk)).sum :=
      List.sum_le_sum fun call mem => (bounded call mem).memory_le (all call mem)
    _ = (server.components.map ParseCall.slots).sum * (maxBacklog + defaultByteCap + chunk) :=
      List.sum_map_mul_right ..
    _ ≤ service.maxConcurrentParses * (maxBacklog + defaultByteCap + chunk) :=
      Nat.mul_le_mul_right _ taken

end Calls

section Sample

attribute [local instance] asciiUnicode noJson coreF64

/-- A call that is let in one byte, and one that is rejected. -/
def sampleHappenings : List (Event Happening) :=
  [.enter, .act 0 (.hear (some (.message ⟨some (.options sampleRequest)⟩))), .act 0 (.sent .taken),
    .act 0 (.hear (some (.message ⟨some (.chunk [64])⟩))), .enter]

theorem memory_bounded_sample :
    ((sampleService.serve sampleHappenings).components.map ParseCall.memory).sum
      ≤ 1 * (maxBacklog + defaultByteCap + 1) := by
  apply memory_bounded sampleService sampleHappenings 1
  have chunks : (sampleService.serve sampleHappenings).components.map (·.letIn) = [[[64]], []] := by
    decide
  intro call mem bytes let_in
  have one : call.letIn ∈ [[[64]], []] := chunks ▸ List.mem_map_of_mem mem
  rcases List.mem_pair.mp one with eq | eq
  · rw [eq] at let_in
    exact (congrArg List.length (List.mem_singleton.mp let_in)).le
  · rw [eq] at let_in
    cases let_in

end Sample

end GrpcEbcdic

import GrpcEbcdic.Service.Script

/-!
# The event language of a parse

Whatever comes on the request stream and wherever a send fails, a parse sends the front of a word: the
layout, the rows, the document if one was asked for, and the trailer, which is the last word of a parse
that succeeds. The chunks it pushes into the walk are those the byte cap admits, and no others.
-/

namespace GrpcEbcdic
open Rust Emit

/-! ## The chunks that are let in -/

/-- The chunks among the items of a request stream. -/
def chunksOf (inbound : List Inbound) : List (List UInt8) :=
  inbound.filterMap fun
    | .message ⟨some (.chunk chunk)⟩ => some chunk
    | _ => none

/-- Whether an item of a request stream is a frame that data may consist of. -/
def Inbound.Readable : Inbound → Prop
  | .message request => ∀ options, request.frame ≠ some (.options options)
  | .failed _ _ => False
  | .idle => False

/-- Whether a request stream ends as it should. -/
def EndsCleanly (inbound : List Inbound) : Prop := ∀ item ∈ inbound, item.Readable

/-- The bytes of some chunks. -/
def totalBytes (chunks : List (List UInt8)) : Nat := (chunks.map List.length).sum

/-- Readable frames within the cap are let in, and reading goes on behind them. -/
lemma admitted_append (limits : Limits) {before : List Inbound} (readable : EndsCleanly before)
    (received : Nat) (after : List Inbound)
    (within : received + totalBytes (chunksOf before) ≤ limits.byteCap) :
    admitted limits received (before ++ after) =
      (chunksOf before ++ (admitted limits (received + totalBytes (chunksOf before)) after).1,
        (admitted limits (received + totalBytes (chunksOf before)) after).2) := by
  induction before generalizing received with
  | nil => rfl
  | cons item before ih =>
    obtain ⟨first, rest⟩ := List.forall_mem_cons.mp readable
    rcases item with ⟨_ | options | chunk⟩ | _ | _
    · exact ih rest received within
    · exact absurd rfl (first options)
    · have total : totalBytes (chunksOf (.message ⟨some (.chunk chunk)⟩ :: before))
          = chunk.length + totalBytes (chunksOf before) := rfl
      rw [total, ← Nat.add_assoc] at within ⊢
      have fits : ¬ limits.byteCap < received + chunk.length := by omega
      rw [List.cons_append, admitted]
      dsimp only [nextFrame]
      rw [if_neg fits, ih rest _ within]
      rfl
    · exact first.elim
    · exact first.elim

/-- A request stream that ends as it should, within the cap, is let in as it is. -/
lemma admitted_ok {limits : Limits} {received : Nat} {inbound : List Inbound}
    (ok : (admitted limits received inbound).2 = .ok ()) :
    EndsCleanly inbound ∧ (admitted limits received inbound).1 = chunksOf inbound := by
  induction inbound generalizing received with
  | nil => exact ⟨fun _ mem => absurd mem List.not_mem_nil, rfl⟩
  | cons item inbound ih =>
    rcases item with ⟨_ | options | chunk⟩ | _ | _
    · obtain ⟨readable, chunks⟩ := ih ok
      have first : Inbound.Readable (.message ⟨none⟩) := fun _ => by simp
      exact ⟨List.forall_mem_cons.mpr ⟨first, readable⟩, chunks⟩
    · cases ok
    · have first : Inbound.Readable (.message ⟨some (.chunk chunk)⟩) := fun _ => by simp
      unfold admitted at ok ⊢
      dsimp only [nextFrame] at ok ⊢
      split_ifs at ok ⊢
      obtain ⟨readable, chunks⟩ := ih ok
      exact ⟨List.forall_mem_cons.mpr ⟨first, readable⟩, congrArg _ chunks⟩
    · cases ok
    · cases ok

/-- What is let in stays within the cap. -/
lemma admitted_within (limits : Limits) {received : Nat} (inbound : List Inbound)
    (within : received ≤ limits.byteCap) :
    received + totalBytes (admitted limits received inbound).1 ≤ limits.byteCap := by
  induction inbound generalizing received with
  | nil => exact within
  | cons item inbound ih =>
    rcases item with ⟨_ | options | chunk⟩ | _ | _
    · exact ih within
    · exact within
    · unfold admitted
      dsimp only [nextFrame]
      split_ifs with exceeds
      · exact within
      · have rest := ih (Nat.not_lt.mp exceeds)
        rw [Nat.add_assoc] at rest
        exact rest
    · exact within
    · exact within

variable [F64] [Unicode]

/-- Push some chunks, and send the rows of each before the next. -/
def pump (walk : RecordStream) :
    List (List UInt8) → EventSink → Except ParseError RecordStream × EventSink
  | [], sink => (.ok walk, sink)
  | chunk :: chunks, sink =>
    andThen (drain (walk.push chunk) sink) fun walk sink => pump walk chunks sink

/-- End a parse whose request stream has ended with a result. -/
def conclude (stop : Except ParseError Unit) (walk : RecordStream) (sink : EventSink) :
    Except ParseError Unit × EventSink :=
  match stop with
  | .error e => (.error e, sink)
  | .ok () =>
    andThen (drain walk.finishInput sink) fun walk sink =>
    match walk.status with
    | .error e => (.error e, sink)
    | .ok status => sink.finish status

/-- Reading the data frames pushes the chunks that are let in, and nothing else. -/
lemma receive_pump (limits : Limits) (walk : RecordStream) (inbound : List Inbound)
    (sink : EventSink) :
    receive limits walk inbound sink
      = andThen (pump walk (admitted limits walk.received inbound).1 sink) fun walk' sink =>
        ((admitted limits walk.received inbound).2.map fun _ => walk', sink) := by
  induction inbound generalizing walk sink with
  | nil => rfl
  | cons item inbound ih =>
    unfold receive admitted
    rcases nextFrame limits.idleTimeout item with (⟨_, text⟩ | e) | ⟨_ | (options | chunk)⟩
    · rfl
    · rfl
    · exact ih walk sink
    · rfl
    · dsimp only
      split_ifs with exceeds
      · rfl
      · rw [pump, andThen_assoc]
        rcases drained : drain (walk.push chunk) sink with ⟨e | walk₁, sink₁⟩
        · rfl
        · rw [drain_eq] at drained
          have ended := (EventSink.play_ok drained).1
          have received : walk₁.received = walk.received + chunk.length :=
            (RecordStream.drainFor_received ended).trans (RecordStream.push_received walk chunk)
          rw [andThen_ok, andThen_ok, ih, received]

/-- A parse pushes the chunks that are let in, and nothing else, and then ends as its request stream
does. -/
lemma runParse_pump (walk : RecordStream) (layoutInfo : Pb.LayoutInfo) (limits : Limits)
    (inbound : List Inbound) (sink : EventSink) :
    runParse walk layoutInfo limits inbound sink
      = andThen (sink.send (.layoutInfo layoutInfo)) fun _ sink =>
        andThen (pump walk (admitted limits walk.received inbound).1 sink) fun walk' sink =>
        conclude (admitted limits walk.received inbound).2 walk' sink := by
  rw [runParse]
  congr 1
  funext _ sink
  rw [receive_pump, andThen_assoc]
  congr 1
  funext walk' sink
  cases (admitted limits walk.received inbound).2 <;> rfl

/-! ## The events -/

omit [Unicode] in
/-- What a parse sends when nothing goes wrong: the layout, the rows, the document if one was asked for,
and the trailer. -/
inductive Word (layoutInfo : Pb.LayoutInfo) : Bool → List Pb.Event → Prop where
  | plain (rows status) :
    Word layoutInfo false (openingEvents layoutInfo rows ++ [.status status])
  | document (rows document status) :
    Word layoutInfo true (openingEvents layoutInfo rows ++ [.document document, .status status])

/-- The events a parse finishes with. -/
def closingEvents (fold : Option DocumentFold) (status : Pb.ParseStatus) : List Pb.Event :=
  match fold with
  | none => [.status status]
  | some fold =>
    [.document fold.take, .status { status with warnings := status.warnings ++ fold.truncationWarnings }]

/-- The sink finishes by sending what it finishes with. -/
lemma finish_eq (sink : EventSink) (status : Pb.ParseStatus) :
    sink.finish status
      = { sink with fold := none }.play (closingEvents sink.fold status) (.ok ()) := by
  obtain ⟨tx, fold, idle⟩ := sink
  have last (sink : EventSink) (event : Pb.Event) :
      sink.play [event] (.ok ()) = sink.send event := by
    rw [EventSink.play, play_cons]
    obtain ⟨_ | _, _⟩ := sink.send event <;> rfl
  cases fold with
  | none => exact (last _ _).symm
  | some fold =>
    rw [closingEvents, EventSink.play, play_cons, EventSink.finish]
    dsimp only
    congr 1
    funext _ sink
    exact (last _ _).symm

lemma closingEvents_word (layoutInfo : Pb.LayoutInfo) (rows : List Pb.RecordRow)
    (fold : Option DocumentFold) (status : Pb.ParseStatus) :
    Word layoutInfo fold.isSome (openingEvents layoutInfo rows ++ closingEvents fold status) := by
  cases fold with
  | none => exact .plain rows status
  | some fold => exact .document rows _ _

/-- A parse finishes with its trailer, and says nothing of it before. -/
lemma closingEvents_last (fold : Option DocumentFold) (status : Pb.ParseStatus) :
    ∃ front more,
      closingEvents fold status
        = front ++ [.status { status with warnings := status.warnings ++ more }] ∧
      (∀ status', Pb.Event.status status' ∉ front) ∧ rowsIn front = [] := by
  cases fold with
  | none => exact ⟨[], [], by simp [closingEvents], by simp, rfl⟩
  | some fold => exact ⟨[.document fold.take], fold.truncationWarnings, rfl, by simp, rfl⟩

omit [Unicode] in
lemma status_notMem_opening (layoutInfo : Pb.LayoutInfo) (rows : List Pb.RecordRow)
    (status : Pb.ParseStatus) : Pb.Event.status status ∉ openingEvents layoutInfo rows := by
  simp [openingEvents]

omit [Unicode] in
lemma rowsIn_opening (layoutInfo : Pb.LayoutInfo) (rows : List Pb.RecordRow) :
    rowsIn (openingEvents layoutInfo rows) = rows := by
  rw [openingEvents, rowsIn, List.filterMap_cons_none rfl, List.filterMap_map]
  exact List.filterMap_some

namespace EventSink

omit [Unicode] in
lemma send_items {sink sink' : EventSink} {event : Pb.Event} {e : ParseError}
    (error : sink.send event = (.error e, sink')) : sink'.tx.items = sink.tx.items := by
  unfold send Sender.send at error
  dsimp only at error
  cases outcome : sink.tx.client sink.tx.attempts with
  | taken => rw [outcome] at error; cases error
  | closed => rw [outcome] at error; cases error; rfl
  | stalled => rw [outcome] at error; cases error; rfl

omit [Unicode] in
/-- Of a script that is played either all goes out, or a front and the play ends in an error. -/
lemma play_items {α : Type} (sink : EventSink) (events : List Pb.Event) (res : Except ParseError α) :
    (∃ sink', sink.play events res = (res, sink') ∧
        sink'.tx.items = sink.tx.items ++ events.map .ok) ∨
      ∃ e sink' front back, sink.play events res = (.error e, sink') ∧ events = front ++ back ∧
        back ≠ [] ∧ sink'.tx.items = sink.tx.items ++ front.map .ok :=
  play_log (fun _ _ _ ok => (send_ok ok).1) (fun _ _ _ _ error => send_items error) sink events res

end EventSink

/-- A parse that comes to its trailer opens with its rows, and closes with what they fold to. -/
lemma parseEvents_ok (layoutInfo : Pb.LayoutInfo) (fold : Option DocumentFold) (rows : List Pb.RecordRow)
    (status : Pb.ParseStatus) :
    parseEvents layoutInfo fold (rows, .ok status) = openingEvents layoutInfo rows ++ closingEvents
      (fold.map fun fold => (openingEvents layoutInfo rows).foldl DocumentFold.consume fold) status := by
  cases fold with
  | none => rfl
  | some fold => rfl

/-- A parse either says all it is to say, or a front of it without the trailer and fails. Its own trailer does
not warn of the document. -/
lemma runParse_script (walk : RecordStream) (layoutInfo : Pb.LayoutInfo) (limits : Limits)
    (inbound : List Inbound) (client : Nat → SendOutcome) (fold : Option DocumentFold) (idleTimeout : Nat) :
    (∃ rows status sink, recital limits walk inbound = (rows, .ok status) ∧
      runParse walk layoutInfo limits inbound ⟨⟨client, 0, []⟩, fold, idleTimeout⟩ = (.ok (), sink) ∧
      sink.tx.items = (parseEvents layoutInfo fold (rows, .ok status)).map .ok) ∨
    ∃ rows status e sink front,
      runParse walk layoutInfo limits inbound ⟨⟨client, 0, []⟩, fold, idleTimeout⟩ = (.error e, sink) ∧
      sink.tx.items = front.map .ok ∧ front <+: parseEvents layoutInfo fold (rows, .ok status) ∧
      (∀ status', Pb.Event.status status' ∉ front) ∧
      ∀ warning ∈ status.warnings, warning.code ≠ Pb.WarningCode.documentRowsTruncated.toI32 := by
  rw [runParse_eq]
  rcases said : recital limits walk inbound with ⟨rows, res⟩
  dsimp only
  have silent := status_notMem_opening layoutInfo rows
  obtain ⟨sink₁, played, items⟩ | ⟨e, sink₁, front, back, played, split, _, items⟩ :=
    EventSink.play_items ⟨⟨client, 0, []⟩, fold, idleTimeout⟩ (openingEvents layoutInfo rows) res
  · cases res with
    | error e =>
      rw [played, andThen_error]
      exact .inr ⟨rows, ⟨0, 0, 0, 0, false, [], []⟩, e, sink₁, _, rfl, items,
        parseEvents_ok .. ▸ List.prefix_append .., silent, nofun⟩
    | ok own =>
      have folded := (EventSink.play_ok played).2.2
      rw [played, andThen_ok, finish_eq, folded]
      obtain ⟨front, more, closing, none_front, _⟩ := closingEvents_last
        (fold.map fun fold => (openingEvents layoutInfo rows).foldl DocumentFold.consume fold) own
      obtain ⟨sink₂, played₂, items₂⟩ | ⟨e, sink₂, front₂, back₂, played₂, split₂, ne, items₂⟩ :=
        EventSink.play_items { sink₁ with fold := none } (closingEvents
          (fold.map fun fold => (openingEvents layoutInfo rows).foldl DocumentFold.consume fold) own)
          (.ok ())
      · refine .inl ⟨rows, own, sink₂, rfl, played₂, ?_⟩
        rw [items₂, items, parseEvents_ok, List.map_append]
        rfl
      · refine .inr ⟨rows, own, e, sink₂, openingEvents layoutInfo rows ++ front₂, played₂, ?_, ?_,
          fun status => ?_, recital_codes (congrArg Prod.snd said)⟩
        · rw [items₂, items, List.map_append]
          rfl
        · rw [parseEvents_ok, split₂, ← List.append_assoc]
          exact List.prefix_append ..
        · -- The client left among the closing events, and the status is the last of them.
          have front_le : front₂ <+: front := by
            rw [closing, ← List.dropLast_append_getLast ne, ← List.append_assoc] at split₂
            exact ⟨_, (List.append_inj' split₂ rfl).1.symm⟩
          rw [List.mem_append, not_or]
          exact ⟨silent status, fun mem => none_front status (front_le.subset mem)⟩
  · rw [played, andThen_error]
    refine .inr ⟨rows, ⟨0, 0, 0, 0, false, [], []⟩, e, sink₁, front, rfl, items, ?_, fun status mem => ?_,
      nofun⟩
    · rw [parseEvents_ok, split, List.append_assoc]
      exact List.prefix_append ..
    · exact silent status (split ▸ List.mem_append_left _ mem)

/-- What a parse is to say of a walk over what is sent to it. -/
structure Speaks (document : Bool) (layoutInfo : Pb.LayoutInfo) (layout : Layout)
    (options : DecodeOptions) (inbound : List Inbound) (res : Except ParseError Unit)
    (events : List Pb.Event) : Prop where
  language : ∃ word, Word layoutInfo document word ∧ events <+: word
  /-- The trailer is that of the walk over all that came, behind all its rows, and the last event. -/
  trailer : ∀ before status after, events = before ++ .status status :: after →
    after = [] ∧ EndsCleanly inbound ∧
      ∃ own more, walk layout options (chunksOf inbound) = (rowsIn before, .finished (.ok own)) ∧
        status = { own with warnings := own.warnings ++ more }
  ok : res = .ok () ↔ ∃ status, .status status ∈ events

namespace Speaks

variable {layoutInfo : Pb.LayoutInfo} {layout : Layout} {options : DecodeOptions}
  {inbound : List Inbound} {fold : Option DocumentFold}

/-- A parse that has failed has sent the front of a word, without its trailer. -/
lemma error {events : List Pb.Event} (rows : List Pb.RecordRow) (status : Pb.ParseStatus)
    (e : ParseError) (front : events <+: openingEvents layoutInfo rows ++ closingEvents fold status)
    (silent : ∀ status, Pb.Event.status status ∉ events) :
    Speaks fold.isSome layoutInfo layout options inbound (.error e) events where
  language := ⟨_, closingEvents_word layoutInfo rows fold status, front⟩
  trailer _ status _ eq :=
    absurd (eq ▸ List.mem_append_right _ List.mem_cons_self) (silent status)
  ok := ⟨nofun, fun ⟨status, mem⟩ => absurd mem (silent status)⟩

/-- A parse that has succeeded has sent a word. -/
lemma success {rows : List Pb.RecordRow} {own : Pb.ParseStatus} (clean : EndsCleanly inbound)
    (walked : walk layout options (chunksOf inbound) = (rows, .finished (.ok own))) :
    Speaks fold.isSome layoutInfo layout options inbound (.ok ())
      (openingEvents layoutInfo rows ++ closingEvents fold own) := by
  obtain ⟨front, more, closing, none, noRow⟩ := closingEvents_last fold own
  have all : openingEvents layoutInfo rows ++ closingEvents fold own
      = (openingEvents layoutInfo rows ++ front) ++
        [.status { own with warnings := own.warnings ++ more }] := by
    rw [closing, List.append_assoc]
  have none_before (status : Pb.ParseStatus) :
      Pb.Event.status status ∉ openingEvents layoutInfo rows ++ front := by
    rw [List.mem_append, not_or]
    exact ⟨status_notMem_opening layoutInfo rows status, none status⟩
  refine ⟨⟨_, closingEvents_word layoutInfo rows fold own, List.prefix_rfl⟩, ?_, ?_⟩
  · intro before status after eq
    rw [all] at eq
    obtain ⟨rfl, same, rfl⟩ := (List.append_cons_inj_of_notMem (none_before status)
      List.not_mem_nil).mp eq
    refine ⟨rfl, clean, own, more, ?_, (Pb.Event.status.inj same).symm⟩
    have split : rowsIn (openingEvents layoutInfo rows ++ front)
        = rowsIn (openingEvents layoutInfo rows) ++ rowsIn front := List.filterMap_append
    rw [split, rowsIn_opening, noRow, List.append_nil, walked]
  · refine ⟨fun _ => ⟨{ own with warnings := own.warnings ++ more }, ?_⟩, fun _ => rfl⟩
    rw [all]
    exact List.mem_append_right _ List.mem_cons_self

end Speaks

omit [F64] in
/-- A parse that comes to its trailer has been sent all it was to be sent. -/
lemma recital_clean {layout : Layout} {options : DecodeOptions} {limits : Limits}
    {inbound : List Inbound} {rows : List Pb.RecordRow} {status : Pb.ParseStatus}
    (said : recital limits (RecordStream.new layout options) inbound = (rows, .ok status)) :
    EndsCleanly inbound ∧ (admitted limits 0 inbound).1 = chunksOf inbound := by
  apply admitted_ok
  have received : (RecordStream.new layout options).received = 0 := rfl
  unfold recital intake at said
  rw [received] at said
  generalize admitted limits 0 inbound = let_in at said ⊢
  obtain ⟨chunks, e | _⟩ := let_in
  · dsimp only at said
    generalize (RecordStream.new layout options).feed chunks = fed at said
    obtain ⟨_, _ | _⟩ := fed <;> cases said
  · rfl

/-- What a parse says, whoever reads it. -/
lemma runParse_speaks (layout : Layout) (options : DecodeOptions) (layoutInfo : Pb.LayoutInfo)
    (limits : Limits) (inbound : List Inbound) (client : Nat → SendOutcome)
    (fold : Option DocumentFold) (idleTimeout : Nat) :
    ∃ events,
      (runParse (RecordStream.new layout options) layoutInfo limits inbound
        ⟨⟨client, 0, []⟩, fold, idleTimeout⟩).2.tx.items = events.map .ok ∧
      Speaks fold.isSome layoutInfo layout options inbound
        (runParse (RecordStream.new layout options) layoutInfo limits inbound
          ⟨⟨client, 0, []⟩, fold, idleTimeout⟩).1 events := by
  have asked (rows : List Pb.RecordRow) : (fold.map fun fold =>
      (openingEvents layoutInfo rows).foldl DocumentFold.consume fold).isSome = fold.isSome :=
    Option.isSome_map
  obtain ⟨rows, own, sink, said, ran, items⟩ | ⟨rows, status, e, sink, front, ran, items, le, silent, _⟩ :=
    runParse_script (RecordStream.new layout options) layoutInfo limits inbound client fold idleTimeout
  · obtain ⟨clean, chunks⟩ := recital_clean said
    -- Everything was sent, so the walk read its input to the end and succeeded.
    have walked := recital_walk said
    rw [chunks] at walked
    rw [ran, ← asked rows]
    rw [parseEvents_ok] at items
    exact ⟨_, items, .success clean walked⟩
  · rw [ran, ← asked rows]
    rw [parseEvents_ok] at le
    exact ⟨front, items, .error rows status e le silent⟩

/-- The chunks of a parse stay within the byte caps. -/
structure Capped (service : EbcdicGrpc) (request : Pb.ParseOptions) (walk : RecordStream)
    (layoutInfo : Pb.LayoutInfo) (inbound : List Inbound) (chunks : List (List UInt8))
    (stop : Except ParseError Unit) : Prop where
  /-- The chunks, one after the other, are what the parse pushes into the walk. -/
  pushed : ∀ sink,
    runParse walk layoutInfo ⟨service.byteCap request, service.idleTimeout⟩ inbound sink
      = andThen (sink.send (.layoutInfo layoutInfo)) fun _ sink =>
        andThen (pump walk chunks sink) fun walk sink => conclude stop walk sink
  server : totalBytes chunks ≤ service.maxDocumentBytes
  requested : request.maxDocumentMib ≠ 0 → totalBytes chunks ≤ request.maxDocumentMib * 2 ^ 20
  /-- The chunk that would exceed a cap is not pushed, and ends the parse. -/
  exceeds : ∀ before chunk after, inbound = before ++ .message ⟨some (.chunk chunk)⟩ :: after →
    EndsCleanly before → totalBytes (chunksOf before) ≤ service.byteCap request →
    service.byteCap request < totalBytes (chunksOf before) + chunk.length →
    chunks = chunksOf before ∧ ∃ e, stop = .error e ∧ e.code = .resourceExhausted

lemma runParse_capped (service : EbcdicGrpc) (request : Pb.ParseOptions) (layout : Layout)
    (options : DecodeOptions) (layoutInfo : Pb.LayoutInfo) (inbound : List Inbound) :
    ∃ chunks stop, Capped service request (RecordStream.new layout options) layoutInfo inbound chunks
      stop := by
  let limits : Limits := ⟨service.byteCap request, service.idleTimeout⟩
  have within := admitted_within limits inbound (Nat.zero_le _)
  rw [Nat.zero_add] at within
  have least : service.byteCap request ≤ service.maxDocumentBytes ∧
      (request.maxDocumentMib ≠ 0 → service.byteCap request ≤ request.maxDocumentMib * 2 ^ 20) := by
    unfold EbcdicGrpc.byteCap
    split_ifs with zero
    · exact ⟨le_rfl, fun some => absurd zero some⟩
    · exact ⟨Nat.min_le_right _ _, fun _ => Nat.min_le_left _ _⟩
  refine ⟨(admitted limits 0 inbound).1, (admitted limits 0 inbound).2, fun sink => ?_, ?_, ?_, ?_⟩
  · exact runParse_pump (RecordStream.new layout options) layoutInfo limits inbound sink
  · exact within.trans least.1
  · exact fun some => within.trans (least.2 some)
  · rintro before chunk after rfl readable fits exceeds
    have reached := admitted_append limits readable 0
      (.message ⟨some (.chunk chunk)⟩ :: after) (by rwa [Nat.zero_add])
    have refused : admitted limits (totalBytes (chunksOf before))
        (.message ⟨some (.chunk chunk)⟩ :: after) = ([], .error (.exhausted
          s!"the input exceeds the {limits.byteCap}-byte cap for this stream")) := by
      rw [admitted]
      dsimp only [nextFrame]
      rw [if_pos exceeds]
    rw [Nat.zero_add, refused, List.append_nil] at reached
    rw [reached]
    exact ⟨rfl, _, rfl, rfl⟩

/-- The event language and the byte cap of one parse: whatever comes behind the options frame, and
wherever a send fails. -/
theorem parse_speaks_capped (service : EbcdicGrpc) (request : Pb.ParseOptions) (layout : Layout)
    (options : DecodeOptions) (layoutInfo : Pb.LayoutInfo) (inbound : List Inbound)
    (client : Nat → SendOutcome) (fold : DocumentFold) :
    (∃ events,
      (runParse (RecordStream.new layout options) layoutInfo
        ⟨service.byteCap request, service.idleTimeout⟩ inbound
        ⟨⟨client, 0, []⟩, if request.emitDocument then some fold else none,
          service.idleTimeout⟩).2.tx.items = events.map .ok ∧
      Speaks request.emitDocument layoutInfo layout options inbound
        (runParse (RecordStream.new layout options) layoutInfo
          ⟨service.byteCap request, service.idleTimeout⟩ inbound
          ⟨⟨client, 0, []⟩, if request.emitDocument then some fold else none,
            service.idleTimeout⟩).1 events) ∧
    ∃ chunks stop, Capped service request (RecordStream.new layout options) layoutInfo inbound chunks
      stop := by
  refine ⟨?_, runParse_capped service request layout options layoutInfo inbound⟩
  have said := runParse_speaks layout options layoutInfo
    ⟨service.byteCap request, service.idleTimeout⟩ inbound client
    (if request.emitDocument then some fold else none) service.idleTimeout
  have asked : (if request.emitDocument then some fold else none).isSome = request.emitDocument := by
    cases request.emitDocument <;> rfl
  rwa [asked] at said

end GrpcEbcdic

import GrpcEbcdic.Service.Script

/-!
# A document run changes nothing else

The same parse with and without a document, for a client that keeps reading: but for the document and
the warnings about its tables, the two send the same events and end the same way.
-/

namespace GrpcEbcdic
open Rust Emit

/-- A client that takes every event. -/
def keepsReading (_ : Nat) : SendOutcome := .taken

section Run

variable [F64]

/-- What a run sends besides its document and the warnings about the document's tables. -/
def withoutDocument : Except Status Pb.Event → Option (Except Status Pb.Event)
  | .ok (.document _) => none
  | .ok (.status status) => some (.ok (.status { status with
      warnings := status.warnings.filter
        fun warning => warning.code ≠ Pb.WarningCode.documentRowsTruncated.toI32 }))
  | item => some item

/-- Whether an item is the document. -/
def isDocument : Except Status Pb.Event → Bool
  | .ok (.document _) => true
  | _ => false

/-- Whether an item is the trailer. -/
def isTrailer : Except Status Pb.Event → Bool
  | .ok (.status _) => true
  | _ => false

namespace EventSink

/-- The sink after some events, all of which were taken. -/
def after (sink : EventSink) (events : List Pb.Event) : EventSink :=
  { sink with
    tx := { sink.tx with
      attempts := sink.tx.attempts + events.length
      items := sink.tx.items ++ events.map .ok }
    fold := sink.fold.map fun fold => events.foldl DocumentFold.consume fold }

lemma after_nil (sink : EventSink) : sink.after [] = sink := by
  obtain ⟨⟨client, attempts, items⟩, fold, idle⟩ := sink
  simp [after]

lemma after_after (sink : EventSink) (events events' : List Pb.Event) :
    (sink.after events).after events' = sink.after (events ++ events') := by
  obtain ⟨⟨client, attempts, items⟩, fold, idle⟩ := sink
  cases fold <;> simp [after, Nat.add_assoc]

lemma send_reads {sink : EventSink} (reads : sink.tx.client = keepsReading) (event : Pb.Event) :
    sink.send event = (.ok (), sink.after [event]) := by
  obtain ⟨⟨client, attempts, items⟩, fold, idle⟩ := sink
  cases reads
  rfl

/-- A client that keeps reading takes the whole script. -/
lemma play_reads {α : Type} {sink : EventSink} (reads : sink.tx.client = keepsReading)
    (events : List Pb.Event) (res : Except ParseError α) :
    sink.play events res = (res, sink.after events) := by
  have total (sink : EventSink) (event : Pb.Event) (reads : sink.tx.client = keepsReading) :
      sink.send event = (.ok (), sink.after [event]) ∧
        (sink.after [event]).tx.client = keepsReading := ⟨send_reads reads event, reads⟩
  have sent (events : List Pb.Event) (sink : EventSink) :
      events.foldl (fun sink event => sink.after [event]) sink = sink.after events := by
    induction events generalizing sink with
    | nil => exact sink.after_nil.symm
    | cons event events ih =>
      rw [List.foldl_cons, ih, after_after]
      rfl
  rw [EventSink.play, play_total total reads, sent]

end EventSink

variable [Unicode]

/-- For a client that keeps reading, a parse sends all it has to say. -/
theorem runParse_reads (walk : RecordStream) (layoutInfo : Pb.LayoutInfo) (limits : Limits)
    (inbound : List Inbound) {sink : EventSink} (reads : sink.tx.client = keepsReading) :
    (runParse walk layoutInfo limits inbound sink).1
        = (recital limits walk inbound).2.map (fun _ => ()) ∧
      (runParse walk layoutInfo limits inbound sink).2.tx
        = (sink.after (parseEvents layoutInfo sink.fold (recital limits walk inbound))).tx := by
  rw [runParse_eq, EventSink.play_reads reads]
  obtain ⟨rows, e | status⟩ := recital limits walk inbound
  · exact ⟨rfl, rfl⟩
  · obtain ⟨⟨client, attempts, items⟩, fold, idle⟩ := sink
    cases reads
    rw [andThen_ok, EventSink.finish]
    cases fold with
    | none =>
      dsimp only [EventSink.after, Option.map_none]
      rw [EventSink.send_reads rfl]
      refine ⟨rfl, ?_⟩
      simp [EventSink.after, parseEvents, Nat.add_assoc]
    | some fold =>
      dsimp only [EventSink.after, Option.map_some]
      rw [EventSink.send_reads rfl, andThen_ok, EventSink.send_reads rfl]
      refine ⟨rfl, ?_⟩
      simp [EventSink.after, parseEvents, Nat.add_assoc, DocumentFold.consume]

/-- Without the document and its warnings, a document run has sent what a plain run sends, and one
document for its one trailer. -/
lemma parseEvents_withoutDocument (layoutInfo : Pb.LayoutInfo) (fold : DocumentFold)
    (said : List Pb.RecordRow × Except ParseError Pb.ParseStatus)
    (codes : ∀ status, said.2 = .ok status →
      ∀ warning ∈ status.warnings, warning.code ≠ Pb.WarningCode.documentRowsTruncated.toI32) :
    ((parseEvents layoutInfo (some fold) said).map Except.ok).filterMap withoutDocument
        = (parseEvents layoutInfo none said).map .ok ∧
      ((parseEvents layoutInfo (some fold) said).map Except.ok).countP isDocument
        = ((parseEvents layoutInfo (some fold) said).map Except.ok).countP isTrailer ∧
      ((parseEvents layoutInfo (some fold) said).map Except.ok).countP isTrailer ≤ 1 := by
  -- The events of the rows hold neither a document nor a trailer.
  have opening (rows : List Pb.RecordRow) :
      ((openingEvents layoutInfo rows).map Except.ok).filterMap withoutDocument
          = (openingEvents layoutInfo rows).map Except.ok ∧
        ((openingEvents layoutInfo rows).map Except.ok).countP isDocument = 0 ∧
        ((openingEvents layoutInfo rows).map Except.ok).countP isTrailer = 0 := by
    refine ⟨?_, by simp [openingEvents, isDocument], by simp [openingEvents, isTrailer]⟩
    induction rows with
    | nil => rfl
    | cons row rows ih => simpa [openingEvents, withoutDocument] using ih
  obtain ⟨rows, e | status⟩ := said
  · obtain ⟨same, documents, trailers⟩ := opening rows
    refine ⟨same, documents.trans trailers.symm, ?_⟩
    exact trailers.trans_le (Nat.zero_le 1)
  · obtain ⟨same, documents, trailers⟩ := opening rows
    -- Of the warnings of a trailer, exactly those of the fold are filtered out.
    have kept : status.warnings.filter
        (fun warning => warning.code ≠ Pb.WarningCode.documentRowsTruncated.toI32)
          = status.warnings := by
      rw [List.filter_eq_self]
      exact fun warning mem => decide_eq_true (codes status rfl warning mem)
    have cut : ((openingEvents layoutInfo rows).foldl DocumentFold.consume
        fold).truncationWarnings.filter
          (fun warning => warning.code ≠ Pb.WarningCode.documentRowsTruncated.toI32) = [] := by
      rw [List.filter_eq_nil_iff]
      intro warning mem
      obtain ⟨_, _, rfl⟩ := List.mem_map.mp mem
      simp [DocumentFold.truncationWarning]
    simp only [parseEvents, List.map_append, List.filterMap_append, List.countP_append, same,
      documents, trailers]
    refine ⟨?_, rfl, le_of_eq rfl⟩
    have document (d : Doc.Document) : withoutDocument (.ok (.document d)) = none := rfl
    simp only [List.map_cons, List.map_nil, List.filterMap_cons, List.filterMap_nil, document]
    rw [withoutDocument, List.filter_append, kept, cut, List.append_nil]

/-- The items of a call whose client keeps reading: the events of its parse, and its error. -/
def readItems (layoutInfo : Pb.LayoutInfo) (fold : Option DocumentFold)
    (said : List Pb.RecordRow × Except ParseError Pb.ParseStatus) : List (Except Status Pb.Event) :=
  match said.2 with
  | .error e => (parseEvents layoutInfo fold said).map .ok ++ [.error e.toStatus]
  | .ok _ => (parseEvents layoutInfo fold said).map .ok

lemma readItems_withoutDocument (layoutInfo : Pb.LayoutInfo) (fold : DocumentFold)
    (said : List Pb.RecordRow × Except ParseError Pb.ParseStatus)
    (codes : ∀ status, said.2 = .ok status →
      ∀ warning ∈ status.warnings, warning.code ≠ Pb.WarningCode.documentRowsTruncated.toI32) :
    (readItems layoutInfo (some fold) said).filterMap withoutDocument
        = readItems layoutInfo none said ∧
      (readItems layoutInfo (some fold) said).countP isDocument
        = (readItems layoutInfo (some fold) said).countP isTrailer ∧
      (readItems layoutInfo (some fold) said).countP isTrailer ≤ 1 := by
  obtain ⟨same, documents, trailers⟩ := parseEvents_withoutDocument layoutInfo fold said codes
  obtain ⟨rows, e | status⟩ := said
  · dsimp only [readItems]
    rw [List.filterMap_append, same, List.countP_append, List.countP_append, documents]
    exact ⟨rfl, rfl, trailers⟩
  · exact ⟨same, documents, trailers⟩

/-- What such a parse leaves on the channel. -/
lemma runParse_items (walk : RecordStream) (layoutInfo : Pb.LayoutInfo) (limits : Limits)
    (inbound : List Inbound) (fold : Option DocumentFold) (idleTimeout : Nat) :
    (match runParse walk layoutInfo limits inbound ⟨⟨keepsReading, 0, []⟩, fold, idleTimeout⟩ with
      | (.ok (), sink) => sink.tx.items
      | (.error e, sink) => (sink.tx.send (.error e.toStatus)).2.items)
      = readItems layoutInfo fold (recital limits walk inbound) := by
  have reads : (⟨⟨keepsReading, 0, []⟩, fold, idleTimeout⟩ : EventSink).tx.client
      = keepsReading := rfl
  obtain ⟨res, tx⟩ := runParse_reads walk layoutInfo limits inbound reads
  generalize runParse walk layoutInfo limits inbound _ = ran at res tx
  obtain ⟨res', sink⟩ := ran
  change res' = _ at res
  change sink.tx = _ at tx
  generalize recital limits walk inbound = said at res tx
  obtain ⟨rows, e | status⟩ := said
  · cases res
    dsimp only [Except.map]
    rw [tx]
    rfl
  · cases res
    dsimp only [Except.map]
    rw [tx]
    rfl

variable [SerdeJson]

/-- The call of a client that keeps reading. -/
theorem parseEbcdic_reads (service : EbcdicGrpc) (running : Nat) (options : Pb.ParseOptions)
    (inbound : List Inbound) :
    service.parseEbcdic running keepsReading (.message ⟨some (.options options)⟩ :: inbound) =
      if service.maxConcurrentParses ≤ running then
        .error ⟨.resourceExhausted,
          s!"{service.maxConcurrentParses} parses are already running; retry when one finishes"⟩
      else
        match Codec.resolve options.encoding with
        | .error e => .error e.toParseError.toStatus
        | .ok codec =>
          match resolve options with
          | .error e => .error e.toStatus
          | .ok layout =>
            .ok (readItems (layout.toLayoutInfo codec.name)
              (if options.emitDocument then some (.new crateVersion) else none)
              (recital ⟨service.byteCap options, service.idleTimeout⟩
                (RecordStream.new layout {
                  codec := codec
                  stripControlCharacters := options.stripControlCharacters.getD true
                  maxRecords := options.maxRecords
                  abortOnError := options.abortOnError }) inbound)) := by
  unfold EbcdicGrpc.parseEbcdic
  apply if_congr Iff.rfl rfl
  simp only [openingOptions, nextFrame, List.tail_cons]
  rcases Codec.resolve options.encoding with e | codec
  · rfl
  · rcases resolve options with e | layout
    · rfl
    · dsimp only
      rw [← runParse_items]
      generalize runParse _ _ _ _ _ = ran
      obtain ⟨_ | _, _⟩ := ran <;> rfl

/-- A document run changes nothing else: without its one document, and without the warnings about the
document's tables in its trailer, it is the run of the same call without a document, whatever the fold
keeps or drops. -/
theorem parse_without_document :
    (∀ (walk : RecordStream) (layoutInfo : Pb.LayoutInfo) (limits : Limits) (inbound : List Inbound)
      (idleTimeout : Nat) (fold : DocumentFold),
      let run fold :=
        runParse walk layoutInfo limits inbound ⟨⟨keepsReading, 0, []⟩, fold, idleTimeout⟩
      (run (some fold)).1 = (run none).1 ∧
        (run (some fold)).2.tx.items.filterMap withoutDocument = (run none).2.tx.items) ∧
    ∀ (service : EbcdicGrpc) (running : Nat) (options : Pb.ParseOptions) (inbound : List Inbound),
      let call emit := service.parseEbcdic running keepsReading
        (.message ⟨some (.options { options with emitDocument := emit })⟩ :: inbound)
      (call true).map (·.filterMap withoutDocument) = call false ∧
        ∀ items, call true = .ok items →
          items.countP isDocument = items.countP isTrailer ∧ items.countP isTrailer ≤ 1 := by
  constructor
  · intro walk layoutInfo limits inbound idleTimeout fold run
    have reads (fold : Option DocumentFold) :
        (⟨⟨keepsReading, 0, []⟩, fold, idleTimeout⟩ : EventSink).tx.client = keepsReading := rfl
    obtain ⟨res, tx⟩ := runParse_reads walk layoutInfo limits inbound (reads (some fold))
    obtain ⟨res', tx'⟩ := runParse_reads walk layoutInfo limits inbound (reads none)
    refine ⟨res.trans res'.symm, ?_⟩
    rw [tx, tx']
    exact (parseEvents_withoutDocument layoutInfo fold _ fun _ => recital_codes).1
  · intro service running options inbound call
    have same (emit : Bool) : service.byteCap { options with emitDocument := emit }
        = service.byteCap options := rfl
    have resolved (emit : Bool) : resolve { options with emitDocument := emit }
        = resolve options := rfl
    dsimp only [call]
    rw [parseEbcdic_reads, parseEbcdic_reads]
    simp only [same, resolved, Bool.false_eq_true, if_true, if_false]
    split_ifs with busy
    · exact ⟨rfl, fun _ no => by cases no⟩
    · rcases Codec.resolve options.encoding with e | codec
      · exact ⟨rfl, fun _ no => by cases no⟩
      · rcases resolve options with e | layout
        · exact ⟨rfl, fun _ no => by cases no⟩
        · dsimp only
          obtain ⟨same, documents, trailers⟩ := readItems_withoutDocument
            (layout.toLayoutInfo codec.name) (.new crateVersion) _ fun _ => recital_codes
          refine ⟨congrArg Except.ok same, ?_⟩
          rintro _ ⟨⟩
          exact ⟨documents, trailers⟩

end Run

section Sample

attribute [local instance] asciiUnicode noJson coreF64

/-- The sample input as frames, one of them without a payload. -/
def sampleInbound : List Inbound :=
  [.message ⟨some (.chunk [0, 0, 5, 0xc1])⟩, .message ⟨none⟩,
    .message ⟨some (.chunk [0xc2, 0x12, 0x3c, 0xff])⟩]

/-- The parse of the sample input with some fold or none. -/
def sampleRun (fold : Option DocumentFold) : Except ParseError Unit × EventSink :=
  runParse (RecordStream.new sampleLayout sampleOptions) (sampleLayout.toLayoutInfo "cp037") ⟨100, 30000⟩
    sampleInbound ⟨⟨keepsReading, 0, []⟩, fold, 30000⟩

/-- A fold that keeps no row. -/
def sampleFold : DocumentFold := (DocumentFold.new "0.1.0").withRowCap 0

/-- Whether an item is a trailer with one warning. -/
def warnsOnce : Except Status Pb.Event → Bool
  | .ok (.status status) => status.warnings.length == 1
  | _ => false

/-- With a document and without, for a fold that drops the row, and by way of the service. -/
theorem parse_without_document_sample :
    ((sampleRun (some sampleFold)).2.tx.items.countP isDocument = 1 ∧
      (sampleRun (some sampleFold)).2.tx.items.countP warnsOnce = 1 ∧
      (sampleRun (some sampleFold)).2.tx.items.filterMap withoutDocument = (sampleRun none).2.tx.items) ∧
    ∃ items, EbcdicGrpc.new.parseEbcdic 0 keepsReading
        (.message ⟨some (.options { sampleRequest with emitDocument := true })⟩ :: sampleInbound)
        = .ok items ∧
      items.length = 4 ∧ items.countP isDocument = items.countP isTrailer ∧
      EbcdicGrpc.new.parseEbcdic 0 keepsReading
          (.message ⟨some (.options { sampleRequest with emitDocument := false })⟩ :: sampleInbound)
        = .ok (items.filterMap withoutDocument) := by
  obtain ⟨run, call⟩ := parse_without_document
  refine ⟨⟨rfl, rfl, (run _ _ _ sampleInbound _ _).2⟩, ?_⟩
  obtain ⟨same, counts⟩ := call EbcdicGrpc.new 0 sampleRequest sampleInbound
  obtain ⟨items, answered, four⟩ : ∃ items, EbcdicGrpc.new.parseEbcdic 0 keepsReading
      (.message ⟨some (.options { sampleRequest with emitDocument := true })⟩ :: sampleInbound)
        = .ok items ∧ items.length = 4 := ⟨_, rfl, rfl⟩
  dsimp only at same
  rw [answered] at same
  exact ⟨items, answered, four, (counts items answered).1, same.symm⟩

end Sample

end GrpcEbcdic

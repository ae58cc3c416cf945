import GrpcEbcdic.Service.Isolation
import GrpcEbcdic.Stream.Chunking

/-!
# Frames do not matter

What a parse says is a function of the bytes it lets in and of how its request stream ends
(`recital_eq`). So the frames an upload comes in are not visible in the response, and an upload that is cut
short has been answered with the beginning of what any other continuation of it is answered with.
-/

namespace GrpcEbcdic
open Rust Emit Incremental

/-- An item that ends a request stream of which some bytes have been let in, with an error. -/
def Inbound.Cuts (limits : Limits) (received : Nat) : Inbound → Prop
  | .message ⟨some (.chunk chunk)⟩ => limits.byteCap < received + chunk.length
  | .message ⟨none⟩ => False
  | _ => True

lemma admitted_cut {limits : Limits} {received : Nat} {item : Inbound}
    (cuts : item.Cuts limits received) (inbound : List Inbound) :
    ∃ e, admitted limits received (item :: inbound) = ([], .error e) := by
  rcases item with ⟨_ | options | chunk⟩ | ⟨status, text⟩ | _
  · exact cuts.elim
  · exact ⟨_, rfl⟩
  · exact ⟨_, if_pos cuts⟩
  · exact ⟨_, rfl⟩
  · exact ⟨_, rfl⟩

section Whole

variable [Unicode] {layout : Layout} (v : layout.Valid) (options : DecodeOptions)

/-- What a parse says of the bytes it lets in, by how its request stream ends. -/
def wholeRecital (input : List UInt8) (stop : Except ParseError Unit) :
    List Pb.RecordRow × Except ParseError Pb.ParseStatus :=
  ((batch v options input).1.map Prod.fst,
    match (batch v options input).2, stop with
    | .failed e, _ => .error e
    | _, .error e => .error e
    | .waiting σ _, .ok () => (atEnd layout options input.length σ).status
    | .stopped σ, .ok () => (atEnd layout options input.length σ).status)

/-- What a parse says depends on the bytes it lets in and on how its request stream ends. -/
theorem recital_eq (limits : Limits) (inbound : List Inbound) :
    recital limits (RecordStream.new layout options) inbound
      = wholeRecital v options (admitted limits 0 inbound).1.flatten (admitted limits 0 inbound).2 := by
  have received : (RecordStream.new layout options).received = 0 := rfl
  unfold recital intake wholeRecital
  rw [received]
  generalize admitted limits 0 inbound = let_in
  obtain ⟨chunks, stop⟩ := let_in
  have said := walk_eq v options chunks
  obtain ⟨rows, ends⟩ := feed_new v options chunks
  unfold walk wholeWalk at said
  dsimp only at said ⊢
  generalize (RecordStream.new layout options).feed chunks = fed at said rows ends ⊢
  obtain ⟨rows₁, e | walk₁⟩ := fed
  · rcases halt : (batch v options chunks.flatten).2 with ⟨σ, rest⟩ | σ | e'
    · rw [halt] at ends
      obtain ⟨_, no, _⟩ := ends
      cases no
    · rw [halt] at ends
      obtain ⟨_, no, _⟩ := ends
      cases no
    · rw [halt] at ends
      cases ends
      exact Prod.ext rows rfl
  · rcases stop with e | done
    · rcases halt : (batch v options chunks.flatten).2 with ⟨σ, rest⟩ | σ | e'
      · exact Prod.ext rows rfl
      · exact Prod.ext rows rfl
      · rw [halt] at ends
        cases ends
    · dsimp only [Except.map] at said ⊢
      generalize walk₁.finishInput.drain = drained at said ⊢
      obtain ⟨rows₂, e | walk₂⟩ := drained
      · obtain ⟨all, last⟩ := Prod.mk.inj said
        apply Prod.ext all
        rcases halt : (batch v options chunks.flatten).2 with ⟨σ, rest⟩ | σ | e'
        · rw [halt] at last
          cases last
        · rw [halt] at last
          cases last
        · rw [halt] at last
          cases last
          rfl
      · obtain ⟨all, last⟩ := Prod.mk.inj said
        apply Prod.ext all
        rcases halt : (batch v options chunks.flatten).2 with ⟨σ, rest⟩ | σ | e'
        · rw [halt] at last
          exact WalkEnd.finished.inj last
        · rw [halt] at last
          exact WalkEnd.finished.inj last
        · rw [halt] at last
          cases last

end Whole

lemma totalBytes_eq (chunks : List (List UInt8)) : totalBytes chunks = chunks.flatten.length :=
  List.length_flatten.symm

/-- What is let in of frames within the cap is what they carry. -/
lemma admitted_frames (limits : Limits) {frames : List Inbound} (clean : EndsCleanly frames)
    (within : (chunksOf frames).flatten.length ≤ limits.byteCap) (tail : List Inbound) :
    admitted limits 0 (frames ++ tail) =
      (chunksOf frames ++ (admitted limits (chunksOf frames).flatten.length tail).1,
        (admitted limits (chunksOf frames).flatten.length tail).2) := by
  have split := admitted_append limits clean 0 tail (by rw [Nat.zero_add, totalBytes_eq]; exact within)
  rw [Nat.zero_add, totalBytes_eq] at split
  exact split

section Frames

variable [F64] [Unicode]

variable {layout : Layout} {limits : Limits} {frames frames' : List Inbound}

/-- A parse says the same of the same bytes in other frames. -/
lemma runParse_frames (v : layout.Valid) (options : DecodeOptions) (layoutInfo : Pb.LayoutInfo)
    (clean : EndsCleanly frames) (clean' : EndsCleanly frames')
    (same : (chunksOf frames).flatten = (chunksOf frames').flatten)
    (within : (chunksOf frames).flatten.length ≤ limits.byteCap) (tail : List Inbound)
    (sink : EventSink) :
    runParse (RecordStream.new layout options) layoutInfo limits (frames ++ tail) sink
      = runParse (RecordStream.new layout options) layoutInfo limits (frames' ++ tail) sink := by
  rw [runParse_eq, runParse_eq, recital_eq v, recital_eq v, admitted_frames limits clean within,
    admitted_frames limits clean' (same ▸ within), List.flatten_append, List.flatten_append, same]

/-- The beginning of some items, or such a beginning and one error. -/
def CutOf (items items' : List (Except Status Pb.Event)) : Prop :=
  items <+: items' ∨ ∃ front e, items = front ++ [.error e] ∧ front <+: items'

/-- A parse that is cut short has said the beginning of what it says of any continuation. -/
lemma runParse_cut (v : layout.Valid) (options : DecodeOptions) (layoutInfo : Pb.LayoutInfo)
    (clean : EndsCleanly frames) (within : (chunksOf frames).flatten.length ≤ limits.byteCap)
    {cut : Inbound} (cuts : cut.Cuts limits (chunksOf frames).flatten.length)
    (rest more : List Inbound) (sink : EventSink) :
    CutOf (said (ends (runParse (RecordStream.new layout options) layoutInfo limits
        (frames ++ cut :: rest) sink)))
      (said (ends (runParse (RecordStream.new layout options) layoutInfo limits
        (frames ++ more) sink))) := by
  obtain ⟨e, stops⟩ := admitted_cut cuts rest
  rw [runParse_eq, runParse_eq, recital_eq v, recital_eq v, admitted_frames limits clean within,
    admitted_frames limits clean within, stops]
  dsimp only
  rw [List.append_nil, List.flatten_append]
  generalize (chunksOf frames).flatten = input
  generalize (admitted limits input.length more).1.flatten = input'
  generalize (admitted limits input.length more).2 = stop
  have ended : ∃ e', (wholeRecital v options input (.error e)).2 = .error e' := by
    unfold wholeRecital
    rcases (batch v options input).2 with ⟨σ, rest⟩ | σ | e'
    · exact ⟨e, rfl⟩
    · exact ⟨e, rfl⟩
    · exact ⟨e', rfl⟩
  obtain ⟨e', ended⟩ := ended
  obtain ⟨late, rows⟩ : ∃ late, (wholeRecital v options (input ++ input') stop).1
      = (wholeRecital v options input (.error e)).1 ++ late := by
    obtain ⟨_, _, app⟩ := batch_append v options input input'
    unfold wholeRecital
    rw [app]
    exact ⟨_, List.map_append⟩
  rw [ended, rows]
  generalize (wholeRecital v options input (.error e)).1 = said_rows
  generalize (wholeRecital v options (input ++ input') stop).2 = res
  have events : openingEvents layoutInfo (said_rows ++ late)
      = openingEvents layoutInfo said_rows ++ late.map .record := by
    rw [openingEvents, List.map_append]
    rfl
  rw [events, EventSink.play, play_error_andThen, ← play_ok_result, EventSink.play, play_append,
    andThen_assoc]
  rcases play EventSink.send sink (openingEvents layoutInfo said_rows) (.ok ()) with ⟨e₁ | _, sink₁⟩
  · exact .inl List.prefix_rfl
  · have goes_on : Extends sink₁ (andThen (sink₁.play (late.map .record) res) fun status sink =>
        sink.finish status) := (Extends.play ..).andThen fun status sink => .finish sink status
    have front := goes_on.trans (said_extends _)
    have tail : (said (ends ((.error e' : Except ParseError Unit), sink₁))) = sink₁.tx.items ∨
        said (ends ((.error e' : Except ParseError Unit), sink₁))
          = sink₁.tx.items ++ [.error e'.toStatus] := by
      obtain ⟨⟨client, attempts, items⟩, fold, idle⟩ := sink₁
      show (Sender.send ⟨client, attempts, items⟩ (.error e'.toStatus)).2.items = items ∨
        (Sender.send ⟨client, attempts, items⟩ (.error e'.toStatus)).2.items = items ++ [_]
      rw [Sender.send_eq rfl]
      dsimp only
      split_ifs
      · exact .inr rfl
      · exact .inl rfl
    rcases tail with none | error
    · exact .inl (none ▸ front)
    · exact .inr ⟨_, _, error, front⟩

variable [SerdeJson]

/-- The items of a parse that is admitted, under its options. -/
lemma parseEbcdic_options (service : EbcdicGrpc) {running : Nat}
    (free : running < service.maxConcurrentParses) (client : Nat → SendOutcome)
    (options : Pb.ParseOptions) (inbound : List Inbound) :
    service.parseEbcdic running client (.message ⟨some (.options options)⟩ :: inbound)
      = (service.opening options).map fun opening =>
          said (ends (runParse opening.walk opening.layoutInfo opening.limits inbound
            ⟨⟨client, 0, []⟩, opening.fold, opening.limits.idleTimeout⟩)) := by
  have begins : service.begin (some (.message ⟨some (.options options)⟩)) = service.opening options :=
    rfl
  have parse := parseEbcdic_eq service free client (.message ⟨some (.options options)⟩ :: inbound)
  rwa [List.head?_cons, List.tail_cons, begins] at parse

/-- A parse starts at the beginning of a valid layout, with the cap of its options. -/
lemma opening_ok {service : EbcdicGrpc} {options : Pb.ParseOptions} {opening : Opening}
    (ok : service.opening options = .ok opening) :
    ∃ layout decodeOptions, layout.Valid ∧ opening.walk = RecordStream.new layout decodeOptions ∧
      opening.limits = ⟨service.byteCap options, service.idleTimeout⟩ := by
  have begins : service.begin (some (.message ⟨some (.options options)⟩)) = .ok opening := ok
  obtain ⟨_, codec, layout, read, _, resolved, rfl⟩ := begin_ok begins
  cases read
  exact ⟨layout, _, resolve_valid resolved, rfl, rfl⟩

/-- The frames an upload comes in do not matter: with the same bytes within the cap, and the same behind
them, every client gets the same. -/
theorem frames_do_not_matter (service : EbcdicGrpc) (running : Nat) (client : Nat → SendOutcome)
    (options : Pb.ParseOptions) {frames frames' : List Inbound} (clean : EndsCleanly frames)
    (clean' : EndsCleanly frames') (same : (chunksOf frames).flatten = (chunksOf frames').flatten)
    (within : (chunksOf frames).flatten.length ≤ service.byteCap options) (tail : List Inbound) :
    service.parseEbcdic running client (.message ⟨some (.options options)⟩ :: (frames ++ tail))
      = service.parseEbcdic running client
          (.message ⟨some (.options options)⟩ :: (frames' ++ tail)) := by
  rcases Nat.lt_or_ge running service.maxConcurrentParses with free | full
  · rw [parseEbcdic_options service free, parseEbcdic_options service free]
    rcases opens : service.opening options with status | opening
    · rfl
    · obtain ⟨layout, decodeOptions, valid, walk, limits⟩ := opening_ok opens
      rw [Except.map, Except.map, walk, limits, runParse_frames valid decodeOptions _ clean clean' same within]
  · exact (if_pos full).trans (if_pos full).symm

/-- An upload that is cut short, by its request stream, its frames or the cap, has been answered with the
beginning of what any other continuation of it is answered with, or with that and one error. -/
theorem cut_upload (service : EbcdicGrpc) (running : Nat) (client : Nat → SendOutcome)
    (options : Pb.ParseOptions) {frames : List Inbound} (clean : EndsCleanly frames)
    (within : (chunksOf frames).flatten.length ≤ service.byteCap options) {cut : Inbound}
    (cuts : cut.Cuts ⟨service.byteCap options, service.idleTimeout⟩ (chunksOf frames).flatten.length)
    (rest more : List Inbound) {items : List (Except Status Pb.Event)}
    (answered : service.parseEbcdic running client
      (.message ⟨some (.options options)⟩ :: (frames ++ cut :: rest)) = .ok items) :
    ∃ items', service.parseEbcdic running client
        (.message ⟨some (.options options)⟩ :: (frames ++ more)) = .ok items' ∧
      CutOf items items' := by
  rcases Nat.lt_or_ge running service.maxConcurrentParses with free | full
  · rw [parseEbcdic_options service free] at answered ⊢
    rcases opens : service.opening options with status | opening
    · rw [opens] at answered
      cases answered
    · rw [opens] at answered
      cases answered
      obtain ⟨layout, decodeOptions, valid, walk, limits⟩ := opening_ok opens
      refine ⟨_, rfl, ?_⟩
      dsimp only
      rw [walk, limits]
      exact runParse_cut valid decodeOptions _ clean within cuts rest more _
  · cases (if_pos full).symm.trans answered

end Frames

section Sample

attribute [local instance] asciiUnicode noJson coreF64

/-- The sample's chunks as data frames. -/
def sampleFrames : List Inbound := sampleChunks.map fun chunk => .message ⟨some (.chunk chunk)⟩

/-- The sample's bytes in one frame. -/
def sampleFrame : List Inbound := [.message ⟨some (.chunk sampleChunks.flatten)⟩]

lemma sampleFrames_clean : EndsCleanly sampleFrames ∧ EndsCleanly sampleFrame := by
  have readable (chunk : List UInt8) : Inbound.Readable (.message ⟨some (.chunk chunk)⟩) := by
    rintro options ⟨⟩
  constructor
  · exact List.forall_mem_cons.mpr ⟨readable _, List.forall_mem_singleton.mpr (readable _)⟩
  · exact List.forall_mem_singleton.mpr (readable _)

theorem frames_do_not_matter_sample :
    EbcdicGrpc.new.parseEbcdic 0 keepsReading
        (.message ⟨some (.options sampleRequest)⟩ :: (sampleFrames ++ []))
      = EbcdicGrpc.new.parseEbcdic 0 keepsReading
          (.message ⟨some (.options sampleRequest)⟩ :: (sampleFrame ++ [])) :=
  frames_do_not_matter EbcdicGrpc.new 0 keepsReading sampleRequest sampleFrames_clean.1
    sampleFrames_clean.2 rfl (by decide) []

theorem cut_upload_sample :
    ∃ items items', EbcdicGrpc.new.parseEbcdic 0 keepsReading
        (.message ⟨some (.options sampleRequest)⟩ :: (sampleFrames ++ [.idle])) = .ok items ∧
      EbcdicGrpc.new.parseEbcdic 0 keepsReading
        (.message ⟨some (.options sampleRequest)⟩ :: (sampleFrames ++ [])) = .ok items' ∧
      CutOf items items' := by
  obtain ⟨items, answered⟩ : ∃ items, EbcdicGrpc.new.parseEbcdic 0 keepsReading
      (.message ⟨some (.options sampleRequest)⟩ :: (sampleFrames ++ [.idle])) = .ok items := by
    rw [parseEbcdic_options _ (by decide)]
    exact ⟨_, rfl⟩
  have cuts : Inbound.idle.Cuts ⟨EbcdicGrpc.new.byteCap sampleRequest, EbcdicGrpc.new.idleTimeout⟩
    (chunksOf sampleFrames).flatten.length := trivial
  obtain ⟨items', all, front⟩ := cut_upload EbcdicGrpc.new 0 keepsReading sampleRequest
    sampleFrames_clean.1 (by decide) cuts [] [] answered
  exact ⟨items, items', answered, all, front⟩

end Sample

end GrpcEbcdic

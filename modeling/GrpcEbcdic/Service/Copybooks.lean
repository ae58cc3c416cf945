import GrpcEbcdic.Copybook.Data
import GrpcEbcdic.Service.Framing

/-!
# Copybooks at work

The whole way from a copybook and the records of a program to the events of a response: a client that sends
the copybook of a tree, and records as a program stores the data of the tree, is told those data.
-/

namespace GrpcEbcdic
open Rust Emit Incremental

/-- How the records of a request are decoded with a code page. -/
def Pb.ParseOptions.decodeOptions (options : Pb.ParseOptions) (codec : Codec) : DecodeOptions where
  codec := codec
  stripControlCharacters := options.stripControlCharacters.getD true
  maxRecords := options.maxRecords
  abortOnError := options.abortOnError

section Served

variable [F64] [Unicode] [SerdeJson]

omit [F64] in
/-- The copybook of a tree resolves to the layout the tree stands for. -/
lemma resolve_tree {tree : Copybook.Tree} (valid : tree.Valid) {options : Pb.ParseOptions}
    (source : options.layoutSource = some (.copybook tree.print)) : resolve options = .ok tree.resolved := by
  unfold resolve
  rw [source]
  show (Copybook.compile tree.print >>= fun raw => validate raw .copybook) = _
  rw [valid.compiles]
  exact valid.validates

omit [F64] [SerdeJson] in
/-- What a walk says of the records of a program. -/
lemma recital_tree {tree : Copybook.Tree} (valid : tree.Valid) (v : tree.resolved.Valid)
    {options : DecodeOptions} {data : List Copybook.Datum} {images : List (List UInt8)}
    (stored : List.Forall₂ (fun datum bytes => tree.image options.codec datum = some bytes) data images)
    (uncut : options.maxRecords = 0 ∨ data.length < options.maxRecords) {limits : Limits}
    {frames : List Inbound} (clean : EndsCleanly frames) (sent : (chunksOf frames).flatten = images.flatten)
    (within : data.length * tree.bytes ≤ limits.byteCap) :
    recital limits (RecordStream.new tree.resolved options) frames
      = (data.mapIdx (tree.row options), .ok (tree.status data.length)) := by
  obtain ⟨reads, all, count, length⟩ := valid.passages stored
  have rows : passageRows tree.resolved [] (List.zipWith (tree.passage options) data images)
      = data.mapIdx (tree.row options) :=
    Copybook.passageRows_tree (Nat.zero_mul _).symm rfl stored
  have whole : images.flatten
      = [] ++ (List.zipWith (tree.passage options) data images).flatMap (·.bytes) ++ [] := by
    rw [List.nil_append, List.append_nil, all]
  obtain ⟨σ, said, halt, status⟩ := batch_passages v rfl rfl reads (count.symm ▸ uncut) whole
  rw [rows] at said status
  rw [Copybook.rowsStatus_tree length] at status
  have let_in := admitted_frames limits clean (by rw [sent, length]; exact within) []
  rw [List.append_nil] at let_in
  have chunks : admitted limits 0 frames = (chunksOf frames, .ok ()) :=
    let_in.trans (congrArg (·, Except.ok ()) (List.append_nil _))
  rw [recital_eq v, chunks]
  show wholeRecital v options (chunksOf frames).flatten (.ok ()) = _
  rw [sent]
  unfold wholeRecital
  rw [said, halt]
  exact congrArg (data.mapIdx (tree.row options), ·) status

/-- A client that sends the copybook of a tree and records as a program stores the data of the tree, in any
frames within its byte cap, is told the data of each record, and that nothing is left. -/
theorem copybook_served (service : EbcdicGrpc) {running : Nat}
    (free : running < service.maxConcurrentParses) {tree : Copybook.Tree} (valid : tree.Valid)
    {options : Pb.ParseOptions} (source : options.layoutSource = some (.copybook tree.print))
    {codec : Codec} (page : Codec.resolve options.encoding = .ok codec)
    {data : List Copybook.Datum} {images : List (List UInt8)}
    (stored : List.Forall₂ (fun datum bytes => tree.image codec datum = some bytes) data images)
    (uncut : options.maxRecords = 0 ∨ data.length < options.maxRecords)
    {frames : List Inbound} (clean : EndsCleanly frames) (sent : (chunksOf frames).flatten = images.flatten)
    (within : data.length * tree.bytes ≤ service.byteCap options) :
    service.parseEbcdic running keepsReading (.message ⟨some (.options options)⟩ :: frames)
      = .ok (readItems (tree.resolved.toLayoutInfo codec.name)
          (if options.emitDocument then some (.new crateVersion) else none)
          (data.mapIdx (tree.row (options.decodeOptions codec)), .ok (tree.status data.length))) := by
  have resolved := resolve_tree valid source
  have stored' : List.Forall₂ (fun datum bytes =>
      tree.image (options.decodeOptions codec).codec datum = some bytes) data images := stored
  have capped : data.length * tree.bytes
      ≤ (Limits.mk (service.byteCap options) service.idleTimeout).byteCap := within
  have recited := recital_tree valid (resolve_valid resolved) stored' uncut clean sent capped
  rw [parseEbcdic_reads, if_neg (Nat.not_le.mpr free), page, resolved]
  exact congrArg (fun said => Except.ok (readItems _ _ said)) recited

end Served

section Sample

attribute [local instance] asciiUnicode noJson coreF64

/-- Data of the sample tree: an empty table, a number, and a byte in the filler. -/
def sampleDatum : Copybook.Datum :=
  .group [.group [.group [.item [.text "", .text ""]]], .item [.number (-12345) 2], .filler [7]]

/-- A request with the copybook of the sample tree. -/
def sampleCopybook : Pb.ParseOptions where
  layoutSource := some (.copybook Copybook.sampleTree.print)

theorem copybook_served_sample :
    ∃ codec : Codec, EbcdicGrpc.new.parseEbcdic 0 keepsReading
        [.message ⟨some (.options sampleCopybook)⟩,
          .message ⟨some (.chunk [0x40, 0x40, 0x40, 0x40])⟩, .message ⟨none⟩,
          .message ⟨some (.chunk [0x40, 0x40, 0x12, 0x34, 0x5d, 7])⟩]
      = .ok (readItems (Copybook.sampleTree.resolved.toLayoutInfo codec.name) none
          ([sampleDatum].mapIdx (Copybook.sampleTree.row (sampleCopybook.decodeOptions codec)),
            .ok (Copybook.sampleTree.status 1))) := by
  obtain ⟨codec, page⟩ : ∃ codec, Codec.resolve sampleCopybook.encoding = .ok codec := ⟨_, rfl⟩
  have stored : Copybook.sampleTree.image codec sampleDatum
      = some [0x40, 0x40, 0x40, 0x40, 0x40, 0x40, 0x12, 0x34, 0x5d, 7] := by
    cases page
    decide
  have readable (frame : Pb.ParseEbcdicRequest) (data : ∀ options, frame.frame ≠ some (.options options)) :
      Inbound.Readable (.message frame) := data
  refine ⟨codec, copybook_served EbcdicGrpc.new (by decide) Copybook.sampleTree_valid rfl page
    (.cons stored .nil) (.inl rfl) ?_ rfl (by decide)⟩
  refine List.forall_mem_cons.mpr ⟨readable _ (by rintro _ ⟨⟩), List.forall_mem_cons.mpr
    ⟨readable _ (by rintro _ ⟨⟩), List.forall_mem_singleton.mpr (readable _ (by rintro _ ⟨⟩))⟩⟩

end Sample

end GrpcEbcdic

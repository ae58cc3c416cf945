import GrpcEbcdic.Service.Framing
import GrpcEbcdic.Service.Slots

/-!
# What the server says it can do

`GetServiceInfo` makes promises about other calls: which code pages and field types a parse takes, how many
bytes, and how many parses at once. A service that was built by its own methods keeps them, over any run.
-/

namespace GrpcEbcdic
open Rust Fallible Interleaved

/-- `UiInfo`. -/
structure Pb.UiInfo where
  title : String
  path : String
  description : String

/-- `GetServiceInfoResponse`. -/
structure Pb.GetServiceInfoResponse where
  service : String
  version : String
  encodings : List String
  defaultEncoding : String
  defaultMaxDocumentMib : Nat
  maxConcurrentParses : Nat
  supportedFieldTypes : List Int
  copybookCompiler : Bool
  ui : Option Pb.UiInfo

namespace EbcdicGrpc

/-- Override the default byte cap, in mebibytes. -/
def withMaxDocumentMib (service : EbcdicGrpc) (mib : Nat) : EbcdicGrpc :=
  { service with maxDocumentBytes := max mib 1 * 2 ^ 20 }

/-- Override how long the server waits. -/
def withIdleTimeout (service : EbcdicGrpc) (timeout : Nat) : EbcdicGrpc :=
  { service with idleTimeout := max timeout 1 }

/-- Override how many parses may run at once. -/
def withMaxConcurrentParses (service : EbcdicGrpc) (parses : Nat) : EbcdicGrpc :=
  { service with maxConcurrentParses := max parses 1 }

/-- What the service says of itself. -/
def getServiceInfo (service : EbcdicGrpc) : Pb.GetServiceInfoResponse where
  service := "grpc-ebcdic"
  version := crateVersion
  encodings := CodecError.supportedEncodings
  defaultEncoding := GrpcEbcdic.defaultEncoding
  defaultMaxDocumentMib := min (service.maxDocumentBytes / 2 ^ 20) (2 ^ 32 - 1)
  maxConcurrentParses := min service.maxConcurrentParses (2 ^ 32 - 1)
  supportedFieldTypes := [Pb.FieldType.string.toI32, Pb.FieldType.integer.toI32,
    Pb.FieldType.unsignedInteger.toI32, Pb.FieldType.packedDecimal.toI32,
    Pb.FieldType.zonedDecimal.toI32, Pb.FieldType.skip.toI32]
  copybookCompiler := true
  ui := some {
    title := "EBCDIC"
    path := "/ui/ebcdic"
    description := "EBCDIC fixed-width mainframe data to the document data plane" }

/-- A service that was built with the defaults, and then by its own methods. -/
inductive Configured : EbcdicGrpc → Prop where
  | new :
    Configured .new
  | maxDocumentMib {service mib} :
    Configured service →
    mib < 2 ^ 32 →
    Configured (service.withMaxDocumentMib mib)
  | idleTimeout {service} (timeout) :
    Configured service →
    Configured (service.withIdleTimeout timeout)
  | maxConcurrentParses {service} (parses) :
    Configured service →
    Configured (service.withMaxConcurrentParses parses)

/-- The cap of such a service is a number of mebibytes, and it never waits or runs for nothing. -/
lemma Configured.settings {service : EbcdicGrpc} (configured : Configured service) :
    (∃ mib, 0 < mib ∧ mib < 2 ^ 32 ∧ service.maxDocumentBytes = mib * 2 ^ 20) ∧
      0 < service.idleTimeout ∧ 0 < service.maxConcurrentParses := by
  induction configured with
  | new => exact ⟨⟨defaultMaxDocumentMib, by decide, by decide, rfl⟩, by decide, by decide⟩
  | @maxDocumentMib service mib _ fits ih =>
    refine ⟨⟨max mib 1, ?_, ?_, rfl⟩, ih.2⟩
    · omega
    · omega
  | @idleTimeout service timeout _ ih =>
    refine ⟨ih.1, ?_, ih.2.2⟩
    show 0 < max timeout 1
    omega
  | @maxConcurrentParses service parses _ ih =>
    refine ⟨ih.1, ih.2.1, ?_⟩
    show 0 < max parses 1
    omega

/-- No request has a cap above the one the service says. -/
lemma byteCap_le (service : EbcdicGrpc) (options : Pb.ParseOptions) :
    service.byteCap options ≤ service.maxDocumentBytes := by
  unfold byteCap
  split_ifs
  · exact le_rfl
  · exact Nat.min_le_right _ _

end EbcdicGrpc

section Encodings

lemma Codec.name_supported (codec : Codec) : codec.name ∈ CodecError.supportedEncodings :=
  List.mem_map_of_mem codec.carried

variable [Unicode]

/-- Whether a name is lower case and has nothing to drop. -/
def isPlain (name : List Char) : Bool :=
  name.all fun c => decide (c.toNat < 128) && decide (c.toLower = c) &&
    !(c = '-' || c = '_' || c = ' ' || c = '.')

/-- Such a name is its own key. -/
lemma normalize_plain {name : List Char} (plain : isPlain name = true) :
    Codec.normalize name = String.ofList name := by
  have each (c : Char) (mem : c ∈ name) : (c.toNat < 128 ∧ c.toLower = c) ∧
      (!(c = '-' || c = '_' || c = ' ' || c = '.')) = true := by
    have holds := List.all_eq_true.mp plain c mem
    rw [Bool.and_eq_true, Bool.and_eq_true, decide_eq_true_iff, decide_eq_true_iff] at holds
    exact holds
  have kept : name.filter (fun c => !(c = '-' || c = '_' || c = ' ' || c = '.')) = name :=
    List.filter_eq_self.mpr fun c mem => (each c mem).2
  have lower : name.flatMap Unicode.toLowercase = name.flatMap fun c => [c] :=
    List.flatMap_congr fun c mem => by
      rw [Unicode.toLowercase_ascii c (each c mem).1.1, (each c mem).1.2]
  rw [Codec.normalize, kept, lower, List.flatMap_singleton']

/-- What is wanted with the canonical name of a code page selects it. -/
lemma resolve_name {asked name : String} (mem : name ∈ CodecError.supportedEncodings)
    (wanted : (if (trim asked.toList).isEmpty then defaultEncoding.toList else trim asked.toList)
      = name.toList) : ∃ codec, Codec.resolve asked = .ok codec ∧ codec.name = name := by
  have plain : ∀ name ∈ CodecError.supportedEncodings,
      isPlain name.toList = true ∧ aliases.lookup name = none := by
    decide
  obtain ⟨chars, own⟩ := plain name mem
  have canonical : (aliases.lookup (Codec.normalize (if (trim asked.toList).isEmpty then
      defaultEncoding.toList else trim asked.toList))).getD (Codec.normalize
        (if (trim asked.toList).isEmpty then defaultEncoding.toList else trim asked.toList)) = name := by
    simp only [wanted, normalize_plain chars, String.ofList_toList, own, Option.getD_none]
  obtain ⟨page, carried, same⟩ := List.mem_map.mp mem
  unfold Codec.resolve
  dsimp only
  split
  · next page' found =>
    rw [canonical] at found
    have named : page'.name = name := by simpa using List.find?_some found
    exact ⟨_, rfl, named⟩
  · next none =>
    rw [canonical] at none
    exact absurd (decide_eq_true same) (List.find?_eq_none.mp none page carried)

/-- The canonical name of every code page selects it. -/
lemma resolve_supported {name : String} (mem : name ∈ CodecError.supportedEncodings) :
    ∃ codec, Codec.resolve name = .ok codec ∧ codec.name = name := by
  have plain : ∀ name ∈ CodecError.supportedEncodings, (if (trim name.toList).isEmpty then
      defaultEncoding.toList else trim name.toList) = name.toList := by
    decide
  exact resolve_name mem (plain name mem)

/-- A name of blanks selects the default. -/
lemma resolve_blank {asked : String} (blank : trim asked.toList = []) :
    ∃ codec, Codec.resolve asked = .ok codec ∧ codec.name = defaultEncoding := by
  have mem : defaultEncoding ∈ CodecError.supportedEncodings := by decide
  exact resolve_name mem (if_pos (congrArg List.isEmpty blank))

end Encodings

section Types

/-- The fields of a layout. -/
def Pb.EbcdicLayout.declared (layout : Pb.EbcdicLayout) : List Pb.EbcdicField :=
  layout.records.flatMap (·.fields) ++ layout.recordLengthField.toList ++ layout.recordTypeField.toList

/-- Every kind of field is of a type a service says it decodes. -/
lemma kind_supported (service : EbcdicGrpc) (kind : FieldKind) :
    kind.toProto.toI32 ∈ service.getServiceInfo.supportedFieldTypes := by
  show _ ∈ EbcdicGrpc.new.getServiceInfo.supportedFieldTypes
  cases kind <;> decide

/-- A field type that is decoded is one of these, or the one that stands for none. -/
lemma FieldKind.fromProto_supported (service : EbcdicGrpc) {value : Int} {kind : FieldKind}
    (ok : fromProto value = .ok kind) :
    value = Pb.FieldType.unspecified.toI32 ∨ value ∈ service.getServiceInfo.supportedFieldTypes := by
  unfold fromProto at ok
  rcases known : Pb.FieldType.tryFrom value with _ | type
  · rw [known] at ok
    cases ok
  · have same : type.toI32 = value := by simpa using List.find?_some known
    rw [← same]
    cases type with
    | unspecified => exact .inl rfl
    | string => exact .inr (kind_supported service .text)
    | integer => exact .inr (kind_supported service .integer)
    | unsignedInteger => exact .inr (kind_supported service .unsignedInteger)
    | packedDecimal => exact .inr (kind_supported service .packedDecimal)
    | zonedDecimal => exact .inr (kind_supported service .zonedDecimal)
    | skip => exact .inr (kind_supported service .skip)

variable [Unicode]

lemma fromProtoField_fails (field : Pb.EbcdicField) :
    Fails ParseError.IsUnsupported (fromProtoField field) := by
  unfold fromProtoField
  rcases FieldKind.fromProto field.type with e | kind
  · exact .error ⟨_, rfl⟩
  · exact .ok _

lemma fromProtoPrefix_fails (field : Option Pb.EbcdicField) :
    Fails ParseError.IsUnsupported (fromProtoPrefix field) := by
  cases field with
  | none => exact .ok none
  | some field => exact (fromProtoField_fails field).map some

/-- A layout is lifted unless it has a field type the service does not decode. -/
lemma fromProto_fails (layout : Pb.EbcdicLayout) : Fails ParseError.IsUnsupported (fromProto layout) := by
  have record (record : Pb.EbcdicRecordLayout) : Fails ParseError.IsUnsupported (fromProtoRecord record) :=
    (Fails.mapM record.fields fromProtoField_fails).bind fun fields => .ok _
  exact (Fails.mapM layout.records record).bind fun records =>
    (fromProtoPrefix_fails _).bind fun length => (fromProtoPrefix_fails _).bind fun type => .ok _

lemma fromProtoField_supported (service : EbcdicGrpc) {field : Pb.EbcdicField} {raw : RawField}
    (ok : fromProtoField field = .ok raw) : field.type = Pb.FieldType.unspecified.toI32 ∨
      field.type ∈ service.getServiceInfo.supportedFieldTypes := by
  unfold fromProtoField at ok
  rcases kind : FieldKind.fromProto field.type with e | k
  · rw [kind] at ok
    cases ok
  · exact FieldKind.fromProto_supported service kind

/-- A layout that is lifted has no other field types. -/
lemma fromProto_supported (service : EbcdicGrpc) {layout : Pb.EbcdicLayout} {raw : RawLayout}
    (ok : fromProto layout = .ok raw) : ∀ field ∈ layout.declared,
      field.type = Pb.FieldType.unspecified.toI32 ∨
        field.type ∈ service.getServiceInfo.supportedFieldTypes := by
  have optional {field : Option Pb.EbcdicField} {raw : Option RawField}
      (ok : fromProtoPrefix field = .ok raw) : ∀ f ∈ field.toList,
        f.type = Pb.FieldType.unspecified.toI32 ∨ f.type ∈ service.getServiceInfo.supportedFieldTypes := by
    cases field with
    | none => exact fun _ mem => absurd mem List.not_mem_nil
    | some field =>
      obtain ⟨raw', ok', _⟩ := map_eq_ok.mp ok
      exact List.forall_mem_singleton.mpr (fromProtoField_supported service ok')
  obtain ⟨records, records_ok, ok⟩ := bind_eq_ok.mp ok
  obtain ⟨length, length_ok, ok⟩ := bind_eq_ok.mp ok
  obtain ⟨type, type_ok, _⟩ := bind_eq_ok.mp ok
  refine List.forall_mem_append.mpr ⟨List.forall_mem_append.mpr ⟨fun field mem => ?_, optional length_ok⟩,
    optional type_ok⟩
  obtain ⟨record, record_mem, field_mem⟩ := List.mem_flatMap.mp mem
  obtain ⟨raw', record_ok⟩ := mapM_ok_iff.mp ⟨records, records_ok⟩ record record_mem
  obtain ⟨fields, fields_ok, _⟩ := bind_eq_ok.mp record_ok
  obtain ⟨raw'', field_ok⟩ := mapM_ok_iff.mp ⟨fields, fields_ok⟩ field field_mem
  exact fromProtoField_supported service field_ok

variable [SerdeJson]

/-- A layout with another field type is not resolved, whatever else is wrong with it. -/
lemma resolve_unsupported (service : EbcdicGrpc) {options : Pb.ParseOptions} {layout : Pb.EbcdicLayout}
    (source : options.layoutSource = some (.layout layout)) {field : Pb.EbcdicField}
    (mem : field ∈ layout.declared) (set : field.type ≠ Pb.FieldType.unspecified.toI32)
    (unknown : field.type ∉ service.getServiceInfo.supportedFieldTypes) :
    ∃ message, resolve options = .error (.unsupported message) := by
  unfold resolve
  rw [source]
  show ∃ message, (fromProto layout >>= fun raw => validate raw .proto) = _
  rcases lifted : fromProto layout with e | raw
  · obtain ⟨message, rfl⟩ := fromProto_fails layout e lifted
    exact ⟨message, rfl⟩
  · exact ((fromProto_supported service lifted field mem).elim set unknown).elim

end Types

section Advertises

variable [F64] [Unicode] [SerdeJson]

/-- What a service says of itself holds of its parses. -/
structure Advertises (service : EbcdicGrpc) (info : Pb.GetServiceInfoResponse) : Prop where
  /-- A code page can be asked for by each of the names, and only these are ever told. -/
  encodings : ∀ name ∈ info.encodings, ∃ codec, Codec.resolve name = .ok codec ∧ codec.name = name
  pages : ∀ asked codec, Codec.resolve asked = .ok codec → codec.name ∈ info.encodings
  unnamed : ∀ asked, trim asked.toList = [] →
    ∃ codec, Codec.resolve asked = .ok codec ∧ codec.name = info.defaultEncoding
  /-- The cap of a request that names none, and the highest a request can have. -/
  cap : ∀ options, options.maxDocumentMib = 0 →
    service.byteCap options = info.defaultMaxDocumentMib * 2 ^ 20
  caps : ∀ options, service.byteCap options ≤ info.defaultMaxDocumentMib * 2 ^ 20
  /-- Over any interleaving no more parses run at once, and with fewer the next is admitted. -/
  parses : ∀ events, (service.serve events).components.countP (·.phase.holds) ≤ info.maxConcurrentParses ∧
    ((∃ status, (ParseCall.arrive service (service.serve events).shared).1.phase = .rejected status) ↔
      (service.serve events).components.countP (·.phase.holds) = info.maxConcurrentParses)
  /-- A layout with another field type is `UNIMPLEMENTED`, and no other type is told of any layout. -/
  types : ∀ running client options layout codec inbound, running < service.maxConcurrentParses →
    Codec.resolve options.encoding = .ok codec → options.layoutSource = some (.layout layout) →
    ∀ field ∈ layout.declared, field.type ≠ Pb.FieldType.unspecified.toI32 →
      field.type ∉ info.supportedFieldTypes → ∃ message,
        service.parseEbcdic running client (.message ⟨some (.options options)⟩ :: inbound)
          = .error ⟨.unimplemented, message⟩
  schemas : ∀ (layout : Layout) encoding, ∀ schema ∈ (layout.toLayoutInfo encoding).records,
    ∀ field ∈ schema.fields, field.type ∈ info.supportedFieldTypes

/-- A service built by its own methods, for a number of parses that the answer can hold, keeps over any run
what it says of itself. -/
theorem service_info_holds {service : EbcdicGrpc} (configured : service.Configured)
    (counted : service.maxConcurrentParses < 2 ^ 32) : Advertises service service.getServiceInfo := by
  obtain ⟨⟨mib, _, fits, cap⟩, _, _⟩ := configured.settings
  have caps : service.getServiceInfo.defaultMaxDocumentMib * 2 ^ 20 = service.maxDocumentBytes := by
    show min (service.maxDocumentBytes / 2 ^ 20) (2 ^ 32 - 1) * 2 ^ 20 = _
    omega
  have slots : service.getServiceInfo.maxConcurrentParses = service.maxConcurrentParses :=
    Nat.min_eq_left (Nat.le_sub_one_of_lt counted)
  refine ⟨fun name mem => resolve_supported mem, fun _ codec _ => codec.name_supported,
    fun asked blank => resolve_blank blank, fun options none => ?_, fun options => ?_,
    fun events => ?_, ?_, ?_⟩
  · rw [caps]
    exact if_pos none
  · rw [caps]
    exact service.byteCap_le options
  · have conserved := serve_slots service events
    rw [slots, arrive_rejected]
    omega
  · intro running client options layout codec inbound free page source field mem set unknown
    obtain ⟨message, refused⟩ := resolve_unsupported service source mem set unknown
    have opened : service.opening options = .error ⟨.unimplemented, message⟩ := by
      unfold EbcdicGrpc.opening
      rw [page]
      dsimp only
      rw [refused]
      rfl
    refine ⟨message, ?_⟩
    rw [parseEbcdic_options service free, opened]
    rfl
  · intro layout encoding schema mem field field_mem
    obtain ⟨record, _, rfl⟩ := List.mem_map.mp mem
    obtain ⟨own, _, rfl⟩ := List.mem_map.mp field_mem
    exact kind_supported service own.kind

end Advertises

section Sample

attribute [local instance] asciiUnicode noJson coreF64

theorem service_info_holds_sample :
    Advertises ((EbcdicGrpc.new.withMaxConcurrentParses 2).withMaxDocumentMib 0)
      ((EbcdicGrpc.new.withMaxConcurrentParses 2).withMaxDocumentMib 0).getServiceInfo :=
  service_info_holds (.maxDocumentMib (.maxConcurrentParses 2 .new) (by decide)) (by decide)

end Sample

end GrpcEbcdic

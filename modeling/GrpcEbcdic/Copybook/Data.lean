import GrpcEbcdic.Copybook.Leaves
import GrpcEbcdic.Stream.Files

/-!
# Data of a copybook

What a program that was compiled with a copybook holds in a record: data of the shape of the tree. In
storage the data of a group are the data below it one behind the other, and a table is its occurrences.
`Tree.image` stores data so and `Tree.cells` says what is to be read of them, both by recursion on the tree
alone; the record that the copybook compiles to reads the one as the other (`Tree.Valid.image_reads`).
-/

namespace GrpcEbcdic.Copybook
open Rust Fallible

/-- Data of the shape of a tree: the values of the occurrences of an elementary item, whatever is in a
filler, or the data below a group. -/
inductive Datum where
  | item (values : List FieldValue)
  | filler (bytes : List UInt8)
  | group (children : List Datum)

section Data

variable [Unicode]

/-- One occurrence of an elementary item, as a field of its own. -/
def Leaf.alone (leaf : Leaf) (shape : Described) (occurrence : Nat) : Field :=
  (leaf.field 1 [] shape occurrence).resolved 0

/-- The bytes of the occurrences of an elementary item from one on. -/
def Leaf.images (codec : Codec) (leaf : Leaf) (shape : Described) (occurrence : Nat) :
    List FieldValue → Option (List UInt8)
  | [] => some []
  | value :: values => do
    let image ← (leaf.alone shape occurrence).store codec value
    let behind ← leaf.images codec shape (occurrence + 1) values
    some (image ++ behind)

/-- The bytes of an elementary item. -/
def Leaf.image (codec : Codec) (leaf : Leaf) (datum : Datum) : Option (List UInt8) :=
  match leaf.shape, leaf.name, datum with
  | some shape, some _, .item values =>
    if values.length = leaf.count then leaf.images codec shape 1 values else none
  | some shape, none, .filler bytes => if bytes.length = shape.size * leaf.count then some bytes else none
  | _, _, _ => none

/-- The cells of an elementary item; a filler has none. -/
def Leaf.cells (options : DecodeOptions) (leaf : Leaf) (datum : Datum) : List Pb.Cell :=
  match leaf.shape, datum with
  | some shape, .item values =>
    values.mapIdx fun i value => Entry.cell options (leaf.alone shape (i + 1)) value
  | _, _ => []

mutual

/-- The bytes of the data of a tree. -/
def Tree.image (codec : Codec) : Tree → Datum → Option (List UInt8)
  | .elementary leaf, datum => leaf.image codec datum
  | .group _ _ _ trees, .group data => imagesOf codec trees data
  | .group _ _ _ _, .item _ => none
  | .group _ _ _ _, .filler _ => none

/-- The bytes of the data of siblings. -/
def imagesOf (codec : Codec) : List Tree → List Datum → Option (List UInt8)
  | [], [] => some []
  | tree :: trees, datum :: data => do
    let image ← tree.image codec datum
    let behind ← imagesOf codec trees data
    some (image ++ behind)
  | [], _ :: _ => none
  | _ :: _, [] => none

end

mutual

/-- The cells of the data of a tree. -/
def Tree.cells (options : DecodeOptions) : Tree → Datum → List Pb.Cell
  | .elementary leaf, datum => leaf.cells options datum
  | .group _ _ _ trees, .group data => cellsOf options trees data
  | .group _ _ _ _, .item _ => []
  | .group _ _ _ _, .filler _ => []

/-- The cells of the data of siblings. -/
def cellsOf (options : DecodeOptions) : List Tree → List Datum → List Pb.Cell
  | tree :: trees, datum :: data => tree.cells options datum ++ cellsOf options trees data
  | [], _ => []
  | _ :: _, [] => []

end

end Data

section Lays

variable [Unicode]

/-- Bytes in which some fields lie one behind the other, and the cells they are read as. -/
inductive Lays (options : DecodeOptions) : List RawField → List UInt8 → List Pb.Cell → Prop where
  | nil :
    Lays options [] [] []
  | filler {raw raws bytes behind cells} :
    raw.kind = .skip →
    bytes.length = raw.size →
    Lays options raws behind cells →
    Lays options (raw :: raws) (bytes ++ behind) cells
  | data {raw raws bytes behind value cells} :
    raw.kind ≠ .skip →
    bytes.length = raw.size →
    (∀ offset, decodeField (raw.resolved offset) bytes options = .ok value) →
    Lays options raws behind cells →
    Lays options (raw :: raws) (bytes ++ behind)
      (⟨raw.name, raw.kind.toProto.toI32, some (toCellValue value raw.scale)⟩ :: cells)

variable {options : DecodeOptions} {raws raws' : List RawField} {bytes bytes' : List UInt8}
  {cells cells' : List Pb.Cell}

lemma Lays.append (lays : Lays options raws bytes cells) (lays' : Lays options raws' bytes' cells') :
    Lays options (raws ++ raws') (bytes ++ bytes') (cells ++ cells') := by
  induction lays with
  | nil => exact lays'
  | filler skip size _ ih =>
    rw [List.append_assoc]
    exact .filler skip size ih
  | data kind size reads _ ih =>
    rw [List.append_assoc]
    exact .data kind size reads ih

lemma Lays.length (lays : Lays options raws bytes cells) : bytes.length = (raws.map (·.size)).sum := by
  induction lays with
  | nil => rfl
  | filler _ size _ ih => rw [List.length_append, size, ih, List.map_cons, List.sum_cons]
  | data _ size _ _ ih => rw [List.length_append, size, ih, List.map_cons, List.sum_cons]

/-- Any bytes lie in fillers of their size. -/
lemma lays_fillers (skip : ∀ raw ∈ raws, raw.kind = .skip) (size : bytes.length = (raws.map (·.size)).sum) :
    Lays options raws bytes [] := by
  induction raws generalizing bytes with
  | nil =>
    cases List.eq_nil_of_length_eq_zero size
    exact .nil
  | cons raw raws ih =>
    obtain ⟨own, rest⟩ := List.forall_mem_cons.mp skip
    rw [List.map_cons, List.sum_cons] at size
    have first : (bytes.take raw.size).length = raw.size := by
      rw [List.length_take]
      omega
    rw [← List.take_append_drop raw.size bytes]
    apply Lays.filler own first
    apply ih rest
    rw [List.length_drop]
    omega

/-- The fields of a record are read from where they lie. -/
lemma Lays.decodes (lays : Lays options raws bytes cells) (free : ∀ raw ∈ raws, raw.offset = none)
    (record : RecordLayout) (before behind : List UInt8) :
    ((resolveFields before.length raws).filter (·.kind ≠ .skip)).mapM
        (decodeCell record (before ++ bytes ++ behind) options) = .ok cells := by
  apply mapM_eq_ok.mpr
  induction lays generalizing before with
  | nil => exact .nil
  | @filler raw raws own rest cells skip size _ ih =>
    obtain ⟨first, free⟩ := List.forall_mem_cons.mp free
    have next := ih free (before ++ own)
    rw [List.length_append, size, List.append_assoc before] at next
    have start : raw.start before.length = before.length := by rw [RawField.start, first]; rfl
    have kind : (raw.resolved before.length).kind = .skip := skip
    rw [resolveFields, start, List.filter_cons_of_neg (by simp [kind])]
    exact next
  | @data raw raws own rest value cells kind size reads _ ih =>
    obtain ⟨first, free⟩ := List.forall_mem_cons.mp free
    have next := ih free (before ++ own)
    rw [List.length_append, size, List.append_assoc before] at next
    have start : raw.start before.length = before.length := by rw [RawField.start, first]; rfl
    have data : (raw.resolved before.length).kind ≠ .skip := kind
    rw [resolveFields, start, List.filter_cons_of_pos (by simp [data])]
    refine .cons ?_ next
    have here : getSlice (before ++ (own ++ rest) ++ behind) before.length (before.length + raw.size)
        = some own := by
      rw [getSlice_eq (Nat.le_add_right _ _) (by simp only [List.length_append]; omega)]
      have piece := slice_behind before (own ++ rest ++ behind) 0 raw.size
      rw [Nat.add_zero, ← List.append_assoc] at piece
      rw [piece, slice, ← size, List.append_assoc, List.take_left, List.drop_zero]
    unfold decodeCell
    rw [show getSlice _ (raw.resolved before.length).offset (raw.resolved before.length).stop = _ from here]
    dsimp only
    rw [reads]
    rfl

/-- The occurrences of an elementary item lie one behind the other. -/
lemma images_lays {leaf : Leaf} {shape : Described} (named : leaf.name ≠ none) (pos : 0 < shape.size)
    (width : shape.size ≤ widthLimit shape.kind) {occurrence : Nat} {values : List FieldValue}
    (stored : leaf.images options.codec shape occurrence values = some bytes) (level : Nat)
    (path : List String) :
    Lays options ((List.range values.length).map fun i => leaf.field level path shape (i + occurrence)) bytes
      (values.mapIdx fun i value => Entry.cell options (leaf.alone shape (i + occurrence)) value) := by
  induction values generalizing occurrence bytes with
  | nil => cases stored; exact .nil
  | cons value values ih =>
    obtain ⟨image, image_eq, stored⟩ := Option.bind_eq_some_iff.mp stored
    obtain ⟨behind, behind_eq, stored⟩ := Option.bind_eq_some_iff.mp stored
    cases stored
    have kind : (leaf.alone shape occurrence).kind = shape.kind := if_neg named
    have fits : (leaf.alone shape occurrence).size ≤ widthLimit (leaf.alone shape occurrence).kind := by
      rw [kind]
      exact width
    obtain ⟨size, reads⟩ := store_reads pos fits image_eq
    have next := ih behind_eq
    have step (i : Nat) : i + (occurrence + 1) = i + 1 + occurrence := by omega
    simp only [step] at next
    rw [List.length_cons, List.range_succ_eq_map, List.map_cons, List.map_map, List.mapIdx_cons,
      Nat.zero_add]
    refine .data ?_ size (fun _ => reads) next
    -- A number or a text has been stored, so the field is no filler.
    intro skip
    have filler : (leaf.alone shape occurrence).kind = .skip := skip
    unfold Field.store at image_eq
    rw [filler] at image_eq
    cases value with
    | text t => cases image_eq
    | number v scale =>
      dsimp only at image_eq
      rw [if_neg fun fits => fits.2] at image_eq
      cases image_eq

/-- The bytes of an elementary item are read as its cells. -/
lemma Leaf.Valid.image_lays {leaf : Leaf} (valid : leaf.Valid) {datum : Datum}
    (stored : leaf.image options.codec datum = some bytes) (level : Nat) (path : List String) :
    Lays options (Position.fields ⟨level, path, .elementary leaf⟩) bytes (leaf.cells options datum) := by
  obtain ⟨shape, described, width, _, fields⟩ := valid.fields level path
  have has : leaf.shape = some shape := toOption_eq_some.mpr described
  rw [fields]
  unfold Leaf.image at stored
  unfold Leaf.cells
  rw [has] at stored ⊢
  cases named : leaf.name with
  | some name =>
    rw [named] at stored
    have name_ne : leaf.name ≠ none := named ▸ Option.some_ne_none name
    cases datum with
    | filler bytes => cases stored
    | group data => cases stored
    | item values =>
      dsimp only at stored
      split_ifs at stored with count
      rw [← count]
      exact images_lays name_ne (describe_fits described).1 (width name_ne) stored level path
  | none =>
    rw [named] at stored
    cases datum with
    | item values => cases stored
    | group data => cases stored
    | filler bytes =>
      dsimp only at stored
      split_ifs at stored with size
      cases stored
      apply lays_fillers
      · intro raw mem
        obtain ⟨i, _, rfl⟩ := List.mem_map.mp mem
        exact if_pos named
      · have each : (fun raw : RawField => raw.size) ∘ (fun i => leaf.field level path shape (i + 1))
            = fun _ => shape.size := rfl
        rw [List.map_map, each, List.map_const', List.length_range, List.sum_replicate_nat, size,
          Nat.mul_comm]

mutual

/-- The bytes of the data of a tree are read as their cells. -/
lemma Tree.image_lays (tree : Tree) {level : Nat} {path : List String}
    (valid : ∀ position ∈ tree.positions level path, position.node.Valid) {datum : Datum}
    {bytes : List UInt8} (stored : tree.image options.codec datum = some bytes) :
    Lays options ((tree.positions level path).flatMap (·.fields)) bytes (tree.cells options datum) := by
  cases tree with
  | elementary leaf =>
    have leafValid : leaf.Valid := valid ⟨level, path, .elementary leaf⟩ List.mem_cons_self
    rw [Tree.positions, List.flatMap_singleton, Tree.cells]
    exact leafValid.image_lays stored level path
  | group name conditions below trees =>
    cases datum with
    | item values => cases stored
    | filler bytes => cases stored
    | group data =>
      exact imagesOf_lays trees (fun position mem => valid position (List.mem_cons_of_mem _ mem)) stored

/-- And those of siblings. -/
lemma imagesOf_lays (trees : List Tree) {level : Nat} {path : List String}
    (valid : ∀ position ∈ positionsOf level path trees, position.node.Valid) {data : List Datum}
    {bytes : List UInt8} (stored : imagesOf options.codec trees data = some bytes) :
    Lays options ((positionsOf level path trees).flatMap (·.fields)) bytes (cellsOf options trees data) := by
  cases trees with
  | nil =>
    cases data with
    | nil => cases stored; exact .nil
    | cons datum data => cases stored
  | cons tree trees =>
    cases data with
    | nil => cases stored
    | cons datum data =>
      obtain ⟨first, rest⟩ := List.forall_mem_append.mp valid
      obtain ⟨image, image_eq, stored⟩ := Option.bind_eq_some_iff.mp stored
      obtain ⟨behind, behind_eq, stored⟩ := Option.bind_eq_some_iff.mp stored
      cases stored
      rw [positionsOf, List.flatMap_append, cellsOf]
      exact (Tree.image_lays tree first image_eq).append (imagesOf_lays trees rest behind_eq)

end

/-- The data of a record as the record that a copybook compiles to reads them. -/
lemma Tree.Valid.image_reads {tree : Tree} (valid : tree.Valid) {datum : Datum}
    (stored : tree.image options.codec datum = some bytes) :
    bytes.length = tree.bytes ∧ ∀ behind,
      decodeCells tree.record (bytes ++ behind) options = .ok (tree.cells options datum) := by
  have lays : Lays options tree.fields bytes (tree.cells options datum) :=
    tree.image_lays valid.nodes stored
  refine ⟨lays.length.trans valid.sizes, fun behind => ?_⟩
  have fields : tree.record.fields = resolveFields 0 tree.fields := by
    rw [resolveFields_sum valid.free]
    simp only [Nat.zero_add]
    rfl
  unfold decodeCells
  rw [fields]
  exact lays.decodes valid.free tree.record [] behind

end Lays

section Rows

variable [Unicode]

/-- What the copybook of a tree resolves to. -/
def Tree.resolved (tree : Tree) : Layout where
  records := [tree.record]
  description := ""
  headerSize := 0
  footerSize := 0
  recordLengthField := none
  recordTypeField := none
  prefixSize := 0
  source := .copybook

/-- The row of a record of the data of a tree. -/
def Tree.row (options : DecodeOptions) (tree : Tree) (i : Nat) (datum : Datum) : Pb.RecordRow where
  recordType := tree.name.getD "record"
  rowIndex := i
  recordIndex := i
  byteOffset := i * tree.bytes
  byteLength := tree.bytes
  cells := tree.cells options datum

/-- The trailer of some records of a tree. -/
def Tree.status (tree : Tree) (count : Nat) : Pb.ParseStatus where
  recordsKept := count
  bytesReceived := count * tree.bytes
  bytesConsumed := count * tree.bytes
  trailingBytes := 0
  truncated := false
  warnings := []
  rowsPerRecordType := [(tree.name.getD "record", count)]

/-- The bytes of a record of the data of a tree. -/
def Tree.passage (options : DecodeOptions) (tree : Tree) (datum : Datum) (bytes : List UInt8) : Passage where
  record := tree.record
  size := tree.bytes
  cells := tree.cells options datum
  bytes := bytes

variable {options : DecodeOptions} {tree : Tree} {data : List Datum} {images : List (List UInt8)}

/-- A record that a program stored is read. -/
lemma Tree.Valid.passage_reads (valid : tree.Valid) {datum : Datum} {bytes : List UInt8}
    (stored : tree.image options.codec datum = some bytes) :
    (tree.passage options datum bytes).Reads tree.resolved options := by
  obtain ⟨length, reads⟩ := valid.image_reads stored
  refine ⟨length.trans (Nat.zero_add _).symm, List.mem_singleton_self _, fun base behind => ?_,
    fun behind => ?_⟩
  · have size : bodySize tree.resolved base tree.record none = .ok tree.bytes :=
      bodySize_ok.mpr ⟨rfl, valid.bytes_le⟩
    have undeclared : readLength tree.resolved options base (bytes ++ behind) = .ok none := rfl
    have untyped : readType tree.resolved options (bytes ++ behind) = .ok none := rfl
    have only : tree.resolved.select none = some tree.record := rfl
    apply (readPrefix_picked undeclared untyped only).trans
    rw [size]
    rfl
  · have own : slice (bytes ++ behind) 0 (0 + tree.bytes) = bytes := by
      rw [slice, Nat.zero_add, ← length, List.take_left, List.drop_zero]
    show decodeCells tree.record (slice (bytes ++ behind) 0 (0 + tree.bytes)) options = _
    rw [own, ← List.append_nil bytes]
    exact reads []

/-- The rows of records of one schema are numbered and lie one behind the other. -/
lemma passageRows_tree {before : List Pb.RecordRow} (offset : rowBytes before = before.length * tree.bytes)
    (counted : rowsOf before (tree.name.getD "record") = before.length)
    (stored : List.Forall₂ (fun datum bytes => tree.image options.codec datum = some bytes) data images) :
    passageRows tree.resolved before (List.zipWith (tree.passage options) data images)
      = data.mapIdx fun i datum => tree.row options (i + before.length) datum := by
  induction stored generalizing before with
  | nil => rfl
  | @cons datum bytes data images _ _ ih =>
    have row : (tree.passage options datum bytes).row tree.resolved before
        = tree.row options before.length datum := by
      show Pb.RecordRow.mk (tree.name.getD "record") (rowsOf before (tree.name.getD "record")) _
        (0 + rowBytes before) (0 + tree.bytes) _ = _
      rw [counted, offset, Nat.zero_add, Nat.zero_add]
      rfl
    have step (i : Nat) : i + (before ++ [tree.row options before.length datum]).length
        = i + 1 + before.length := by
      rw [List.length_append, List.length_singleton]
      omega
    have next := @ih (before ++ [tree.row options before.length datum]) (by
        rw [rowBytes, List.map_append, List.sum_append, List.length_append, Nat.add_mul]
        rw [rowBytes] at offset
        rw [offset, List.length_singleton, Nat.one_mul]
        rfl) (by
        rw [rowsOf, List.countP_append, List.length_append]
        rw [rowsOf] at counted
        rw [counted, List.countP_singleton]
        exact congrArg _ (if_pos (decide_eq_true rfl)))
    simp only [step] at next
    rw [List.zipWith_cons_cons, passageRows, row, next, List.mapIdx_cons, Nat.zero_add]

/-- Records that a program stored are passages of a file, of the same length each. -/
lemma Tree.Valid.passages (valid : tree.Valid)
    (stored : List.Forall₂ (fun datum bytes => tree.image options.codec datum = some bytes) data images) :
    (∀ passage ∈ List.zipWith (tree.passage options) data images, passage.Reads tree.resolved options) ∧
      (List.zipWith (tree.passage options) data images).flatMap (·.bytes) = images.flatten ∧
      (List.zipWith (tree.passage options) data images).length = data.length ∧
      images.flatten.length = data.length * tree.bytes := by
  induction stored with
  | nil => exact ⟨fun _ mem => absurd mem List.not_mem_nil, rfl, rfl, (Nat.zero_mul _).symm⟩
  | @cons datum bytes data images first _ ih =>
    obtain ⟨reads, all, count, length⟩ := ih
    refine ⟨List.forall_mem_cons.mpr ⟨valid.passage_reads first, reads⟩, ?_, ?_, ?_⟩
    · rw [List.zipWith_cons_cons, List.flatMap_cons, all]
      rfl
    · rw [List.zipWith_cons_cons, List.length_cons, count, List.length_cons]
    · rw [List.flatten_cons, List.length_append, length, (valid.image_reads first).1, List.length_cons,
        Nat.succ_mul, Nat.add_comm]

/-- The trailer behind them counts them. -/
lemma rowsStatus_tree {file : List UInt8} (length : file.length = data.length * tree.bytes) :
    rowsStatus tree.resolved (data.mapIdx (tree.row options)) file = tree.status data.length := by
  have count : (data.mapIdx (tree.row options)).length = data.length := List.length_mapIdx
  have rows : rowsOf (data.mapIdx (tree.row options)) tree.record.name = data.length := by
    rw [← count]
    apply List.countP_eq_length.mpr
    intro row mem
    obtain ⟨i, within, rfl⟩ := List.mem_mapIdx.mp mem
    exact decide_eq_true rfl
  show Pb.ParseStatus.mk _ _ (file.length - 0) _ _ _ [(tree.record.name, rowsOf _ tree.record.name)] = _
  rw [count, rows, length]
  rfl

end Rows

end GrpcEbcdic.Copybook

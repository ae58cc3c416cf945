import GrpcEbcdic.Stream.Tiling

/-!
# Streaming equals batch

However an input is cut into chunks, a walk emits the same rows and ends the same way; and after any of
its chunks the rows emitted are those whose last byte is certain by then.
-/

namespace GrpcEbcdic
open Rust Incremental

section Batch

variable [Unicode] {layout : Layout}

/-- More input adds rows at the end, and each of them needed some of it. -/
lemma batch_late (v : layout.Valid) (options : DecodeOptions) (input more : List UInt8) :
    ∃ late, (batch v options (input ++ more)).1.map Prod.fst
        = (batch v options input).1.map Prod.fst ++ late ∧
      ∀ row ∈ late, input.length < row.byteOffset + row.byteLength + layout.footerSize := by
  obtain ⟨data, _, app⟩ := batch_append v options input more
  obtain ⟨_, _, _, tiles, _⟩ := batch_rows v options (input ++ more)
  have lengths := batch_lengths v options (input ++ more)
  rw [app] at tiles lengths ⊢
  refine ⟨_, List.map_append, List.forall_mem_map.mpr fun (row, n) mem => ?_⟩
  obtain ⟨as, bs, split⟩ := List.append_of_mem mem
  have late := (recordReader v options).resume_late split
  rw [split] at tiles lengths
  rw [List.map_append, List.map_append, List.map_cons, ← List.append_assoc, ← List.map_append]
    at tiles
  have offset := tiles.offset
  have before : (((batch v options input).1 ++ as).map Prod.fst).map (·.byteLength)
      = ((batch v options input).1 ++ as).map Prod.snd := by
    rw [List.map_map]
    refine List.map_congr_left fun rn mem => (lengths rn ?_).symm
    rw [← List.append_assoc]
    exact List.mem_append_left _ mem
  have length := lengths (row, n) (by simp)
  rw [before, List.map_append, List.sum_append] at offset
  change (recordData layout input).length < ((batch v options input).1.map Prod.snd).sum + _ + _
    at late
  rw [recordData, dataFrom_length] at late
  omega

/-- Streaming equals batch: the rows and the end of a walk do not depend on the chunks, and after any
initial run of them the rows emitted so far are those that end before the footer as far as can be
known. -/
theorem walk_chunking [SerdeJson] {request : Pb.ParseOptions} (ok : resolve request = .ok layout)
    (options : DecodeOptions) (chunks : List (List UInt8)) :
    walk layout options chunks = walk layout options [chunks.flatten] ∧
    ∀ pre post, chunks = pre ++ post →
      ((RecordStream.new layout options).feed pre).1
        = (walk layout options [chunks.flatten]).1.filter fun row =>
            row.byteOffset + row.byteLength + layout.footerSize ≤ pre.flatten.length := by
  have v := resolve_valid ok
  have whole : [chunks.flatten].flatten = chunks.flatten := List.flatten_singleton
  refine ⟨by rw [walk_eq v, walk_eq v, whole], ?_⟩
  rintro pre post rfl
  obtain ⟨rows, _⟩ := feed_new v options pre
  obtain ⟨late, all, ends⟩ := batch_late v options pre.flatten post.flatten
  obtain ⟨_, _, _, _, _, inside, _⟩ := batch_rows v options pre.flatten
  rw [rows, walk_eq v, whole, List.flatten_append]
  dsimp only [wholeWalk]
  rw [all, List.filter_append, List.filter_eq_self.mpr (by simpa using inside),
    List.filter_eq_nil_iff.mpr (by simpa using ends), List.append_nil]

end Batch

section Sample

attribute [local instance] asciiUnicode noJson

theorem walk_chunking_sample :
    walk sampleLayout sampleOptions sampleChunks
      = walk sampleLayout sampleOptions [sampleChunks.flatten] ∧
    ∀ pre post, sampleChunks = pre ++ post →
      ((RecordStream.new sampleLayout sampleOptions).feed pre).1
        = (walk sampleLayout sampleOptions [sampleChunks.flatten]).1.filter fun row =>
            row.byteOffset + row.byteLength + sampleLayout.footerSize ≤ pre.flatten.length :=
  walk_chunking resolve_sample sampleOptions sampleChunks

end Sample

end GrpcEbcdic

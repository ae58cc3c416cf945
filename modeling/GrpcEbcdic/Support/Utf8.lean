import Mathlib.Data.List.Basic

/-!
# Text and its bytes

A text as the bytes that encode it, and the part of it between two byte offsets. There is such a part
only where the offsets are boundaries of characters (`slice`); they are where a prefix of the text
ends (`splitBytes_append`). A byte below 128 is a character of its own (`encode_ascii`), so text that
begins with such bytes begins with as many characters (`ascii_front`).
-/

namespace Utf8

/-- The bytes of a text. -/
def bytes (cs : List Char) : List UInt8 := cs.flatMap String.utf8EncodeChar

@[simp] lemma bytes_nil : bytes [] = [] := rfl

@[simp] lemma bytes_cons (c : Char) (cs : List Char) :
    bytes (c :: cs) = String.utf8EncodeChar c ++ bytes cs := rfl

@[simp] lemma bytes_append (cs cs' : List Char) : bytes (cs ++ cs') = bytes cs ++ bytes cs' :=
  List.flatMap_append

/-- A text cut at a byte offset, if that is between two characters. -/
def splitBytes : Nat → List Char → Option (List Char × List Char)
  | 0, cs => some ([], cs)
  | _ + 1, [] => none
  | n + 1, c :: cs =>
    if c.utf8Size ≤ n + 1 then
      (splitBytes (n + 1 - c.utf8Size) cs).map fun parts => (c :: parts.1, parts.2)
    else none

/-- The text between two byte offsets, if both are between two characters and in order. -/
def slice (cs : List Char) (start stop : Nat) : Option (List Char) :=
  if start ≤ stop then
    (splitBytes stop cs).bind fun parts => (splitBytes start parts.1).map (·.2)
  else none

/-- A text is cut behind any prefix. -/
lemma splitBytes_append (front rest : List Char) :
    splitBytes (bytes front).length (front ++ rest) = some (front, rest) := by
  induction front with
  | nil => cases rest <;> rfl
  | cons c front ih =>
    have size : (bytes (c :: front)).length = c.utf8Size + (bytes front).length := by simp
    have pos := c.utf8Size_pos
    obtain ⟨n, eq⟩ : ∃ n, (bytes (c :: front)).length = n + 1 :=
      ⟨_, (Nat.succ_pred_eq_of_pos (by omega)).symm⟩
    have left : n + 1 - c.utf8Size = (bytes front).length := by omega
    rw [eq, List.cons_append, splitBytes, if_pos (by omega), left, ih]
    rfl

/-- What lies behind a prefix and before a rest is the text between their offsets. -/
lemma slice_append (front text rest : List Char) :
    slice (front ++ text ++ rest) (bytes front).length (bytes (front ++ text)).length = some text := by
  rw [slice, if_pos (by simp), splitBytes_append, Option.bind_some, splitBytes_append]
  rfl

/-- A character below 128 is its own byte, and the bytes of any other are all beyond. -/
lemma encode_ascii (c : Char) :
    c.toNat < 128 ∧ String.utf8EncodeChar c = [UInt8.ofNat c.toNat] ∨
      128 ≤ c.toNat ∧ ∀ b ∈ String.utf8EncodeChar c, 128 ≤ b.toNat := by
  have val : c.val.toNat = c.toNat := rfl
  unfold String.utf8EncodeChar
  dsimp only
  split_ifs with one two three
  · exact .inl ⟨by omega, rfl⟩
  all_goals
    refine .inr ⟨by omega, ?_⟩
    simp only [List.forall_mem_cons, UInt8.toNat_ofNat']
    simp only [List.not_mem_nil, false_implies, implies_true, and_true]
    omega

/-- A text has a byte for each character at least. -/
lemma length_le_bytes (cs : List Char) : cs.length ≤ (bytes cs).length := by
  induction cs with
  | nil => exact Nat.le_refl _
  | cons c cs ih =>
    have pos := c.utf8Size_pos
    simp only [bytes_cons, List.length_append, String.length_utf8EncodeChar, List.length_cons]
    omega

/-- Characters below 128 are their own bytes. -/
lemma bytes_ascii {cs : List Char} (ascii : ∀ c ∈ cs, c.toNat < 128) :
    bytes cs = cs.map fun c => UInt8.ofNat c.toNat := by
  induction cs with
  | nil => rfl
  | cons c cs ih =>
    obtain ⟨first, ascii⟩ := List.forall_mem_cons.mp ascii
    rcases encode_ascii c with ⟨_, one⟩ | ⟨beyond, _⟩
    · rw [bytes_cons, one, ih ascii]
      rfl
    · omega

/-- Every character has a byte. -/
lemma encode_ne_nil (c : Char) : String.utf8EncodeChar c ≠ [] := by
  rw [← List.length_pos_iff, String.length_utf8EncodeChar]
  exact c.utf8Size_pos

/-- Text that begins with bytes below 128 begins with as many characters. -/
lemma ascii_front {n : Nat} {cs : List Char} (le : n ≤ (bytes cs).length)
    (ascii : ∀ b ∈ (bytes cs).take n, b.toNat < 128) :
    ∃ front rest, cs = front ++ rest ∧ front.length = n ∧ ∀ c ∈ front, c.toNat < 128 := by
  induction n generalizing cs with
  | zero => exact ⟨[], cs, rfl, rfl, fun _ mem => absurd mem List.not_mem_nil⟩
  | succ n ih =>
    cases cs with
    | nil => simp at le
    | cons c cs =>
      rcases encode_ascii c with ⟨small, one⟩ | ⟨_, beyond⟩
      · rw [bytes_cons, one, List.singleton_append] at le ascii
        rw [List.take_succ_cons, List.forall_mem_cons] at ascii
        obtain ⟨front, rest, rfl, length, all⟩ := ih (Nat.le_of_succ_le_succ le) ascii.2
        refine ⟨c :: front, rest, rfl, by rw [List.length_cons, length], ?_⟩
        exact List.forall_mem_cons.mpr ⟨small, all⟩
      · -- The first byte would be one of those beyond.
        exfalso
        cases encoded : String.utf8EncodeChar c with
        | nil => exact encode_ne_nil c encoded
        | cons b bs =>
          have low := ascii b (by rw [bytes_cons, encoded, List.cons_append]; exact List.mem_cons_self)
          have high := beyond b (by rw [encoded]; exact List.mem_cons_self)
          omega

/-- The first byte of a text is a character below 128 only if its first character is. -/
lemma first_ascii {q c : Char} {cs : List Char} (small : q.toNat < 128) :
    ((bytes (c :: cs)).getD 0 0).toNat = q.toNat ↔ c = q := by
  rcases encode_ascii c with ⟨own, one⟩ | ⟨high, beyond⟩
  · rw [bytes_cons, one, List.singleton_append, List.getD_cons_zero, UInt8.toNat_ofNat',
      Nat.mod_eq_of_lt (by omega), Char.toNat_inj]
  · cases encoded : String.utf8EncodeChar c with
    | nil => exact absurd encoded (encode_ne_nil c)
    | cons b bs =>
      have far := beyond b (by rw [encoded]; exact List.mem_cons_self)
      rw [bytes_cons, encoded, List.cons_append, List.getD_cons_zero]
      constructor
      · intro is
        omega
      · rintro rfl
        omega

/-- The last byte of a text is a character below 128 only if its last character is. -/
lemma last_ascii {q c : Char} {cs : List Char} (small : q.toNat < 128) :
    ((bytes (cs ++ [c])).getD ((bytes (cs ++ [c])).length - 1) 0).toNat = q.toNat ↔ c = q := by
  have ends : ∀ bs b, String.utf8EncodeChar c = bs ++ [b] →
      (bytes (cs ++ [c])).getD ((bytes (cs ++ [c])).length - 1) 0 = b := by
    intro bs b encoded
    rw [bytes_append, bytes_cons, bytes_nil, List.append_nil, encoded, ← List.append_assoc]
    simp
  rcases encode_ascii c with ⟨own, one⟩ | ⟨high, beyond⟩
  · rw [ends [] _ one, UInt8.toNat_ofNat', Nat.mod_eq_of_lt (by omega), Char.toNat_inj]
  · rcases List.eq_nil_or_concat (String.utf8EncodeChar c) with none | ⟨bs, b, encoded⟩
    · exact absurd none (encode_ne_nil c)
    · rw [List.concat_eq_append] at encoded
      have far := beyond b (by rw [encoded]; exact List.mem_append_right _ List.mem_cons_self)
      rw [ends bs b encoded]
      constructor
      · intro is
        omega
      · rintro rfl
        omega

end Utf8

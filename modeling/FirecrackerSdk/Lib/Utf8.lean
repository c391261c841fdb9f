import Mathlib.Data.List.Basic

/-!
# Texts and their bytes

A list of bytes is decoded by `Utf8.decode` if it is the encoding of a text
(`Utf8.decode_eq_some_iff`). A byte below 128 is a character of its own wherever it stands, so it
can be taken off the end of a text together with its byte (`Utf8.bytes_eq_snoc_iff`).
-/

namespace Utf8

/-- **The encoding of a list of characters.** -/
def bytes (text : List Char) : List UInt8 := text.flatMap String.utf8EncodeChar

/-- **Decode bytes** that are an encoding. -/
def decode (encoded : List UInt8) : Option String := String.fromUTF8? ⟨encoded.toArray⟩

theorem bytes_append (text text' : List Char) : bytes (text ++ text') = bytes text ++ bytes text' :=
  List.flatMap_append

theorem toByteArray_data (text : List Char) : text.utf8Encode.data.toList = bytes text := by
  simp [List.utf8Encode, bytes]

theorem decode_eq_some_iff {encoded : List UInt8} {text : String} :
    decode encoded = some text ↔ bytes text.toList = encoded := by
  unfold decode String.fromUTF8?
  have hencode : bytes text.toList = text.toByteArray.data.toList := by
    rw [← toByteArray_data, String.utf8Encode_toList]
  rw [hencode]
  constructor
  · intro h
    split at h
    · obtain rfl := Option.some.inj h
      rfl
    · cases h
  · rintro rfl
    rw [Array.toArray_toList, dif_pos text.isValidUTF8]
    rfl

/-- The last byte of a longer encoding is 128 or more. -/
theorem ne_or_of_lt {b : UInt8} (hb : b.toNat < 128) (x : UInt8) : x ||| 0x80 ≠ b := by
  rintro rfl
  rw [UInt8.toNat_or] at hb
  exact absurd hb (Nat.not_lt.mpr Nat.right_le_or)

theorem utf8Size_eq (c : Char) : c.utf8Size =
    if c.val ≤ 0x7f then 1 else if c.val ≤ 0x7ff then 2 else if c.val ≤ 0xffff then 3 else 4 := rfl

/-- **A character whose encoding ends with a byte below 128** has no other byte. -/
theorem utf8EncodeChar_eq_snoc {c : Char} {init : List UInt8} {b : UInt8} (hb : b.toNat < 128)
    (h : String.utf8EncodeChar c = init ++ [b]) : init = [] ∧ c.toNat = b.toNat := by
  by_cases h₁ : c.val ≤ 0x7f
  · have hsize : c.utf8Size = 1 := by
      rw [utf8Size_eq, if_pos h₁]
    rw [String.utf8EncodeChar_eq_singleton hsize] at h
    obtain ⟨hinit, hlast⟩ := List.append_inj' (show [] ++ [c.val.toUInt8] = init ++ [b] from h) rfl
    refine ⟨hinit.symm, ?_⟩
    have hvalue : c.val.toNat ≤ 127 := UInt32.le_iff_toNat_le.mp h₁
    rw [← List.singleton_inj.mp hlast, UInt32.toNat_toUInt8, Nat.mod_eq_of_lt (by omega)]
    rfl
  · -- the last byte of the other encodings has its highest bit set
    exfalso
    obtain ⟨front, last, hencode⟩ :
        ∃ front last, String.utf8EncodeChar c = front ++ [last ||| 0x80] := by
      by_cases h₂ : c.val ≤ 0x7ff
      · have hsize : c.utf8Size = 2 := by
          rw [utf8Size_eq, if_neg h₁, if_pos h₂]
        exact ⟨[_], _, String.utf8EncodeChar_eq_cons_cons hsize⟩
      · by_cases h₃ : c.val ≤ 0xffff
        · have hsize : c.utf8Size = 3 := by
            rw [utf8Size_eq, if_neg h₁, if_neg h₂, if_pos h₃]
          exact ⟨[_, _], _, String.utf8EncodeChar_eq_cons_cons_cons hsize⟩
        · have hsize : c.utf8Size = 4 := by
            rw [utf8Size_eq, if_neg h₁, if_neg h₂, if_neg h₃]
          exact ⟨[_, _, _], _, String.utf8EncodeChar_eq_cons_cons_cons_cons hsize⟩
    have hlast := (List.append_inj' (hencode.symm.trans h) rfl).2
    exact ne_or_of_lt hb last (List.singleton_inj.mp hlast)

/-- The encoding of a character below 128. -/
theorem utf8EncodeChar_of_lt {b : UInt8} (hb : b.toNat < 128) :
    String.utf8EncodeChar (Char.ofNat b.toNat) = [b] := by
  have hvalid : b.toNat.isValidChar := Or.inl (by omega)
  have hvalue : (Char.ofNat b.toNat).val.toNat = b.toNat := by
    rw [Char.ofNat, dif_pos hvalid]
    rfl
  have hsize : (Char.ofNat b.toNat).utf8Size = 1 := by
    rw [utf8Size_eq, if_pos]
    rw [UInt32.le_iff_toNat_le, hvalue]
    exact Nat.le_of_lt_succ hb
  rw [String.utf8EncodeChar_eq_singleton hsize, List.singleton_inj]
  apply UInt8.toNat_inj.mp
  rw [UInt32.toNat_toUInt8, hvalue, Nat.mod_eq_of_lt (by omega)]

/-- **A byte below 128 at the end of a text is its last character.** -/
theorem bytes_eq_snoc_iff {text : List Char} {init : List UInt8} {b : UInt8} (hb : b.toNat < 128) :
    bytes text = init ++ [b] ↔
      ∃ text', text = text' ++ [Char.ofNat b.toNat] ∧ bytes text' = init := by
  constructor
  · intro h
    rcases List.eq_nil_or_concat' text with rfl | ⟨text', c, rfl⟩
    · exact absurd h.symm (List.append_ne_nil_of_right_ne_nil _ (List.cons_ne_nil _ _))
    · rw [bytes_append] at h
      have hc : bytes [c] = String.utf8EncodeChar c := List.append_nil _
      rw [hc] at h
      rcases List.eq_nil_or_concat' (String.utf8EncodeChar c) with hnil | ⟨front, last, hconcat⟩
      · exact absurd hnil String.utf8EncodeChar_ne_nil
      · rw [hconcat, ← List.append_assoc] at h
        obtain ⟨hinit, hlast⟩ := List.append_inj' h rfl
        obtain rfl := List.singleton_inj.mp hlast
        obtain ⟨rfl, hvalue⟩ := utf8EncodeChar_eq_snoc hb hconcat
        refine ⟨text', ?_, by rw [← hinit, List.append_nil]⟩
        rw [← hvalue, Char.ofNat_toNat]
  · rintro ⟨text', rfl, rfl⟩
    have hc : bytes [Char.ofNat b.toNat] = String.utf8EncodeChar (Char.ofNat b.toNat) :=
      List.append_nil _
    rw [bytes_append, hc, utf8EncodeChar_of_lt hb]

end Utf8

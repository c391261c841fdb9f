import FirecrackerSdk.Lib.Http1
import FirecrackerSdk.Lib.Text

/-!
# Bytes below 128 as a text

A byte below 128 is the encoding of a character of its own, so that such bytes are decoded one by
one (`Ascii.fromUtf8Lossy_eq`). Lines of such bytes that are joined by an end of line are the lines
of the text again (`Ascii.lines_join`), and the header of a message is its lines joined in this way
(`Ascii.cut_message_eq`).
-/

namespace Ascii

/-- The character of a byte. -/
def char (b : UInt8) : Char := Char.ofNat b.toNat

/-- The text of some bytes. -/
def text (bytes : List UInt8) : List Char := bytes.map char

/-- **A line of bytes below 128**: no end of line is in it, nor a part of one. -/
def Plain (bytes : List UInt8) : Prop := ∀ b ∈ bytes, b.toNat < 128 ∧ b ≠ 13 ∧ b ≠ 10

instance (bytes : List UInt8) : Decidable (Plain bytes) := inferInstanceAs (Decidable (∀ _ ∈ _, _))

theorem plain_append {first second : List UInt8} :
    Plain (first ++ second) ↔ Plain first ∧ Plain second := List.forall_mem_append

theorem plain_cons {b : UInt8} {bytes : List UInt8} :
    Plain (b :: bytes) ↔ (b.toNat < 128 ∧ b ≠ 13 ∧ b ≠ 10) ∧ Plain bytes := List.forall_mem_cons

/-! ### Characters -/

theorem toNat_char {b : UInt8} (h : b.toNat < 128) : (char b).toNat = b.toNat := by
  have hvalid : b.toNat.isValidChar := .inl (by omega)
  rw [char, Char.ofNat, dif_pos hvalid]
  rfl

/-- Different bytes are different characters. -/
theorem char_inj {a b : UInt8} (ha : a.toNat < 128) (hb : b.toNat < 128) (h : char a = char b) :
    a = b := by
  have hnat := congrArg Char.toNat h
  rw [toNat_char ha, toNat_char hb] at hnat
  exact UInt8.toNat_inj.mp hnat

/-- A byte stands in a line as its character stands in the text. -/
theorem char_mem_text {b : UInt8} {bytes : List UInt8} (hb : b.toNat < 128)
    (h : ∀ a ∈ bytes, a.toNat < 128) : char b ∈ text bytes ↔ b ∈ bytes := by
  constructor
  · intro hmem
    obtain ⟨a, ha, heq⟩ := List.mem_map.mp hmem
    rw [← char_inj (h a ha) hb heq]
    exact ha
  · intro hmem
    exact List.mem_map.mpr ⟨b, hmem, rfl⟩

theorem decodeLossyAux_eq {bytes : List UInt8} (h : ∀ b ∈ bytes, b.toNat < 128) {fuel : ℕ}
    (hfuel : bytes.length ≤ fuel) : Text.decodeLossyAux fuel bytes = text bytes := by
  induction bytes generalizing fuel with
  | nil => cases fuel <;> rfl
  | cons b bytes ih =>
    obtain ⟨hb, hbytes⟩ := List.forall_mem_cons.mp h
    obtain ⟨fuel, rfl⟩ := Nat.exists_eq_add_one_of_ne_zero (Nat.ne_of_gt (Nat.zero_lt_of_lt hfuel))
    have hlt : b < 0x80 := UInt8.lt_iff_toNat_lt.mpr hb
    have hone : Text.decodeOne b bytes = (some (char b), bytes) := if_pos hlt
    rw [Text.decodeLossyAux, hone, ih hbytes (Nat.le_of_succ_le_succ hfuel)]
    rfl

/-- **Bytes below 128 are decoded one by one.** -/
theorem fromUtf8Lossy_eq {bytes : List UInt8} (h : ∀ b ∈ bytes, b.toNat < 128) :
    Text.fromUtf8Lossy bytes = text bytes := decodeLossyAux_eq h le_rfl

/-! ### Lines -/

/-- The lines after the first, each with an end of line before it. -/
def join (line : List UInt8) (more : List (List UInt8)) : List UInt8 :=
  line ++ more.flatMap (Http1.crlf ++ ·)

theorem not_mem_text {bytes : List UInt8} (h : Plain bytes) :
    '\n' ∉ text bytes ∧ '\r' ∉ text bytes := by
  have hascii : ∀ b ∈ bytes, b.toNat < 128 := fun b hb => (h b hb).1
  constructor
  · intro hmem
    exact (h 10 ((char_mem_text (b := 10) (by decide) hascii).mp hmem)).2.2 rfl
  · intro hmem
    exact (h 13 ((char_mem_text (b := 13) (by decide) hascii).mp hmem)).2.1 rfl

theorem linesFrom_append {line : List Char} (h : '\n' ∉ line) (acc rest : List Char) :
    Text.linesFrom acc (line ++ rest) = Text.linesFrom (acc ++ line) rest := by
  induction line generalizing acc with
  | nil => rw [List.nil_append, List.append_nil]
  | cons c line ih =>
    rw [List.mem_cons, not_or] at h
    rw [List.cons_append, Text.linesFrom, if_neg (Ne.symm h.1), ih h.2, List.append_assoc]
    rfl

/-- An end of line closes a line. -/
theorem lines_append_crlf {line : List Char} (hlf : '\n' ∉ line) (rest : List Char) :
    Text.lines (line ++ '\r' :: '\n' :: rest) = line :: Text.lines rest := by
  have hstrip : Text.stripCr (line ++ ['\r']) = line := by
    rw [Text.stripCr, List.getLast?_concat, if_pos rfl, List.dropLast_concat]
  rw [Text.lines, linesFrom_append hlf, List.nil_append, Text.linesFrom, if_neg (by decide),
    Text.linesFrom, if_pos rfl, hstrip]
  rfl

/-- What is not closed is a line if it is not empty. -/
theorem lines_eq_singleton {line : List Char} (hlf : '\n' ∉ line) (hne : line ≠ []) :
    Text.lines line = [line] := by
  have happend := linesFrom_append hlf [] []
  rw [List.append_nil, List.nil_append] at happend
  rw [Text.lines, happend, Text.linesFrom, if_neg hne]

/-- **Lines that are joined are the lines of the text.** -/
theorem lines_join {line : List UInt8} {more : List (List UInt8)} (hline : Plain line)
    (hne : line ≠ []) (hmore : ∀ l ∈ more, Plain l ∧ l ≠ []) :
    Text.lines (text (join line more)) = text line :: more.map text := by
  induction more generalizing line with
  | nil =>
    rw [join, List.flatMap_nil, List.append_nil]
    exact lines_eq_singleton (not_mem_text hline).1 (by simpa [text] using hne)
  | cons next more ih =>
    obtain ⟨hnext, hmore⟩ := List.forall_mem_cons.mp hmore
    have hsplit : text (join line (next :: more)) =
        text line ++ '\r' :: '\n' :: text (join next more) := by
      simp [text, join, Http1.crlf]
      exact ⟨rfl, rfl⟩
    rw [hsplit, lines_append_crlf (not_mem_text hline).1, ih hnext.1 hnext.2 hmore, List.map_cons]

/-- A joined line is below 128. -/
theorem lt_of_mem_join {line : List UInt8} {more : List (List UInt8)} (hline : Plain line)
    (hmore : ∀ l ∈ more, Plain l) : ∀ b ∈ join line more, b.toNat < 128 := by
  have hcrlf : ∀ b ∈ Http1.crlf, b.toNat < 128 := by
    simp [Http1.crlf]
  intro b hb
  rcases List.mem_append.mp hb with hb | hb
  · exact (hline b hb).1
  · obtain ⟨l, hl, hb⟩ := List.mem_flatMap.mp hb
    rcases List.mem_append.mp hb with hb | hb
    · exact hcrlf b hb
    · exact (hmore l hl b hb).1

theorem oneLine_of_plain {line : List UInt8} (h : Plain line) : Http1.OneLine line := by
  intro hinside
  exact (h 13 (hinside.subset (by decide))).2.1 rfl

/-! ### The header of a message -/

/-- What was cut stands around the pattern. -/
theorem eq_append_of_cut {pattern bytes first second : List UInt8}
    (h : Http1.cut pattern bytes = some (first, second)) :
    bytes = first ++ (pattern ++ second) := by
  obtain ⟨i, hi, heq⟩ := Option.map_eq_some_iff.mp h
  obtain ⟨rfl, rfl⟩ := Prod.mk.inj heq
  obtain ⟨t, ht⟩ := (Chunked.position_eq_some hi).2
  rw [← List.drop_drop, ← ht, List.drop_left, ht, List.take_append_drop]

/-- **The header of a message is its lines, joined.** -/
theorem cut_message_eq {line : List UInt8} {more : List (List UInt8)} (hline : Plain line)
    (hmore : ∀ l ∈ more, Plain l ∧ l ≠ []) (rest : List UInt8) :
    Http1.cut (Http1.crlf ++ Http1.crlf) (Http1.message line more rest) =
      some (join line more, rest) := by
  obtain ⟨head, hcut, -⟩ := Http1.cut_message (oneLine_of_plain hline)
    (fun l hl => ⟨oneLine_of_plain (hmore l hl).1, (hmore l hl).2⟩) rest
  have hmessage : Http1.message line more rest =
      join line more ++ (Http1.crlf ++ Http1.crlf ++ rest) := by
    have hshift : ∀ more : List (List UInt8), Http1.crlf ++ more.flatMap (· ++ Http1.crlf) =
        more.flatMap (Http1.crlf ++ ·) ++ Http1.crlf := by
      intro more
      induction more with
      | nil => simp
      | cons l more ih =>
        rw [List.flatMap_cons, List.flatMap_cons, List.append_assoc, List.append_assoc, ih]
        simp
    rw [Http1.message, join, List.append_assoc, ← List.append_assoc Http1.crlf, hshift]
    simp
  have hhead := eq_append_of_cut hcut
  rw [Http1.message] at hmessage
  rw [Http1.message, hcut]
  rw [hmessage] at hhead
  rw [List.append_cancel_right hhead]

end Ascii

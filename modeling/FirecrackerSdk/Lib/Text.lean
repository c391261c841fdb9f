import Mathlib.Data.List.Infix

/-!
# Text as Rust's standard library sees it

The handful of `str` and `char` functions that the development leans on, on lists
of characters, with the documented behaviour of the standard library where Lean's
own functions differ from it: white space is the Unicode property, not the ASCII
one; a line ends at a line feed and gives up one carriage return before it; a
number may open with a plus sign and may overflow; and malformed UTF-8 is replaced
chunk by chunk, one replacement character for each maximal prefix of a
well-formed sequence.

`Text.Occurs` is the one relation stated here: a text occurs in another when its
characters stand in it without a gap.
-/

namespace Text

/-! ### White space and splitting -/

/-- `char::is_whitespace`: the Unicode property `White_Space`. -/
def isWhitespace (c : Char) : Bool :=
  let n := c.toNat
  (9 ≤ n && n ≤ 13) || n == 0x20 || n == 0x85 || n == 0xA0 || n == 0x1680 ||
    (0x2000 ≤ n && n ≤ 0x200A) || n == 0x2028 || n == 0x2029 || n == 0x202F || n == 0x205F ||
    n == 0x3000

/-- Split at every character satisfying `p`, keeping the empty pieces. -/
def splitBy (p : Char → Bool) : List Char → List (List Char)
  | [] => [[]]
  | c :: cs =>
    match splitBy p cs with
    | [] => [[c]]
    | w :: ws => if p c then [] :: w :: ws else (c :: w) :: ws

theorem splitBy_ne_nil (p : Char → Bool) (cs : List Char) : splitBy p cs ≠ [] := by
  cases cs with
  | nil => exact List.cons_ne_nil _ _
  | cons c cs =>
    rw [splitBy]
    split
    · exact List.cons_ne_nil _ _
    · split
      · exact List.cons_ne_nil _ _
      · exact List.cons_ne_nil _ _

/-- The pieces before a separator, and those after it. -/
theorem splitBy_append_cons {p : Char → Bool} {c : Char} (hc : p c = true) (cs ds : List Char) :
    splitBy p (cs ++ c :: ds) = splitBy p cs ++ splitBy p ds := by
  induction cs with
  | nil =>
    cases hds : splitBy p ds with
    | nil => exact absurd hds (splitBy_ne_nil p ds)
    | cons w ws => simp [splitBy, hds, hc]
  | cons b cs ih =>
    cases hcs : splitBy p cs with
    | nil => exact absurd hcs (splitBy_ne_nil p cs)
    | cons w ws =>
      rw [hcs] at ih
      rw [List.cons_append, splitBy, splitBy, ih, hcs]
      dsimp only [List.cons_append]
      split <;> rfl

/-- The pieces have no separator in them. -/
theorem not_of_mem_splitBy {p : Char → Bool} {cs piece : List Char} (h : piece ∈ splitBy p cs) :
    ∀ c ∈ piece, p c = false := by
  induction cs generalizing piece with
  | nil =>
    rw [splitBy, List.mem_singleton] at h
    rw [h]
    exact fun _ hmem => absurd hmem List.not_mem_nil
  | cons b cs ih =>
    cases hcs : splitBy p cs with
    | nil => exact absurd hcs (splitBy_ne_nil p cs)
    | cons w ws =>
      rw [hcs] at ih
      rw [splitBy, hcs] at h
      dsimp only at h
      split at h
      · rcases List.mem_cons.mp h with rfl | h
        · exact fun _ hmem => absurd hmem List.not_mem_nil
        · exact ih h
      · rename_i hb
        rcases List.mem_cons.mp h with rfl | h
        · intro c hmem
          rcases List.mem_cons.mp hmem with rfl | hmem
          · exact Bool.eq_false_iff.mpr hb
          · exact ih List.mem_cons_self c hmem
        · exact ih (List.mem_cons_of_mem _ h)

/-- A text without separators is its only piece. -/
theorem splitBy_eq_singleton {p : Char → Bool} {cs : List Char} (h : ∀ c ∈ cs, p c = false) :
    splitBy p cs = [cs] := by
  induction cs with
  | nil => rfl
  | cons c cs ih =>
    obtain ⟨hc, hcs⟩ := List.forall_mem_cons.mp h
    rw [splitBy, ih hcs]
    simp [hc]

/-- There is one piece more than there are separators. -/
theorem length_splitBy (p : Char → Bool) (cs : List Char) :
    (splitBy p cs).length = cs.countP p + 1 := by
  induction cs with
  | nil => rfl
  | cons c cs ih =>
    cases hcs : splitBy p cs with
    | nil => exact absurd hcs (splitBy_ne_nil p cs)
    | cons w ws =>
      rw [hcs] at ih
      rw [splitBy, hcs, List.countP_cons, Nat.add_right_comm, ← ih]
      dsimp only
      split <;> rfl

/-- The pieces of texts that are joined by a separator are the pieces of each. -/
theorem splitBy_intercalate {p : Char → Bool} {c : Char} (hc : p c = true) (t : List Char)
    (ts : List (List Char)) :
    splitBy p ([c].intercalate (t :: ts)) = (t :: ts).flatMap (splitBy p) := by
  induction ts generalizing t with
  | nil => simp
  | cons u ts ih =>
    have hjoin : [c].intercalate (t :: u :: ts) = t ++ c :: [c].intercalate (u :: ts) := by
      simp [List.intercalate]
    rw [hjoin, splitBy_append_cons hc, ih u]
    rfl

/-- `str::split_whitespace`: the non-empty pieces between white space. -/
def splitWhitespace (cs : List Char) : List (List Char) :=
  (splitBy isWhitespace cs).filter (· ≠ [])

/-- A token is not empty and has no white space in it. -/
theorem of_mem_splitWhitespace {cs token : List Char} (h : token ∈ splitWhitespace cs) :
    token ≠ [] ∧ ∀ c ∈ token, isWhitespace c = false := by
  obtain ⟨hmem, hne⟩ := List.mem_filter.mp h
  exact ⟨of_decide_eq_true hne, not_of_mem_splitBy hmem⟩

/-- A text that is not empty and has no white space in it is its only token. -/
theorem splitWhitespace_eq_singleton {cs : List Char} (hne : cs ≠ [])
    (h : ∀ c ∈ cs, isWhitespace c = false) : splitWhitespace cs = [cs] := by
  rw [splitWhitespace, splitBy_eq_singleton h]
  simp [hne]

/-- The tokens of texts that are joined by white space are the tokens of each. -/
theorem splitWhitespace_intercalate {c : Char} (hc : isWhitespace c = true)
    (ts : List (List Char)) :
    splitWhitespace ([c].intercalate ts) = ts.flatMap splitWhitespace := by
  cases ts with
  | nil => rfl
  | cons t ts =>
    rw [splitWhitespace, splitBy_intercalate hc, List.filter_flatMap]
    rfl

/-- `str::split_once`: the text before and after the first `sep`. -/
def splitOnce (sep : Char) : List Char → Option (List Char × List Char)
  | [] => none
  | c :: cs =>
    if c = sep then some ([], cs)
    else (splitOnce sep cs).map fun p => (c :: p.1, p.2)

/-- There is nothing to split at. -/
theorem splitOnce_eq_none {sep : Char} {cs : List Char} (h : sep ∉ cs) :
    splitOnce sep cs = none := by
  induction cs with
  | nil => rfl
  | cons c cs ih =>
    rw [List.mem_cons, not_or] at h
    rw [splitOnce, if_neg (Ne.symm h.1), ih h.2]
    rfl

/-- The first `sep` is where the text is split. -/
theorem splitOnce_append_cons {sep : Char} {before : List Char} (h : sep ∉ before)
    (after : List Char) : splitOnce sep (before ++ sep :: after) = some (before, after) := by
  induction before with
  | nil => simp [splitOnce]
  | cons c cs ih =>
    rw [List.mem_cons, not_or] at h
    rw [List.cons_append, splitOnce, if_neg (Ne.symm h.1), ih h.2]
    rfl

/-- **A text is split at its first `sep`, or has none.** -/
theorem splitOnce_cases (sep : Char) (cs : List Char) :
    (sep ∉ cs ∧ splitOnce sep cs = none) ∨
      ∃ before after, sep ∉ before ∧ cs = before ++ sep :: after ∧
        splitOnce sep cs = some (before, after) := by
  by_cases hmem : sep ∈ cs
  · obtain ⟨before, after, rfl, hbefore⟩ := List.eq_append_cons_of_mem hmem
    exact .inr ⟨before, after, hbefore, rfl, splitOnce_append_cons hbefore after⟩
  · exact .inl ⟨hmem, splitOnce_eq_none hmem⟩

/-- `str::trim`: without the white space at both ends. -/
def trim (cs : List Char) : List Char :=
  ((cs.dropWhile isWhitespace).reverse.dropWhile isWhitespace).reverse

/-- Drop one carriage return from the end of a line that a line feed closed. -/
def stripCr (line : List Char) : List Char :=
  if line.getLast? = some '\r' then line.dropLast else line

/-- The lines of a text, `acc` being what the current line holds so far. A line
feed closes the line; what follows the last one is a line unless it is empty. -/
def linesFrom (acc : List Char) : List Char → List (List Char)
  | [] => if acc = [] then [] else [acc]
  | c :: cs => if c = '\n' then stripCr acc :: linesFrom [] cs else linesFrom (acc ++ [c]) cs

/-- `str::lines`. -/
def lines (cs : List Char) : List (List Char) := linesFrom [] cs

/-- `str::eq_ignore_ascii_case`. -/
def eqIgnoreAsciiCase (a b : List Char) : Bool := a.map Char.toLower == b.map Char.toLower

/-! ### Numbers -/

/-- The value of a decimal digit. -/
def digitValue (c : Char) : Option ℕ := if c.isDigit then some (c.toNat - 48) else none

/-- The value of a sequence of decimal digits read after `acc`, as long as it does
not exceed `bound`. -/
def parseDigits (bound acc : ℕ) : List Char → Option ℕ
  | [] => some acc
  | c :: cs =>
    match digitValue c with
    | none => none
    | some d => if 10 * acc + d ≤ bound then parseDigits bound (10 * acc + d) cs else none

/-- `str::parse` for an unsigned integer type with greatest value `bound`: an
optional plus sign, then at least one digit, without overflow. -/
def parseUnsigned (bound : ℕ) : List Char → Option ℕ
  | [] => none
  | ['+'] => none
  | '+' :: cs => parseDigits bound 0 cs
  | cs => parseDigits bound 0 cs

/-- `str::parse` for a signed integer type of least value `-bound - 1` and greatest
value `bound`. -/
def parseSigned (bound : ℕ) : List Char → Option ℤ
  | ['-'] => none
  | '-' :: cs => (parseDigits (bound + 1) 0 cs).map fun n => -(n : ℤ)
  | cs => (parseUnsigned bound cs).map fun n => (n : ℤ)

theorem parseDigits_le {bound acc n : ℕ} {cs : List Char} (h : parseDigits bound acc cs = some n)
    (hacc : acc ≤ bound) : n ≤ bound := by
  induction cs generalizing acc with
  | nil =>
    obtain rfl := Option.some.inj h
    exact hacc
  | cons c cs ih =>
    rw [parseDigits] at h
    cases hdigit : digitValue c with
    | none =>
      rw [hdigit] at h
      cases h
    | some d =>
      rw [hdigit] at h
      dsimp only at h
      by_cases hfits : 10 * acc + d ≤ bound
      · rw [if_pos hfits] at h
        exact ih h hfits
      · rw [if_neg hfits] at h
        cases h

theorem parseUnsigned_le {bound n : ℕ} {cs : List Char} (h : parseUnsigned bound cs = some n) :
    n ≤ bound := by
  rw [parseUnsigned.eq_def] at h
  split at h
  · cases h
  · cases h
  · exact parseDigits_le h (Nat.zero_le _)
  · exact parseDigits_le h (Nat.zero_le _)

/-- A number that is parsed is in the range of its type. -/
theorem parseSigned_mem {bound : ℕ} {n : ℤ} {cs : List Char} (h : parseSigned bound cs = some n) :
    -(bound + 1 : ℤ) ≤ n ∧ n ≤ bound := by
  rw [parseSigned.eq_def] at h
  split at h
  · cases h
  · obtain ⟨_, hm, rfl⟩ := Option.map_eq_some_iff.mp h
    obtain ⟨k, hk, ⟨⟩⟩ := Option.bind_eq_some_iff.mp hm
    have hle := parseDigits_le hk (Nat.zero_le _)
    omega
  · obtain ⟨_, hm, rfl⟩ := Option.map_eq_some_iff.mp h
    obtain ⟨k, hk, ⟨⟩⟩ := Option.bind_eq_some_iff.mp hm
    have hle := parseUnsigned_le hk
    omega

theorem digitValue_of_isDigit {c : Char} (h : c.isDigit = true) :
    digitValue c = some (c.toNat - 48) := if_pos h

theorem le_ofDigitChars (l : List Char) (acc : ℕ) : acc ≤ Nat.ofDigitChars 10 l acc := by
  induction l generalizing acc with
  | nil => exact le_of_eq (Nat.ofDigitChars_nil ..).symm
  | cons c l ih =>
    rw [Nat.ofDigitChars_cons]
    have hle := ih (10 * acc + (c.toNat - '0'.toNat))
    omega

/-- Digits are read as the number that they stand for, if it is in range. -/
theorem parseDigits_eq {bound acc : ℕ} {l : List Char} (hdigit : ∀ c ∈ l, c.isDigit = true)
    (hbound : Nat.ofDigitChars 10 l acc ≤ bound) :
    parseDigits bound acc l = some (Nat.ofDigitChars 10 l acc) := by
  induction l generalizing acc with
  | nil =>
    rw [Nat.ofDigitChars_nil]
    rfl
  | cons c l ih =>
    obtain ⟨hc, hl⟩ := List.forall_mem_cons.mp hdigit
    rw [Nat.ofDigitChars_cons] at hbound ⊢
    have hacc : 10 * acc + (c.toNat - 48) ≤ bound := (le_ofDigitChars l _).trans hbound
    rw [parseDigits, digitValue_of_isDigit hc]
    dsimp only
    rw [if_pos hacc]
    exact ih hl hbound

/-- What is taken for digits is digits, and they have the value that is returned. -/
theorem of_parseDigits {bound acc n : ℕ} {l : List Char} (h : parseDigits bound acc l = some n) :
    (∀ c ∈ l, c.isDigit = true) ∧ Nat.ofDigitChars 10 l acc = n := by
  induction l generalizing acc with
  | nil => exact ⟨by simp, (Nat.ofDigitChars_nil ..).trans (Option.some.inj h)⟩
  | cons c l ih =>
    rw [parseDigits, digitValue] at h
    by_cases hc : c.isDigit = true
    · rw [if_pos hc] at h
      dsimp only at h
      obtain ⟨-, h⟩ := Option.ite_none_right_eq_some.mp h
      obtain ⟨hl, hvalue⟩ := ih h
      refine ⟨List.forall_mem_cons.mpr ⟨hc, hl⟩, ?_⟩
      rw [Nat.ofDigitChars_cons]
      exact hvalue
    · rw [if_neg hc] at h
      cases h

/-- **A numeral**: perhaps a plus sign, and then digits, of a value that is not too great. -/
def IsNumeral (bound : ℕ) (cs : List Char) (n : ℕ) : Prop :=
  ∃ digits, (cs = digits ∨ cs = '+' :: digits) ∧ digits ≠ [] ∧
    (∀ c ∈ digits, c.isDigit = true) ∧ Nat.ofDigitChars 10 digits 0 = n ∧ n ≤ bound

/-- **What is taken for a number is a numeral.** -/
theorem parseUnsigned_eq_some_iff {bound n : ℕ} {cs : List Char} :
    parseUnsigned bound cs = some n ↔ IsNumeral bound cs n := by
  constructor
  · intro h
    have hle := parseUnsigned_le h
    rw [parseUnsigned.eq_def] at h
    split at h
    · cases h
    · cases h
    · rename_i digits hne
      obtain ⟨hdigit, hvalue⟩ := of_parseDigits h
      refine ⟨digits, .inr rfl, ?_, hdigit, hvalue, hle⟩
      rintro rfl
      exact hne rfl
    · rename_i hne _ _
      obtain ⟨hdigit, hvalue⟩ := of_parseDigits h
      exact ⟨cs, .inl rfl, hne, hdigit, hvalue, hle⟩
  · rintro ⟨digits, hcs, hne, hdigit, rfl, hle⟩
    have hparse := parseDigits_eq hdigit hle
    obtain ⟨c, l, rfl⟩ := List.exists_cons_of_ne_nil hne
    rcases hcs with rfl | rfl
    · -- a digit is not a sign
      have hplus : c ≠ '+' := by
        rintro rfl
        exact absurd (hdigit _ List.mem_cons_self) (by decide)
      rw [parseUnsigned.eq_def]
      split
      · rename_i heq
        cases heq
      · rename_i heq
        exact absurd (List.cons.inj heq).1 hplus
      · rename_i heq
        exact absurd (List.cons.inj heq).1 hplus
      · exact hparse
    · exact hparse

/-- **A number is read back from its decimal digits.** -/
theorem parseDigits_toDigits {bound n : ℕ} (h : n ≤ bound) :
    parseDigits bound 0 (Nat.toDigits 10 n) = some n := by
  have hdigit : ∀ c ∈ Nat.toDigits 10 n, c.isDigit = true := fun c hc =>
    Nat.isDigit_of_mem_toDigits (by decide) (by decide) hc
  have hvalue := Nat.ofDigitChars_ten_toDigits (n := n)
  rw [parseDigits_eq hdigit (hvalue.symm ▸ h), hvalue]

theorem toDigits_eq_cons (n : ℕ) :
    ∃ c l, Nat.toDigits 10 n = c :: l ∧ c ≠ '+' ∧ c ≠ '-' := by
  obtain ⟨c, l, hl⟩ := List.exists_cons_of_ne_nil (Nat.toDigits_ne_nil (n := n) (b := 10))
  have hdigit : c.isDigit = true :=
    Nat.isDigit_of_mem_toDigits (b := 10) (n := n) (by decide) (by decide) (by simp [hl])
  refine ⟨c, l, hl, ?_, ?_⟩
  · rintro rfl
    cases hdigit
  · rintro rfl
    cases hdigit

/-- An unsigned number is read back from how it is displayed. -/
theorem parseUnsigned_toDigits {bound n : ℕ} (h : n ≤ bound) :
    parseUnsigned bound (Nat.toDigits 10 n) = some n := by
  refine parseUnsigned_eq_some_iff.mpr ⟨_, .inl rfl, Nat.toDigits_ne_nil, fun c hc => ?_,
    Nat.ofDigitChars_ten_toDigits, h⟩
  exact Nat.isDigit_of_mem_toDigits (by decide) (by decide) hc

/-- **A signed number is read back** from how it is displayed. -/
theorem parseSigned_toString {bound : ℕ} {n : ℤ} (hlow : -(bound + 1 : ℤ) ≤ n)
    (hhigh : n ≤ bound) : parseSigned bound (toString n).toList = some n := by
  cases n with
  | ofNat m =>
    have hle : m ≤ bound := by
      have hcast : (m : ℤ) ≤ bound := hhigh
      omega
    have htext : (toString (Int.ofNat m)).toList = Nat.toDigits 10 m := by
      show (toString m).toList = _
      rw [Nat.toString_eq_ofList_toDigits, String.toList_ofList]
    have hparse := parseUnsigned_toDigits hle
    obtain ⟨c, l, hl, -, hminus⟩ := toDigits_eq_cons m
    rw [htext]
    rw [hl] at hparse ⊢
    rw [parseSigned.eq_def]
    split
    · rename_i heq
      exact absurd (List.cons.inj heq).1 hminus
    · rename_i heq
      exact absurd (List.cons.inj heq).1 hminus
    · rw [hparse]
      rfl
  | negSucc m =>
    have hle : m + 1 ≤ bound + 1 := by
      have hcast : -(bound + 1 : ℤ) ≤ -(m + 1 : ℤ) := by simpa [Int.negSucc_eq] using hlow
      omega
    have htext : (toString (Int.negSucc m)).toList = '-' :: Nat.toDigits 10 (m + 1) := by
      show ("-" ++ toString (m + 1)).toList = _
      rw [Nat.toString_eq_ofList_toDigits, String.toList_append]
      exact congrArg (['-'] ++ ·) String.toList_ofList
    obtain ⟨c, l, hl, -, -⟩ := toDigits_eq_cons (m + 1)
    have hparse := parseDigits_toDigits hle
    rw [htext]
    rw [hl] at hparse ⊢
    rw [parseSigned.eq_def]
    split
    · rename_i heq
      cases heq
    · rename_i heq
      obtain rfl := (List.cons.inj heq).2
      rw [hparse]
      rfl
    · rename_i hno
      exact absurd rfl (hno _)

/-! ### Decoding bytes -/

/-- A continuation byte of UTF-8. -/
def isContinuation (b : UInt8) : Bool := 0x80 ≤ b && b ≤ 0xBF

/-- Whether `b₁` may follow the first byte `b₀` of a sequence of three or four
bytes: the ranges that exclude overlong forms, surrogates and code points above
the last one. -/
def secondOk (b₀ b₁ : UInt8) : Bool :=
  if b₀ == 0xE0 then 0xA0 ≤ b₁ && b₁ ≤ 0xBF
  else if b₀ == 0xED then 0x80 ≤ b₁ && b₁ ≤ 0x9F
  else if b₀ == 0xF0 then 0x90 ≤ b₁ && b₁ ≤ 0xBF
  else if b₀ == 0xF4 then 0x80 ≤ b₁ && b₁ ≤ 0x8F
  else isContinuation b₁

/-- The six low bits of a continuation byte. -/
def low (b : UInt8) : ℕ := b.toNat % 64

/-- Decode one character that opens with `b`. A malformed sequence gives no
character, and what is left is what follows the longest part of it that could have
opened a character. -/
def decodeOne (b : UInt8) (rest : List UInt8) : Option Char × List UInt8 :=
  if b < 0x80 then (some (Char.ofNat b.toNat), rest)
  else if 0xC2 ≤ b && b ≤ 0xDF then
    match rest with
    | b₁ :: rest₁ =>
      if isContinuation b₁ then (some (Char.ofNat (b.toNat % 32 * 64 + low b₁)), rest₁)
      else (none, rest)
    | [] => (none, rest)
  else if 0xE0 ≤ b && b ≤ 0xEF then
    match rest with
    | b₁ :: rest₁ =>
      if secondOk b b₁ then
        match rest₁ with
        | b₂ :: rest₂ =>
          if isContinuation b₂ then
            (some (Char.ofNat ((b.toNat % 16 * 64 + low b₁) * 64 + low b₂)), rest₂)
          else (none, rest₁)
        | [] => (none, rest₁)
      else (none, rest)
    | [] => (none, rest)
  else if 0xF0 ≤ b && b ≤ 0xF4 then
    match rest with
    | b₁ :: rest₁ =>
      if secondOk b b₁ then
        match rest₁ with
        | b₂ :: rest₂ =>
          if isContinuation b₂ then
            match rest₂ with
            | b₃ :: rest₃ =>
              if isContinuation b₃ then
                (some (Char.ofNat (((b.toNat % 8 * 64 + low b₁) * 64 + low b₂) * 64 + low b₃)),
                  rest₃)
              else (none, rest₂)
            | [] => (none, rest₂)
          else (none, rest₁)
        | [] => (none, rest₁)
      else (none, rest)
    | [] => (none, rest)
  else (none, rest)

/-- The character that stands for malformed bytes. -/
def replacement : Char := Char.ofNat 0xFFFD

/-- Decode at most `fuel` characters. -/
def decodeLossyAux : ℕ → List UInt8 → List Char
  | _, [] => []
  | 0, _ :: _ => []
  | fuel + 1, b :: rest =>
    (decodeOne b rest).1.getD replacement :: decodeLossyAux fuel (decodeOne b rest).2

/-- `String::from_utf8_lossy`. A character takes at least one byte, so the number
of bytes is fuel enough. -/
def fromUtf8Lossy (bytes : List UInt8) : List Char := decodeLossyAux bytes.length bytes

/-! ### Showing a text -/

/-- The hexadecimal digits of a code point, without leading zeros. -/
def hexDigits (n : ℕ) : List Char := Nat.toDigits 16 n

/-- `char::escape_debug` inside a string literal; a control character is shown by
its code point. So is any other character beyond ASCII that is not printable or
extends the one before it. Which these are depends on the version of Unicode that the
standard library was made with, and is a parameter. -/
def escapeDebug (unprintable : Char → Bool) (c : Char) : List Char :=
  if c = '"' then ['\\', '"']
  else if c = '\\' then ['\\', '\\']
  else if c = '\n' then ['\\', 'n']
  else if c = '\r' then ['\\', 'r']
  else if c = '\t' then ['\\', 't']
  else if c.toNat = 0 then ['\\', '0']
  else if c.toNat < 0x20 || (0x7F ≤ c.toNat && (c.toNat < 0xA0 || unprintable c)) then
    '\\' :: 'u' :: Char.ofNat 0x7B :: hexDigits c.toNat ++ [Char.ofNat 0x7D]
  else [c]

/-- A text as the format `{:?}` shows it. -/
def debugStr (unprintable : Char → Bool) (s : String) : String :=
  String.ofList ('"' :: s.toList.flatMap (escapeDebug unprintable) ++ ['"'])

/-! ### Numerals -/

/-- Numbers with the same numeral are the same. -/
theorem toString_inj {m n : ℕ} : toString m = toString n ↔ m = n := by
  constructor
  · intro h
    have hdigits := congrArg String.toList h
    rw [Nat.toString_eq_repr, Nat.toString_eq_repr, Nat.toList_repr, Nat.toList_repr] at hdigits
    have hvalue := congrArg (fun digits => Nat.ofDigitChars 10 digits 0) hdigits
    simpa [Nat.ofDigitChars_toDigits] using hvalue
  · rintro rfl
    rfl

/-! ### Occurrences -/

/-- **A text occurs in another**: its characters stand there without a gap. -/
def Occurs (t e : String) : Prop := t.toList <:+: e.toList

instance (t e : String) : Decidable (Occurs t e) :=
  inferInstanceAs (Decidable (t.toList <:+: e.toList))

theorem Occurs.refl (t : String) : Occurs t t := List.infix_rfl

theorem Occurs.trans {t u e : String} (h₁ : Occurs t u) (h₂ : Occurs u e) : Occurs t e :=
  List.IsInfix.trans h₁ h₂

theorem Occurs.append_left {t e : String} (h : Occurs t e) (l : String) : Occurs t (l ++ e) := by
  unfold Occurs
  rw [String.toList_append]
  exact List.infix_append_of_infix_right h

theorem Occurs.append_right {t e : String} (h : Occurs t e) (r : String) : Occurs t (e ++ r) := by
  unfold Occurs
  rw [String.toList_append]
  exact List.infix_append_of_infix_left h

/-- Each of the texts that are joined occurs in the joined text. -/
theorem occurs_intercalate (sep : String) {t : String} :
    ∀ {l : List String}, t ∈ l → Occurs t (sep.intercalate l)
  | [], h => absurd h List.not_mem_nil
  | [u], h => by
    rw [List.mem_singleton] at h
    rw [h, String.intercalate_singleton]
    exact Occurs.refl u
  | u :: v :: l, h => by
    rw [String.intercalate_cons_cons]
    rcases List.mem_cons.mp h with rfl | h
    · exact ((Occurs.refl t).append_right _).append_right _
    · exact (occurs_intercalate sep h).append_left _

end Text

import FirecrackerSdk.Lib.Chunked

/-!
# Requests of HTTP/1.1 as bytes

How the recipient of a stream of bytes finds the requests in it.

The header ends at the first empty line, that is, at the first two ends of line in a row; its
first line has three parts with single spaces between them, the others are fields. The field
`Content-Length` says how many bytes the body has, and what follows the body belongs to the next
request (`Http1.parse`). A message that is put together from lines without an end of line in them
parses as what it was put together from, whatever its body is (`Http1.parse_message`); and
whatever else a message holds, its first line ends at the first end of line
(`Http1.parseRequestLine_of_parse`).

A segment of a path stands for the bytes that its percent escapes stand for, and for itself
exactly if it has none (`Http1.decodeSegment_eq_self_iff`).
-/

namespace Http1

/-- The bytes of a message. -/
abbrev Bytes : Type := List UInt8

/-! ### Lines -/

/-- The end of a line. -/
def crlf : Bytes := [13, 10]

/-- **A line**: no end of line stands in it. -/
def OneLine (line : Bytes) : Prop := ¬ crlf <:+: line

instance (line : Bytes) : Decidable (OneLine line) := inferInstanceAs (Decidable (¬ _))

/-- What has no carriage return can stand before a line. -/
theorem OneLine.append_left {line : Bytes} (h : OneLine line) :
    ∀ {first : Bytes}, 13 ∉ first → OneLine (first ++ line)
  | [], _ => h
  | b :: first, hfirst => by
    rw [List.mem_cons, not_or] at hfirst
    intro hinside
    rcases List.infix_cons_iff.mp hinside with ⟨t, ht⟩ | hinside
    · exact hfirst.1 (List.cons.inj ht).1
    · exact h.append_left hfirst.2 hinside

/-- What has no line feed can stand after a line. -/
theorem OneLine.append_right {last : Bytes} (hlast : 10 ∉ last) :
    ∀ {line : Bytes}, OneLine line → OneLine (line ++ last)
  | [], _ => fun hinside => hlast (hinside.subset (by decide))
  | b :: line, h => by
    intro hinside
    rcases List.infix_cons_iff.mp hinside with hpre | hinside
    · obtain ⟨t, ht⟩ := hpre
      -- the line feed is in the line or after it
      cases line with
      | nil =>
        have hlf : 10 :: t = last := (List.cons.inj ht).2
        exact hlast (hlf ▸ List.mem_cons_self)
      | cons c line =>
        obtain ⟨hb, ht⟩ := List.cons.inj ht
        rw [← hb, ← (List.cons.inj ht).1] at h
        exact h ⟨[], line, rfl⟩
    · have hline : OneLine line := fun hin => h (List.infix_cons hin)
      exact hline.append_right hlast hinside

/-- What is not a line has a first line. -/
theorem exists_oneLine {bytes : Bytes} (h : ¬ OneLine bytes) :
    ∃ line rest, bytes = line ++ crlf ++ rest ∧ OneLine line := by
  induction bytes with
  | nil => exact absurd (by decide) h
  | cons b bytes ih =>
    by_cases hpre : crlf <+: b :: bytes
    · obtain ⟨rest, hrest⟩ := hpre
      exact ⟨[], rest, hrest.symm, by decide⟩
    · have hbytes : ¬ OneLine bytes := by
        intro hline
        refine h fun hinside => ?_
        exact (List.infix_cons_iff.mp hinside).elim hpre hline
      obtain ⟨line, rest, rfl, hline⟩ := ih hbytes
      refine ⟨b :: line, rest, rfl, fun hinside => ?_⟩
      rcases List.infix_cons_iff.mp hinside with hpre' | hinside
      · rw [List.append_assoc] at hpre
        exact hpre (hpre'.trans (List.prefix_append (b :: line) _))
      · exact hline hinside

/-- The lines of a text. -/
def lines : Bytes → List Bytes
  | [] => [[]]
  | 13 :: 10 :: rest => [] :: lines rest
  | b :: rest => (lines rest).modifyHead (b :: ·)

/-- What stands before and after the first occurrence of a pattern. -/
def cut (pattern bytes : Bytes) : Option (Bytes × Bytes) :=
  (Chunked.position pattern bytes).map fun i => (bytes.take i, bytes.drop (i + pattern.length))

/-- No occurrence of a pattern begins in the first of two parts. -/
def NoneBegins (pattern first second : Bytes) : Prop :=
  ∀ i < first.length, ¬ pattern <+: (first ++ second).drop i

theorem NoneBegins.tail {pattern first second : Bytes} {b : UInt8}
    (h : NoneBegins pattern (b :: first) second) : NoneBegins pattern first second := by
  intro i hi
  exact h (i + 1) (Nat.succ_lt_succ hi)

theorem NoneBegins.head {pattern first second : Bytes} {b : UInt8}
    (h : NoneBegins pattern (b :: first) second) : ¬ pattern <+: b :: (first ++ second) :=
  h 0 (Nat.succ_pos _)

/-- A search passes over a part in which no occurrence begins. -/
theorem cut_append {pattern first : Bytes} (second : Bytes)
    (h : NoneBegins pattern first second) :
    cut pattern (first ++ second) =
      (cut pattern second).map fun p => (first ++ p.1, p.2) := by
  have hposition : Chunked.position pattern (first ++ second) =
      (Chunked.position pattern second).map (first.length + ·) := by
    induction first with
    | nil => simp
    | cons b first ih =>
      rw [List.cons_append, Chunked.position, if_neg h.head, ih h.tail, Option.map_map]
      congr 1
      funext i
      simp only [Function.comp_apply, List.length_cons]
      omega
  rw [cut, cut, hposition, Option.map_map, Option.map_map]
  congr 1
  funext i
  simp only [Function.comp_apply, Prod.mk.injEq]
  refine ⟨?_, ?_⟩
  · rw [List.take_append, List.take_of_length_le (Nat.le_add_right _ _), Nat.add_sub_cancel_left]
  · rw [Nat.add_assoc, List.drop_append, List.drop_of_length_le (Nat.le_add_right _ _),
      Nat.add_sub_cancel_left, List.nil_append]

/-- A search stops at an occurrence. -/
theorem cut_self (pattern rest : Bytes) : cut pattern (pattern ++ rest) = some ([], rest) := by
  rw [cut, Chunked.position_of_prefix (List.prefix_append _ _)]
  simp

theorem lines_ne_nil : ∀ bytes : Bytes, lines bytes ≠ []
  | [] => by simp [lines]
  | b :: rest => by
    rw [lines.eq_def]
    split
    · simp
    · simp
    · rename_i heq
      rw [List.cons.injEq] at heq
      obtain ⟨-, rfl⟩ := heq
      have ih := lines_ne_nil rest
      intro hnil
      exact ih (List.modifyHead_eq_nil_iff.mp hnil)

/-- The first line goes on as long as no end of line begins. -/
theorem lines_append {first : Bytes} (second : Bytes) (h : NoneBegins crlf first second) :
    lines (first ++ second) = (lines second).modifyHead (first ++ ·) := by
  induction first with
  | nil =>
    rw [List.nil_append]
    cases lines second <;> rfl
  | cons b first ih =>
    have hhead := h.head
    rw [List.cons_append, lines, ih h.tail]
    · cases hlines : lines second with
      | nil => exact absurd hlines (lines_ne_nil second)
      | cons line more => rfl
    · intro rest hb hrest
      rw [hb, hrest] at hhead
      exact hhead ⟨rest, rfl⟩

theorem lines_crlf (rest : Bytes) : lines (crlf ++ rest) = [] :: lines rest := rfl

/-- No end of line begins in a line, also if one follows. -/
theorem OneLine.noneBegins {line : Bytes} (h : OneLine line) (rest : Bytes) :
    NoneBegins crlf line (crlf ++ rest) := by
  intro i hi hpre
  rw [List.drop_append_of_le_length hi.le] at hpre
  refine h (List.IsInfix.trans ?_ (List.drop_suffix i line).isInfix)
  -- the first byte of the end of line is in the line, and so is the second
  cases hdrop : line.drop i with
  | nil =>
    have := congrArg List.length hdrop
    rw [List.length_drop, List.length_nil] at this
    omega
  | cons b more =>
    rw [hdrop] at hpre
    cases more with
    | nil =>
      obtain ⟨t, ht⟩ := hpre
      simp [crlf] at ht
    | cons c more =>
      obtain ⟨t, ht⟩ := hpre
      simp only [crlf, List.cons_append, List.nil_append, List.cons.injEq] at ht
      obtain ⟨rfl, rfl, -⟩ := ht
      exact ⟨[], more, rfl⟩

/-- Nor does it if nothing follows. -/
theorem OneLine.noneBegins_nil {line : Bytes} (h : OneLine line) : NoneBegins crlf line [] := by
  intro i _ hpre
  rw [List.append_nil] at hpre
  exact h (hpre.isInfix.trans (List.drop_suffix i line).isInfix)

theorem OneLine.lines_eq {line : Bytes} (h : OneLine line) : lines line = [line] := by
  have := lines_append [] h.noneBegins_nil
  rw [List.append_nil] at this
  rw [this]
  simp [lines]

/-- The first line ends at the first end of line. -/
theorem OneLine.lines_append_crlf {line : Bytes} (h : OneLine line) (rest : Bytes) :
    lines (line ++ crlf ++ rest) = line :: lines rest := by
  rw [List.append_assoc, lines_append _ (h.noneBegins rest), lines_crlf]
  simp

/-- Two ends of line begin where one does. -/
theorem OneLine.noneBegins_twice {line : Bytes} (h : OneLine line) (rest : Bytes) :
    NoneBegins (crlf ++ crlf) line (crlf ++ rest) := by
  intro i hi hpre
  exact h.noneBegins rest i hi ((List.prefix_append _ _).trans hpre)

/-- The search for the empty line passes over a line that is followed by another. -/
theorem OneLine.cut_append_crlf {line : Bytes} (h : OneLine line) {rest : Bytes}
    (hrest : ¬ crlf <+: rest) :
    cut (crlf ++ crlf) (line ++ crlf ++ rest) =
      (cut (crlf ++ crlf) rest).map fun p => (line ++ crlf ++ p.1, p.2) := by
  have hline : NoneBegins (crlf ++ crlf) (line ++ crlf) rest := by
    intro i hi hpre
    by_cases hin : i < line.length
    · rw [List.append_assoc] at hpre
      exact h.noneBegins_twice rest i hin hpre
    · -- it begins in the end of the line
      rw [List.length_append] at hi
      have hlen : crlf.length = 2 := rfl
      obtain rfl | rfl : i = line.length ∨ i = line.length + 1 := by omega
      · rw [List.append_assoc, List.drop_left, List.prefix_append_right_inj] at hpre
        exact hrest hpre
      · rw [List.append_assoc, List.drop_append, List.drop_of_length_le (Nat.le_succ _)] at hpre
        obtain ⟨t, ht⟩ := hpre
        simp [crlf] at ht
  exact cut_append rest hline

/-- It stops at a line that is followed by an empty one. -/
theorem OneLine.cut_append_twice {line : Bytes} (h : OneLine line) (rest : Bytes) :
    cut (crlf ++ crlf) (line ++ crlf ++ (crlf ++ rest)) = some (line, rest) := by
  rw [List.append_assoc, cut_append _ (h.noneBegins_twice _), ← List.append_assoc crlf, cut_self]
  simp

/-- **The header is found**: lines that are not empty after the first, then an empty one. -/
theorem cut_message {line : Bytes} (hline : OneLine line) {more : List Bytes}
    (hmore : ∀ l ∈ more, OneLine l ∧ l ≠ []) (rest : Bytes) :
    ∃ head, cut (crlf ++ crlf) (line ++ crlf ++ (more.flatMap (· ++ crlf) ++ (crlf ++ rest))) =
      some (head, rest) ∧ lines head = line :: more := by
  induction more generalizing line with
  | nil => exact ⟨line, hline.cut_append_twice rest, hline.lines_eq⟩
  | cons next more ih =>
    obtain ⟨⟨hnext, hne⟩, hmore⟩ := List.forall_mem_cons.mp hmore
    obtain ⟨head, hcut, hlines⟩ := ih hnext hmore
    refine ⟨line ++ crlf ++ head, ?_, ?_⟩
    · rw [List.flatMap_cons, List.append_assoc (next ++ crlf), hline.cut_append_crlf, hcut]
      · rfl
      · -- the next line is not empty and has no end of line at its beginning
        have hpos := List.length_pos_iff.mpr hne
        have hnone := hnext.noneBegins (more.flatMap (· ++ crlf) ++ (crlf ++ rest)) 0 hpos
        rw [← List.append_assoc] at hnone
        exact hnone
    · rw [hline.lines_append_crlf, hlines]

/-! ### The request line -/

/-- The version. -/
def version : Bytes := [72, 84, 84, 80, 47, 49, 46, 49]

/-- The first line of a request. -/
def requestLine (method target : Bytes) : Bytes := method ++ 32 :: (target ++ 32 :: version)

/-- Read the first line of a request: method and target. -/
def parseRequestLine (line : Bytes) : Option (Bytes × Bytes) :=
  match line.splitOn 32 with
  | [method, target, last] => if last = version then some (method, target) else none
  | _ => none

/-- The parts of a line have no separator in them. -/
theorem not_mem_of_mem_splitOn {separator : UInt8} :
    ∀ {line part : Bytes}, part ∈ line.splitOn separator → separator ∉ part
  | [], part, h => by
    rw [List.splitOn_nil, List.mem_singleton] at h
    rw [h]
    exact List.not_mem_nil
  | b :: line, part, h => by
    have ih := @not_mem_of_mem_splitOn separator line
    rw [List.splitOn_cons_eq_if_modifyHead] at h
    split at h
    · rcases List.mem_cons.mp h with rfl | h
      · exact List.not_mem_nil
      · exact ih h
    · rename_i hne
      cases hparts : line.splitOn separator with
      | nil => exact absurd hparts (List.splitOn_ne_nil _ _)
      | cons first more =>
        rw [hparts] at h ih
        rcases List.mem_cons.mp h with rfl | h
        · intro hmem
          rcases List.mem_cons.mp hmem with rfl | hmem
          · exact hne (beq_self_eq_true _)
          · exact ih List.mem_cons_self hmem
        · exact ih (List.mem_cons_of_mem _ h)

/-- **A line is read as the method and the target that it was made of**, if these have no
space in them, and only as these. -/
theorem parseRequestLine_eq_some_iff {line method target : Bytes} :
    parseRequestLine line = some (method, target) ↔
      line = requestLine method target ∧ 32 ∉ method ∧ 32 ∉ target := by
  constructor
  · intro h
    unfold parseRequestLine at h
    split at h
    · rename_i method' target' last hparts
      split at h
      · rename_i hlast
        obtain ⟨rfl, rfl⟩ := Prod.mk.inj (Option.some.inj h)
        refine ⟨?_, ?_, ?_⟩
        · have hjoin : [32].intercalate (line.splitOn 32) = line := List.intercalate_splitOn 32
          rw [← hjoin, hparts, hlast]
          simp [requestLine, List.intercalate]
        · exact not_mem_of_mem_splitOn (by rw [hparts]; simp)
        · exact not_mem_of_mem_splitOn (by rw [hparts]; simp)
      · cases h
    · cases h
  · rintro ⟨rfl, hmethod, htarget⟩
    have hversion : version.splitOn 32 = [version] := by decide
    rw [parseRequestLine, requestLine, List.splitOn_append_cons_self_of_not_mem hmethod,
      List.splitOn_append_cons_self_of_not_mem htarget, hversion]
    exact if_pos rfl

/-! ### Fields -/

/-- Spaces and tabs. -/
def isBlank (b : UInt8) : Bool := b == 32 || b == 9

/-- Without the blanks at both ends. -/
def trim (bytes : Bytes) : Bytes :=
  ((bytes.dropWhile isBlank).reverse.dropWhile isBlank).reverse

/-- A letter without its case. -/
def lower (b : UInt8) : UInt8 := if 65 ≤ b && b ≤ 90 then b + 32 else b

/-- Read a field: its name, and its value. -/
def parseField (line : Bytes) : Option (Bytes × Bytes) :=
  match cut [58] line with
  | some (name, value) => if name = [] then none else some (name, trim value)
  | none => none

/-- A byte that does not stand in the first part does not begin there. -/
theorem noneBegins_singleton {b : UInt8} {first : Bytes} (h : b ∉ first) (second : Bytes) :
    NoneBegins [b] first second := by
  induction first with
  | nil => exact fun i hi => absurd hi (Nat.not_lt_zero i)
  | cons c first ih =>
    rw [List.mem_cons, not_or] at h
    rintro (_ | i) hi hpre
    · obtain ⟨t, ht⟩ := hpre
      exact h.1 (List.cons.inj ht).1
    · exact ih h.2 i (Nat.lt_of_succ_lt_succ hi) hpre

/-- **A field is read as the name and the value that it was made of**, up to blanks around the
value. -/
theorem parseField_eq {name : Bytes} (hname : 58 ∉ name) (hne : name ≠ []) (value : Bytes) :
    parseField (name ++ [58] ++ value) = some (name, trim value) := by
  rw [parseField, List.append_assoc, cut_append _ (noneBegins_singleton hname _), cut_self]
  dsimp only [Option.map_some]
  rw [List.append_nil, if_neg hne]

theorem dropWhile_isBlank {bytes : Bytes} (h : ∀ b ∈ bytes, isBlank b = false) :
    bytes.dropWhile isBlank = bytes := by
  cases bytes with
  | nil => rfl
  | cons b bytes => rw [List.dropWhile_cons_of_neg (by simp [h b List.mem_cons_self])]

/-- Blanks before a value without blanks are dropped. -/
theorem trim_blank_cons {value : Bytes} (h : ∀ b ∈ value, isBlank b = false) :
    trim (32 :: value) = value := by
  have hreverse : ∀ b ∈ value.reverse, isBlank b = false := fun b hb =>
    h b (List.mem_reverse.mp hb)
  rw [trim, List.dropWhile_cons_of_pos (by decide), dropWhile_isBlank h,
    dropWhile_isBlank hreverse, List.reverse_reverse]

/-- A decimal digit. -/
def isDigit (b : UInt8) : Bool := 48 ≤ b && b ≤ 57

/-- Read a number. -/
def parseDecimal (digits : Bytes) : Option ℕ :=
  if !digits.isEmpty && digits.all isDigit then
    some (digits.foldl (fun n b => 10 * n + (b.toNat - 48)) 0)
  else none

/-- A digit as a byte. -/
def digitByte (c : Char) : UInt8 := c.toNat.toUInt8

theorem toNat_digitByte {c : Char} (h : c.isDigit = true) :
    48 ≤ digitByte c ∧ digitByte c ≤ 57 ∧ (digitByte c).toNat = c.toNat := by
  have hrange : 48 ≤ c.toNat ∧ c.toNat ≤ 57 := by
    simpa [Char.isDigit, UInt32.le_iff_toNat_le] using h
  have htoNat : (digitByte c).toNat = c.toNat := by
    show c.toNat % 256 = c.toNat
    omega
  refine ⟨?_, ?_, htoNat⟩
  · rw [UInt8.le_iff_toNat_le, htoNat]
    exact hrange.1
  · rw [UInt8.le_iff_toNat_le, htoNat]
    exact hrange.2

theorem foldl_digitByte {l : List Char} (h : ∀ c ∈ l, c.isDigit = true) (acc : ℕ) :
    (l.map digitByte).foldl (fun n b => 10 * n + (b.toNat - 48)) acc =
      Nat.ofDigitChars 10 l acc := by
  induction l generalizing acc with
  | nil =>
    rw [Nat.ofDigitChars_nil]
    rfl
  | cons c l ih =>
    obtain ⟨hc, hl⟩ := List.forall_mem_cons.mp h
    rw [List.map_cons, List.foldl_cons, ih hl, (toNat_digitByte hc).2.2, Nat.ofDigitChars_cons]
    rfl

/-- **A number reads back** from its digits. -/
theorem parseDecimal_toDigits (n : ℕ) :
    parseDecimal ((Nat.toDigits 10 n).map digitByte) = some n := by
  have hdigit : ∀ c ∈ Nat.toDigits 10 n, c.isDigit = true := fun c hc =>
    Nat.isDigit_of_mem_toDigits (by decide) (by decide) hc
  have hne : ((Nat.toDigits 10 n).map digitByte).isEmpty = false := by
    rw [List.isEmpty_eq_false_iff]
    exact fun hnil => Nat.toDigits_ne_nil (List.map_eq_nil_iff.mp hnil)
  have hall : ((Nat.toDigits 10 n).map digitByte).all isDigit = true := by
    rw [List.all_eq_true]
    intro b hb
    obtain ⟨c, hc, rfl⟩ := List.mem_map.mp hb
    have hrange := toNat_digitByte (hdigit c hc)
    rw [isDigit, decide_eq_true hrange.1, decide_eq_true hrange.2.1]
    rfl
  rw [parseDecimal, hne, hall, if_pos (by decide), foldl_digitByte hdigit,
    Nat.ofDigitChars_ten_toDigits]

/-- The name of the field that holds the length. -/
def contentLengthName : Bytes :=
  [99, 111, 110, 116, 101, 110, 116, 45, 108, 101, 110, 103, 116, 104]

/-- The length that the fields announce. There is no body if none does, and no length if
several do. -/
def contentLength (fields : List (Bytes × Bytes)) : Option ℕ :=
  match fields.filter fun field => field.1.map lower = contentLengthName with
  | [] => some 0
  | [field] => parseDecimal field.2
  | _ => none

/-! ### Requests -/

/-- A request. -/
structure Request where
  method : Bytes
  target : Bytes
  fields : List (Bytes × Bytes)
  body : Bytes
  deriving DecidableEq

/-- **Read one request**, and return it with what follows it. -/
def parse (bytes : Bytes) : Option (Request × Bytes) := do
  let (head, rest) ← cut (crlf ++ crlf) bytes
  match lines head with
  | [] => none
  | line :: fieldLines => do
    let (method, target) ← parseRequestLine line
    let fields ← fieldLines.mapM parseField
    let length ← contentLength fields
    if length ≤ rest.length then
      some (⟨method, target, fields, rest.take length⟩, rest.drop length)
    else none

/-- A message put together from its lines. -/
def message (line : Bytes) (fieldLines : List Bytes) (body : Bytes) : Bytes :=
  line ++ crlf ++ (fieldLines.flatMap (· ++ crlf) ++ (crlf ++ body))

/-- **A message parses as what it was put together from**, whatever its body is and whatever
follows it. -/
theorem parse_message {line method target body : Bytes} {fieldLines : List Bytes}
    {fields : List (Bytes × Bytes)} (hline : OneLine line)
    (hrequest : parseRequestLine line = some (method, target))
    (hlines : ∀ l ∈ fieldLines, OneLine l ∧ l ≠ [])
    (hfields : fieldLines.mapM parseField = some fields)
    (hlength : contentLength fields = some body.length) (rest : Bytes) :
    parse (message line fieldLines (body ++ rest)) =
      some (⟨method, target, fields, body⟩, rest) := by
  obtain ⟨head, hcut, hhead⟩ := cut_message hline hlines (body ++ rest)
  rw [parse, message, hcut, Option.bind_eq_bind, Option.bind_some]
  dsimp only
  rw [hhead]
  dsimp only
  rw [hrequest, hfields, Option.bind_eq_bind, Option.bind_some, Option.bind_eq_bind,
    Option.bind_some, hlength, Option.bind_some, if_pos (by simp), List.take_left, List.drop_left]

/-- **The request line ends at the first end of line**, whatever follows. -/
theorem parseRequestLine_of_parse {line bytes rest : Bytes} {request : Request}
    (hline : OneLine line) (h : parse (line ++ crlf ++ bytes) = some (request, rest)) :
    parseRequestLine line = some (request.method, request.target) := by
  obtain ⟨⟨head, tail⟩, hcut, h⟩ := Option.bind_eq_some_iff.mp h
  have hhead : ∃ fieldLines, lines head = line :: fieldLines := by
    by_cases hpre : crlf <+: bytes
    · obtain ⟨bytes, rfl⟩ := hpre
      rw [hline.cut_append_twice] at hcut
      obtain ⟨rfl, rfl⟩ := Prod.mk.inj (Option.some.inj hcut)
      exact ⟨[], hline.lines_eq⟩
    · rw [hline.cut_append_crlf hpre] at hcut
      obtain ⟨p, -, hp⟩ := Option.map_eq_some_iff.mp hcut
      obtain ⟨rfl, rfl⟩ := Prod.mk.inj hp
      exact ⟨lines p.1, hline.lines_append_crlf p.1⟩
  obtain ⟨fieldLines, hhead⟩ := hhead
  dsimp only at h
  rw [hhead] at h
  obtain ⟨⟨method, target⟩, hrequest, h⟩ := Option.bind_eq_some_iff.mp h
  obtain ⟨fields, -, h⟩ := Option.bind_eq_some_iff.mp h
  obtain ⟨length, -, h⟩ := Option.bind_eq_some_iff.mp h
  split at h
  · obtain ⟨rfl, rfl⟩ := Prod.mk.inj (Option.some.inj h)
    exact hrequest
  · cases h

/-! ### Segments of a path -/

/-- The value of a hexadecimal digit. -/
def hexValue (b : UInt8) : Option UInt8 :=
  if 48 ≤ b && b ≤ 57 then some (b - 48)
  else if 65 ≤ b && b ≤ 70 then some (b - 55)
  else if 97 ≤ b && b ≤ 102 then some (b - 87)
  else none

theorem hexValue_percent : hexValue 37 = none := by decide

/-- What a segment stands for: a percent sign and two hexadecimal digits stand for a byte, and a
percent sign alone does not stand for anything. -/
def decodeSegment : Bytes → Option Bytes
  | [] => some []
  | 37 :: high :: low :: rest => do
    let high ← hexValue high
    let low ← hexValue low
    let rest ← decodeSegment rest
    some ((16 * high + low) :: rest)
  | b :: rest => if b = 37 then none else (decodeSegment rest).map (b :: ·)

/-- A byte that is not a percent sign stands for itself. -/
theorem decodeSegment_cons {b : UInt8} (h : b ≠ 37) (rest : Bytes) :
    decodeSegment (b :: rest) = (decodeSegment rest).map (b :: ·) := by
  rw [decodeSegment, if_neg h]
  intro _ _ _ hb
  exact absurd hb h

/-- Every percent escape takes two bytes more than it stands for. -/
theorem length_decodeSegment {segment bytes : Bytes} (h : decodeSegment segment = some bytes) :
    bytes.length + 2 * segment.count 37 = segment.length := by
  induction segment using decodeSegment.induct generalizing bytes with
  | case1 =>
    obtain rfl := Option.some.inj h
    rfl
  | case2 high low rest ih =>
    obtain ⟨x, hx, h⟩ := Option.bind_eq_some_iff.mp h
    obtain ⟨y, hy, h⟩ := Option.bind_eq_some_iff.mp h
    obtain ⟨bytes, hrest, h⟩ := Option.bind_eq_some_iff.mp h
    obtain rfl := Option.some.inj h
    -- the digits of an escape are no percent signs themselves
    have hhigh : high ≠ 37 := by
      rintro rfl
      rw [hexValue_percent] at hx
      cases hx
    have hlow : low ≠ 37 := by
      rintro rfl
      rw [hexValue_percent] at hy
      cases hy
    have hlength := ih hrest
    rw [List.count_cons_self, List.count_cons_of_ne hhigh, List.count_cons_of_ne hlow]
    simp only [List.length_cons]
    omega
  | case3 rest hno =>
    -- a percent sign without two digits
    rw [decodeSegment, if_pos rfl] at h
    · cases h
    · exact hno
  | case4 b rest hno hb ih =>
    rw [decodeSegment_cons hb] at h
    obtain ⟨bytes, hrest, rfl⟩ := Option.map_eq_some_iff.mp h
    have hlength := ih hrest
    rw [List.count_cons_of_ne hb, List.length_cons, List.length_cons]
    omega

/-- **A segment stands for itself exactly if there is no percent sign in it.** -/
theorem decodeSegment_eq_self_iff {segment : Bytes} :
    decodeSegment segment = some segment ↔ 37 ∉ segment := by
  constructor
  · intro h
    have hlength := length_decodeSegment h
    rw [← List.count_eq_zero]
    omega
  · intro h
    induction segment with
    | nil => rfl
    | cons b rest ih =>
      rw [List.mem_cons, not_or] at h
      rw [decodeSegment_cons (Ne.symm h.1), ih h.2]
      rfl

end Http1

import FirecrackerSdk.Framing
import FirecrackerSdk.Lib.Ascii

/-!
# Replies of a server

What a server sends that keeps to the format: a status line, fields, and a body whose length a
field announces, or a status that rules a body out and no length (`FirecrackerSdk.Reply`). The
client makes of it what it says, whatever the other fields are and whatever the server sends after
it (`FirecrackerSdk.Reply.responseResult_encode`).
-/

namespace FirecrackerSdk

open UnixSocketTransport

/-- A reply. Without a body it announces no length. -/
structure Reply where
  status : ℕ
  reason : List UInt8 := []
  before : List (List UInt8 × List UInt8) := []
  body : Option (List UInt8) := none
  after : List (List UInt8 × List UInt8) := []

namespace Reply

/-- The first line. -/
def statusLine (reply : Reply) : List UInt8 :=
  asBytes "HTTP/1.1" ++ 32 :: (asBytes (toString reply.status) ++ 32 :: reply.reason)

/-- A field as a line. -/
def fieldLine (field : List UInt8 × List UInt8) : List UInt8 := field.1 ++ 58 :: 32 :: field.2

/-- The field with the length. -/
def lengthLines (reply : Reply) : List (List UInt8) :=
  match reply.body with
  | none => []
  | some body => [fieldLine (asBytes "Content-Length", asBytes (toString body.length))]

/-- The lines after the first. -/
def lines (reply : Reply) : List (List UInt8) :=
  reply.before.map fieldLine ++ (reply.lengthLines ++ reply.after.map fieldLine)

/-- The bytes of a reply. -/
def encode (reply : Reply) : List UInt8 :=
  Http1.message reply.statusLine reply.lines (reply.body.getD [])

/-- **What a reply says.** -/
def result (reply : Reply) : Except Error (List UInt8) :=
  if 200 ≤ reply.status ∧ reply.status < 300 then .ok (reply.body.getD [])
  else .error (.api reply.status (String.ofList (Text.fromUtf8Lossy (reply.body.getD []))))

/-- A field that does not announce the length. -/
structure IsOther (field : List UInt8 × List UInt8) : Prop where
  name : Ascii.Plain field.1
  value : Ascii.Plain field.2
  colon : 58 ∉ field.1
  other : Text.eqIgnoreAsciiCase (Ascii.text field.1) "content-length".toList = false

/-- **A reply that keeps to the format.** -/
structure WellFormed (reply : Reply) : Prop where
  status : 100 ≤ reply.status ∧ reply.status < 1000
  reason : Ascii.Plain reply.reason
  before : ∀ field ∈ reply.before, IsOther field
  after : ∀ field ∈ reply.after, IsOther field
  length : ∀ body, reply.body = some body → body.length ≤ isizeMax
  bodyless : reply.body = none → reply.status < 200 ∨ reply.status = 204 ∨ reply.status = 304

/-! ### The lines of a reply -/

theorem plain_toString (n : ℕ) : Ascii.Plain (asBytes (toString n)) := by
  intro b hb
  rw [asBytes_toString] at hb
  obtain ⟨c, hc, rfl⟩ := List.mem_map.mp hb
  have hdigit := Nat.isDigit_of_mem_toDigits (by decide) (by decide) hc
  obtain ⟨hlow, hhigh, -⟩ := Http1.toNat_digitByte hdigit
  rw [UInt8.le_iff_toNat_le] at hlow hhigh
  have hlow' : 48 ≤ (Http1.digitByte c).toNat := hlow
  have hhigh' : (Http1.digitByte c).toNat ≤ 57 := hhigh
  refine ⟨by omega, fun heq => ?_, fun heq => ?_⟩
  · rw [heq] at hlow'
    exact absurd hlow' (by decide)
  · rw [heq] at hlow'
    exact absurd hlow' (by decide)

/-- A number is read off its bytes. -/
theorem text_toString (n : ℕ) : Ascii.text (asBytes (toString n)) = Nat.toDigits 10 n := by
  rw [asBytes_toString, Ascii.text, List.map_map]
  conv => rhs; rw [← List.map_id (Nat.toDigits 10 n)]
  refine List.map_congr_left fun c hc => ?_
  have hdigit := Nat.isDigit_of_mem_toDigits (by decide) (by decide) hc
  have hnat := (Http1.toNat_digitByte hdigit).2.2
  show Char.ofNat (Http1.digitByte c).toNat = c
  rw [hnat, Char.ofNat_toNat]

theorem IsOther.plain {field : List UInt8 × List UInt8} (h : IsOther field) :
    Ascii.Plain (fieldLine field) ∧ fieldLine field ≠ [] := by
  refine ⟨Ascii.plain_append.mpr ⟨h.name, ?_⟩, List.append_ne_nil_of_right_ne_nil _ (by simp)⟩
  rw [Ascii.plain_cons, Ascii.plain_cons]
  exact ⟨by decide, by decide, h.value⟩

theorem plain_lengthLines (reply : Reply) :
    ∀ line ∈ reply.lengthLines, Ascii.Plain line ∧ line ≠ [] := by
  have hname : Ascii.Plain (asBytes "Content-Length") := by decide +kernel
  intro line hline
  rw [lengthLines] at hline
  split at hline
  · cases hline
  · obtain rfl := List.mem_singleton.mp hline
    refine ⟨Ascii.plain_append.mpr ⟨hname, ?_⟩,
      List.append_ne_nil_of_right_ne_nil _ (by simp)⟩
    rw [Ascii.plain_cons, Ascii.plain_cons]
    exact ⟨by decide, by decide, plain_toString _⟩

variable {reply : Reply}

theorem WellFormed.plain_lines (h : reply.WellFormed) :
    ∀ line ∈ reply.lines, Ascii.Plain line ∧ line ≠ [] := by
  intro line hline
  rcases List.mem_append.mp hline with hline | hline
  · obtain ⟨field, hfield, rfl⟩ := List.mem_map.mp hline
    exact (h.before field hfield).plain
  · rcases List.mem_append.mp hline with hline | hline
    · exact reply.plain_lengthLines line hline
    · obtain ⟨field, hfield, rfl⟩ := List.mem_map.mp hline
      exact (h.after field hfield).plain

theorem WellFormed.plain_statusLine (h : reply.WellFormed) :
    Ascii.Plain reply.statusLine ∧ reply.statusLine ≠ [] := by
  refine ⟨Ascii.plain_append.mpr ⟨by decide +kernel, ?_⟩,
    List.append_ne_nil_of_right_ne_nil _ (by simp)⟩
  rw [Ascii.plain_cons, Ascii.plain_append, Ascii.plain_cons]
  exact ⟨by decide, plain_toString _, by decide, h.reason⟩

/-- The header of a reply. -/
def head (reply : Reply) : List UInt8 := Ascii.join reply.statusLine reply.lines

/-- **The header is found**, whatever comes after the reply. -/
theorem WellFormed.splitResponse_encode (h : reply.WellFormed) (rest : List UInt8) :
    splitResponse (reply.encode ++ rest) = some (reply.head, reply.body.getD [] ++ rest) := by
  have hcut := Ascii.cut_message_eq h.plain_statusLine.1 h.plain_lines (reply.body.getD [] ++ rest)
  have happend : reply.encode ++ rest =
      Http1.message reply.statusLine reply.lines (reply.body.getD [] ++ rest) := by
    simp [encode, Http1.message]
  rw [happend]
  exact hcut

/-- The lines of the header, as the client reads them. -/
theorem WellFormed.lines_head (h : reply.WellFormed) :
    Text.lines (Text.fromUtf8Lossy reply.head) =
      Ascii.text reply.statusLine :: reply.lines.map Ascii.text := by
  have hlt := Ascii.lt_of_mem_join h.plain_statusLine.1
    fun line hline => (h.plain_lines line hline).1
  rw [head, Ascii.fromUtf8Lossy_eq hlt,
    Ascii.lines_join h.plain_statusLine.1 h.plain_statusLine.2 h.plain_lines]

/-! ### The status -/

theorem splitWhitespace_append_cons (before after : List Char) :
    Text.splitWhitespace (before ++ ' ' :: after) =
      Text.splitWhitespace before ++ Text.splitWhitespace after := by
  rw [Text.splitWhitespace, Text.splitBy_append_cons (by decide), List.filter_append]
  rfl

theorem text_statusLine (reply : Reply) : Ascii.text reply.statusLine =
    "HTTP/1.1".toList ++ ' ' :: (Nat.toDigits 10 reply.status ++
      ' ' :: Ascii.text reply.reason) := by
  have hversion : Ascii.text (asBytes "HTTP/1.1") = "HTTP/1.1".toList := by decide +kernel
  have hspace : Ascii.char 32 = ' ' := by decide
  have happend : ∀ a b : List UInt8, Ascii.text (a ++ b) = Ascii.text a ++ Ascii.text b :=
    fun a b => List.map_append
  have hcons : ∀ (b : UInt8) (l : List UInt8), Ascii.text (b :: l) = Ascii.char b :: Ascii.text l :=
    fun b l => rfl
  rw [statusLine, happend, hcons, happend, hcons, hversion, hspace, text_toString]

theorem isWhitespace_of_isDigit {c : Char} (h : c.isDigit = true) :
    Text.isWhitespace c = false := by
  have hrange : 48 ≤ c.toNat ∧ c.toNat ≤ 57 := Char.isDigit_iff_toNat.mp h
  simp [Text.isWhitespace]
  omega

theorem isWhitespace_toDigits (n : ℕ) : ∀ c ∈ Nat.toDigits 10 n, Text.isWhitespace c = false :=
  fun _ hc => isWhitespace_of_isDigit (Nat.isDigit_of_mem_toDigits (by decide) (by decide) hc)

/-- **The status is read off the first line.** -/
theorem WellFormed.parseHttpStatus_head (h : reply.WellFormed) :
    parseHttpStatus reply.head = .ok reply.status := by
  have hversion : Text.splitWhitespace "HTTP/1.1".toList = ["HTTP/1.1".toList] := by decide
  have hstatus := Text.splitWhitespace_eq_singleton Nat.toDigits_ne_nil
    (isWhitespace_toDigits reply.status)
  have hparse : Text.parseUnsigned (2 ^ 16 - 1) (Nat.toDigits 10 reply.status) =
      some reply.status :=
    Text.parseUnsigned_toDigits (h.status.2.le.trans (by decide))
  rw [parseHttpStatus, h.lines_head]
  dsimp only
  rw [text_statusLine, splitWhitespace_append_cons, splitWhitespace_append_cons, hversion, hstatus]
  dsimp only [List.cons_append, List.nil_append, List.getElem?_cons_succ, List.getElem?_cons_zero]
  rw [hparse]

/-! ### The length -/

/-- A line of another name announces nothing. -/
theorem lineContentLength_eq_none {line : List Char}
    (h : ∀ name value, Text.splitOnce ':' line = some (name, value) →
      Text.eqIgnoreAsciiCase name "content-length".toList = false) :
    lineContentLength line = none := by
  rw [lineContentLength]
  cases hsplit : Text.splitOnce ':' line with
  | none => rfl
  | some p =>
    have hname := h p.1 p.2 hsplit
    show (if Text.eqIgnoreAsciiCase p.1 "content-length".toList = true then _ else _) = _
    rw [hname]
    rfl

/-- The first line announces nothing. -/
theorem lineContentLength_statusLine (reply : Reply) :
    lineContentLength (Ascii.text reply.statusLine) = none := by
  refine lineContentLength_eq_none fun name value hsplit => ?_
  rw [text_statusLine] at hsplit
  rcases Text.splitOnce_cases ':' ("HTTP/1.1".toList ++ ' ' :: (Nat.toDigits 10 reply.status ++
      ' ' :: Ascii.text reply.reason)) with ⟨-, hnone⟩ | ⟨before, after, -, heq, hsome⟩
  · rw [hnone] at hsplit
    cases hsplit
  · obtain ⟨rfl, rfl⟩ := Prod.mk.inj (Option.some.inj (hsome.symm.trans hsplit))
    -- what is before a colon begins as the line does
    cases before with
    | nil => exact absurd (List.cons.inj heq).1 (by decide)
    | cons c before =>
      obtain ⟨rfl, -⟩ := List.cons.inj heq
      rfl

/-- Nor does another field. -/
theorem IsOther.lineContentLength {field : List UInt8 × List UInt8} (h : IsOther field) :
    lineContentLength (Ascii.text (fieldLine field)) = none := by
  have hcolon : ':' ∉ Ascii.text field.1 := fun hmem =>
    h.colon ((Ascii.char_mem_text (b := 58) (by decide) fun b hb => (h.name b hb).1).mp hmem)
  have hline : Ascii.text (fieldLine field) =
      Ascii.text field.1 ++ ':' :: Ascii.text (32 :: field.2) := List.map_append
  refine lineContentLength_eq_none fun name value hsplit => ?_
  rw [hline, Text.splitOnce_append_cons hcolon] at hsplit
  obtain ⟨rfl, rfl⟩ := Prod.mk.inj (Option.some.inj hsplit)
  exact h.other

theorem trim_toDigits (n : ℕ) : Text.trim (' ' :: Nat.toDigits 10 n) = Nat.toDigits 10 n := by
  have hdrop : ∀ l : List Char, (∀ c ∈ l, Text.isWhitespace c = false) →
      l.dropWhile Text.isWhitespace = l := by
    intro l hl
    cases l with
    | nil => rfl
    | cons c l => rw [List.dropWhile_cons_of_neg (by simp [hl c List.mem_cons_self])]
  have hdigits := isWhitespace_toDigits n
  rw [Text.trim, List.dropWhile_cons_of_pos (by decide), hdrop _ hdigits,
    hdrop _ fun c hc => hdigits c (List.mem_reverse.mp hc), List.reverse_reverse]

/-- The field with the length announces it. -/
theorem lineContentLength_length {n : ℕ} (h : n ≤ usizeMax) :
    lineContentLength (Ascii.text (fieldLine (asBytes "Content-Length", asBytes (toString n)))) =
      some n := by
  have hname : Ascii.text (asBytes "Content-Length") = "Content-Length".toList := by decide +kernel
  have hline : Ascii.text (fieldLine (asBytes "Content-Length", asBytes (toString n))) =
      "Content-Length".toList ++ ':' :: (' ' :: Nat.toDigits 10 n) := by
    rw [← hname, ← text_toString]
    exact List.map_append
  have hcase : Text.eqIgnoreAsciiCase "Content-Length".toList "content-length".toList = true := by
    decide
  rw [hline, lineContentLength, Text.splitOnce_append_cons (by decide)]
  show (if Text.eqIgnoreAsciiCase "Content-Length".toList "content-length".toList = true
    then Text.parseUnsigned usizeMax (Text.trim (' ' :: Nat.toDigits 10 n)) else none) = _
  rw [if_pos hcase, trim_toDigits, Text.parseUnsigned_toDigits h]

theorem findSome?_fieldLine {fields : List (List UInt8 × List UInt8)}
    (h : ∀ field ∈ fields, IsOther field) :
    ((fields.map fieldLine).map Ascii.text).findSome? lineContentLength = none := by
  rw [List.findSome?_eq_none_iff]
  intro line hline
  obtain ⟨bytes, hbytes, rfl⟩ := List.mem_map.mp hline
  obtain ⟨field, hfield, rfl⟩ := List.mem_map.mp hbytes
  exact (h field hfield).lineContentLength

/-- **The length that the client finds is that of the body.** -/
theorem WellFormed.contentLength_head (h : reply.WellFormed) :
    contentLength reply.head = reply.body.map (·.length) := by
  rw [contentLength, h.lines_head, List.findSome?_cons, lineContentLength_statusLine]
  dsimp only
  rw [lines, List.map_append, List.map_append, List.findSome?_append, List.findSome?_append,
    findSome?_fieldLine h.before, findSome?_fieldLine h.after, Option.none_or, Option.or_none,
    lengthLines]
  cases hbody : reply.body with
  | none => rfl
  | some body =>
    have hlength : body.length ≤ usizeMax := (h.length body hbody).trans (by decide)
    rw [List.map_cons, List.map_nil, List.findSome?_cons, lineContentLength_length hlength]
    rfl

/-! ### What the client makes of a reply -/

/-- **The client makes of a reply what it says**, whatever comes after it. -/
theorem WellFormed.responseResult_encode (h : reply.WellFormed) (method : String)
    (rest : List UInt8) : responseResult method (reply.encode ++ rest) = reply.result := by
  have hbody : responseBody method reply.status reply.head (reply.body.getD [] ++ rest) =
      reply.body.getD [] := by
    rw [responseBody, h.contentLength_head]
    cases hbody : reply.body with
    | some body => exact List.take_left
    | none =>
      have hmust : responseMustNotHaveBody method reply.status = true := by
        have hstatus := h.status
        rw [responseMustNotHaveBody]
        rcases h.bodyless hbody with hlow | hstatus' | hstatus'
        · simp [hlow, hstatus.1]
        · simp [hstatus']
        · simp [hstatus']
      exact if_pos hmust
  rw [responseResult, h.splitResponse_encode]
  dsimp only
  rw [h.parseHttpStatus_head]
  dsimp only
  rw [hbody, result]

/-- A length that is announced can be allocated. -/
theorem WellFormed.contentLength_le (h : reply.WellFormed) (rest : List UInt8) :
    ∀ head after, splitResponse (reply.encode ++ rest) = some (head, after) →
      ∀ n, contentLength head = some n → n ≤ isizeMax := by
  intro head after hsplit n hn
  rw [h.splitResponse_encode] at hsplit
  obtain ⟨rfl, -⟩ := Prod.mk.inj (Option.some.inj hsplit)
  rw [h.contentLength_head] at hn
  obtain ⟨body, hbody, rfl⟩ := Option.map_eq_some_iff.mp hn
  exact h.length body hbody

end Reply

end FirecrackerSdk

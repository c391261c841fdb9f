import FirecrackerSdk.Transport

/-!
# Responses without a body

A response to `HEAD`, and one with status 1xx, 204 or 304, ends at its header.
`raw_request_with_timeouts` knows this (`response_must_not_have_body`), but asks for the announced
length first: a response that announces a body is read on, although none will come. So the request
ends at the header exactly if no length is announced, or the length 0, or the status line cannot be
parsed.

Whether there is a read after the header is read off the number of reads that the source counts.
-/

namespace FirecrackerSdk

open UnixSocketTransport

/-- **A response without a body**: the answer to `HEAD`, or one with a status that rules it out. -/
def Bodyless (method : String) (head : List UInt8) : Prop :=
  Text.eqIgnoreAsciiCase method.toList "HEAD".toList = true ∨
    ∃ status, parseHttpStatus head = .ok status ∧
      (100 ≤ status ∧ status < 200 ∨ status = 204 ∨ status = 304)

/-- **The request ends at the header of the response**, which is complete in `source`: there is no
read after that, and the body is empty. -/
structure EndsAtHeader (stream : UnixStream) (method path : String) (body : Option (List UInt8))
    (head : List UInt8) (source : Chunked.Source UInt8) : Prop where
  reads : (readResponse method stream.source).2.reads = source.reads
  result : rawRequestWithTimeouts stream method path body = .ofExcept (parseHttpResponse head [])
  empty : ∀ status, parseHttpStatus head = .ok status → 200 ≤ status → status < 300 →
    rawRequestWithTimeouts stream method path body = .ok []

/-- **No body is announced**, or nothing can be, since there is no status. -/
def AnnouncesNothing (head : List UInt8) : Prop :=
  ∀ status length, parseHttpStatus head = .ok status → contentLength head = some length →
    length = 0

namespace UnixSocketTransport

/-- Bytes are shown as at least one character. -/
theorem fromUtf8Lossy_ne_nil {bytes : List UInt8} (h : bytes ≠ []) :
    Text.fromUtf8Lossy bytes ≠ [] := by
  cases bytes with
  | nil => exact absurd rfl h
  | cons b rest =>
    intro hnil
    cases hnil

/-- A body shows in the result. -/
theorem parseHttpResponse_ne {head body : List UInt8} {status : ℕ} (hbody : body ≠ [])
    (hstatus : parseHttpStatus head = .ok status) :
    parseHttpResponse head body ≠ parseHttpResponse head [] := by
  unfold parseHttpResponse
  rw [hstatus]
  intro h
  by_cases hok : 200 ≤ status ∧ status < 300
  · have hsame : body = [] := by simpa [bind, Except.bind, hok] using h
    exact hbody hsame
  · have hshown : String.ofList (Text.fromUtf8Lossy body) =
        String.ofList (Text.fromUtf8Lossy []) := by
      simpa [bind, Except.bind, hok] using h
    have hsame := congrArg String.toList hshown
    rw [String.toList_ofList, String.toList_ofList] at hsame
    exact fromUtf8Lossy_ne_nil hbody hsame

/-- The loop of a sized body only reads on. -/
theorem le_reads_readSized (length rounds : ℕ) (body : List UInt8)
    (source : Chunked.Source UInt8) :
    source.reads ≤ (readSized length rounds body source).2.reads := by
  induction rounds generalizing body source with
  | zero => exact le_rfl
  | succ rounds ih =>
    rw [readSized]
    split
    · split
      · exact le_rfl
      · rw [read_bind]
        have hstep : (source.advance (length - body.length)).reads = source.reads + 1 := rfl
        split
        · exact Nat.le_succ _
        · have hmore := ih (body ++ source.piece (length - body.length))
            (source.advance (length - body.length))
          omega
    · exact le_rfl

/-- A round that has to read either panics or has read. -/
theorem readSized_reads {length rounds : ℕ} {body : List UInt8} {source : Chunked.Source UInt8}
    (h : body.length < length) :
    (readSized length (rounds + 1) body source).1 = .dropped ∨
      source.reads < (readSized length (rounds + 1) body source).2.reads := by
  rw [readSized, if_pos h]
  split
  · exact .inl rfl
  · right
    rw [read_bind]
    have hstep : (source.advance (length - body.length)).reads = source.reads + 1 := rfl
    split
    · exact Nat.lt_succ_self _
    · have hmore := le_reads_readSized length rounds
        (body ++ source.piece (length - body.length)) (source.advance (length - body.length))
      omega

/-- **A run that announces a body goes on**: it reads, it panics, or it has a body. -/
theorem readResponse_of_announced {method : String} {source source' : Chunked.Source UInt8}
    {response : List UInt8} {headerEnd status length : ℕ}
    (hheader : readHeader (source.rest.length + 1) [] source = (.ok (response, headerEnd), source'))
    (hstatus : parseHttpStatus (response.take headerEnd) = .ok status)
    (hlength : contentLength (response.take headerEnd) = some length) (hpos : length ≠ 0) :
    source'.reads < (readResponse method source).2.reads ∨
      (readResponse method source).1 ≠
        .ofExcept (parseHttpResponse (response.take headerEnd) []) := by
  rw [readResponse_eq_of_header hheader hstatus, hlength]
  dsimp only
  generalize (response.drop headerEnd).drop delimiter.length = body
  by_cases hshort : body.length < length
  · rcases hrun : readSized length (source'.rest.length + 1) body source' with ⟨o, source''⟩
    have hreads := @readSized_reads length source'.rest.length body source' hshort
    rw [hrun] at hreads
    rcases o with body' | e | _
    · -- the loop has returned, so it has read
      left
      rw [Prog.bind_of_ok hrun, Prog.ofExcept_fst]
      exact hreads.resolve_left nofun
    · left
      rw [Prog.bind_of_err hrun]
      exact hreads.resolve_left nofun
    · right
      rw [Prog.bind_of_dropped hrun]
      cases parseHttpResponse (response.take headerEnd) [] <;> nofun
  · -- enough has arrived with the header
    right
    have hrun : readSized length (source'.rest.length + 1) body source' = (.ok body, source') := by
      rw [readSized, if_neg hshort]
      rfl
    have hne : body.take (min length body.length) ≠ [] := by
      rw [ne_eq, List.take_eq_nil_iff, not_or]
      refine ⟨by omega, ?_⟩
      rintro rfl
      rw [List.length_nil] at hshort
      omega
    rw [Prog.bind_of_ok hrun, Prog.ofExcept_fst]
    exact fun heq => parseHttpResponse_ne hne hstatus (Outcome.ofExcept_inj heq)

/-- **A run that announces nothing ends at the header**, if there can be no body. -/
theorem readResponse_of_bodyless {method : String} {source source' : Chunked.Source UInt8}
    {response : List UInt8} {headerEnd : ℕ}
    (hheader : readHeader (source.rest.length + 1) [] source = (.ok (response, headerEnd), source'))
    (hbodyless : Bodyless method (response.take headerEnd))
    (hnothing : AnnouncesNothing (response.take headerEnd)) :
    readResponse method source =
      (.ofExcept (parseHttpResponse (response.take headerEnd) []), source') := by
  cases hstatus : parseHttpStatus (response.take headerEnd) with
  | error e =>
    rw [readResponse_of_status hheader hstatus]
    unfold parseHttpResponse
    rw [hstatus]
    rfl
  | ok status =>
    rw [readResponse_eq_of_header hheader hstatus]
    cases hlength : contentLength (response.take headerEnd) with
    | some length =>
      obtain rfl := hnothing status length hstatus hlength
      have hrun : ∀ body, readSized 0 (source'.rest.length + 1) body source' =
          (.ok body, source') := fun body => by
        rw [readSized, if_neg (Nat.not_lt_zero _)]
        rfl
      dsimp only
      rw [Prog.bind_of_ok (hrun _), Nat.zero_min, List.take_zero, Prog.ofExcept_fst]
    | none =>
      have hmust : responseMustNotHaveBody method status = true := by
        unfold responseMustNotHaveBody
        rcases hbodyless with hhead | ⟨status', hstatus', hrange⟩
        · rw [hhead]
          rfl
        · obtain rfl := Except.ok.inj (hstatus.symm.trans hstatus')
          rcases hrange with hrange | hrange | hrange <;> simp [hrange]
      dsimp only
      rw [if_pos hmust, Prog.ofExcept_fst]

end UnixSocketTransport

/-- **Which responses without a body end at their header**: those that announce none. -/
theorem bodyless_ends_at_header_iff (stream : UnixStream) (method path : String)
    (body : Option (List UInt8)) (hsent : sendRequest stream method path body = .ok ())
    {response : List UInt8} {headerEnd : ℕ} {source : Chunked.Source UInt8}
    (hheader : readHeader (stream.response.length + 1) [] stream.source =
      (.ok (response, headerEnd), source))
    (hbodyless : Bodyless method (response.take headerEnd)) :
    EndsAtHeader stream method path body (response.take headerEnd) source ↔
      AnnouncesNothing (response.take headerEnd) := by
  have hraw : rawRequestWithTimeouts stream method path body =
      (readResponse method stream.source).1 := by
    unfold rawRequestWithTimeouts
    rw [hsent]
  constructor
  · rintro ⟨hreads, hresult, -⟩ status length hstatus hlength
    by_contra hpos
    rcases @readResponse_of_announced method stream.source source response headerEnd status length
      hheader hstatus hlength hpos with hmore | hne
    · omega
    · exact hne (hraw.symm.trans hresult)
  · intro hnothing
    have hrun := readResponse_of_bodyless hheader hbodyless hnothing
    have hresult : rawRequestWithTimeouts stream method path body =
        .ofExcept (parseHttpResponse (response.take headerEnd) []) := by
      rw [hraw, hrun]
    refine ⟨by rw [hrun], hresult, fun status hstatus hlow hhigh => ?_⟩
    rw [hresult]
    unfold parseHttpResponse
    rw [hstatus]
    simp [bind, Except.bind, hlow, hhigh, Outcome.ofExcept]

/-- A server that answers `PUT` with status 204 and the length 0. -/
def noContent : UnixStream where
  response := "HTTP/1.1 204 No Content\r\ncontent-length: 0\r\n\r\n".toList.map fun c =>
    c.toNat.toUInt8
  sizes := fun _ => 7

theorem bodyless_ends_at_header_no_content :
    EndsAtHeader noContent "PUT" "/empty" none (noContent.response.take 42)
      (readHeader (noContent.response.length + 1) [] noContent.source).2 := by
  have hheader : (readHeader (noContent.response.length + 1) [] noContent.source).1 =
      .ok (noContent.response, 42) := by
    decide +kernel
  have hstatus : parseHttpStatus (noContent.response.take 42) = .ok 204 := by decide +kernel
  have hlength : contentLength (noContent.response.take 42) = some 0 := by decide +kernel
  refine (bodyless_ends_at_header_iff noContent "PUT" "/empty" none rfl (Prog.eq_of_fst hheader)
    (.inr ⟨204, hstatus, by decide⟩)).mpr ?_
  intro status length _ h
  exact Option.some.inj (h.symm.trans hlength)

/-- A server that answers `HEAD` with the length that `GET` would have. -/
def headAnswer : UnixStream where
  response := "HTTP/1.1 200 OK\r\nContent-Length: 5\r\n\r\n".toList.map fun c =>
    c.toNat.toUInt8
  sizes := fun _ => 1024

/-- The answer to `HEAD` is complete after one read, and there is a second. -/
theorem head_is_read_on :
    (readHeader (headAnswer.response.length + 1) [] headAnswer.source).1 =
        .ok (headAnswer.response, 34) ∧
      ¬EndsAtHeader headAnswer "HEAD" "/" none (headAnswer.response.take 34)
        (readHeader (headAnswer.response.length + 1) [] headAnswer.source).2 := by
  refine ⟨by decide +kernel, fun h => ?_⟩
  have hmore : (readResponse "HEAD" headAnswer.source).2.reads =
      (readHeader (headAnswer.response.length + 1) [] headAnswer.source).2.reads + 1 := by
    decide +kernel
  have hreads := h.reads
  omega

end FirecrackerSdk

import FirecrackerSdk.Error
import FirecrackerSdk.Lib.Chunked
import FirecrackerSdk.Lib.Prog

/-!
# The transport over a Unix socket

`client_transports.rs`: a request is written to the socket and the response is read in
pieces, first until the header is complete and then, in one of three ways, to the end of
the body.

The server is what it sends before it closes the connection, together with the way the
reads split it (`FirecrackerSdk.UnixStream`); time-outs do not fire, and memory does not
run out: a buffer of up to `isize::MAX` bytes is granted. The program runs on a
`Chunked.Source` and can fail or panic; its loops count down the bytes that are still to
come, of which each round but the last takes at least one.

The result is that of a function of the whole response
(`FirecrackerSdk.responseResult`), however the response was split
(`FirecrackerSdk.raw_request_eq_response`). What that function takes from a header is told
by lemmas of its own (`FirecrackerSdk.UnixSocketTransport.parseHttpStatus_eq_ok_iff`,
`FirecrackerSdk.UnixSocketTransport.contentLength_eq_some_iff`).
-/

namespace FirecrackerSdk

/-! ### The socket -/

/-- A connection: whether it can be made and written to, what the server sends, and the
sizes in which it arrives. -/
structure UnixStream where
  connect : Except IoError Unit := .ok ()
  write : List UInt8 → Except IoError Unit := fun _ => .ok ()
  response : List UInt8
  sizes : ℕ → ℕ

/-- What is to be read from a connection. -/
def UnixStream.source (stream : UnixStream) : Chunked.Source UInt8 where
  rest := stream.response
  sizes := stream.sizes

/-- An operation on what is to be read. -/
abbrev Reading (α : Type) : Type := Prog (Chunked.Source UInt8) Error α

/-- The greatest value of an `isize`, which bounds what can be allocated. -/
def isizeMax : ℕ := 2 ^ 63 - 1

/-- The greatest value of a `usize`. -/
def usizeMax : ℕ := 2 ^ 64 - 1

namespace UnixSocketTransport

/-! ### The request -/

/-- The bytes of a text. -/
def asBytes (text : String) : List UInt8 := text.toUTF8.data.toList

/-- The head of the request. -/
def requestHead (method path : String) (bodyLength : ℕ) : String :=
  method ++ " " ++ path ++ " HTTP/1.1\r\nHost: localhost\r\nUser-Agent: firecracker-rs-sdk\r\n" ++
    "Accept: application/json\r\nConnection: close\r\nContent-Length: " ++ toString bodyLength ++
    "\r\n" ++ (if bodyLength = 0 then "" else "Content-Type: application/json\r\n") ++ "\r\n"

/-- An I/O error becomes an error of the crate. -/
def liftIo (result : Except IoError Unit) : Except Error Unit := result.mapError .io

/-- Connect, and write the request. -/
def sendRequest (stream : UnixStream) (method path : String) (body : Option (List UInt8)) :
    Except Error Unit := do
  liftIo stream.connect
  let body := body.getD []
  liftIo (stream.write (asBytes (requestHead method path body.length)))
  if body = [] then pure () else liftIo (stream.write body)

/-! ### The response -/

/-- What ends the header. -/
def delimiter : List UInt8 := [13, 10, 13, 10]

/-- `parse_http_status`. -/
def parseHttpStatus (head : List UInt8) : Except Error ℕ :=
  match Text.lines (Text.fromUtf8Lossy head) with
  | [] => .error (.api 0 "invalid HTTP response: missing status line")
  | statusLine :: _ =>
    match (Text.splitWhitespace statusLine)[1]? with
    | none => .error (.api 0 "invalid HTTP response: malformed status line")
    | some code =>
      match Text.parseUnsigned (2 ^ 16 - 1) code with
      | none => .error (.api 0 "invalid HTTP response: malformed status code")
      | some status => .ok status

/-- `parse_http_response`. -/
def parseHttpResponse (head body : List UInt8) : Except Error (List UInt8) := do
  let status ← parseHttpStatus head
  if 200 ≤ status ∧ status < 300 then .ok body
  else .error (.api status (String.ofList (Text.fromUtf8Lossy body)))

/-- `response_must_not_have_body`. -/
def responseMustNotHaveBody (method : String) (status : ℕ) : Bool :=
  Text.eqIgnoreAsciiCase method.toList "HEAD".toList || status == 204 || status == 304 ||
    (100 ≤ status && status < 200)

/-- The length that a line of the header announces. -/
def lineContentLength (line : List Char) : Option ℕ := do
  let (name, value) ← Text.splitOnce ':' line
  if Text.eqIgnoreAsciiCase name "content-length".toList then
    Text.parseUnsigned usizeMax (Text.trim value)
  else none

/-- The length that the header announces: that of the first line which announces one. -/
def contentLength (head : List UInt8) : Option ℕ :=
  (Text.lines (Text.fromUtf8Lossy head)).findSome? lineContentLength

/-- `read_with_timeout`, into a buffer of `n` bytes. -/
def read (n : ℕ) : Reading (List UInt8) := fun source => (.ok (source.piece n), source.advance n)

/-- What the header loop reports when the stream ends too early. -/
def unexpectedEof : Error := .api 0 "unexpected EOF while reading HTTP response headers"

/-- The loop that reads the header: what has been read, and where the header ends. -/
def readHeader : ℕ → List UInt8 → Reading (List UInt8 × ℕ)
  | 0, _ => Prog.drop
  | rounds + 1, response => do
    let chunk ← read 1024
    if chunk = [] then Prog.fail unexpectedEof
    else
      match Chunked.position delimiter (response ++ chunk) with
      | some headerEnd => pure (response ++ chunk, headerEnd)
      | none => readHeader rounds (response ++ chunk)

/-- The loop that reads a body of known length. The buffer is allocated for all that is
missing, which panics when that is more than an `isize` holds. -/
def readSized (length : ℕ) : ℕ → List UInt8 → Reading (List UInt8)
  | 0, _ => Prog.drop
  | rounds + 1, body =>
    if body.length < length then
      if isizeMax < length - body.length then Prog.drop
      else do
        let chunk ← read (length - body.length)
        if chunk = [] then pure body else readSized length rounds (body ++ chunk)
    else pure body

/-- The loop that reads a body to the end of the stream. -/
def readToEof : ℕ → List UInt8 → Reading (List UInt8)
  | 0, _ => Prog.drop
  | rounds + 1, body => do
    let chunk ← read 1024
    if chunk = [] then pure body else readToEof rounds (body ++ chunk)

/-- As many rounds as there are bytes to come, and one more to see the end. -/
def roundsLeft : Reading ℕ := Prog.gets fun source => source.rest.length + 1

/-- The reading half of `raw_request_with_timeouts`. -/
def readResponse (method : String) : Reading (List UInt8) := do
  let (response, headerEnd) ← readHeader (← roundsLeft) []
  let head := response.take headerEnd
  let body := (response.drop headerEnd).drop delimiter.length
  let status ← Prog.ofExcept (parseHttpStatus head)
  match contentLength head with
  | some length => do
    let body ← readSized length (← roundsLeft) body
    Prog.ofExcept (parseHttpResponse head (body.take (min length body.length)))
  | none =>
    if responseMustNotHaveBody method status then Prog.ofExcept (parseHttpResponse head [])
    else do
      let body ← readToEof (← roundsLeft) body
      Prog.ofExcept (parseHttpResponse head body)

/-- `UnixSocketTransport::raw_request_with_timeouts`, when no time-out fires. -/
def rawRequestWithTimeouts (stream : UnixStream) (method path : String)
    (body : Option (List UInt8)) : Outcome Error (List UInt8) :=
  match sendRequest stream method path body with
  | .error error => .err error
  | .ok () => (readResponse method stream.source).1

/-! ### The loops -/

theorem read_bind {β : Type} (n : ℕ) (f : List UInt8 → Reading β)
    (source : Chunked.Source UInt8) :
    (read n >>= f) source = f (source.piece n) (source.advance n) := rfl

/-- **The header loop finds the first delimiter of the stream**, or the end of the
stream. -/
theorem readHeader_spec (rounds : ℕ) (response : List UInt8) (source : Chunked.Source UInt8)
    (hrounds : source.rest.length < rounds) :
    (∃ headerEnd response' source',
      readHeader rounds response source = (.ok (response', headerEnd), source') ∧
      response' ++ source'.rest = response ++ source.rest ∧
      Chunked.position delimiter response' = some headerEnd) ∨
    ∃ source', readHeader rounds response source = (.err unexpectedEof, source') ∧
      ∀ headerEnd, Chunked.position delimiter response = none →
        Chunked.position delimiter (response ++ source.rest) ≠ some headerEnd := by
  induction rounds generalizing response source with
  | zero => exact absurd hrounds (Nat.not_lt_zero _)
  | succ rounds ih =>
    rw [readHeader, read_bind]
    have happend := source.read_append 1024
    split
    · -- the end of the stream
      rename_i hnil
      refine .inr ⟨_, rfl, fun headerEnd hnone => ?_⟩
      rw [(Chunked.Source.read_eq_nil (by decide)).mp hnil, List.append_nil, hnone]
      simp
    · rename_i hpiece
      cases hpos : Chunked.position delimiter (response ++ source.piece 1024) with
      | some headerEnd =>
        refine .inl ⟨headerEnd, _, _, rfl, ?_, hpos⟩
        rw [List.append_assoc, happend]
      | none =>
        dsimp only
        -- no end of the header yet: the round has used up a piece of the stream
        have hless := Chunked.Source.length_advance hpiece
        have hmore := ih (response ++ source.piece 1024) (source.advance 1024) (by omega)
        rw [List.append_assoc, happend] at hmore
        rcases hmore with hmore | ⟨source', hrun, hnone⟩
        · exact .inl hmore
        · exact .inr ⟨source', hrun, fun headerEnd _ => hnone headerEnd hpos⟩

/-- **The sized loop reads up to the announced length**, or to the end of the stream. -/
theorem readSized_spec (length rounds : ℕ) (body : List UInt8) (source : Chunked.Source UInt8)
    (hrounds : source.rest.length < rounds) (hlength : length ≤ isizeMax + body.length) :
    ∃ body' source', readSized length rounds body source = (.ok body', source') ∧
      body'.take (min length body'.length) = (body ++ source.rest).take length := by
  induction rounds generalizing body source with
  | zero => exact absurd hrounds (Nat.not_lt_zero _)
  | succ rounds ih =>
    rw [readSized]
    by_cases hshort : body.length < length
    · have hfits : ¬ isizeMax < length - body.length := by omega
      rw [if_pos hshort, if_neg hfits, read_bind]
      have happend := source.read_append (length - body.length)
      split
      · rename_i hnil
        refine ⟨body, _, rfl, ?_⟩
        rw [(Chunked.Source.read_eq_nil (by omega)).mp hnil, List.append_nil,
          List.take_of_length_le (by omega), List.take_of_length_le (by omega)]
      · rename_i hpiece
        have hless := Chunked.Source.length_advance hpiece
        -- a longer body leaves less to ask for
        have hlength' :
            length ≤ isizeMax + (body ++ source.piece (length - body.length)).length := by
          rw [List.length_append]
          omega
        obtain ⟨body', source', hrun, htake⟩ := ih (body ++ source.piece (length - body.length))
          (source.advance (length - body.length)) (by omega) hlength'
        rw [List.append_assoc, happend] at htake
        exact ⟨body', source', hrun, htake⟩
    · rw [if_neg hshort]
      refine ⟨body, source, rfl, ?_⟩
      rw [List.take_append_of_le_length (by omega), Nat.min_eq_left (by omega)]

/-- **The last loop reads everything.** -/
theorem readToEof_spec (rounds : ℕ) (body : List UInt8) (source : Chunked.Source UInt8)
    (hrounds : source.rest.length < rounds) :
    ∃ source', readToEof rounds body source = (.ok (body ++ source.rest), source') := by
  induction rounds generalizing body source with
  | zero => exact absurd hrounds (Nat.not_lt_zero _)
  | succ rounds ih =>
    rw [readToEof, read_bind]
    have happend := source.read_append 1024
    split
    · rename_i hnil
      rw [(Chunked.Source.read_eq_nil (by decide)).mp hnil, List.append_nil]
      exact ⟨_, rfl⟩
    · rename_i hpiece
      have hless := Chunked.Source.length_advance hpiece
      obtain ⟨source', hrun⟩ := ih (body ++ source.piece 1024) (source.advance 1024) (by omega)
      rw [List.append_assoc, happend] at hrun
      exact ⟨source', hrun⟩

end UnixSocketTransport

/-! ### The result as a function of the whole response -/

open UnixSocketTransport

/-- The bytes before the first delimiter, and those after it. -/
def splitResponse (response : List UInt8) : Option (List UInt8 × List UInt8) :=
  (Chunked.position delimiter response).map fun headerEnd =>
    (response.take headerEnd, response.drop (headerEnd + delimiter.length))

/-- The body of a response, given what follows its header. -/
def responseBody (method : String) (status : ℕ) (head rest : List UInt8) : List UInt8 :=
  match contentLength head with
  | some length => rest.take length
  | none => if responseMustNotHaveBody method status then [] else rest

/-- **What a request returns, as a function of the whole response.** -/
def responseResult (method : String) (response : List UInt8) : Except Error (List UInt8) :=
  match splitResponse response with
  | none => .error unexpectedEof
  | some (head, rest) =>
    match parseHttpStatus head with
    | .error error => .error error
    | .ok status =>
      let body := responseBody method status head rest
      if 200 ≤ status ∧ status < 300 then .ok body
      else .error (.api status (String.ofList (Text.fromUtf8Lossy body)))

namespace UnixSocketTransport

/-! ### What is taken from a header -/

/-- **The status is the second word of the first line**, if that is a numeral. -/
theorem parseHttpStatus_eq_ok_iff {head : List UInt8} {status : ℕ} :
    parseHttpStatus head = .ok status ↔ ∃ statusLine fields version code reason,
      Text.lines (Text.fromUtf8Lossy head) = statusLine :: fields ∧
        Text.splitWhitespace statusLine = version :: code :: reason ∧
        Text.IsNumeral (2 ^ 16 - 1) code status := by
  unfold parseHttpStatus
  constructor
  · intro h
    split at h
    · cases h
    · rename_i statusLine fields hlines
      split at h
      · cases h
      · rename_i code hcode
        split at h
        · cases h
        · rename_i hparse
          obtain rfl := Except.ok.inj h
          rcases hwords : Text.splitWhitespace statusLine with _ | ⟨version, _ | ⟨code', reason⟩⟩
          · rw [hwords] at hcode
            cases hcode
          · rw [hwords] at hcode
            cases hcode
          · rw [hwords] at hcode
            obtain rfl := Option.some.inj hcode
            exact ⟨statusLine, fields, version, code', reason, hlines, hwords,
              Text.parseUnsigned_eq_some_iff.mp hparse⟩
  · rintro ⟨statusLine, fields, version, code, reason, hlines, hwords, hnumeral⟩
    have hcode : (version :: code :: reason)[1]? = some code := rfl
    rw [hlines]
    dsimp only
    rw [hwords, hcode]
    dsimp only
    rw [Text.parseUnsigned_eq_some_iff.mpr hnumeral]

/-- **A line announces a length**: `content-length` in any case stands before its first colon, and a
numeral after it, with white space around it perhaps. -/
def AnnouncesLength (line : List Char) (length : ℕ) : Prop :=
  ∃ name value, line = name ++ ':' :: value ∧ ':' ∉ name ∧
    Text.eqIgnoreAsciiCase name "content-length".toList = true ∧
    Text.IsNumeral usizeMax (Text.trim value) length

theorem lineContentLength_eq_some_iff {line : List Char} {length : ℕ} :
    lineContentLength line = some length ↔ AnnouncesLength line length := by
  unfold lineContentLength
  constructor
  · intro h
    obtain ⟨⟨name, value⟩, hsplit, h⟩ := Option.bind_eq_some_iff.mp h
    obtain ⟨hname, hparse⟩ := Option.ite_none_right_eq_some.mp h
    rcases Text.splitOnce_cases ':' line with ⟨-, hnone⟩ | ⟨name', value', hcolon, rfl, hsome⟩
    · rw [hnone] at hsplit
      cases hsplit
    · obtain ⟨rfl, rfl⟩ := Prod.mk.inj (Option.some.inj (hsome.symm.trans hsplit))
      exact ⟨_, _, rfl, hcolon, hname, Text.parseUnsigned_eq_some_iff.mp hparse⟩
  · rintro ⟨name, value, rfl, hcolon, hname, hnumeral⟩
    refine Option.bind_eq_some_iff.mpr ⟨_, Text.splitOnce_append_cons hcolon value, ?_⟩
    dsimp only
    rw [if_pos hname]
    exact Text.parseUnsigned_eq_some_iff.mpr hnumeral

/-- **The length of the body is the one that a line of the header announces first.** -/
theorem contentLength_eq_some_iff {head : List UInt8} {length : ℕ} :
    contentLength head = some length ↔ ∃ before line after,
      Text.lines (Text.fromUtf8Lossy head) = before ++ line :: after ∧ AnnouncesLength line length ∧
        ∀ earlier ∈ before, ∀ n, ¬AnnouncesLength earlier n := by
  have hnone : ∀ line, lineContentLength line = none ↔ ∀ n, ¬AnnouncesLength line n := by
    intro line
    rw [Option.eq_none_iff_forall_ne_some]
    exact forall_congr' fun n => not_congr lineContentLength_eq_some_iff
  rw [contentLength, List.findSome?_eq_some_iff]
  simp only [lineContentLength_eq_some_iff, hnone]

/-- **Which responses have no body**, whatever follows their header. -/
theorem responseMustNotHaveBody_iff {method : String} {status : ℕ} :
    responseMustNotHaveBody method status = true ↔
      Text.eqIgnoreAsciiCase method.toList "HEAD".toList = true ∨ status = 204 ∨ status = 304 ∨
        100 ≤ status ∧ status < 200 := by
  simp [responseMustNotHaveBody, or_assoc]

/-! ### The runs -/

/-- With the header read, the rest of the run. -/
theorem readResponse_eq_of_header {method : String} {source source' : Chunked.Source UInt8}
    {response : List UInt8} {headerEnd status : ℕ}
    (hheader : readHeader (source.rest.length + 1) [] source = (.ok (response, headerEnd), source'))
    (hstatus : parseHttpStatus (response.take headerEnd) = .ok status) :
    readResponse method source =
      (match contentLength (response.take headerEnd) with
      | some length => do
        let body ← readSized length (source'.rest.length + 1)
          ((response.drop headerEnd).drop delimiter.length)
        Prog.ofExcept (parseHttpResponse (response.take headerEnd)
          (body.take (min length body.length)))
      | none =>
        if responseMustNotHaveBody method status then
          Prog.ofExcept (parseHttpResponse (response.take headerEnd) [])
        else do
          let body ← readToEof (source'.rest.length + 1)
            ((response.drop headerEnd).drop delimiter.length)
          Prog.ofExcept (parseHttpResponse (response.take headerEnd) body)) source' := by
  unfold readResponse
  rw [roundsLeft, Prog.gets_bind, Prog.bind_of_ok hheader]
  dsimp only
  rw [hstatus, Prog.bind_of_ok (Prog.ofExcept_ok status source')]
  cases contentLength (response.take headerEnd) with
  | some length => rfl
  | none =>
    dsimp only
    split <;> rfl

/-- With the header read, the rest follows from what is still to come. -/
theorem readResponse_of_header {method : String} {source source' : Chunked.Source UInt8}
    {response : List UInt8} {headerEnd status : ℕ}
    (hheader : readHeader (source.rest.length + 1) [] source = (.ok (response, headerEnd), source'))
    (hstatus : parseHttpStatus (response.take headerEnd) = .ok status)
    (hlength : ∀ n, contentLength (response.take headerEnd) = some n →
      n ≤ isizeMax + (response.drop (headerEnd + delimiter.length)).length) :
    (readResponse method source).1 = .ofExcept (parseHttpResponse (response.take headerEnd)
      (responseBody method status (response.take headerEnd)
        (response.drop (headerEnd + delimiter.length) ++ source'.rest))) := by
  rw [readResponse_eq_of_header hheader hstatus, List.drop_drop, responseBody]
  cases hcl : contentLength (response.take headerEnd) with
  | some length =>
    dsimp only
    obtain ⟨body, source'', hrun, htake⟩ := readSized_spec length (source'.rest.length + 1)
      (response.drop (headerEnd + delimiter.length)) source' (Nat.lt_succ_self _) (hlength _ hcl)
    rw [Prog.bind_of_ok hrun, Prog.ofExcept_fst, htake]
  | none =>
    dsimp only
    split
    · rw [Prog.ofExcept_fst]
    · obtain ⟨source'', hrun⟩ := readToEof_spec (source'.rest.length + 1)
        (response.drop (headerEnd + delimiter.length)) source' (Nat.lt_succ_self _)
      rw [Prog.bind_of_ok hrun, Prog.ofExcept_fst]

/-- With the header read and no status in it, nothing more is read. -/
theorem readResponse_of_status {method : String} {source source' : Chunked.Source UInt8}
    {response : List UInt8} {headerEnd : ℕ} {e : Error}
    (hheader : readHeader (source.rest.length + 1) [] source = (.ok (response, headerEnd), source'))
    (hstatus : parseHttpStatus (response.take headerEnd) = .error e) :
    readResponse method source = (.err e, source') := by
  unfold readResponse
  rw [roundsLeft, Prog.gets_bind, Prog.bind_of_ok hheader]
  dsimp only
  rw [hstatus, Prog.bind_of_err (Prog.ofExcept_error e source')]

/-- What has arrived when the header is complete tells the two halves of the response. -/
theorem splitResponse_of_header {response : List UInt8} {headerEnd : ℕ}
    (h : Chunked.position delimiter response = some headerEnd) (more : List UInt8) :
    splitResponse (response ++ more) =
      some (response.take headerEnd, response.drop (headerEnd + delimiter.length) ++ more) := by
  have hfits := (Chunked.position_eq_some h).1
  rw [splitResponse, Chunked.position_append h more, Option.map_some,
    List.take_append_of_le_length (by omega), List.drop_append_of_le_length hfits]

/-- **The response is read correctly, however it is split.** -/
theorem readResponse_eq (method : String) (source : Chunked.Source UInt8)
    (hlength : ∀ head rest, splitResponse source.rest = some (head, rest) →
      ∀ n, contentLength head = some n → n ≤ isizeMax) :
    (readResponse method source).1 = .ofExcept (responseResult method source.rest) := by
  rcases readHeader_spec (source.rest.length + 1) [] source (Nat.lt_succ_self _) with
    ⟨headerEnd, response, source', hrun, happend, hpos⟩ | ⟨source', hrun, hnone⟩
  · rw [List.nil_append] at happend
    have hsplit := splitResponse_of_header hpos source'.rest
    rw [happend] at hsplit
    rw [responseResult, hsplit]
    dsimp only
    cases hstatus : parseHttpStatus (response.take headerEnd) with
    | error e =>
      rw [readResponse_of_status hrun hstatus]
      rfl
    | ok status =>
      have hfits : ∀ n, contentLength (response.take headerEnd) = some n →
          n ≤ isizeMax + (response.drop (headerEnd + delimiter.length)).length :=
        fun n hn => Nat.le_add_right_of_le (hlength _ _ hsplit n hn)
      rw [readResponse_of_header hrun hstatus hfits, parseHttpResponse, hstatus]
      rfl
  · have hsplit : splitResponse source.rest = none := by
      rw [splitResponse, Option.map_eq_none_iff, Option.eq_none_iff_forall_ne_some]
      exact fun headerEnd => hnone headerEnd (by decide)
    rw [responseResult, hsplit]
    unfold readResponse
    rw [roundsLeft, Prog.gets_bind, Prog.bind_of_err hrun]
    rfl

end UnixSocketTransport

/-- **A request returns what the whole response says, however it was split.** For every
response and every way the reads split it, as long as an announced length fits an `isize`
– a buffer of that size is taken to be granted –; and where the status line cannot be
parsed, nothing is read after the header. -/
theorem raw_request_eq_response (stream : UnixStream) (method path : String)
    (body : Option (List UInt8))
    (hlength : ∀ head rest, splitResponse stream.response = some (head, rest) →
      ∀ n, contentLength head = some n → n ≤ isizeMax) :
    rawRequestWithTimeouts stream method path body =
      .ofExcept ((sendRequest stream method path body).bind fun _ =>
        responseResult method stream.response) ∧
    ∀ response headerEnd source' e,
      readHeader (stream.response.length + 1) [] stream.source =
        (.ok (response, headerEnd), source') →
      parseHttpStatus (response.take headerEnd) = .error e →
      readResponse method stream.source = (.err e, source') := by
  refine ⟨?_, fun response headerEnd source' e hheader hstatus => ?_⟩
  · unfold rawRequestWithTimeouts
    cases sendRequest stream method path body with
    | error e => rfl
    | ok _ => exact readResponse_eq method stream.source hlength
  · exact readResponse_of_status hheader hstatus

/-- A response of four bytes that announces three, arriving five bytes at a time. -/
def sampleStream : UnixStream where
  response := "HTTP/1.1 200 OK\r\ncontent-length: 3\r\n\r\nabcd".toList.map fun c => c.toNat.toUInt8
  sizes := fun _ => 5

theorem raw_request_eq_response_sample :
    rawRequestWithTimeouts sampleStream "GET" "/" none = .ok [97, 98, 99] := by
  have hlength : ∀ head rest, splitResponse sampleStream.response = some (head, rest) →
      ∀ n, contentLength head = some n → n ≤ isizeMax := by
    intro head rest hsplit n hn
    have hhead :
        (splitResponse sampleStream.response).bind (fun p => contentLength p.1) = some 3 := by
      decide +kernel
    rw [hsplit, Option.bind_some, hn] at hhead
    obtain rfl := Option.some.inj hhead
    decide
  rw [(raw_request_eq_response sampleStream "GET" "/" none hlength).1]
  decide +kernel

end FirecrackerSdk

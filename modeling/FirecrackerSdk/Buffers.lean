import FirecrackerSdk.Lib.Watched
import FirecrackerSdk.Transport

/-!
# What reading a response may panic on

The reading half of `raw_request_with_timeouts` once more, with every operation that may panic
spelled out (`FirecrackerSdk.CheckedTransport`): the buffers that it asks for, the subtraction that
tells the size of one of them, and the slices. Each buffer and each panic is written down
(`FirecrackerSdk.MemoryEvent`). What this version does is what the plain one does
(`FirecrackerSdk.CheckedTransport.mirrors_readResponse`), and its log says which operations failed.

The slices and the subtraction never fail. The buffer for what is missing of an announced body does:
`Content-Length` may carry any `usize`, and `vec!` panics on more than `isize::MAX` bytes. So a
request is safe exactly if no more than that is missing once the header is complete
(`FirecrackerSdk.BuffersFit`).

What has arrived is kept in lists, which always grow; and a buffer that the allocator refuses for
want of memory is granted here.
-/

namespace FirecrackerSdk

open UnixSocketTransport

/-- What is written down of a run: the buffers it asked for, and what it panicked on. -/
inductive MemoryEvent where
  | buffer (size : ℕ)
  | capacityOverflow (size : ℕ)
  | outOfRange
  | underflow
  deriving DecidableEq

/-- An operation on what is to be read, with its log. -/
abbrev CheckedReading (α : Type) : Type :=
  Prog (Watched (Chunked.Source UInt8) MemoryEvent) Error α

namespace CheckedTransport

/-! ### The operations that may panic -/

/-- A buffer of zeros, `[0u8; size]` or `vec![0u8; size]`. -/
def newBuffer (size : ℕ) : CheckedReading Unit := do
  Watched.note (.buffer size)
  Watched.check (size ≤ isizeMax) (.capacityOverflow size)

/-- `a - b`. -/
def subtract (a b : ℕ) : CheckedReading ℕ := do
  Watched.check (b ≤ a) .underflow
  pure (a - b)

/-- `bytes.split_at(i)`. -/
def splitAt (bytes : List UInt8) (i : ℕ) : CheckedReading (List UInt8 × List UInt8) := do
  Watched.check (i ≤ bytes.length) .outOfRange
  pure (bytes.take i, bytes.drop i)

/-- `&bytes[i..]`. -/
def sliceFrom (bytes : List UInt8) (i : ℕ) : CheckedReading (List UInt8) := do
  Watched.check (i ≤ bytes.length) .outOfRange
  pure (bytes.drop i)

/-- `&bytes[..i]`. -/
def sliceTo (bytes : List UInt8) (i : ℕ) : CheckedReading (List UInt8) := do
  Watched.check (i ≤ bytes.length) .outOfRange
  pure (bytes.take i)

/-- `&chunk[..read]`, where a read has filled so much of a buffer. -/
def filled (size : ℕ) (bytes : List UInt8) : CheckedReading (List UInt8) := do
  Watched.check (bytes.length ≤ size) .outOfRange
  pure bytes

/-! ### The reading half of a request -/

/-- `read_with_timeout`. -/
def read (n : ℕ) : CheckedReading (List UInt8) := Watched.run (UnixSocketTransport.read n)

/-- The loop that reads the header. -/
def readHeader : ℕ → List UInt8 → CheckedReading (List UInt8 × ℕ)
  | 0, _ => Prog.drop
  | rounds + 1, response => do
    newBuffer 1024
    let chunk ← read 1024
    if chunk = [] then Prog.fail unexpectedEof
    else do
      let chunk ← filled 1024 chunk
      match Chunked.position delimiter (response ++ chunk) with
      | some headerEnd => pure (response ++ chunk, headerEnd)
      | none => readHeader rounds (response ++ chunk)

/-- The loop that reads a body of known length. -/
def readSized (length : ℕ) : ℕ → List UInt8 → CheckedReading (List UInt8)
  | 0, _ => Prog.drop
  | rounds + 1, body =>
    if body.length < length then do
      let size ← subtract length body.length
      newBuffer size
      let chunk ← read size
      if chunk = [] then pure body
      else do
        let chunk ← filled size chunk
        readSized length rounds (body ++ chunk)
    else pure body

/-- The loop that reads a body to the end of the stream. -/
def readToEof : ℕ → List UInt8 → CheckedReading (List UInt8)
  | 0, _ => Prog.drop
  | rounds + 1, body => do
    newBuffer 1024
    let chunk ← read 1024
    if chunk = [] then pure body
    else do
      let chunk ← filled 1024 chunk
      readToEof rounds (body ++ chunk)

/-- As many rounds as there are bytes to come, and one more to see the end. -/
def roundsLeft : CheckedReading ℕ := Watched.run UnixSocketTransport.roundsLeft

/-- The reading half of `raw_request_with_timeouts`. -/
def readResponse (method : String) : CheckedReading (List UInt8) := do
  let (response, headerEnd) ← readHeader (← roundsLeft) []
  let (head, bodyWithDelimiter) ← splitAt response headerEnd
  let body ← sliceFrom bodyWithDelimiter delimiter.length
  let status ← Prog.ofExcept (parseHttpStatus head)
  match contentLength head with
  | some length => do
    let body ← readSized length (← roundsLeft) body
    let body ← sliceTo body (min length body.length)
    Prog.ofExcept (parseHttpResponse head body)
  | none =>
    if responseMustNotHaveBody method status then Prog.ofExcept (parseHttpResponse head [])
    else do
      let body ← readToEof (← roundsLeft) body
      Prog.ofExcept (parseHttpResponse head body)

/-- `UnixSocketTransport::raw_request_with_timeouts`, with its log. -/
def rawRequestWithTimeouts (stream : UnixStream) (method path : String)
    (body : Option (List UInt8)) : Outcome Error (List UInt8) × List MemoryEvent :=
  match sendRequest stream method path body with
  | .error error => (.err error, [])
  | .ok () =>
    let (outcome, watched) := readResponse method ⟨stream.source, []⟩
    (outcome, watched.log)

/-! ### What the operations do -/

/-- The buffers of up to so many bytes are among the events that may be written down, and so are
the panics on those that are too large. -/
def Admits (P : MemoryEvent → Prop) (bound : ℕ) : Prop :=
  ∀ size ≤ bound, P (.buffer size) ∧ (isizeMax < size → P (.capacityOverflow size))

variable {P : MemoryEvent → Prop} {source : Chunked.Source UInt8}

theorem Admits.mono {small large : ℕ} (h : Admits P large) (hle : small ≤ large) :
    Admits P small := fun size hsize => h size (hsize.trans hle)

theorem mirrors_newBuffer {size : ℕ} (hadmits : Admits P size) (hfits : size ≤ isizeMax) :
    Watched.Mirrors P (newBuffer size) (pure ()) source :=
  Watched.mirrors_step (Watched.mirrors_note (hadmits size le_rfl).1) (Watched.mirrors_check hfits)

/-- **`vec!` panics on a size that no allocation can have.** -/
theorem mirrors_newBuffer_of_large {size : ℕ} (hadmits : Admits P size) (hlarge : isizeMax < size) :
    Watched.Mirrors P (newBuffer size) Prog.drop source :=
  Watched.mirrors_step (Watched.mirrors_note (hadmits size le_rfl).1)
    (Watched.mirrors_check_of_not (Nat.not_le.mpr hlarge) ((hadmits size le_rfl).2 hlarge))

/-- A read gets no more than its buffer holds. -/
theorem length_piece_le (source : Chunked.Source UInt8) (n : ℕ) : (source.piece n).length ≤ n := by
  rw [Chunked.Source.length_piece, Chunked.Source.pieceSize]
  omega

/-- What follows a read sees a piece that fits the buffer. -/
theorem mirrors_read {β : Type} {n : ℕ} {f : List UInt8 → CheckedReading β}
    {g : List UInt8 → Reading β}
    (h : (source.piece n).length ≤ n →
      Watched.Mirrors P (f (source.piece n)) (g (source.piece n)) (source.advance n)) :
    Watched.Mirrors P (read n >>= f) (UnixSocketTransport.read n >>= g) source := by
  refine Watched.mirrors_bind (Watched.mirrors_run _) fun chunk source' hread => ?_
  cases hread
  exact h (length_piece_le source n)

/-! ### The loops do what the plain ones do -/

theorem mirrors_readHeader (hadmits : Admits P 1024) (rounds : ℕ) (response : List UInt8)
    (source : Chunked.Source UInt8) :
    Watched.Mirrors P (readHeader rounds response)
      (UnixSocketTransport.readHeader rounds response) source := by
  induction rounds generalizing response source with
  | zero => exact Watched.mirrors_drop
  | succ rounds ih =>
    rw [readHeader, UnixSocketTransport.readHeader]
    refine Watched.mirrors_step (mirrors_newBuffer hadmits (by decide)) ?_
    refine mirrors_read fun hpiece => ?_
    refine Watched.mirrors_ite (fun _ => Watched.mirrors_fail _) fun _ => ?_
    refine Watched.mirrors_step (Watched.mirrors_checked hpiece) ?_
    cases Chunked.position delimiter (response ++ source.piece 1024) with
    | some headerEnd => exact Watched.mirrors_pure _
    | none => exact ih (response ++ source.piece 1024) (source.advance 1024)

/-- The buffer is for what is missing, and less is missing in every round. -/
theorem mirrors_readSized {length : ℕ} (rounds : ℕ) (body : List UInt8)
    (source : Chunked.Source UInt8) (hadmits : Admits P (length - body.length)) :
    Watched.Mirrors P (readSized length rounds body)
      (UnixSocketTransport.readSized length rounds body) source := by
  induction rounds generalizing body source with
  | zero => exact Watched.mirrors_drop
  | succ rounds ih =>
    rw [readSized, UnixSocketTransport.readSized]
    refine Watched.mirrors_ite (fun hshort => ?_) fun _ => Watched.mirrors_pure _
    refine Watched.mirrors_step (Watched.mirrors_checked hshort.le) ?_
    -- the plain loop panics on the same sizes
    by_cases hlarge : isizeMax < length - body.length
    · rw [if_pos hlarge]
      exact Watched.mirrors_panic (mirrors_newBuffer_of_large hadmits hlarge)
    · rw [if_neg hlarge]
      refine Watched.mirrors_step (mirrors_newBuffer hadmits (Nat.not_lt.mp hlarge)) ?_
      refine mirrors_read fun hpiece => ?_
      refine Watched.mirrors_ite (fun _ => Watched.mirrors_pure _) fun _ => ?_
      refine Watched.mirrors_step (Watched.mirrors_checked hpiece) (ih _ _ (hadmits.mono ?_))
      rw [List.length_append]
      omega

theorem mirrors_readToEof (hadmits : Admits P 1024) (rounds : ℕ) (body : List UInt8)
    (source : Chunked.Source UInt8) :
    Watched.Mirrors P (readToEof rounds body) (UnixSocketTransport.readToEof rounds body)
      source := by
  induction rounds generalizing body source with
  | zero => exact Watched.mirrors_drop
  | succ rounds ih =>
    rw [readToEof, UnixSocketTransport.readToEof]
    refine Watched.mirrors_step (mirrors_newBuffer hadmits (by decide)) ?_
    refine mirrors_read fun hpiece => ?_
    refine Watched.mirrors_ite (fun _ => Watched.mirrors_pure _) fun _ => ?_
    exact Watched.mirrors_step (Watched.mirrors_checked hpiece) (ih _ _)

end CheckedTransport

/-! ### When the header is complete -/

/-- **The header is complete with the `k`-th read**, which has brought the first delimiter. -/
structure HeaderComplete (source : Chunked.Source UInt8) (k headerEnd : ℕ) : Prop where
  complete : Chunked.position delimiter (source.arrived 1024 k) = some headerEnd
  before : ∀ j < k, Chunked.position delimiter (source.arrived 1024 j) = none

/-- It is complete with one read only. -/
theorem HeaderComplete.unique {source : Chunked.Source UInt8} {k k' headerEnd headerEnd' : ℕ}
    (h : HeaderComplete source k headerEnd) (h' : HeaderComplete source k' headerEnd') :
    k = k' ∧ headerEnd = headerEnd' := by
  have hk : k = k' := by
    rcases Nat.lt_trichotomy k k' with hlt | heq | hlt
    · exact absurd (h.complete.symm.trans (h'.before k hlt)) (by simp)
    · exact heq
    · exact absurd (h'.complete.symm.trans (h.before k' hlt)) (by simp)
  subst hk
  exact ⟨rfl, Option.some.inj (h.complete.symm.trans h'.complete)⟩

namespace UnixSocketTransport

/-- The header loop returns what has arrived, as soon as there is a delimiter in it. -/
theorem readHeader_arrived {rounds : ℕ} {response response' : List UInt8}
    {source source' : Chunked.Source UInt8} {headerEnd : ℕ}
    (hrun : readHeader rounds response source = (.ok (response', headerEnd), source')) :
    ∃ k, response' = response ++ source.arrived 1024 (k + 1) ∧ source' = source.after 1024 (k + 1) ∧
      Chunked.position delimiter response' = some headerEnd ∧
      ∀ j < k, Chunked.position delimiter (response ++ source.arrived 1024 (j + 1)) = none := by
  induction rounds generalizing response source with
  | zero => cases hrun
  | succ rounds ih =>
    rw [readHeader, read_bind] at hrun
    split at hrun
    · cases hrun
    · have hone : source.arrived 1024 1 = source.piece 1024 := List.append_nil _
      cases hpos : Chunked.position delimiter (response ++ source.piece 1024) with
      | some found =>
        rw [hpos] at hrun
        cases hrun
        exact ⟨0, by rw [hone], rfl, hpos, by omega⟩
      | none =>
        rw [hpos] at hrun
        obtain ⟨k, hresponse, hsource, hend, hbefore⟩ := ih hrun
        rw [List.append_assoc] at hresponse
        refine ⟨k + 1, hresponse, hsource, hend, fun j hj => ?_⟩
        cases j with
        | zero => rwa [hone]
        | succ j =>
          have hnone := hbefore j (by omega)
          rwa [List.append_assoc] at hnone

/-- **The header loop ends with the read that completes the header.** -/
theorem headerComplete_of_readHeader {rounds : ℕ} {response : List UInt8}
    {source source' : Chunked.Source UInt8} {headerEnd : ℕ}
    (hrun : readHeader rounds [] source = (.ok (response, headerEnd), source')) :
    ∃ k, HeaderComplete source k headerEnd ∧ response = source.arrived 1024 k ∧
      source' = source.after 1024 k := by
  obtain ⟨k, rfl, hsource, hend, hbefore⟩ := readHeader_arrived hrun
  rw [List.nil_append] at hend
  refine ⟨k + 1, ⟨hend, fun j hj => ?_⟩, rfl, hsource⟩
  cases j with
  | zero => rfl
  | succ j => exact hbefore j (by omega)

/-- A header that is complete at some time is read. -/
theorem readHeader_of_headerComplete {source : Chunked.Source UInt8} {k headerEnd : ℕ}
    (h : HeaderComplete source k headerEnd) :
    readHeader (source.rest.length + 1) [] source =
      (.ok (source.arrived 1024 k, headerEnd), source.after 1024 k) := by
  rcases readHeader_spec (source.rest.length + 1) [] source (Nat.lt_succ_self _) with
    ⟨headerEnd', response, source', hrun, -, -⟩ | ⟨source', -, hnone⟩
  · obtain ⟨k', h', rfl, rfl⟩ := headerComplete_of_readHeader hrun
    obtain ⟨rfl, rfl⟩ := h.unique h'
    exact hrun
  · -- the whole stream has a delimiter, since a part of it has one
    have hwhole := Chunked.position_append h.complete (source.after 1024 k).rest
    rw [Chunked.Source.arrived_append] at hwhole
    exact absurd hwhole (hnone headerEnd rfl)

end UnixSocketTransport

/-- **The response announces a body** of this length, of which so many bytes have come with its
header. -/
def Announces (source : Chunked.Source UInt8) (length early : ℕ) : Prop :=
  ∃ k headerEnd status, HeaderComplete source k headerEnd ∧
    parseHttpStatus ((source.arrived 1024 k).take headerEnd) = .ok status ∧
    contentLength ((source.arrived 1024 k).take headerEnd) = some length ∧
    early = ((source.arrived 1024 k).drop (headerEnd + delimiter.length)).length

namespace CheckedTransport

variable {P : MemoryEvent → Prop}

/-- **The checked reading does what the plain one does.** Its buffers are those of the loops and
the one for what is missing of an announced body. -/
theorem mirrors_readResponse (method : String) (source : Chunked.Source UInt8)
    (hadmits : Admits P 1024)
    (hbody : ∀ length early, Announces source length early → Admits P (length - early)) :
    Watched.Mirrors P (readResponse method) (UnixSocketTransport.readResponse method) source := by
  rw [readResponse, UnixSocketTransport.readResponse]
  refine Watched.mirrors_bind (Watched.mirrors_run _) fun rounds _ hrounds => ?_
  cases hrounds
  refine Watched.mirrors_bind (mirrors_readHeader hadmits _ _ _) ?_
  rintro ⟨response, headerEnd⟩ source' hheader
  obtain ⟨k, hcomplete, rfl, rfl⟩ := headerComplete_of_readHeader hheader
  -- the delimiter stands where it was found, so both cuts are within what has arrived
  have hfits := (Chunked.position_eq_some hcomplete.complete).1
  have hcut : headerEnd ≤ (source.arrived 1024 k).length := by omega
  have hcut' : delimiter.length ≤ ((source.arrived 1024 k).drop headerEnd).length := by
    rw [List.length_drop]
    omega
  refine Watched.mirrors_step (Watched.mirrors_checked hcut) ?_
  refine Watched.mirrors_step (Watched.mirrors_checked hcut') ?_
  refine Watched.mirrors_bind (Watched.mirrors_ofExcept _) fun status source' hstatus => ?_
  rw [Prog.ofExcept_fst] at hstatus
  obtain ⟨hparsed, rfl⟩ := Prod.ext_iff.mp hstatus
  have hok : parseHttpStatus ((source.arrived 1024 k).take headerEnd) = .ok status :=
    Outcome.ofExcept_inj hparsed
  cases hlength : contentLength ((source.arrived 1024 k).take headerEnd) with
  | some length =>
    dsimp only
    refine Watched.mirrors_bind (Watched.mirrors_run _) fun rounds _ hrounds => ?_
    cases hrounds
    have hmissing := hbody length _ ⟨k, headerEnd, status, hcomplete, hok, hlength, rfl⟩
    rw [← List.drop_drop] at hmissing
    refine Watched.mirrors_bind (mirrors_readSized _ _ _ hmissing) fun body _ _ => ?_
    refine Watched.mirrors_step (Watched.mirrors_checked (Nat.min_le_right _ _)) ?_
    exact Watched.mirrors_ofExcept _
  | none =>
    dsimp only
    refine Watched.mirrors_ite (fun _ => Watched.mirrors_ofExcept _) fun _ => ?_
    refine Watched.mirrors_bind (Watched.mirrors_run _) fun rounds _ hrounds => ?_
    cases hrounds
    refine Watched.mirrors_bind (mirrors_readToEof hadmits _ _ _) fun body _ _ => ?_
    exact Watched.mirrors_ofExcept _

/-- What the checked request does is what the plain one does, and so are its events. -/
theorem rawRequestWithTimeouts_spec (stream : UnixStream) (method path : String)
    (body : Option (List UInt8)) (hadmits : Admits P 1024)
    (hbody : sendRequest stream method path body = .ok () →
      ∀ length early, Announces stream.source length early → Admits P (length - early)) :
    (rawRequestWithTimeouts stream method path body).1 =
        UnixSocketTransport.rawRequestWithTimeouts stream method path body ∧
      ∀ event ∈ (rawRequestWithTimeouts stream method path body).2, P event := by
  rw [rawRequestWithTimeouts, UnixSocketTransport.rawRequestWithTimeouts]
  cases hsend : sendRequest stream method path body with
  | error e => exact ⟨rfl, by simp⟩
  | ok _ =>
    obtain ⟨events, hrun, hevents⟩ :=
      mirrors_readResponse method stream.source hadmits (hbody hsend) []
    dsimp only
    rw [hrun]
    exact ⟨rfl, hevents⟩

end CheckedTransport

/-! ### When a request is safe -/

/-- **A request is safe**: it asks for no buffer of more than `isize::MAX` bytes, every slice and
every subtraction is within its range, and it ends with a result. -/
structure Safe (stream : UnixStream) (method path : String) (body : Option (List UInt8)) :
    Prop where
  buffers : ∀ size,
    .buffer size ∈ (CheckedTransport.rawRequestWithTimeouts stream method path body).2 →
      size ≤ isizeMax
  ranges : .outOfRange ∉ (CheckedTransport.rawRequestWithTimeouts stream method path body).2 ∧
    .underflow ∉ (CheckedTransport.rawRequestWithTimeouts stream method path body).2
  returns : ∃ result,
    (CheckedTransport.rawRequestWithTimeouts stream method path body).1 = .ofExcept result

/-- **What is missing of an announced body fits an allocation**, once the header is complete. -/
def BuffersFit (stream : UnixStream) (method path : String) (body : Option (List UInt8)) : Prop :=
  sendRequest stream method path body = .ok () →
    ∀ length early, Announces stream.source length early → length ≤ isizeMax + early

namespace UnixSocketTransport

/-- A response that announces no more than fits is read to its end. -/
theorem readResponse_returns (method : String) (source : Chunked.Source UInt8)
    (hfits : ∀ length early, Announces source length early → length ≤ isizeMax + early) :
    ∃ result, (readResponse method source).1 = .ofExcept result := by
  rcases readHeader_spec (source.rest.length + 1) [] source (Nat.lt_succ_self _) with
    ⟨headerEnd, response, source', hrun, -, -⟩ | ⟨source', hrun, -⟩
  · obtain ⟨k, hcomplete, rfl, -⟩ := headerComplete_of_readHeader hrun
    cases hstatus : parseHttpStatus ((source.arrived 1024 k).take headerEnd) with
    | error e => exact ⟨.error e, by rw [readResponse_of_status hrun hstatus]; rfl⟩
    | ok status =>
      exact ⟨_, readResponse_of_header hrun hstatus fun length hlength =>
        hfits length _ ⟨k, headerEnd, status, hcomplete, hstatus, hlength, rfl⟩⟩
  · refine ⟨.error unexpectedEof, ?_⟩
    rw [readResponse, roundsLeft, Prog.gets_bind, Prog.bind_of_err hrun]
    rfl

/-- **A response that announces more than fits panics.** -/
theorem readResponse_of_large {method : String} {source : Chunked.Source UInt8}
    {length early : ℕ} (h : Announces source length early) (hlarge : isizeMax + early < length) :
    (readResponse method source).1 = .dropped := by
  obtain ⟨k, headerEnd, status, hcomplete, hstatus, hlength, rfl⟩ := h
  rw [readResponse_eq_of_header (readHeader_of_headerComplete hcomplete) hstatus, hlength]
  dsimp only
  rw [List.drop_drop]
  generalize (source.arrived 1024 k).drop (headerEnd + delimiter.length) = early at hlarge
  have hshort : early.length < length := by omega
  have hover : isizeMax < length - early.length := by omega
  rw [readSized, if_pos hshort, if_pos hover, Prog.bind_of_dropped (Prog.drop_apply _)]

end UnixSocketTransport

/-- An event that is no slice and no subtraction out of its range. -/
def MemoryEvent.InRange : MemoryEvent → Prop
  | .outOfRange => False
  | .underflow => False
  | _ => True

/-- A buffer that can be allocated. -/
def MemoryEvent.Harmless : MemoryEvent → Prop
  | .buffer size => size ≤ isizeMax
  | _ => False

namespace CheckedTransport

theorem admits_inRange (bound : ℕ) : Admits MemoryEvent.InRange bound :=
  fun _ _ => ⟨trivial, fun _ => trivial⟩

theorem admits_harmless {bound : ℕ} (h : bound ≤ isizeMax) : Admits MemoryEvent.Harmless bound :=
  fun size hsize => ⟨hsize.trans h, fun hlarge => by omega⟩

/-- **No slice and no subtraction is out of its range**, whatever is announced. -/
theorem rawRequestWithTimeouts_inRange (stream : UnixStream) (method path : String)
    (body : Option (List UInt8)) :
    (rawRequestWithTimeouts stream method path body).1 =
        UnixSocketTransport.rawRequestWithTimeouts stream method path body ∧
      .outOfRange ∉ (rawRequestWithTimeouts stream method path body).2 ∧
      .underflow ∉ (rawRequestWithTimeouts stream method path body).2 := by
  obtain ⟨hsame, hevents⟩ := rawRequestWithTimeouts_spec stream method path body
    (admits_inRange 1024) fun _ _ _ _ => admits_inRange _
  exact ⟨hsame, hevents .outOfRange, hevents .underflow⟩

/-- What fits is all that is asked for. -/
theorem rawRequestWithTimeouts_harmless {stream : UnixStream} {method path : String}
    {body : Option (List UInt8)} (h : BuffersFit stream method path body) :
    ∀ event ∈ (rawRequestWithTimeouts stream method path body).2, event.Harmless :=
  (rawRequestWithTimeouts_spec stream method path body (admits_harmless (by decide))
    fun hsend length early hannounced =>
      admits_harmless (Nat.sub_le_iff_le_add.mpr (h hsend length early hannounced))).2

end CheckedTransport

/-- **When a request is safe.** For every response and every way the reads split it: the request
never indexes out of range, and is safe exactly if the body that is announced, without what has come
with the header, fits an allocation. Every buffer of up to `isize::MAX` bytes is taken to be
granted, however little memory there is. -/
theorem request_safe_iff (stream : UnixStream) (method path : String)
    (body : Option (List UInt8)) :
    (CheckedTransport.rawRequestWithTimeouts stream method path body).1 =
        rawRequestWithTimeouts stream method path body ∧
      (.outOfRange ∉ (CheckedTransport.rawRequestWithTimeouts stream method path body).2 ∧
        .underflow ∉ (CheckedTransport.rawRequestWithTimeouts stream method path body).2) ∧
      (Safe stream method path body ↔ BuffersFit stream method path body) := by
  obtain ⟨hsame, hranges⟩ :=
    CheckedTransport.rawRequestWithTimeouts_inRange stream method path body
  refine ⟨hsame, hranges, fun hsafe hsend length early hannounced => ?_, fun hfit => ?_⟩
  · by_contra hlarge
    have hdropped : rawRequestWithTimeouts stream method path body = .dropped := by
      rw [rawRequestWithTimeouts, hsend]
      exact readResponse_of_large hannounced (Nat.not_le.mp hlarge)
    obtain ⟨result, hresult⟩ := hsafe.returns
    rw [hsame, hdropped] at hresult
    exact Outcome.ofExcept_ne_dropped result hresult.symm
  · refine ⟨fun size hsize => ?_, hranges, ?_⟩
    · exact CheckedTransport.rawRequestWithTimeouts_harmless hfit _ hsize
    · rw [hsame, rawRequestWithTimeouts]
      cases hsend : sendRequest stream method path body with
      | error e => exact ⟨.error e, rfl⟩
      | ok _ => exact readResponse_returns method stream.source (hfit hsend)

/-- A response that announces one byte more than can be allocated, all of it in one read. -/
def hugeStream : UnixStream where
  response := asBytes "HTTP/1.1 200 OK\r\nContent-Length: 9223372036854775808\r\n\r\n"
  sizes := fun _ => 1024

/-- **The announced length is not looked at**: the request panics, although nothing of the body is
to come. -/
theorem huge_body_panics :
    CheckedTransport.rawRequestWithTimeouts hugeStream "GET" "/" none =
        (.dropped, [.buffer 1024, .buffer (isizeMax + 1), .capacityOverflow (isizeMax + 1)]) ∧
      ¬Safe hugeStream "GET" "/" none := by
  have hrun : CheckedTransport.rawRequestWithTimeouts hugeStream "GET" "/" none =
      (.dropped, [.buffer 1024, .buffer (isizeMax + 1), .capacityOverflow (isizeMax + 1)]) := by
    decide +kernel
  refine ⟨hrun, fun hsafe => ?_⟩
  have hsize := hsafe.buffers (isizeMax + 1) (by rw [hrun]; simp)
  omega

end FirecrackerSdk

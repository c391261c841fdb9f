import FirecrackerSdk.Client
import FirecrackerSdk.Deadlines
import FirecrackerSdk.Lib.Timed

/-!
# Requests under time-outs

The transport of `client_transports.rs` with its time-outs: each write and each read is given up
after the time that is configured for it (`run_with_timeout`). How long they take is any function of
their number (`FirecrackerSdk.Pace`); times are in nanoseconds.

The programs here are those of `FirecrackerSdk.Transport` with a clock, and follow these
(`FirecrackerSdk.UnixSocketTransport.follows_readResponse`):

* `FirecrackerSdk.Client.timedCall_eq`: a call returns what it returns without time-outs if all its
  writes and reads are done in time, and the error of the first that is not otherwise;
* `FirecrackerSdk.Client.timedCall_time`: the time-out bounds every write and every read, not the
  call; a server that sends its response byte by byte can make a call last as many times longer as
  the response has bytes, and never more than that.
-/

namespace FirecrackerSdk

/-- How long the operations of a connection take, by their number. -/
structure Pace where
  connect : ℕ
  write : ℕ → ℕ
  read : ℕ → ℕ

/-- The error of `run_with_timeout`. -/
def timedOut (operation : String) (limit : Option ℕ) : Error :=
  .io { kind := .timedOut,
        text := operation ++ " timed out after " ++ Vsock.debugDuration (limit.getD 0) }

namespace UnixSocketTransport

/-! ### Reading -/

section Reading

variable (delay : ℕ → ℕ) (limit : Option ℕ)

/-- An operation on what is to be read, with a clock. -/
abbrev TimedReading (α : Type) : Type := Prog (Timed (Chunked.Source UInt8)) Error α

/-- `read_with_timeout`, into a buffer of `n` bytes. -/
def readWithTimeout (n : ℕ) : TimedReading (List UInt8) :=
  Timed.limited (·.reads) delay limit (timedOut "read" limit) (read n)

/-- The loop that reads the header. -/
def timedReadHeader : ℕ → List UInt8 → TimedReading (List UInt8 × ℕ)
  | 0, _ => Prog.drop
  | rounds + 1, response => do
    let chunk ← readWithTimeout delay limit 1024
    if chunk = [] then Prog.fail unexpectedEof
    else
      match Chunked.position delimiter (response ++ chunk) with
      | some headerEnd => pure (response ++ chunk, headerEnd)
      | none => timedReadHeader rounds (response ++ chunk)

/-- The loop that reads a body of known length. -/
def timedReadSized (length : ℕ) : ℕ → List UInt8 → TimedReading (List UInt8)
  | 0, _ => Prog.drop
  | rounds + 1, body =>
    if body.length < length then
      if isizeMax < length - body.length then Prog.drop
      else do
        let chunk ← readWithTimeout delay limit (length - body.length)
        if chunk = [] then pure body else timedReadSized length rounds (body ++ chunk)
    else pure body

/-- The loop that reads a body to the end of the stream. -/
def timedReadToEof : ℕ → List UInt8 → TimedReading (List UInt8)
  | 0, _ => Prog.drop
  | rounds + 1, body => do
    let chunk ← readWithTimeout delay limit 1024
    if chunk = [] then pure body else timedReadToEof rounds (body ++ chunk)

/-- As many rounds as there are bytes to come, and one more to see the end. -/
def timedRoundsLeft : TimedReading ℕ := Prog.gets fun s => s.state.rest.length + 1

/-- The reading half of `raw_request_with_timeouts`. -/
def timedReadResponse (method : String) : TimedReading (List UInt8) := do
  let (response, headerEnd) ← timedReadHeader delay limit (← timedRoundsLeft) []
  let head := response.take headerEnd
  let body := (response.drop headerEnd).drop delimiter.length
  let status ← Prog.ofExcept (parseHttpStatus head)
  match contentLength head with
  | some length => do
    let body ← timedReadSized delay limit length (← timedRoundsLeft) body
    Prog.ofExcept (parseHttpResponse head (body.take (min length body.length)))
  | none =>
    if responseMustNotHaveBody method status then Prog.ofExcept (parseHttpResponse head [])
    else do
      let body ← timedReadToEof delay limit (← timedRoundsLeft) body
      Prog.ofExcept (parseHttpResponse head body)

/-! ### The same without a clock -/

/-- One program with a clock follows the other, reading by reading. -/
abbrev FollowsReading {α : Type} (x' : TimedReading α) (x : Reading α) : Prop :=
  Timed.Follows (·.reads) delay limit (timedOut "read" limit) x' x

variable {delay limit} {α : Type}

theorem followsReading_of_silent {x' : TimedReading α} {x : Reading α} (h : x' = Timed.lift x)
    (hreads : ∀ source, (x source).2.reads = source.reads) : FollowsReading delay limit x' x := by
  rw [h]
  exact Timed.follows_lift hreads

theorem followsReading_read (n : ℕ) :
    FollowsReading delay limit (readWithTimeout delay limit n) (read n) :=
  Timed.follows_limited fun _ => rfl

theorem followsReading_ofExcept (r : Except Error α) :
    FollowsReading delay limit (Prog.ofExcept r) (Prog.ofExcept r) := by
  cases r with
  | ok a => exact followsReading_of_silent rfl fun _ => rfl
  | error e => exact followsReading_of_silent rfl fun _ => rfl

theorem follows_readHeader (rounds : ℕ) (response : List UInt8) :
    FollowsReading delay limit (timedReadHeader delay limit rounds response)
      (readHeader rounds response) := by
  induction rounds generalizing response with
  | zero => exact followsReading_of_silent rfl fun _ => rfl
  | succ rounds ih =>
    refine Timed.follows_bind (followsReading_read 1024) fun chunk => ?_
    split
    · exact followsReading_of_silent rfl fun _ => rfl
    · cases Chunked.position delimiter (response ++ chunk) with
      | some headerEnd => exact followsReading_of_silent rfl fun _ => rfl
      | none => exact ih _

theorem follows_readSized (length rounds : ℕ) (body : List UInt8) :
    FollowsReading delay limit (timedReadSized delay limit length rounds body)
      (readSized length rounds body) := by
  induction rounds generalizing body with
  | zero => exact followsReading_of_silent rfl fun _ => rfl
  | succ rounds ih =>
    rw [timedReadSized, readSized]
    split
    · split
      · exact followsReading_of_silent rfl fun _ => rfl
      · refine Timed.follows_bind (followsReading_read _) fun chunk => ?_
        split
        · exact followsReading_of_silent rfl fun _ => rfl
        · exact ih _
    · exact followsReading_of_silent rfl fun _ => rfl

theorem follows_readToEof (rounds : ℕ) (body : List UInt8) :
    FollowsReading delay limit (timedReadToEof delay limit rounds body)
      (readToEof rounds body) := by
  induction rounds generalizing body with
  | zero => exact followsReading_of_silent rfl fun _ => rfl
  | succ rounds ih =>
    refine Timed.follows_bind (followsReading_read 1024) fun chunk => ?_
    split
    · exact followsReading_of_silent rfl fun _ => rfl
    · exact ih _

theorem follows_roundsLeft : FollowsReading delay limit timedRoundsLeft roundsLeft :=
  followsReading_of_silent rfl fun _ => rfl

/-- **The response is read as it is without time-outs**, as long as the reads are in time. -/
theorem follows_readResponse (method : String) :
    FollowsReading delay limit (timedReadResponse delay limit method) (readResponse method) := by
  refine Timed.follows_bind follows_roundsLeft fun rounds => ?_
  refine Timed.follows_bind (follows_readHeader rounds []) fun header => ?_
  refine Timed.follows_bind (followsReading_ofExcept _) fun status => ?_
  cases contentLength (header.1.take header.2) with
  | some length =>
    refine Timed.follows_bind follows_roundsLeft fun rounds => ?_
    exact Timed.follows_bind (follows_readSized _ rounds _) fun body => followsReading_ofExcept _
  | none =>
    dsimp only
    split
    · exact followsReading_ofExcept _
    · refine Timed.follows_bind follows_roundsLeft fun rounds => ?_
      exact Timed.follows_bind (follows_readToEof rounds _) fun body => followsReading_ofExcept _

end Reading

/-! ### Writing -/

section Writing

variable (stream : UnixStream) (delay : ℕ → ℕ) (limit : Option ℕ)

/-- Write some bytes; the state counts the writes. -/
def writeAll (bytes : List UInt8) : Prog ℕ Error Unit := fun writes =>
  (.ofExcept (liftIo (stream.write bytes)), writes + 1)

/-- Write a request. -/
def sendAll (method path : String) (body : Option (List UInt8)) : Prog ℕ Error Unit := do
  Prog.ofExcept (liftIo stream.connect)
  let body := body.getD []
  writeAll stream (asBytes (requestHead method path body.length))
  if body = [] then pure () else writeAll stream body

/-- `write_all_with_timeout`. -/
def writeAllWithTimeout (bytes : List UInt8) : Prog (Timed ℕ) Error Unit :=
  Timed.limited id delay limit (timedOut "write" limit) (writeAll stream bytes)

/-- Write a request, each part under its time-out. -/
def timedSendAll (method path : String) (body : Option (List UInt8)) :
    Prog (Timed ℕ) Error Unit := do
  Prog.ofExcept (liftIo stream.connect)
  let body := body.getD []
  writeAllWithTimeout stream delay limit (asBytes (requestHead method path body.length))
  if body = [] then pure () else writeAllWithTimeout stream delay limit body

/-- What sending a request comes to. -/
theorem sendAll_fst (method path : String) (body : Option (List UInt8)) (writes : ℕ) :
    (sendAll stream method path body writes).1 =
      .ofExcept (sendRequest stream method path body) := by
  unfold sendAll sendRequest
  dsimp only
  cases liftIo stream.connect with
  | error e => rfl
  | ok _ =>
    have hwrite : ∀ bytes writes, writeAll stream bytes writes =
        (.ofExcept (liftIo (stream.write bytes)), writes + 1) := fun _ _ => rfl
    rw [Prog.bind_of_ok (Prog.ofExcept_ok _ writes)]
    cases hhead : liftIo (stream.write
        (asBytes (requestHead method path (body.getD []).length))) with
    | error e =>
      rw [Prog.bind_of_err ((hwrite _ _).trans (by rw [hhead]; rfl))]
      rfl
    | ok _ =>
      rw [Prog.bind_of_ok ((hwrite _ _).trans (by rw [hhead]; rfl))]
      split <;> rfl

/-- A request is written with at most two writes. -/
theorem sendAll_snd_le (method path : String) (body : Option (List UInt8)) (writes : ℕ) :
    (sendAll stream method path body writes).2 ≤ writes + 2 := by
  refine Prog.bind_final (Q := (· ≤ writes + 2)) ?_ fun _ _ => ?_
  · rw [Prog.ofExcept_fst]
    exact Nat.le_add_right _ _
  · rw [Prog.ofExcept_fst]
    refine Prog.bind_final (Q := (· ≤ writes + 2)) (Nat.le_succ (writes + 1)) fun _ _ => ?_
    split
    · exact Nat.le_succ (writes + 1)
    · exact le_rfl

/-- **The request is written as it is without time-outs**, as long as the writes are in time. -/
theorem follows_sendAll (method path : String) (body : Option (List UInt8)) :
    Timed.Follows id delay limit (timedOut "write" limit)
      (timedSendAll stream delay limit method path body) (sendAll stream method path body) := by
  have hsilent : ∀ r : Except Error Unit, Timed.Follows id delay limit (timedOut "write" limit)
      (Prog.ofExcept r) (Prog.ofExcept r) := by
    rintro (e | _)
    · exact Timed.follows_lift (x := Prog.fail e) fun _ => rfl
    · exact Timed.follows_lift (x := pure ()) fun _ => rfl
  have hwrite : ∀ bytes, Timed.Follows id delay limit (timedOut "write" limit)
      (writeAllWithTimeout stream delay limit bytes) (writeAll stream bytes) :=
    fun bytes => Timed.follows_limited fun _ => rfl
  refine Timed.follows_bind (hsilent _) fun _ => ?_
  refine Timed.follows_bind (hwrite _) fun _ => ?_
  split
  · exact hsilent (.ok ())
  · exact hwrite _

end Writing

/-! ### How many reads there are -/

/-- The reads so far, and the bytes still to come. -/
def cost (source : Chunked.Source UInt8) : ℕ := source.reads + source.rest.length

/-- A read takes a byte off the stream, or is at its end. -/
theorem cost_advance_le (source : Chunked.Source UInt8) (n : ℕ) :
    cost (source.advance n) ≤ cost source + 1 ∧
      (source.piece n ≠ [] → cost (source.advance n) ≤ cost source) := by
  have hreads : (source.advance n).reads = source.reads + 1 := rfl
  have hlength := congrArg List.length (source.read_append n)
  rw [List.length_append] at hlength
  unfold cost
  refine ⟨by omega, fun hpiece => ?_⟩
  have hless := Chunked.Source.length_advance hpiece
  omega

theorem cost_readHeader (rounds : ℕ) (response : List UInt8) (source : Chunked.Source UInt8) :
    cost (readHeader rounds response source).2 ≤ cost source + 1 ∧
      ∀ header, (readHeader rounds response source).1 = .ok header →
        cost (readHeader rounds response source).2 ≤ cost source := by
  induction rounds generalizing response source with
  | zero => exact ⟨Nat.le_succ _, fun _ h => by cases h⟩
  | succ rounds ih =>
    obtain ⟨hany, hpiece⟩ := cost_advance_le source 1024
    rw [readHeader, read_bind]
    split
    · exact ⟨hany, fun _ h => by cases h⟩
    · rename_i hne
      have hless := hpiece hne
      cases Chunked.position delimiter (response ++ source.piece 1024) with
      | some headerEnd => exact ⟨hany, fun _ _ => hless⟩
      | none =>
        dsimp only
        obtain ⟨hrest, hok⟩ := ih (response ++ source.piece 1024) (source.advance 1024)
        exact ⟨by omega, fun header hheader => (hok header hheader).trans hless⟩

theorem cost_readSized (length rounds : ℕ) (body : List UInt8) (source : Chunked.Source UInt8) :
    cost (readSized length rounds body source).2 ≤ cost source + 1 := by
  induction rounds generalizing body source with
  | zero => exact Nat.le_succ _
  | succ rounds ih =>
    rw [readSized]
    split
    · split
      · exact Nat.le_succ _
      · obtain ⟨hany, hpiece⟩ := cost_advance_le source (length - body.length)
        rw [read_bind]
        split
        · exact hany
        · rename_i hne
          have hless := hpiece hne
          have hrest := ih (body ++ source.piece (length - body.length))
            (source.advance (length - body.length))
          omega
    · exact Nat.le_succ _

theorem cost_readToEof (rounds : ℕ) (body : List UInt8) (source : Chunked.Source UInt8) :
    cost (readToEof rounds body source).2 ≤ cost source + 1 := by
  induction rounds generalizing body source with
  | zero => exact Nat.le_succ _
  | succ rounds ih =>
    obtain ⟨hany, hpiece⟩ := cost_advance_le source 1024
    rw [readToEof, read_bind]
    split
    · exact hany
    · rename_i hne
      have hless := hpiece hne
      have hrest := ih (body ++ source.piece 1024) (source.advance 1024)
      omega

/-- **A response is read with at most one read more than it has bytes.** -/
theorem cost_readResponse (method : String) (source : Chunked.Source UInt8) :
    cost (readResponse method source).2 ≤ cost source + 1 := by
  have hrounds : ∀ source : Chunked.Source UInt8,
      roundsLeft source = (.ok (source.rest.length + 1), source) := fun _ => rfl
  obtain ⟨hany, hok⟩ := cost_readHeader (source.rest.length + 1) [] source
  unfold readResponse
  rw [Prog.bind_of_ok (hrounds source)]
  refine Prog.bind_final (Q := fun s => cost s ≤ cost source + 1) hany fun header hheader => ?_
  have hless := hok header hheader
  generalize (readHeader (source.rest.length + 1) [] source).2 = source' at hless ⊢
  have hle : cost source' ≤ cost source + 1 := hless.trans (Nat.le_succ _)
  refine Prog.bind_final (Q := fun s => cost s ≤ cost source + 1) ?_ fun status _ => ?_
  · rw [Prog.ofExcept_fst]
    exact hle
  · rw [Prog.ofExcept_fst]
    cases contentLength (header.1.take header.2) with
    | some length =>
      have hrest := (cost_readSized length (source'.rest.length + 1)
        ((header.1.drop header.2).drop delimiter.length) source').trans
        (Nat.add_le_add_right hless 1)
      dsimp only
      rw [Prog.bind_of_ok (hrounds source')]
      refine Prog.bind_final (Q := fun s => cost s ≤ cost source + 1) hrest fun body _ => ?_
      rw [Prog.ofExcept_fst]
      exact hrest
    | none =>
      dsimp only
      split
      · rw [Prog.ofExcept_fst]
        exact hle
      · have hrest := (cost_readToEof (source'.rest.length + 1)
          ((header.1.drop header.2).drop delimiter.length) source').trans
          (Nat.add_le_add_right hless 1)
        rw [Prog.bind_of_ok (hrounds source')]
        refine Prog.bind_final (Q := fun s => cost s ≤ cost source + 1) hrest fun body _ => ?_
        rw [Prog.ofExcept_fst]
        exact hrest

/-! ### A whole request -/

/-- `UnixSocketTransport::raw_request_with_timeouts`, and the time that it takes. -/
def timedRawRequestWithTimeouts (stream : UnixStream) (pace : Pace) (method path : String)
    (body : Option (List UInt8)) (readTimeout writeTimeout : Option ℕ) :
    Outcome Error (List UInt8) × ℕ :=
  match timedSendAll stream pace.write writeTimeout method path body ⟨0, pace.connect⟩ with
  | (.ok _, sent) =>
    let read := timedReadResponse pace.read readTimeout method ⟨stream.source, sent.clock⟩
    (read.1, read.2.clock)
  | (.err e, sent) => (.err e, sent.clock)
  | (.dropped, sent) => (.dropped, sent.clock)

/-- How many writes there are without time-outs. -/
def writes (stream : UnixStream) (method path : String) (body : Option (List UInt8)) : ℕ :=
  (sendAll stream method path body 0).2

/-- How many reads there are without time-outs. -/
def reads (stream : UnixStream) (method path : String) (body : Option (List UInt8)) : ℕ :=
  match sendRequest stream method path body with
  | .ok _ => (readResponse method stream.source).2.reads
  | .error _ => 0

section Whole

variable {stream : UnixStream} {pace : Pace} {method path : String} {body : Option (List UInt8)}
  {readTimeout writeTimeout : Option ℕ}

/-- A write that is too late ends the request. -/
theorem timedRawRequest_of_write {k : ℕ}
    (hk : Timed.FirstLate pace.write writeTimeout 0 (writes stream method path body) k) :
    timedRawRequestWithTimeouts stream pace method path body readTimeout writeTimeout =
      (.err (timedOut "write" writeTimeout),
        pace.connect + Timed.spent pace.write 0 k + writeTimeout.getD 0) := by
  obtain ⟨s', hrun⟩ := (follows_sendAll stream pace.write writeTimeout method path body).tooLate 0
    pace.connect k hk
  rw [timedRawRequestWithTimeouts, hrun]
  rfl

/-- Writes in time take the time that they take. -/
theorem timedSendAll_of_inTime
    (hwrites : ∀ k < writes stream method path body, Timed.InTime pace.write writeTimeout k) :
    timedSendAll stream pace.write writeTimeout method path body ⟨0, pace.connect⟩ =
      (.ofExcept (sendRequest stream method path body), ⟨writes stream method path body,
        pace.connect + Timed.spent pace.write 0 (writes stream method path body)⟩) := by
  rw [(follows_sendAll stream pace.write writeTimeout method path body).onTime 0 pace.connect
    fun k _ hk => hwrites k hk, sendAll_fst]
  rfl

/-- A read that is too late ends the request. -/
theorem timedRawRequest_of_read {k : ℕ}
    (hwrites : ∀ k < writes stream method path body, Timed.InTime pace.write writeTimeout k)
    (hk : Timed.FirstLate pace.read readTimeout 0 (reads stream method path body) k) :
    timedRawRequestWithTimeouts stream pace method path body readTimeout writeTimeout =
      (.err (timedOut "read" readTimeout),
        pace.connect + Timed.spent pace.write 0 (writes stream method path body) +
          Timed.spent pace.read 0 k + readTimeout.getD 0) := by
  rw [timedRawRequestWithTimeouts, timedSendAll_of_inTime hwrites]
  rw [reads] at hk
  cases hsend : sendRequest stream method path body with
  | error e =>
    rw [hsend] at hk
    exact absurd hk.lt (Nat.not_lt_zero _)
  | ok _ =>
    rw [hsend] at hk
    obtain ⟨s', hrun⟩ := (follows_readResponse method).tooLate stream.source
      (pace.connect + Timed.spent pace.write 0 (writes stream method path body)) k hk
    dsimp only [Outcome.ofExcept]
    rw [hrun]
    rfl

/-- With all in time, the request returns what it returns without time-outs. -/
theorem timedRawRequest_of_inTime
    (hwrites : ∀ k < writes stream method path body, Timed.InTime pace.write writeTimeout k)
    (hreads : ∀ k < reads stream method path body, Timed.InTime pace.read readTimeout k) :
    timedRawRequestWithTimeouts stream pace method path body readTimeout writeTimeout =
      (rawRequestWithTimeouts stream method path body,
        pace.connect + Timed.spent pace.write 0 (writes stream method path body) +
          Timed.spent pace.read 0 (reads stream method path body)) := by
  rw [timedRawRequestWithTimeouts, timedSendAll_of_inTime hwrites, rawRequestWithTimeouts]
  rw [reads] at hreads ⊢
  cases hsend : sendRequest stream method path body with
  | error e =>
    dsimp only [Outcome.ofExcept]
    rw [Timed.spent_self, Nat.add_zero]
  | ok _ =>
    rw [hsend] at hreads
    dsimp only [Outcome.ofExcept]
    rw [(follows_readResponse method).onTime stream.source _ fun k _ hk => hreads k hk]
    rfl

/-- **The time-outs bound the writes and the reads**, and the request by their numbers. -/
theorem timedRawRequest_time_le {read write : ℕ} :
    (timedRawRequestWithTimeouts stream pace method path body (some read) (some write)).2 ≤
      pace.connect + 2 * write + (stream.response.length + 1) * read := by
  have hwrites : writes stream method path body ≤ 2 := sendAll_snd_le stream method path body 0
  have hsent := (follows_sendAll stream pace.write (some write) method path body).clock_le 0
    pace.connect
  have hsent' : (timedSendAll stream pace.write (some write) method path body
      ⟨0, pace.connect⟩).2.clock ≤ pace.connect + 2 * write :=
    hsent.trans (Nat.add_le_add_left (Nat.mul_le_mul_right write hwrites) _)
  rw [timedRawRequestWithTimeouts]
  rcases hrun : timedSendAll stream pace.write (some write) method path body ⟨0, pace.connect⟩ with
    ⟨_ | e | _, sent⟩
  · have hread := (@follows_readResponse pace.read (some read) method).clock_le stream.source
      sent.clock
    have hcost := cost_readResponse method stream.source
    have hstart : cost stream.source = stream.response.length := Nat.zero_add _
    rw [hstart, cost] at hcost
    have hmul := Nat.mul_le_mul_right read
      (show (readResponse method stream.source).2.reads - stream.source.reads ≤
        stream.response.length + 1 by omega)
    rw [hrun] at hsent'
    dsimp only at hsent' ⊢
    omega
  · rw [hrun] at hsent'
    exact hsent'.trans (Nat.le_add_right _ _)
  · rw [hrun] at hsent'
    exact hsent'.trans (Nat.le_add_right _ _)

end Whole

/-! ### A slow server -/

/-- A server that sends bytes which end no header, one at a time. -/
def dripping (n : ℕ) : UnixStream where
  response := List.replicate n 120
  sizes := fun _ => 1

theorem position_replicate (n : ℕ) : Chunked.position delimiter (List.replicate n 120) = none := by
  rw [Option.eq_none_iff_forall_ne_some]
  intro i hi
  have hpre := (Chunked.position_eq_some hi).2
  have hmem : 13 ∈ (List.replicate n (120 : UInt8)).drop i := hpre.subset (by decide)
  exact absurd (List.eq_of_mem_replicate (List.mem_of_mem_drop hmem)) (by decide)

/-- Such a server is read byte by byte, to its end. -/
theorem readHeader_dripping {n k rounds : ℕ} {source : Chunked.Source UInt8}
    (hrest : source.rest = List.replicate n 120) (hsizes : source.sizes = fun _ => 1)
    (hrounds : n < rounds) : ∃ source',
      readHeader rounds (List.replicate k 120) source = (.err unexpectedEof, source') ∧
        source'.reads = source.reads + n + 1 := by
  induction n generalizing k rounds source with
  | zero =>
    obtain ⟨rounds, rfl⟩ := Nat.exists_eq_add_one_of_ne_zero (Nat.ne_of_gt hrounds)
    have hpiece : source.piece 1024 = [] := (Chunked.Source.read_eq_nil (by decide)).mpr hrest
    rw [readHeader, read_bind, hpiece, if_pos rfl]
    exact ⟨_, rfl, rfl⟩
  | succ n ih =>
    obtain ⟨rounds, rfl⟩ :=
      Nat.exists_eq_add_one_of_ne_zero (Nat.ne_of_gt (Nat.zero_lt_of_lt hrounds))
    have hsize : source.pieceSize 1024 = 1 := by
      rw [Chunked.Source.pieceSize, hsizes, hrest, List.length_replicate]
      dsimp only
      omega
    have hpiece : source.piece 1024 = [120] := by
      rw [Chunked.Source.piece, hsize, hrest]
      rfl
    have hafter : (source.advance 1024).rest = List.replicate n 120 := by
      rw [Chunked.Source.advance, hsize, hrest]
      rfl
    obtain ⟨source', hrun, hreads⟩ := ih (k := k + 1) hafter hsizes (Nat.lt_of_succ_lt_succ hrounds)
    have happend : List.replicate k (120 : UInt8) ++ [120] = List.replicate (k + 1) 120 :=
      List.replicate_succ'.symm
    rw [readHeader, read_bind, hpiece, if_neg (by decide), happend, position_replicate]
    refine ⟨source', hrun, ?_⟩
    rw [hreads, Chunked.Source.advance]
    dsimp only
    omega

/-- **A slow server is read once for each byte**, and once more. -/
theorem reads_dripping (n : ℕ) (method path : String) (body : Option (List UInt8)) :
    reads (dripping n) method path body = n + 1 ∧
      rawRequestWithTimeouts (dripping n) method path body = .err unexpectedEof := by
  have hsend : sendRequest (dripping n) method path body = .ok () := by
    rw [sendRequest]
    dsimp only
    split <;> rfl
  obtain ⟨source', hrun, hreads⟩ := @readHeader_dripping n 0 (n + 1) (dripping n).source rfl rfl
    (Nat.lt_succ_self n)
  have hresponse : readResponse method (dripping n).source = (.err unexpectedEof, source') := by
    have hrounds : roundsLeft (dripping n).source = (.ok (n + 1), (dripping n).source) := by
      show (Outcome.ok ((List.replicate n (120 : UInt8)).length + 1), _) = _
      rw [List.length_replicate]
    unfold readResponse
    rw [Prog.bind_of_ok hrounds]
    exact Prog.bind_of_err hrun
  rw [reads, rawRequestWithTimeouts, hsend]
  dsimp only
  rw [hresponse, hreads]
  exact ⟨by simp [UnixStream.source], rfl⟩

end UnixSocketTransport

/-! ### The calls of the client -/

open UnixSocketTransport

namespace ClientRequest

variable {α : Type}

/-- The time-out of each read: `drive_request_timeout` where a drive is put, and none where a
snapshot is made or loaded. -/
def readTimeout (requestTimeout : ℕ) : ClientRequest α → Option ℕ
  | putGuestDriveById _ _ => some (requestTimeout / 2)
  | createSnapshot _ => none
  | loadSnapshot _ => none
  | _ => some requestTimeout

/-- The time-out of each write. -/
def writeTimeout (requestTimeout : ℕ) : ClientRequest α → Option ℕ
  | putGuestDriveById _ _ => some (requestTimeout / 2)
  | _ => some requestTimeout

end ClientRequest

namespace Client

open Machine (asU64 envValueOrDefaultInt)

variable (json : SerdeJson) {α : Type}

/-- `DEFAULT_FIRECRACKER_REQUEST_TIMEOUT`, in milliseconds. -/
def defaultFirecrackerRequestTimeout : ℤ := 500

/-- The request time-out that `Client::new` takes from the variable
`FIRECRACKER_GO_SDK_REQUEST_TIMEOUT_MILLISECONDS`. -/
def requestTimeout (value : Option String) : ℕ :=
  asU64 (envValueOrDefaultInt value defaultFirecrackerRequestTimeout) * 10 ^ 6

/-- A method of `Client`, and the time that it takes. -/
def timedCall (stream : UnixStream) (pace : Pace) (requestTimeout : ℕ) (request : ClientRequest α) :
    Outcome Error α × ℕ :=
  match timedRawRequestWithTimeouts stream pace request.method request.path
      (request.body.map json.toVec) (request.readTimeout requestTimeout)
      (request.writeTimeout requestTimeout) with
  | (.ok bytes, time) => (.ofExcept (json.answer request.returned bytes), time)
  | (.err e, time) => (.err e, time)
  | (.dropped, time) => (.dropped, time)

/-- How many writes a call makes without time-outs. -/
def writes (stream : UnixStream) (request : ClientRequest α) : ℕ :=
  UnixSocketTransport.writes stream request.method request.path (request.body.map json.toVec)

/-- How many reads a call makes without time-outs. -/
def reads (stream : UnixStream) (request : ClientRequest α) : ℕ :=
  UnixSocketTransport.reads stream request.method request.path (request.body.map json.toVec)

/-- **What a call under time-outs returns, and when.** If all its writes and reads are done in time
it returns what it returns without time-outs; otherwise it ends at the first that is not, with an
error that names the operation and the time-out. Reads do not begin before the writes are done. -/
theorem timedCall_eq (stream : UnixStream) (pace : Pace) (timeout : ℕ)
    (request : ClientRequest α) :
    ((∀ k < writes json stream request,
        Timed.InTime pace.write (request.writeTimeout timeout) k) →
      (∀ k < reads json stream request, Timed.InTime pace.read (request.readTimeout timeout) k) →
      timedCall json stream pace timeout request = (call json stream request,
        pace.connect + Timed.spent pace.write 0 (writes json stream request) +
          Timed.spent pace.read 0 (reads json stream request))) ∧
    (∀ k, Timed.FirstLate pace.write (request.writeTimeout timeout) 0
        (writes json stream request) k →
      timedCall json stream pace timeout request =
        (.err (timedOut "write" (request.writeTimeout timeout)),
          pace.connect + Timed.spent pace.write 0 k + (request.writeTimeout timeout).getD 0)) ∧
    ((∀ k < writes json stream request,
        Timed.InTime pace.write (request.writeTimeout timeout) k) →
      ∀ k, Timed.FirstLate pace.read (request.readTimeout timeout) 0
        (reads json stream request) k →
      timedCall json stream pace timeout request =
        (.err (timedOut "read" (request.readTimeout timeout)),
          pace.connect + Timed.spent pace.write 0 (writes json stream request) +
            Timed.spent pace.read 0 k + (request.readTimeout timeout).getD 0)) := by
  refine ⟨fun hwrites hreads => ?_, fun k hk => ?_, fun hwrites k hk => ?_⟩
  · rw [timedCall, timedRawRequest_of_inTime hwrites hreads, call]
    cases rawRequestWithTimeouts stream request.method request.path
      (request.body.map json.toVec) <;> rfl
  · rw [timedCall, timedRawRequest_of_write hk]
  · rw [timedCall, timedRawRequest_of_read hwrites hk]
    rfl

/-- A server that sends three bytes: in time, with a write that is too late, and with the third read
too late. -/
theorem timedCall_eq_dripping :
    timedCall sampleJson (dripping 3) ⟨1, fun _ => 2, fun _ => 3⟩ 500 .describeInstance =
        (.err unexpectedEof, 1 + 2 + 4 * 3) ∧
      timedCall sampleJson (dripping 3) ⟨1, fun _ => 501, fun _ => 3⟩ 500 .describeInstance =
        (.err (timedOut "write" (some 500)), 1 + 500) ∧
      timedCall sampleJson (dripping 3) ⟨1, fun _ => 2, fun k => if k = 2 then 501 else 3⟩ 500
          .describeInstance =
        (.err (timedOut "read" (some 500)), 1 + 2 + 2 * 3 + 500) := by
  have hwrites : writes sampleJson (dripping 3) .describeInstance = 1 := rfl
  obtain ⟨hreads, hresult⟩ := reads_dripping 3 ClientRequest.describeInstance.method
    ClientRequest.describeInstance.path (ClientRequest.describeInstance.body.map sampleJson.toVec)
  have hcall : call sampleJson (dripping 3) .describeInstance = .err unexpectedEof := by
    rw [call, hresult]
  rw [← Client.reads] at hreads
  refine ⟨?_, ?_, ?_⟩
  · have hin := (timedCall_eq sampleJson (dripping 3) ⟨1, fun _ => 2, fun _ => 3⟩ 500
      .describeInstance).1
    rw [hwrites, hreads, hcall] at hin
    exact hin (by decide) (by decide)
  · have hlate := (timedCall_eq sampleJson (dripping 3) ⟨1, fun _ => 501, fun _ => 3⟩ 500
      .describeInstance).2.1 0
    rw [hwrites] at hlate
    exact hlate ⟨le_rfl, by decide, by decide, fun j _ hj => absurd hj (Nat.not_lt_zero j)⟩
  · have hlate := (timedCall_eq sampleJson (dripping 3)
      ⟨1, fun _ => 2, fun k => if k = 2 then 501 else 3⟩ 500 .describeInstance).2.2
    rw [hwrites, hreads] at hlate
    exact hlate (by decide) 2 ⟨by decide, by decide, by decide, by decide⟩

/-- **How long a call can last.** Its time-outs bound every write and every read: the call lasts no
longer than two writes and one read more than the response has bytes; and for every number of bytes
there is a server that makes it last so long, although nothing is too late. -/
theorem timedCall_time (timeout : ℕ) (request : ClientRequest α) {read write : ℕ}
    (hread : request.readTimeout timeout = some read)
    (hwrite : request.writeTimeout timeout = some write) :
    (∀ (stream : UnixStream) (pace : Pace), (timedCall json stream pace timeout request).2 ≤
      pace.connect + 2 * write + (stream.response.length + 1) * read) ∧
    ∀ n, ∃ (stream : UnixStream) (pace : Pace), stream.response.length = n ∧
      timedCall json stream pace timeout request = (.err unexpectedEof,
        pace.connect + writes json stream request * write + (n + 1) * read) := by
  have htime : ∀ (stream : UnixStream) (pace : Pace),
      (timedCall json stream pace timeout request).2 =
      (timedRawRequestWithTimeouts stream pace request.method request.path
        (request.body.map json.toVec) (some read) (some write)).2 := by
    intro stream pace
    rw [timedCall, hread, hwrite]
    rcases timedRawRequestWithTimeouts stream pace request.method request.path
      (request.body.map json.toVec) (some read) (some write) with ⟨_ | _ | _, _⟩ <;> rfl
  constructor
  · intro stream pace
    rw [htime]
    exact timedRawRequest_time_le
  · intro n
    -- every operation takes exactly as long as it may
    refine ⟨dripping n, ⟨0, fun _ => write, fun _ => read⟩, List.length_replicate, ?_⟩
    obtain ⟨hreads, hresult⟩ := reads_dripping n request.method request.path
      (request.body.map json.toVec)
    have hin : ∀ (t k : ℕ), Timed.InTime (fun _ => t) (some t) k := by
      rintro t k _ ⟨⟩
      exact le_rfl
    have hspent : ∀ t k, Timed.spent (fun _ => t) 0 k = k * t := by
      intro t k
      simp [Timed.spent]
    rw [timedCall, hread, hwrite, timedRawRequest_of_inTime (fun k _ => hin write k)
      (fun k _ => hin read k), hresult, hspent, hspent, hreads, writes]

theorem timedCall_time_three : ∃ (stream : UnixStream) (pace : Pace), stream.response.length = 3 ∧
    timedCall sampleJson stream pace (500 * 10 ^ 6) .describeInstance = (.err unexpectedEof,
      pace.connect + writes sampleJson stream .describeInstance * (500 * 10 ^ 6) +
        (3 + 1) * (500 * 10 ^ 6)) :=
  (timedCall_time sampleJson (500 * 10 ^ 6) .describeInstance rfl rfl).2 3

/-- The number that the variable spells is used, unless it is zero. -/
theorem envValueOrDefaultInt_of_spells {value : Option String} {n : ℤ} (h : Spells value n)
    (hn : n ≠ 0) (default : ℤ) : envValueOrDefaultInt value default = n := by
  obtain ⟨text, rfl, hparse⟩ := h
  rw [envValueOrDefaultInt, Option.bind_some, hparse]
  exact if_pos hn

/-- Anything else gives the default. -/
theorem envValueOrDefaultInt_of_not_spells {value : Option String}
    (h : ∀ n, Spells value n → n = 0) (default : ℤ) :
    envValueOrDefaultInt value default = default := by
  rw [envValueOrDefaultInt]
  cases hparse : value.bind fun v => Text.parseSigned (2 ^ 31 - 1) v.toList with
  | none => rfl
  | some n =>
    obtain ⟨text, htext, hspells⟩ := Option.bind_eq_some_iff.mp hparse
    have hzero := h n ⟨text, htext, hspells⟩
    exact if_neg (not_not.mpr hzero)

/-- **The request time-out that is configured**: the number of milliseconds that the variable
spells, the default without one, and for a negative number one that is never over. -/
theorem requestTimeout_eq (value : Option String) :
    (∀ n : ℕ, 0 < n → Spells value n → requestTimeout value = n * 10 ^ 6) ∧
    ((∀ n, Spells value n → n = 0) → requestTimeout value = 500 * 10 ^ 6) ∧
    (SpellsNegative value → 2 ^ 63 * 10 ^ 6 ≤ requestTimeout value) := by
  refine ⟨fun n hpos hspells => ?_, fun hnone => ?_, fun ⟨n, hspells, hneg⟩ => ?_⟩
  · have hrange := hspells.mem
    have hcast : asU64 n = n := by
      rw [asU64]
      omega
    rw [requestTimeout, envValueOrDefaultInt_of_spells hspells (by omega), hcast]
  · rw [requestTimeout, envValueOrDefaultInt_of_not_spells hnone]
    rfl
  · have hrange := hspells.mem
    have hlarge : 2 ^ 63 ≤ asU64 n := by
      rw [asU64]
      omega
    rw [requestTimeout, envValueOrDefaultInt_of_spells hspells (by omega)]
    exact Nat.mul_le_mul_right _ hlarge

end Client

end FirecrackerSdk

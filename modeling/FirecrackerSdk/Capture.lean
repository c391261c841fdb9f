import FirecrackerSdk.Error
import FirecrackerSdk.Lib.Partial

/-!
# The capture of a FIFO

The thread of `Machine::capture_fifo_to_file_with_channel` reads a FIFO without blocking and passes
what it reads to a writer. Meanwhile others put bytes into the FIFO, the exit event may be set, and
time passes; the events of a run are those of the thread and of the others, in any order.

The thread stops at a check that finds the exit event set, and, once there was a chunk, at a read
without data when there was no data for 100 ms. So what is in the FIFO at the check, or comes after
the pause, is lost. Nothing else is: at any time, what was put into the FIFO is what was passed to
the writer, then the chunk at hand, then what is unread (`FirecrackerSdk.capture_passes`).
-/

namespace FirecrackerSdk

namespace Capture

/-- What a `read` gives. -/
inductive ReadOutcome where
  /-- `Ok(read)`, with the bytes in the buffer. -/
  | data (chunk : List UInt8)
  /-- `Ok(0)`: the FIFO is empty, and nobody has it open for writing. -/
  | zero
  /-- The FIFO is empty, and somebody has it open for writing. -/
  | wouldBlock
  | failed (error : IoError)

/-- An event of a run: first those of the others, then those of the thread. -/
inductive Event where
  | put (bytes : List UInt8)
  | signalExit
  | pass (nanos : ℕ)
  /-- `exit_event.load`. -/
  | load
  | read (outcome : ReadOutcome)
  /-- `write_all` returns. -/
  | wrote
  /-- `write_all` fails when the writer has taken some bytes. -/
  | writeFailed (taken : ℕ) (error : IoError)
  /-- `Instant::now` of `get_or_insert_with`. -/
  | now
  /-- `elapsed`, which looks at the clock too. -/
  | elapsed
  /-- `thread::sleep` returns. -/
  | wake

/-- What the thread does last. -/
inductive Effect where
  | removeFile
  | send (result : Except IoError Unit)

/-- Where the thread is. -/
inductive Pc where
  | check
  | reading
  | writing (chunk : List UInt8)
  | starting
  | looking (idleStart : ℕ)
  | sleeping (since : ℕ)
  | ended (effects : List Effect)

/-- The state of a run. -/
structure State where
  /-- The bytes in the FIFO. -/
  fifo : List UInt8 := []
  exitEvent : Bool := false
  /-- The clock, in nanoseconds. -/
  clock : ℕ := 0
  pc : Pc := .check
  seenData : Bool := false
  idleSince : Option ℕ := none
  /-- The bytes that the writer got. -/
  written : List UInt8 := []

/-- The size of the buffer. -/
def bufferSize : ℕ := 8192

/-- 100 ms. -/
def idleLimit : ℕ := 100000000

/-- 10 ms. -/
def sleepTime : ℕ := 10000000

namespace State

/-- The end after `break`. -/
def finish (s : State) : State := { s with pc := .ended [.removeFile, .send (.ok ())] }

/-- The end after an error. -/
def fail (s : State) (error : IoError) : State :=
  { s with pc := .ended [.send (.error error), .removeFile] }

/-- The arms for `Ok(0)` and `WouldBlock`, which are the same. -/
def noData (s : State) : State :=
  if s.seenData then
    match s.idleSince with
    | none => { s with pc := .starting }
    | some since => { s with pc := .looking since }
  else { s with pc := .sleeping s.clock }

/-- What the thread does with the outcome of a read; a FIFO gives its first bytes, as many as the
buffer has room for or fewer, and is without data only if it is empty. -/
def afterRead (s : State) : ReadOutcome → Option State
  | .data chunk =>
    if chunk ≠ [] ∧ chunk.length ≤ bufferSize ∧ chunk <+: s.fifo then
      some { s with
        fifo := s.fifo.drop chunk.length
        seenData := true
        idleSince := none
        pc := .writing chunk }
    else none
  | .zero => if s.fifo = [] then some s.noData else none
  | .wouldBlock => if s.fifo = [] then some s.noData else none
  | .failed error => some (s.fail error)

/-- **One event.** -/
def step (s : State) : Event → Option State
  | .put bytes => some { s with fifo := s.fifo ++ bytes }
  | .signalExit => some { s with exitEvent := true }
  | .pass nanos => some { s with clock := s.clock + nanos }
  | .load =>
    match s.pc with
    | .check => some (if s.exitEvent then s.finish else { s with pc := .reading })
    | _ => none
  | .read outcome =>
    match s.pc with
    | .reading => s.afterRead outcome
    | _ => none
  | .wrote =>
    match s.pc with
    | .writing chunk => some { s with written := s.written ++ chunk, pc := .check }
    | _ => none
  | .writeFailed taken error =>
    match s.pc with
    | .writing chunk => some ({ s with written := s.written ++ chunk.take taken }.fail error)
    | _ => none
  | .now =>
    match s.pc with
    | .starting => some { s with idleSince := some s.clock, pc := .looking s.clock }
    | _ => none
  | .elapsed =>
    match s.pc with
    | .looking idleStart =>
      some (if idleLimit ≤ s.clock - idleStart then s.finish
        else { s with pc := .sleeping s.clock })
    | _ => none
  | .wake =>
    match s.pc with
    | .sleeping since =>
      if since + sleepTime ≤ s.clock then some { s with pc := .check } else none
    | _ => none

end State

/-- A run, from the moment at which the thread starts. -/
abbrev run (events : List Event) : Option State := Partial.run State.step {} events

/-! ### What the events say -/

/-- The bytes that an event puts into the FIFO. -/
def Event.bytes : Event → List UInt8
  | .put bytes => bytes
  | _ => []

/-- The time that passes with an event. -/
def Event.nanos : Event → ℕ
  | .pass nanos => nanos
  | _ => 0

/-- A read that gives a chunk. -/
def Event.isChunk : Event → Bool
  | .read (.data _) => true
  | _ => false

/-- A read that finds the FIFO empty. -/
def Event.isQuiet : Event → Bool
  | .read .zero => true
  | .read .wouldBlock => true
  | _ => false

/-- An error of a read or of the writer. -/
def Event.isError : Event → Bool
  | .read (.failed _) => true
  | .writeFailed _ _ => true
  | _ => false

/-- **The bytes that were put into the FIFO.** -/
def putBytes (events : List Event) : List UInt8 := events.flatMap Event.bytes

/-- The bytes that were put into it before the exit event was set. -/
def putBeforeExit (events : List Event) : List UInt8 :=
  putBytes (events.takeWhile fun
    | .signalExit => false
    | _ => true)

/-- The time that has passed. -/
def passed (events : List Event) : ℕ := (events.map Event.nanos).sum

/-- The chunk that the thread has read and not yet written. -/
def State.atHand (s : State) : List UInt8 :=
  match s.pc with
  | .writing chunk => chunk
  | _ => []

/-- The thread has ended. -/
def State.hasEnded (s : State) : Bool :=
  match s.pc with
  | .ended _ => true
  | _ => false

/-- **All that was put into the FIFO until the last read**, which found it empty, has been
written. -/
def Emptied (events : List Event) (written : List UInt8) : Prop :=
  ∃ before event after, events = before ++ event :: after ∧ event.isQuiet = true ∧
    (∀ event ∈ after, event.isQuiet = false ∧ event.isChunk = false) ∧ written = putBytes before

/-- **There was a chunk, and none since some read that found the FIFO empty**, which was at
`since` or before. -/
def QuietSince (events : List Event) (since : ℕ) : Prop :=
  ∃ before event after, events = before ++ event :: after ∧ event.isQuiet = true ∧
    (∃ event ∈ before, event.isChunk = true) ∧ (∀ event ∈ after, event.isChunk = false) ∧
    passed before ≤ since

/-- **The thread saw the exit event**, and left what was unread. -/
def EndedByExit (events : List Event) (written : List UInt8) : Prop :=
  ∃ before after unread, events = before ++ .load :: after ∧ .signalExit ∈ before ∧
    putBytes before = written ++ unread

/-- **The thread gave up**, after a pause of 100 ms. -/
def EndedByPause (events : List Event) (written : List UInt8) : Prop :=
  ∃ before after since, events = before ++ .elapsed :: after ∧ QuietSince before since ∧
    since + idleLimit ≤ passed before ∧ Emptied before written

@[simp] theorem putBytes_snoc (events : List Event) (event : Event) :
    putBytes (events ++ [event]) = putBytes events ++ event.bytes := by
  simp [putBytes]

@[simp] theorem passed_snoc (events : List Event) (event : Event) :
    passed (events ++ [event]) = passed events + event.nanos := by
  simp [passed]

theorem Emptied.snoc {events : List Event} {written : List UInt8} (h : Emptied events written)
    {event : Event} (hquiet : event.isQuiet = false) (hchunk : event.isChunk = false) :
    Emptied (events ++ [event]) written := by
  obtain ⟨before, first, after, rfl, hfirst, hafter, hwritten⟩ := h
  refine ⟨before, first, after ++ [event], by simp, hfirst, fun e he => ?_, hwritten⟩
  rcases List.mem_append.mp he with he | he
  · exact hafter e he
  · obtain rfl := List.mem_singleton.mp he
    exact ⟨hquiet, hchunk⟩

theorem QuietSince.snoc {events : List Event} {since : ℕ} (h : QuietSince events since)
    {event : Event} (hchunk : event.isChunk = false) : QuietSince (events ++ [event]) since := by
  obtain ⟨before, first, after, rfl, hfirst, hseen, hafter, hsince⟩ := h
  refine ⟨before, first, after ++ [event], by simp, hfirst, hseen, fun e he => ?_, hsince⟩
  rcases List.mem_append.mp he with he | he
  · exact hafter e he
  · obtain rfl := List.mem_singleton.mp he
    exact hchunk

theorem QuietSince.mono {events : List Event} {since since' : ℕ} (h : QuietSince events since)
    (hle : since ≤ since') : QuietSince events since' := by
  obtain ⟨before, first, after, hevents, hfirst, hseen, hafter, hsince⟩ := h
  exact ⟨before, first, after, hevents, hfirst, hseen, hafter, hsince.trans hle⟩

theorem EndedByExit.snoc {events : List Event} {written : List UInt8}
    (h : EndedByExit events written) (event : Event) : EndedByExit (events ++ [event]) written := by
  obtain ⟨before, after, unread, rfl, hexit, hwritten⟩ := h
  exact ⟨before, after ++ [event], unread, by simp, hexit, hwritten⟩

theorem EndedByPause.snoc {events : List Event} {written : List UInt8}
    (h : EndedByPause events written) (event : Event) :
    EndedByPause (events ++ [event]) written := by
  obtain ⟨before, after, since, rfl, hquiet, hlimit, hemptied⟩ := h
  exact ⟨before, after ++ [event], since, by simp, hquiet, hlimit, hemptied⟩

/-! ### What a run keeps -/

/-- What the place of the thread says about the events. -/
def PlaceSound (events : List Event) (s : State) : Prop :=
  match s.pc with
  | .starting => QuietSince events s.clock ∧ Emptied events s.written
  | .looking idleStart => QuietSince events idleStart ∧ Emptied events s.written
  | .ended _ => EndedByExit events s.written ∨ EndedByPause events s.written
  | _ => True

/-- **What holds at any time of a run without errors.** -/
structure Sound (events : List Event) (s : State) : Prop where
  bytes : putBytes events = s.written ++ s.atHand ++ s.fifo
  clock : s.clock = passed events
  exit : s.exitEvent = true → .signalExit ∈ events
  seen : s.seenData = true → ∃ event ∈ events, event.isChunk = true
  idle : ∀ since, s.idleSince = some since → QuietSince events since
  place : PlaceSound events s

theorem sound_nil : Sound [] {} := by
  refine ⟨rfl, rfl, ?_, ?_, ?_, trivial⟩ <;> simp

/-- An event of the others leaves the thread where it is. -/
theorem PlaceSound.snoc {events : List Event} {s s' : State} (h : PlaceSound events s)
    {event : Event} (hquiet : event.isQuiet = false) (hchunk : event.isChunk = false)
    (hpc : s'.pc = s.pc) (hwritten : s'.written = s.written) (hclock : s.clock ≤ s'.clock) :
    PlaceSound (events ++ [event]) s' := by
  unfold PlaceSound at h ⊢
  rw [hpc, hwritten]
  cases hplace : s.pc with
  | starting =>
    rw [hplace] at h
    exact ⟨(h.1.mono hclock).snoc hchunk, h.2.snoc hquiet hchunk⟩
  | looking idleStart =>
    rw [hplace] at h
    exact ⟨h.1.snoc hchunk, h.2.snoc hquiet hchunk⟩
  | ended effects =>
    rw [hplace] at h
    exact h.imp (·.snoc event) (·.snoc event)
  | check => trivial
  | reading => trivial
  | writing chunk => trivial
  | sleeping since => trivial

/-- An event that is not a chunk keeps what the thread remembers. -/
theorem Sound.extend {events : List Event} {s s' : State} (h : Sound events s) {event : Event}
    (hchunk : event.isChunk = false)
    (hexit : s'.exitEvent = true → s.exitEvent = true ∨ event = .signalExit)
    (hseen : s'.seenData = s.seenData) (hidle : s'.idleSince = s.idleSince)
    (hbytes : putBytes events ++ event.bytes = s'.written ++ s'.atHand ++ s'.fifo)
    (hclock : s'.clock = s.clock + event.nanos) (hplace : PlaceSound (events ++ [event]) s') :
    Sound (events ++ [event]) s' := by
  refine ⟨?_, ?_, ?_, ?_, ?_, hplace⟩
  · rw [putBytes_snoc, hbytes]
  · rw [passed_snoc, hclock, h.clock]
  · intro hset
    rcases hexit hset with hset | rfl
    · exact List.mem_append_left _ (h.exit hset)
    · exact List.mem_append_right _ List.mem_cons_self
  · intro hdata
    obtain ⟨e, he, hdata⟩ := h.seen (hseen.symm.trans hdata)
    exact ⟨e, List.mem_append_left _ he, hdata⟩
  · intro since hsince
    exact (h.idle since (hidle.symm.trans hsince)).snoc hchunk

/-- An event of the thread that only moves it. -/
theorem Sound.move {events : List Event} {s : State} (h : Sound events s) {event : Event}
    (hbytes : event.bytes = []) (hnanos : event.nanos = 0) (hchunk : event.isChunk = false)
    {pc : Pc} (hhand : { s with pc := pc }.atHand = s.atHand)
    (hplace : PlaceSound (events ++ [event]) { s with pc := pc }) :
    Sound (events ++ [event]) { s with pc := pc } := by
  refine h.extend hchunk .inl rfl rfl ?_ (by rw [hnanos]; rfl) hplace
  rw [hbytes, List.append_nil, hhand]
  exact h.bytes

theorem sound_put {events : List Event} {s : State} (h : Sound events s) (bytes : List UInt8) :
    Sound (events ++ [.put bytes]) { s with fifo := s.fifo ++ bytes } := by
  refine h.extend rfl .inl rfl rfl ?_ rfl (h.place.snoc rfl rfl rfl rfl le_rfl)
  rw [h.bytes, List.append_assoc]
  rfl

theorem sound_signalExit {events : List Event} {s : State} (h : Sound events s) :
    Sound (events ++ [.signalExit]) { s with exitEvent := true } := by
  refine h.extend rfl (fun _ => .inr rfl) rfl rfl ?_ rfl (h.place.snoc rfl rfl rfl rfl le_rfl)
  rw [h.bytes]
  exact List.append_nil _

theorem sound_pass {events : List Event} {s : State} (h : Sound events s) (nanos : ℕ) :
    Sound (events ++ [.pass nanos]) { s with clock := s.clock + nanos } := by
  refine h.extend rfl .inl rfl rfl ?_ rfl
    (h.place.snoc rfl rfl rfl rfl (Nat.le_add_right s.clock nanos))
  rw [h.bytes]
  exact List.append_nil _

theorem sound_load {events : List Event} {s : State} (h : Sound events s) (hpc : s.pc = .check) :
    Sound (events ++ [.load]) (if s.exitEvent then s.finish else { s with pc := .reading }) := by
  have hhand : s.atHand = [] := by rw [State.atHand, hpc]
  split
  · rename_i hexit
    refine h.move rfl rfl rfl hhand.symm (.inl ⟨events, [], s.fifo, rfl, h.exit hexit, ?_⟩)
    rw [h.bytes, hhand, List.append_nil]
  · exact h.move rfl rfl rfl hhand.symm trivial

/-- A read that finds the FIFO empty: all that was put into it has been written. -/
theorem sound_noData {events : List Event} {s : State} (h : Sound events s) (hpc : s.pc = .reading)
    (hempty : s.fifo = []) {event : Event} (hquiet : event.isQuiet = true)
    (hbytes : event.bytes = []) (hnanos : event.nanos = 0) (hchunk : event.isChunk = false) :
    Sound (events ++ [event]) s.noData := by
  have hhand : s.atHand = [] := by rw [State.atHand, hpc]
  have hemptied : Emptied (events ++ [event]) s.written := by
    refine ⟨events, event, [], rfl, hquiet, by simp, ?_⟩
    rw [h.bytes, hhand, hempty, List.append_nil, List.append_nil]
  unfold State.noData
  split
  · rename_i hseen
    split
    · -- the pause starts with this read
      refine h.move hbytes hnanos hchunk hhand.symm ⟨?_, hemptied⟩
      exact ⟨events, event, [], rfl, hquiet, h.seen hseen, by simp, h.clock.ge⟩
    · rename_i since hsince
      exact h.move hbytes hnanos hchunk hhand.symm ⟨(h.idle since hsince).snoc hchunk, hemptied⟩
  · exact h.move hbytes hnanos hchunk hhand.symm trivial

theorem sound_afterRead {events : List Event} {s s' : State} (h : Sound events s)
    (hpc : s.pc = .reading) {outcome : ReadOutcome} (hcalm : (Event.read outcome).isError = false)
    (hstep : s.afterRead outcome = some s') : Sound (events ++ [.read outcome]) s' := by
  have hhand : s.atHand = [] := by rw [State.atHand, hpc]
  cases outcome with
  | data chunk =>
    obtain ⟨⟨-, -, rest, hrest⟩, hs'⟩ := Option.ite_none_right_eq_some.mp hstep
    obtain rfl := Option.some.inj hs'
    refine ⟨?_, ?_, ?_, ?_, ?_, trivial⟩
    · rw [putBytes_snoc, h.bytes, hhand, ← hrest]
      simp [State.atHand, Event.bytes]
    · rw [passed_snoc]
      exact h.clock
    · intro hexit
      exact List.mem_append_left _ (h.exit hexit)
    · intro _
      exact ⟨_, List.mem_append_right _ List.mem_cons_self, rfl⟩
    · rintro since ⟨⟩
  | zero =>
    obtain ⟨hempty, hs'⟩ := Option.ite_none_right_eq_some.mp hstep
    obtain rfl := Option.some.inj hs'
    exact sound_noData h hpc hempty rfl rfl rfl rfl
  | wouldBlock =>
    obtain ⟨hempty, hs'⟩ := Option.ite_none_right_eq_some.mp hstep
    obtain rfl := Option.some.inj hs'
    exact sound_noData h hpc hempty rfl rfl rfl rfl
  | failed error => cases hcalm

theorem sound_wrote {events : List Event} {s : State} (h : Sound events s) {chunk : List UInt8}
    (hpc : s.pc = .writing chunk) :
    Sound (events ++ [.wrote]) { s with written := s.written ++ chunk, pc := .check } := by
  have hhand : s.atHand = chunk := by rw [State.atHand, hpc]
  refine h.extend rfl .inl rfl rfl ?_ rfl trivial
  rw [h.bytes, hhand]
  simp [State.atHand, Event.bytes]

theorem sound_now {events : List Event} {s : State} (h : Sound events s) (hpc : s.pc = .starting) :
    Sound (events ++ [.now]) { s with idleSince := some s.clock, pc := .looking s.clock } := by
  have hhand : s.atHand = [] := by rw [State.atHand, hpc]
  have hplace := h.place
  unfold PlaceSound at hplace
  rw [hpc] at hplace
  obtain ⟨hquiet, hemptied⟩ := hplace
  have hmoved : Sound (events ++ [.now]) { s with pc := .looking s.clock } :=
    h.move rfl rfl rfl hhand.symm ⟨hquiet.snoc rfl, hemptied.snoc rfl rfl⟩
  refine ⟨hmoved.bytes, hmoved.clock, hmoved.exit, hmoved.seen, ?_, hmoved.place⟩
  rintro since ⟨⟩
  exact hquiet.snoc rfl

theorem sound_elapsed {events : List Event} {s : State} (h : Sound events s) {idleStart : ℕ}
    (hpc : s.pc = .looking idleStart) :
    Sound (events ++ [.elapsed]) (if idleLimit ≤ s.clock - idleStart then s.finish
      else { s with pc := .sleeping s.clock }) := by
  have hhand : s.atHand = [] := by rw [State.atHand, hpc]
  have hplace := h.place
  unfold PlaceSound at hplace
  rw [hpc] at hplace
  obtain ⟨hquiet, hemptied⟩ := hplace
  split
  · rename_i hlimit
    refine h.move rfl rfl rfl hhand.symm (.inr ⟨events, [], idleStart, rfl, hquiet, ?_, hemptied⟩)
    rw [← h.clock]
    have hpositive : 0 < idleLimit := by decide
    omega
  · exact h.move rfl rfl rfl hhand.symm trivial

theorem sound_step {events : List Event} {s s' : State} (h : Sound events s) {event : Event}
    (hcalm : event.isError = false) (hstep : s.step event = some s') :
    Sound (events ++ [event]) s' := by
  -- the first three can happen at any time, the others where the thread is at them
  cases event with
  | put bytes =>
    obtain rfl := Option.some.inj hstep
    exact sound_put h bytes
  | signalExit =>
    obtain rfl := Option.some.inj hstep
    exact sound_signalExit h
  | pass nanos =>
    obtain rfl := Option.some.inj hstep
    exact sound_pass h nanos
  | load =>
    rw [State.step] at hstep
    split at hstep
    · rename_i hpc
      obtain rfl := Option.some.inj hstep
      exact sound_load h hpc
    · cases hstep
  | read outcome =>
    rw [State.step] at hstep
    split at hstep
    · rename_i hpc
      exact sound_afterRead h hpc hcalm hstep
    · cases hstep
  | wrote =>
    rw [State.step] at hstep
    split at hstep
    · rename_i chunk hpc
      obtain rfl := Option.some.inj hstep
      exact sound_wrote h hpc
    · cases hstep
  | writeFailed taken error => cases hcalm
  | now =>
    rw [State.step] at hstep
    split at hstep
    · rename_i hpc
      obtain rfl := Option.some.inj hstep
      exact sound_now h hpc
    · cases hstep
  | elapsed =>
    rw [State.step] at hstep
    split at hstep
    · rename_i idleStart hpc
      obtain rfl := Option.some.inj hstep
      exact sound_elapsed h hpc
    · cases hstep
  | wake =>
    rw [State.step] at hstep
    split at hstep
    · rename_i since hpc
      obtain ⟨-, hs'⟩ := Option.ite_none_right_eq_some.mp hstep
      obtain rfl := Option.some.inj hs'
      refine h.move rfl rfl rfl ?_ trivial
      rw [State.atHand, State.atHand, hpc]
    · cases hstep

theorem sound_of_run {events : List Event} {s : State} (hrun : run events = some s)
    (hcalm : ∀ event ∈ events, event.isError = false) : Sound events s := by
  refine Partial.invariant
    (I := fun events s => (∀ event ∈ events, event.isError = false) → Sound events s)
    (fun _ => sound_nil) ?_ hrun hcalm
  intro events s event s' ih hstep hcalm
  have hbefore : Sound events s := ih fun e he => hcalm e (List.mem_append_left _ he)
  exact sound_step hbefore (hcalm event (List.mem_append_right _ List.mem_cons_self)) hstep

/-- An event of the thread. -/
def Event.ofThread : Event → Bool
  | .put _ => false
  | .signalExit => false
  | .pass _ => false
  | _ => true

/-- A thread that has not ended goes on, at the latest when it has slept. -/
theorem exists_step {s : State} (h : s.hasEnded = false) :
    ∃ nanos event, event.ofThread = true ∧
      ({ s with clock := s.clock + nanos }.step event).isSome = true := by
  obtain ⟨fifo, exitEvent, clock, pc, seenData, idleSince, written⟩ := s
  cases pc with
  | check => exact ⟨0, .load, rfl, rfl⟩
  | reading =>
    cases fifo with
    | nil => exact ⟨0, .read .zero, rfl, rfl⟩
    | cons b rest =>
      refine ⟨0, .read (.data [b]), rfl, ?_⟩
      have hfits : [b].length ≤ bufferSize := Nat.le_of_ble_eq_true rfl
      change (ite _ _ _ : Option State).isSome = true
      rw [if_pos ⟨List.cons_ne_nil _ _, hfits, ⟨rest, rfl⟩⟩]
      rfl
  | writing chunk => exact ⟨0, .wrote, rfl, rfl⟩
  | starting => exact ⟨0, .now, rfl, rfl⟩
  | looking idleStart => exact ⟨0, .elapsed, rfl, rfl⟩
  | sleeping since =>
    refine ⟨since + sleepTime, .wake, rfl, ?_⟩
    have hslept : since + sleepTime ≤ clock + (since + sleepTime) := Nat.le_add_left _ _
    simp only [State.step, if_pos hslept, Option.isSome_some]
  | ended effects => cases h

end Capture

open Capture in
/-- **What the capture passes on**, in any run without an error: of what was put into the FIFO, all
but the chunk at hand and what is unread, in order and once. It ends only at the exit event, or by a
pause, and then all that was put into the FIFO until the last read has been passed on. -/
theorem capture_passes {events : List Event} {s : State} (hrun : run events = some s)
    (hcalm : ∀ event ∈ events, event.isError = false) :
    putBytes events = s.written ++ s.atHand ++ s.fifo ∧
      (s.hasEnded = true → s.atHand = [] ∧
        (EndedByExit events s.written ∨ EndedByPause events s.written)) ∧
      (s.hasEnded = false → ∃ nanos event, event.ofThread = true ∧
        (run (events ++ [.pass nanos, event])).isSome = true) := by
  have hsound := sound_of_run hrun hcalm
  -- the bytes and the reasons to end are in the invariant, that the thread goes on is not
  refine ⟨hsound.bytes, fun hended => ?_, fun hended => ?_⟩
  · have hplace := hsound.place
    unfold PlaceSound at hplace
    unfold State.hasEnded at hended
    split at hended
    · rename_i effects hpc
      rw [hpc] at hplace
      refine ⟨?_, hplace⟩
      rw [State.atHand, hpc]
    · cases hended
  · obtain ⟨nanos, event, hthread, hsome⟩ := exists_step hended
    refine ⟨nanos, event, hthread, ?_⟩
    unfold run at hrun ⊢
    rw [Partial.run_append, hrun, Option.bind_some]
    change ((State.step _ event).bind some).isSome = true
    rw [Option.bind_fun_some]
    exact hsome

/-- A chunk, a pause of 150 ms, and another chunk. -/
def pausedEvents : List Capture.Event :=
  [.put [72], .load, .read (.data [72]), .wrote, .load, .read .wouldBlock, .now, .elapsed,
    .pass 150000000, .wake, .load, .read .wouldBlock, .put [105], .elapsed]

/-- A chunk just before the exit event. -/
def lateEvents : List Capture.Event := [.put [72], .signalExit, .load]

/-- The capture ends by the pause: the first chunk has been passed on, the second is unread. -/
theorem capture_passes_paused :
    ∃ s, Capture.run pausedEvents = some s ∧ Capture.putBytes pausedEvents = [72, 105] ∧
      s.written = [72] ∧ s.atHand = [] ∧ s.fifo = [105] ∧ s.hasEnded = true ∧
      Capture.EndedByPause pausedEvents [72] := by
  obtain ⟨s, hrun, hwritten, hfifo, hended⟩ : ∃ s, Capture.run pausedEvents = some s ∧
      s.written = [72] ∧ s.fifo = [105] ∧ s.hasEnded = true := ⟨_, rfl, rfl, rfl, rfl⟩
  obtain ⟨hbytes, hend, -⟩ := capture_passes hrun (by decide)
  obtain ⟨hatHand, hreason⟩ := hend hended
  rw [hwritten, hatHand, hfifo] at hbytes
  refine ⟨s, hrun, hbytes, hwritten, hatHand, hfifo, hended, ?_⟩
  rw [hwritten] at hreason
  rcases hreason with ⟨before, after, -, hevents, hexit, -⟩ | hpause
  · -- nobody sets the exit event
    have hmem : Capture.Event.signalExit ∈ pausedEvents :=
      hevents ▸ List.mem_append_left _ hexit
    simp [pausedEvents] at hmem
  · exact hpause

/-- **What is lost**: the chunk after the pause, and the chunk just before the exit event. -/
theorem capture_loses :
    (∃ s, Capture.run pausedEvents = some s ∧ s.hasEnded = true ∧ s.written = [72] ∧
        Capture.putBeforeExit pausedEvents = [72, 105] ∧
        ∀ event ∈ pausedEvents, event.isError = false) ∧
      ∃ s, Capture.run lateEvents = some s ∧ s.hasEnded = true ∧ s.written = [] ∧
        Capture.putBeforeExit lateEvents = [72] ∧
        ∀ event ∈ lateEvents, event.isError = false := by
  refine ⟨⟨_, rfl, rfl, rfl, rfl, ?_⟩, ⟨_, rfl, rfl, rfl, rfl, ?_⟩⟩ <;> decide

end FirecrackerSdk

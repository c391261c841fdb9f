import FirecrackerSdk.Capture

/-!
# How a capture ends

A read or the writer can fail, and then the capture ends. However it ends, the thread reports once
on the channel and removes the FIFO once, and does nothing after that; the error that it reports is
the one that occurred. The writer got the first of the bytes that were put into the FIFO, and what
it did not get is known exactly (`FirecrackerSdk.capture_ends_once`).

A capture without errors removes the FIFO before it reports, one with an error after that. And once
the exit event is set the thread takes five steps more at most (`FirecrackerSdk.capture_stops`).
-/

namespace FirecrackerSdk

namespace Capture

/-- The error of a read or of the writer. -/
def Event.error : Event → Option IoError
  | .read (.failed error) => some error
  | .writeFailed _ error => some error
  | _ => none

/-- How much of the chunk at hand a writer takes before it fails. -/
def Event.taken : Event → ℕ
  | .writeFailed taken _ => taken
  | _ => 0

/-- What the thread does last, without an error or with one. -/
def endEffects : Option IoError → List Effect
  | none => [.removeFile, .send (.ok ())]
  | some error => [.send (.error error), .removeFile]

/-- **The thread failed.** What it had read and the writer did not take is lost, and so is what was
unread. -/
def EndedByError (events : List Event) (written : List UInt8) (error : IoError) : Prop :=
  ∃ before event after s, events = before ++ event :: after ∧ event.error = some error ∧
    run before = some s ∧ putBytes before = s.written ++ s.atHand ++ s.fifo ∧
    written = s.written ++ s.atHand.take event.taken

/-- Why the thread has ended. -/
def Ended (events : List Event) (written : List UInt8) : Option IoError → Prop
  | none => EndedByExit events written ∨ EndedByPause events written
  | some error => EndedByError events written error

theorem isError_eq_false_iff {event : Event} : event.isError = false ↔ event.error = none := by
  rcases event with _ | _ | _ | _ | ⟨_ | _ | _ | _⟩ | _ | _ | _ | _ | _ <;>
    simp [Event.isError, Event.error]

theorem EndedByError.snoc {events : List Event} {written : List UInt8} {error : IoError}
    (h : EndedByError events written error) (event : Event) :
    EndedByError (events ++ [event]) written error := by
  obtain ⟨before, first, after, s, rfl, hrest⟩ := h
  exact ⟨before, first, after ++ [event], s, by simp, hrest⟩

/-- The writer got the first bytes. -/
theorem EndedByError.isPrefix {events : List Event} {written : List UInt8} {error : IoError}
    (h : EndedByError events written error) : written <+: putBytes events := by
  obtain ⟨before, event, after, s, rfl, -, -, hbytes, rfl⟩ := h
  refine List.IsPrefix.trans ?_ (List.prefix_append (putBytes before) (putBytes (event :: after)))
    |>.trans (by simp [putBytes])
  rw [hbytes, List.append_assoc]
  exact (List.prefix_append_right_inj _).mpr
    ((List.take_prefix _ _).trans (List.prefix_append _ _))

/-! ### What a run keeps -/

/-- **What holds at any time of a run**: there was no error, or one that has ended it. -/
inductive Course (events : List Event) (s : State) : Prop
  | calm (noError : events.filterMap Event.error = []) (sound : Sound events s)
      (effects : ∀ effects, s.pc = .ended effects → effects = endEffects none)
  | failed (error : IoError) (oneError : events.filterMap Event.error = [error])
      (place : s.pc = .ended (endEffects (some error)))
      (ended : EndedByError events s.written error)

/-- **After the end** the thread takes no event, and the others change nothing of what it did. -/
theorem step_of_ended {s s' : State} {effects : List Effect} (hpc : s.pc = .ended effects)
    {event : Event} (hstep : s.step event = some s') :
    event.ofThread = false ∧ s'.pc = s.pc ∧ s'.written = s.written := by
  cases event with
  | put bytes | signalExit | pass nanos =>
    obtain rfl := Option.some.inj hstep
    exact ⟨rfl, rfl, rfl⟩
  | _ =>
    rw [State.step, hpc] at hstep
    cases hstep

theorem noData_goes_on (s : State) (effects : List Effect) : s.noData.pc ≠ .ended effects := by
  rw [State.noData]
  split
  · split <;> exact Pc.noConfusion
  · exact Pc.noConfusion

/-- An event without an error that ends the thread. -/
theorem effects_of_step {s s' : State} {event : Event} (hcalm : event.error = none)
    (hstep : s.step event = some s')
    (h : ∀ effects, s.pc = .ended effects → effects = endEffects none) {effects : List Effect}
    (hpc : s'.pc = .ended effects) : effects = endEffects none := by
  cases event with
  | put bytes | signalExit | pass nanos =>
    obtain rfl := Option.some.inj hstep
    exact h effects hpc
  | load =>
    rw [State.step] at hstep
    split at hstep
    · obtain rfl := Option.some.inj hstep
      split at hpc
      · exact (Pc.ended.inj hpc).symm
      · cases hpc
    · cases hstep
  | read outcome =>
    rw [State.step] at hstep
    split at hstep
    · cases outcome with
      | data chunk =>
        obtain ⟨-, hs'⟩ := Option.ite_none_right_eq_some.mp hstep
        obtain rfl := Option.some.inj hs'
        cases hpc
      | zero | wouldBlock =>
        obtain ⟨-, hs'⟩ := Option.ite_none_right_eq_some.mp hstep
        obtain rfl := Option.some.inj hs'
        exact absurd hpc (noData_goes_on s effects)
      | failed error => cases hcalm
    · cases hstep
  | writeFailed taken error => cases hcalm
  | elapsed =>
    rw [State.step] at hstep
    split at hstep
    · obtain rfl := Option.some.inj hstep
      split at hpc
      · exact (Pc.ended.inj hpc).symm
      · cases hpc
    · cases hstep
  | wake =>
    rw [State.step] at hstep
    split at hstep
    · obtain ⟨-, hs'⟩ := Option.ite_none_right_eq_some.mp hstep
      obtain rfl := Option.some.inj hs'
      cases hpc
    · cases hstep
  | wrote | now =>
    rw [State.step] at hstep
    split at hstep
    · obtain rfl := Option.some.inj hstep
      cases hpc
    · cases hstep

/-- An event with an error ends the thread. -/
theorem Course.fail {events : List Event} {s s' : State} (hrun : run events = some s)
    (hnone : events.filterMap Event.error = []) (hsound : Sound events s) {event : Event}
    {error : IoError} (herror : event.error = some error) (hstep : s.step event = some s') :
    Course (events ++ [event]) s' := by
  have hone : (events ++ [event]).filterMap Event.error = [error] := by
    simp [hnone, herror]
  have hended : ∀ written, written = s.written ++ s.atHand.take event.taken →
      EndedByError (events ++ [event]) written error := fun written hwritten =>
    ⟨events, event, [], s, rfl, herror, hrun, hsound.bytes, hwritten⟩
  cases event with
  | read outcome =>
    cases outcome with
    | failed failure =>
      obtain rfl := Option.some.inj herror
      rw [State.step] at hstep
      split at hstep
      · obtain rfl := Option.some.inj hstep
        refine .failed failure hone rfl (hended _ ?_)
        simp [Event.taken, State.fail]
      · cases hstep
    | _ => cases herror
  | writeFailed taken failure =>
    obtain rfl := Option.some.inj herror
    rw [State.step] at hstep
    split at hstep
    · rename_i chunk hpc
      obtain rfl := Option.some.inj hstep
      refine .failed failure hone rfl (hended _ ?_)
      simp [Event.taken, State.fail, State.atHand, hpc]
    · cases hstep
  | _ => cases herror

theorem Course.step {events : List Event} {s s' : State} (hrun : run events = some s)
    (h : Course events s) {event : Event} (hstep : s.step event = some s') :
    Course (events ++ [event]) s' := by
  cases h with
  | calm hnone hsound heffects =>
    cases herror : event.error with
    | none =>
      refine .calm (by simp [hnone, herror]) ?_ fun effects => effects_of_step herror hstep heffects
      exact sound_step hsound (isError_eq_false_iff.mpr herror) hstep
    | some error => exact .fail hrun hnone hsound herror hstep
  | failed error hone hpc hended =>
    obtain ⟨hothers, hpc', hwritten⟩ := step_of_ended hpc hstep
    have herror : event.error = none := by
      cases event with
      | put bytes | signalExit | pass nanos => rfl
      | _ => cases hothers
    refine .failed error (by simp [hone, herror]) (hpc'.trans hpc) ?_
    rw [hwritten]
    exact hended.snoc event

/-- **Every run has a course.** -/
theorem course_of_run {events : List Event} {s : State} (hrun : run events = some s) :
    Course events s := by
  refine (Partial.invariant (I := fun events s => run events = some s ∧ Course events s)
    ⟨rfl, .calm rfl sound_nil (by rintro effects ⟨⟩)⟩ ?_ hrun).2
  intro events s event s' ⟨hbefore, hcourse⟩ hstep
  exact ⟨Partial.run_snoc_eq_some.mpr ⟨s, hbefore, hstep⟩, hcourse.step hbefore hstep⟩

/-- A run of a thread that has not ended can go on with the thread. -/
theorem run_goes_on {events : List Event} {s : State} (hrun : run events = some s)
    (h : s.hasEnded = false) : ∃ nanos event, event.ofThread = true ∧
      (run (events ++ [.pass nanos, event])).isSome = true := by
  obtain ⟨nanos, event, hthread, hsome⟩ := exists_step h
  refine ⟨nanos, event, hthread, ?_⟩
  rw [run, Partial.run_append, show Partial.run State.step {} events = some s from hrun]
  change ((State.step _ event).bind some).isSome = true
  rw [Option.bind_fun_some]
  exact hsome

end Capture

open Capture in
/-- **A capture ends once**, in every run. Until it ends it goes on, and nothing has failed; when it
has ended the thread does nothing more, the FIFO has been removed once, and one message was sent,
which carries the error if there was one. The writer got the first of the bytes that were put into
the FIFO, and none of them twice. -/
theorem capture_ends_once {events : List Event} {s : State} (hrun : run events = some s) :
    s.written <+: putBytes events ∧
    (s.hasEnded = false → events.filterMap Event.error = [] ∧
      ∃ nanos event, event.ofThread = true ∧
        (run (events ++ [.pass nanos, event])).isSome = true) ∧
    ∀ effects, s.pc = .ended effects → ∃ error, events.filterMap Event.error = error.toList ∧
      effects = endEffects error ∧ Ended events s.written error ∧
      ∀ event, event.ofThread = true → s.step event = none := by
  have hquiet : ∀ effects, s.pc = .ended effects → ∀ event, event.ofThread = true →
      s.step event = none := by
    intro effects hpc event hthread
    refine Option.eq_none_iff_forall_ne_some.mpr fun s' hstep => ?_
    exact absurd ((step_of_ended hpc hstep).1.symm.trans hthread) Bool.false_ne_true
  cases course_of_run hrun with
  | calm hnone hsound heffects =>
    refine ⟨?_, fun hended => ⟨hnone, run_goes_on hrun hended⟩, fun effects hpc => ?_⟩
    · rw [hsound.bytes, List.append_assoc]
      exact List.prefix_append _ _
    · have hplace := hsound.place
      rw [PlaceSound, hpc] at hplace
      exact ⟨none, hnone, heffects effects hpc, hplace, hquiet effects hpc⟩
  | failed error hone hpc hended =>
    refine ⟨hended.isPrefix, fun hnot => ?_, fun effects hpc' => ?_⟩
    · rw [State.hasEnded, hpc] at hnot
      cases hnot
    · obtain rfl := Pc.ended.inj (hpc'.symm.trans hpc)
      exact ⟨some error, hone, rfl, hended, hquiet _ hpc⟩

/-- `ENOSPC`. -/
def noSpace : IoError := ⟨.other 28, "No space left on device (os error 28)", some 28⟩

/-- A writer that takes one byte of two and fails. -/
def fullEvents : List Capture.Event :=
  [.put [72, 105], .load, .read (.data [72, 105]), .writeFailed 1 noSpace, .put [33]]

theorem capture_ends_once_full :
    (Capture.run fullEvents).map Capture.State.written = some [72] ∧
      [72] <+: Capture.putBytes fullEvents ∧
      Capture.Ended fullEvents [72] (some noSpace) := by
  have hrun : Capture.run fullEvents = some {
      fifo := [33]
      seenData := true
      written := [72]
      pc := .ended [.send (.error noSpace), .removeFile] } := rfl
  obtain ⟨hwritten, -, hend⟩ := capture_ends_once hrun
  obtain ⟨error, herror, -, hended, -⟩ := hend _ rfl
  obtain rfl : error = some noSpace := by
    cases error with
    | none => cases herror
    | some other =>
      obtain rfl := (List.cons.inj herror).1
      rfl
  exact ⟨rfl, hwritten, hended⟩

/-! ### After the exit event -/

namespace Capture

/-- How many steps the thread takes until it sees the exit event, at most. -/
def Pc.rank : Pc → ℕ
  | .check => 1
  | .reading => 5
  | .writing _ => 2
  | .starting => 4
  | .looking _ => 3
  | .sleeping _ => 2
  | .ended _ => 0

/-- The exit event stays set. -/
theorem exitEvent_of_step {s s' : State} {event : Event} (hstep : s.step event = some s') :
    s'.exitEvent = true ↔ s.exitEvent = true ∨ event = .signalExit := by
  by_cases hsignal : event = .signalExit
  · subst hsignal
    obtain rfl := Option.some.inj hstep
    simp
  have hnoData : s.noData.exitEvent = s.exitEvent := by
    rw [State.noData]
    split
    · split <;> rfl
    · rfl
  rw [or_iff_left hsignal]
  suffices hsame : s'.exitEvent = s.exitEvent by rw [hsame]
  cases event with
  | signalExit => exact absurd rfl hsignal
  | put bytes | pass nanos =>
    obtain rfl := Option.some.inj hstep
    rfl
  | load | elapsed =>
    rw [State.step] at hstep
    split at hstep
    · obtain rfl := Option.some.inj hstep
      split <;> rfl
    · cases hstep
  | read outcome =>
    rw [State.step] at hstep
    split at hstep
    · cases outcome with
      | data chunk =>
        obtain ⟨-, hs'⟩ := Option.ite_none_right_eq_some.mp hstep
        obtain rfl := Option.some.inj hs'
        rfl
      | zero | wouldBlock =>
        obtain ⟨-, hs'⟩ := Option.ite_none_right_eq_some.mp hstep
        obtain rfl := Option.some.inj hs'
        exact hnoData
      | failed error =>
        obtain rfl := Option.some.inj hstep
        rfl
    · cases hstep
  | wake =>
    rw [State.step] at hstep
    split at hstep
    · obtain ⟨-, hs'⟩ := Option.ite_none_right_eq_some.mp hstep
      obtain rfl := Option.some.inj hs'
      rfl
    · cases hstep
  | wrote | writeFailed taken error | now =>
    rw [State.step] at hstep
    split at hstep
    · obtain rfl := Option.some.inj hstep
      rfl
    · cases hstep

theorem exitEvent_of_run {events : List Event} {s : State} (hrun : run events = some s)
    (h : .signalExit ∈ events) : s.exitEvent = true := by
  refine Partial.invariant (I := fun events s => .signalExit ∈ events → s.exitEvent = true)
    (fun hnil => absurd hnil List.not_mem_nil) ?_ hrun h
  intro events s event s' ih hstep hmem
  refine (exitEvent_of_step hstep).mpr ?_
  rcases List.mem_append.mp hmem with hmem | hmem
  · exact .inl (ih hmem)
  · exact .inr (List.mem_singleton.mp hmem).symm

theorem rank_noData (s : State) : s.noData.pc.rank < 5 := by
  rw [State.noData]
  split
  · split <;> simp [Pc.rank]
  · simp [Pc.rank]

/-- **A step of the thread takes it nearer to its end**, when the exit event is set. -/
theorem rank_step {s s' : State} {event : Event} (hexit : s.exitEvent = true)
    (hstep : s.step event = some s') :
    s'.pc.rank + (if event.ofThread then 1 else 0) ≤ s.pc.rank := by
  cases event with
  | put bytes | signalExit | pass nanos =>
    obtain rfl := Option.some.inj hstep
    exact le_rfl
  | load =>
    rw [State.step] at hstep
    split at hstep
    · rename_i hpc
      rw [if_pos hexit] at hstep
      obtain rfl := Option.some.inj hstep
      rw [hpc]
      exact le_rfl
    · cases hstep
  | read outcome =>
    rw [State.step] at hstep
    split at hstep
    · rename_i hpc
      rw [hpc]
      cases outcome with
      | data chunk =>
        obtain ⟨-, hs'⟩ := Option.ite_none_right_eq_some.mp hstep
        obtain rfl := Option.some.inj hs'
        simp [Pc.rank, Event.ofThread]
      | zero | wouldBlock =>
        obtain ⟨-, hs'⟩ := Option.ite_none_right_eq_some.mp hstep
        obtain rfl := Option.some.inj hs'
        exact rank_noData s
      | failed error =>
        obtain rfl := Option.some.inj hstep
        simp [Pc.rank, Event.ofThread, State.fail]
    · cases hstep
  | wrote =>
    rw [State.step] at hstep
    split at hstep
    · rename_i chunk hpc
      obtain rfl := Option.some.inj hstep
      rw [hpc]
      exact le_rfl
    · cases hstep
  | writeFailed taken error =>
    rw [State.step] at hstep
    split at hstep
    · rename_i chunk hpc
      obtain rfl := Option.some.inj hstep
      rw [hpc]
      exact Nat.le_succ 1
    · cases hstep
  | now =>
    rw [State.step] at hstep
    split at hstep
    · rename_i hpc
      obtain rfl := Option.some.inj hstep
      rw [hpc]
      exact le_rfl
    · cases hstep
  | elapsed =>
    rw [State.step] at hstep
    split at hstep
    · rename_i idleStart hpc
      obtain rfl := Option.some.inj hstep
      rw [hpc]
      split
      · simp [Pc.rank, Event.ofThread, State.finish]
      · exact le_rfl
    · cases hstep
  | wake =>
    rw [State.step] at hstep
    split at hstep
    · rename_i since hpc
      obtain ⟨-, hs'⟩ := Option.ite_none_right_eq_some.mp hstep
      obtain rfl := Option.some.inj hs'
      rw [hpc]
      exact le_rfl
    · cases hstep

theorem rank_le_five (pc : Pc) : pc.rank ≤ 5 := by
  cases pc <;> simp [Pc.rank]

theorem hasEnded_of_rank {s : State} (h : s.pc.rank = 0) : s.hasEnded = true := by
  rw [State.hasEnded]
  cases hpc : s.pc <;> simp [hpc, Pc.rank] at h ⊢

end Capture

open Capture in
/-- **A capture stops soon after the exit event**: from then on the thread takes at most five steps,
and after five it has ended. -/
theorem capture_stops {before after : List Capture.Event} {s : State}
    (hrun : run (before ++ after) = some s) (hexit : .signalExit ∈ before) :
    (after.filter Event.ofThread).length ≤ 5 ∧
      ((after.filter Event.ofThread).length = 5 → s.hasEnded = true) := by
  have hrank : (after.filter Event.ofThread).length + s.pc.rank ≤ 5 := by
    induction after using List.reverseRecOn generalizing s with
    | nil => exact (Nat.zero_add _).le.trans (rank_le_five s.pc)
    | append_singleton after event ih =>
      rw [← List.append_assoc] at hrun
      obtain ⟨s₁, hbefore, hstep⟩ := Partial.run_snoc_eq_some.mp hrun
      have hset := exitEvent_of_run hbefore (List.mem_append_left _ hexit)
      have hstep' := rank_step hset hstep
      have hih := ih hbefore
      rw [List.filter_append, List.length_append]
      have hlast : ([event].filter Event.ofThread).length = if event.ofThread then 1 else 0 := by
        cases hthread : event.ofThread <;> simp [hthread]
      omega
  refine ⟨by omega, fun hfive => hasEnded_of_rank ?_⟩
  omega

/-- The thread is about to read when the exit event is set. -/
def stoppedEvents : List Capture.Event :=
  [.read (.data [72]), .put [73], .wrote, .load]

theorem capture_stops_reading :
    (Capture.run ([.put [72], .load, .signalExit] ++ stoppedEvents)).map
        Capture.State.hasEnded = some true ∧
      (stoppedEvents.filter Capture.Event.ofThread).length ≤ 5 := by
  have hrun : Capture.run ([.put [72], .load, .signalExit] ++ stoppedEvents) = some {
      fifo := [73]
      exitEvent := true
      seenData := true
      written := [72]
      pc := .ended [.removeFile, .send (.ok ())] } := rfl
  refine ⟨by rw [hrun]; rfl, (capture_stops hrun ?_).1⟩
  simp

end FirecrackerSdk

import FirecrackerSdk.Error
import FirecrackerSdk.Lib.Polling
import FirecrackerSdk.Models

/-!
# Waiting for the VMM

`wait_for_alive_vmm` of `utils.rs` asks a client for the configuration of the machine every ten
milliseconds until it gets one. The client is any (`dyn ClientOps`), and what a question comes to,
and how long it and the sleep after it last, is any function of the time at which they begin
(`FirecrackerSdk.VmmTiming`); times are in nanoseconds. The only thing that is known is that a
sleep is not cut short.

The timeout is looked at between the questions. So a question that is asked in time may be answered
after it (`FirecrackerSdk.waitForAliveVmm_eq`), and a VMM is found for certain only if it is up
before the timeout by as much as one question and one sleep can last
(`FirecrackerSdk.waitForAliveVmm_finds`).
-/

namespace FirecrackerSdk

/-- `DEFAULT_ALIVE_VMM_CHECK_DUR`. -/
def defaultAliveVmmCheckDur : ℕ := 10 * 10 ^ 6

/-- **What happens to questions and sleeps**, by the time at which they begin. -/
structure VmmTiming where
  getMachineConfiguration : ℕ → Except Error MachineConfiguration
  lasts : ℕ → ℕ
  /-- By how much a sleep is longer than it should be. -/
  oversleeps : ℕ → ℕ

namespace VmmTiming

variable (vmm : VmmTiming)

/-- The questions as they are asked: of a refusal its text is kept. -/
def polling : Polling String MachineConfiguration where
  answer t := (vmm.getMachineConfiguration t).mapError Error.display
  lasts := vmm.lasts
  pause t := defaultAliveVmmCheckDur + vmm.oversleeps t
  pause_pos _ := Nat.lt_of_lt_of_le (by decide) (Nat.le_add_right _ _)

/-- When the question of this number is asked, if all before it are refused. -/
def asked : ℕ → ℕ := vmm.polling.asked

/-- The text of the error before a question. -/
def lastError : ℕ → Option String
  | 0 => none
  | i + 1 =>
    match vmm.getMachineConfiguration (vmm.asked i) with
    | .ok _ => none
    | .error error => some error.display

end VmmTiming

/-- The error of `wait_for_alive_vmm`. -/
def vmmNotReachable (lastError : Option String) : Error :=
  .process ("timed out while waiting for the Firecracker VMM to become reachable" ++
    (lastError.map fun error => "; last error: " ++ error).getD "")

/-- `wait_for_alive_vmm`: what it returns, and when. -/
def waitForAliveVmm (vmm : VmmTiming) (timeout : ℕ) : Except Error Unit × ℕ :=
  match vmm.polling.run timeout 0 none with
  | (.ok _, time) => (.ok (), time)
  | (.error lastError, time) => (.error (vmmNotReachable lastError), time)

namespace VmmTiming

variable {vmm : VmmTiming}

theorem answer_eq_ok {t : ℕ} {config : MachineConfiguration} :
    vmm.polling.answer t = .ok config ↔ vmm.getMachineConfiguration t = .ok config := by
  cases h : vmm.getMachineConfiguration t <;> simp [polling, h, Except.mapError]

theorem answer_eq_error {t : ℕ} {text : String} :
    vmm.polling.answer t = .error text ↔
      ∃ error, vmm.getMachineConfiguration t = .error error ∧ error.display = text := by
  cases h : vmm.getMachineConfiguration t <;> simp [polling, h, Except.mapError]

theorem lastError_eq (i : ℕ) : vmm.lastError i = vmm.polling.lastRefusal i := by
  cases i with
  | zero => rfl
  | succ i =>
    have hasked : vmm.polling.asked i = vmm.asked i := rfl
    rw [lastError, Polling.lastRefusal, hasked]
    cases h : vmm.getMachineConfiguration (vmm.asked i) <;> simp [polling, h, Except.mapError]

/-- The wait succeeds exactly if the questions come to an answer. -/
theorem fst_eq_ok {timeout : ℕ} : (waitForAliveVmm vmm timeout).1 = .ok () ↔
    ∃ config time, vmm.polling.run timeout 0 none = (.ok config, time) := by
  rw [waitForAliveVmm]
  rcases vmm.polling.run timeout 0 none with ⟨lastError | config, time⟩ <;> simp

/-- It takes as long as the questions. -/
theorem snd_eq {timeout : ℕ} :
    (waitForAliveVmm vmm timeout).2 = (vmm.polling.run timeout 0 none).2 := by
  rw [waitForAliveVmm]
  rcases vmm.polling.run timeout 0 none with ⟨lastError | config, time⟩ <;> rfl

end VmmTiming

/-- What a client says that finds no socket. -/
def noSocket : Error :=
  .io { kind := .notFound, text := "No such file or directory (os error 2)", rawOsError := some 2 }

/-- A VMM that is up right after the first question, which lasts as long as the others. -/
def lateVmm (longest overslept : ℕ) : VmmTiming where
  getMachineConfiguration s := if s < 1 then .error noSocket else .ok {}
  lasts _ := longest
  oversleeps _ := overslept

/-- **How the wait ends.** It succeeds exactly if some question is asked before the timeout and
answered; the first such ends it, however late the answer comes. Otherwise it ends with the first
time to ask that is not before the timeout, and reports the error of the question before, if there
was one. The questions are ten milliseconds apart or more. -/
theorem waitForAliveVmm_eq (vmm : VmmTiming) (timeout : ℕ) :
    ((waitForAliveVmm vmm timeout).1 = .ok () ↔
      ∃ i config, vmm.asked i < timeout ∧
        vmm.getMachineConfiguration (vmm.asked i) = .ok config) ∧
    ∃ i,
      (∀ j < i, vmm.asked j + defaultAliveVmmCheckDur ≤ vmm.asked (j + 1) ∧
        vmm.asked j < timeout ∧
        ∃ error, vmm.getMachineConfiguration (vmm.asked j) = .error error) ∧
      ((∃ config, vmm.asked i < timeout ∧
          vmm.getMachineConfiguration (vmm.asked i) = .ok config ∧
          waitForAliveVmm vmm timeout = (.ok (), vmm.asked i + vmm.lasts (vmm.asked i))) ∨
        (timeout ≤ vmm.asked i ∧ waitForAliveVmm vmm timeout =
          (.error (vmmNotReachable (vmm.lastError i)), vmm.asked i))) := by
  constructor
  · rw [VmmTiming.fst_eq_ok, Polling.run_ok_iff]
    simp only [VmmTiming.answer_eq_ok]
    rfl
  · obtain ⟨i, hreaches, hend⟩ := vmm.polling.run_cases timeout
    refine ⟨i, fun j hj => ?_, ?_⟩
    · obtain ⟨hnow, text, hrefused⟩ := hreaches j hj
      obtain ⟨error, herror, -⟩ := VmmTiming.answer_eq_error.mp hrefused
      exact ⟨Polling.asked_add_le (fun _ => Nat.le_add_right _ _) j, hnow, error, herror⟩
    · rcases hend with ⟨config, hnow, hanswer, hrun⟩ | ⟨hlate, hrun⟩
      · refine .inl ⟨config, hnow, VmmTiming.answer_eq_ok.mp hanswer, ?_⟩
        rw [waitForAliveVmm, hrun]
        rfl
      · refine .inr ⟨hlate, ?_⟩
        rw [waitForAliveVmm, hrun, VmmTiming.lastError_eq]
        rfl

/-- **A VMM that is up early enough is found.** If every question and every sleep lasts at most so
long, the wait is over before the timeout and one of each; and if the VMM is up from some time on,
and the timeout leaves one of each after it, it succeeds. That is the least that has to be left: a
VMM that is up a nanosecond later can be missed. -/
theorem waitForAliveVmm_finds (longest overslept : ℕ) :
    (∀ (vmm : VmmTiming), (∀ s, vmm.lasts s ≤ longest) → (∀ s, vmm.oversleeps s ≤ overslept) →
      ∀ timeout,
        (waitForAliveVmm vmm timeout).2 <
          timeout + longest + (defaultAliveVmmCheckDur + overslept) ∧
        ∀ up, (∀ s, up ≤ s → ∃ config, vmm.getMachineConfiguration s = .ok config) →
          up + longest + (defaultAliveVmmCheckDur + overslept) ≤ timeout →
          (waitForAliveVmm vmm timeout).1 = .ok () ∧
            (waitForAliveVmm vmm timeout).2 <
              up + longest + (defaultAliveVmmCheckDur + overslept) + longest) ∧
    ∃ (vmm : VmmTiming) (up timeout : ℕ),
      (∀ s, vmm.lasts s ≤ longest) ∧ (∀ s, vmm.oversleeps s ≤ overslept) ∧
      (∀ s, up ≤ s → ∃ config, vmm.getMachineConfiguration s = .ok config) ∧
      up + longest + (defaultAliveVmmCheckDur + overslept) = timeout + 1 ∧
      (waitForAliveVmm vmm timeout).1 ≠ .ok () := by
  constructor
  · intro vmm hlasts hoversleeps timeout
    have hpause : ∀ s, vmm.polling.pause s ≤ defaultAliveVmmCheckDur + overslept :=
      fun s => Nat.add_le_add_left (hoversleeps s) _
    refine ⟨?_, fun up hup hfit => ?_⟩
    · rw [VmmTiming.snd_eq]
      exact Polling.run_time hlasts hpause
    · have hanswers : ∀ s, up ≤ s → ∃ config, vmm.polling.answer s = .ok config := by
        intro s hs
        obtain ⟨config, hconfig⟩ := hup s hs
        exact ⟨config, VmmTiming.answer_eq_ok.mpr hconfig⟩
      obtain ⟨config, i, hrun, hsoon⟩ := Polling.run_of_up hanswers hlasts hpause hfit
      have hlast : vmm.polling.lasts (vmm.polling.asked i) ≤ longest := hlasts _
      rw [VmmTiming.fst_eq_ok, VmmTiming.snd_eq, hrun]
      exact ⟨⟨config, _, rfl⟩, Nat.add_lt_add_of_lt_of_le hsoon hlast⟩
  · -- it is asked once, too early, and then the time is over
    refine ⟨lateVmm longest overslept, 1, longest + (defaultAliveVmmCheckDur + overslept),
      fun _ => le_rfl, fun _ => le_rfl, fun s hs => ⟨{}, if_neg (by omega)⟩, by omega, ?_⟩
    have hpos : 0 < longest + (defaultAliveVmmCheckDur + overslept) :=
      Nat.add_pos_right _ (Nat.add_pos_left (by decide) _)
    have hrefused : (lateVmm longest overslept).polling.answer 0 =
        .error noSocket.display := rfl
    have hnext : (lateVmm longest overslept).polling.next 0 =
        longest + (defaultAliveVmmCheckDur + overslept) :=
      congrArg (· + (defaultAliveVmmCheckDur + overslept)) (Nat.zero_add longest)
    rw [Ne, VmmTiming.fst_eq_ok, Polling.run_of_refused hpos hrefused, hnext,
      Polling.run_of_late le_rfl]
    rintro ⟨config, time, h⟩
    cases h

end FirecrackerSdk

import FirecrackerSdk.Machine.Patience
import FirecrackerSdk.Vsock.Retrying

/-!
# Deadlines that fit

Four operations add a timeout to the clock before their first attempt: `wait_for_vmm_ready` below
`start_vmm`, `wait_for_socket`, `dial_with_config` and `accept_with_retry`. An `Instant` counts
seconds in 64 bits with a sign, and the addition panics where the sum does not fit.

The timeout of `start_vmm` comes from a variable of the environment, through
`env_value_or_default_int` and the cast `as u64`. A value of zero is filtered out, a negative one is
not, and the cast makes it the greatest timeout there is: the VMM has been spawned, and the start
panics. Positive values and the default are what the variable means, and fit.

`FirecrackerSdk.deadlines_fit_iff` says for each of them when it does not panic.
-/

namespace FirecrackerSdk

open Prog

/-! ### The timeout of a start -/

/-- **The variable spells a number**: it holds the digits of an `i32`, and a sign perhaps. -/
def Spells (value : Option String) (n : ℤ) : Prop :=
  ∃ text, value = some text ∧ Text.parseSigned (2 ^ 31 - 1) text.toList = some n

/-- **The timeout that is meant**, in seconds: the positive number that the variable spells, or the
default if it spells none. -/
def MeantTimeout (value : Option String) (secs : ℕ) : Prop :=
  0 < secs ∧ Spells value secs ∨
    (∀ n, Spells value n → n ≤ 0) ∧ (secs : ℤ) = defaultFirecrackerInitTimeoutSeconds

/-- The variable spells a negative number. -/
def SpellsNegative (value : Option String) : Prop := ∃ n, Spells value n ∧ n < 0

theorem Spells.unique {value : Option String} {m n : ℤ} (hm : Spells value m)
    (hn : Spells value n) : m = n := by
  obtain ⟨text, rfl, hm⟩ := hm
  obtain ⟨text', htext, hn⟩ := hn
  obtain rfl := Option.some.inj htext
  exact Option.some.inj (hm.symm.trans hn)

/-- What is spelled is an `i32`. -/
theorem Spells.mem {value : Option String} {n : ℤ} (h : Spells value n) :
    -2 ^ 31 ≤ n ∧ n < 2 ^ 31 := by
  obtain ⟨text, -, hparse⟩ := h
  have hrange := Text.parseSigned_mem hparse
  omega

theorem MeantTimeout.unique {value : Option String} {m n : ℕ} (hm : MeantTimeout value m)
    (hn : MeantTimeout value n) : m = n := by
  rcases hm with ⟨hpos, hspells⟩ | ⟨hnone, hm⟩ <;> rcases hn with ⟨hpos', hspells'⟩ | ⟨hnone', hn⟩
  · exact_mod_cast hspells.unique hspells'
  · have := hnone' _ hspells
    omega
  · have := hnone _ hspells'
    omega
  · omega

namespace Machine

/-- The number that the variable spells is used, unless it is zero. -/
theorem initTimeoutSecs_of_spells {value : Option String} {n : ℤ} (h : Spells value n)
    (hn : n ≠ 0) : (initTimeoutSecs value : ℤ) = n % 2 ^ 64 := by
  obtain ⟨text, rfl, hparse⟩ := h
  have hvalue : envValueOrDefaultInt (some text) defaultFirecrackerInitTimeoutSeconds = n := by
    rw [envValueOrDefaultInt, Option.bind_some, hparse]
    exact if_pos hn
  rw [initTimeoutSecs, hvalue, asU64]
  omega

/-- Anything else gives the default. -/
theorem initTimeoutSecs_of_not_spells {value : Option String} (h : ∀ n, Spells value n → n = 0) :
    initTimeoutSecs value = 3 := by
  have hvalue : envValueOrDefaultInt value defaultFirecrackerInitTimeoutSeconds =
      defaultFirecrackerInitTimeoutSeconds := by
    rw [envValueOrDefaultInt]
    cases value with
    | none => rfl
    | some text =>
      rw [Option.bind_some]
      cases hparse : Text.parseSigned (2 ^ 31 - 1) text.toList with
      | none => rfl
      | some n =>
        obtain rfl := h n ⟨text, rfl, hparse⟩
        rfl
  rw [initTimeoutSecs, hvalue]
  rfl

/-- **A negative number becomes a timeout that fits nowhere.** -/
theorem initTimeoutSecs_of_negative {value : Option String} (h : SpellsNegative value) :
    2 ^ 63 ≤ initTimeoutSecs value := by
  obtain ⟨n, hspells, hneg⟩ := h
  have hused := initTimeoutSecs_of_spells hspells (by omega)
  have hrange := hspells.mem
  omega

/-- Any other value gives the timeout that is meant. -/
theorem initTimeoutSecs_meant {value : Option String} (h : ¬SpellsNegative value) :
    MeantTimeout value (initTimeoutSecs value) := by
  by_cases hpositive : ∃ n, Spells value n ∧ 0 < n
  · obtain ⟨n, hspells, hpos⟩ := hpositive
    have hused := initTimeoutSecs_of_spells hspells (by omega)
    have hrange := hspells.mem
    have hsame : (initTimeoutSecs value : ℤ) = n := by omega
    refine .inl ⟨by omega, ?_⟩
    rw [hsame]
    exact hspells
  · have hnone : ∀ n, Spells value n → n ≤ 0 :=
      fun n hn => not_lt.mp fun hpos => hpositive ⟨n, hn, hpos⟩
    have hzero : ∀ n, Spells value n → n = 0 := fun n hn =>
      le_antisymm (hnone n hn) (not_lt.mp fun hneg => h ⟨n, hn, hneg⟩)
    refine .inr ⟨hnone, ?_⟩
    rw [initTimeoutSecs_of_not_spells hzero]
    rfl

/-- **The timeout that is used is the one that is meant**, unless the variable spells a negative
number. -/
theorem initTimeoutSecs_meant_iff (value : Option String) :
    MeantTimeout value (initTimeoutSecs value) ↔ ¬SpellsNegative value := by
  refine ⟨fun hmeant hnegative => ?_, initTimeoutSecs_meant⟩
  have hlarge := initTimeoutSecs_of_negative hnegative
  rcases hmeant with ⟨-, hspells⟩ | ⟨-, hdefault⟩
  · have hrange := hspells.mem
    omega
  · rw [defaultFirecrackerInitTimeoutSeconds] at hdefault
    omega

/-! ### Waiting for the socket -/

section WaitForSocket

variable {W : Type} (env : Env W)

/-- What `wait_for_socket` reports when the deadline passes. -/
def socketTimedOut : Error :=
  .io { kind := .timedOut
        text := "deadline exceeded while waiting for firecracker socket" }

/-- One round of the loop, with what the channel holds and a deadline in nanoseconds. -/
def pollExitchan (received : Option Error) (deadline : ℕ) : Op W Bool :=
  match received with
  | some error => Prog.fail error
  | none => pollReachable env socketTimedOut fun time => deadline ≤ time * 10 ^ 6

/-- The loop of `wait_for_socket`, for at most so many rounds. -/
def waitForSocketFrom (exitchan : ℕ → Option Error) (deadline : ℕ) : ℕ → ℕ → Op W Unit
  | 0, _ => Prog.fail socketTimedOut
  | rounds + 1, i => do
    if ← pollExitchan env (exitchan i) deadline then pure ()
    else waitForSocketFrom exitchan deadline rounds (i + 1)

/-- `Machine::wait_for_socket`, with the timeout in nanoseconds and what each `try_recv` gets. Each
round but the last sleeps for ten milliseconds, so the deadline passes before the rounds run out
(`FirecrackerSdk.Machine.waitForSocketFrom_enough`). -/
def waitForSocket (exitchan : ℕ → Option Error) (timeout : ℕ) : Op W Unit := do
  match Vsock.addDuration ((← Op.now env) * 10 ^ 6) timeout with
  | some deadline => waitForSocketFrom env exitchan deadline (timeout / 10 ^ 7 + 2) 0
  | none => Prog.drop

/-- A round that goes on to the next one has found the deadline ahead, and has slept. -/
theorem pollExitchan_clock {received : Option Error} {deadline : ℕ} {s s' : Sys W}
    (h : pollExitchan env received deadline s = (.ok false, s')) :
    s.clock * 10 ^ 6 < deadline ∧ s.clock + 10 ≤ s'.clock := by
  cases received with
  | some error => cases h
  | none =>
    rw [pollExitchan] at h
    obtain ⟨t, hle, hearly, hslept⟩ := pollReachable_clock env h
    omega

/-- **The rounds never run out**: once there are enough of them for the deadline to pass, one
more makes no difference. -/
theorem waitForSocketFrom_succ {exitchan : ℕ → Option Error} {deadline rounds i : ℕ} {s : Sys W}
    (h : deadline ≤ (s.clock + 10 * rounds) * 10 ^ 6) :
    waitForSocketFrom env exitchan deadline (rounds + 2) i s =
      waitForSocketFrom env exitchan deadline (rounds + 1) i s := by
  induction rounds generalizing i s with
  | zero =>
    refine bind_congr_of_ok fun reachable s₁ hpoll => ?_
    cases reachable with
    | true => rfl
    | false =>
      have := pollExitchan_clock env hpoll
      omega
  | succ rounds ih =>
    refine bind_congr_of_ok fun reachable s₁ hpoll => ?_
    cases reachable with
    | true => rfl
    | false =>
      obtain ⟨-, hslept⟩ := pollExitchan_clock env hpoll
      exact ih (h.trans (Nat.mul_le_mul_right _ (by omega)))

/-- The rounds of `wait_for_socket` are enough: more of them make no difference. -/
theorem waitForSocketFrom_enough {exitchan : ℕ → Option Error} {deadline timeout i : ℕ} {s : Sys W}
    (h : deadline ≤ s.clock * 10 ^ 6 + timeout) (more : ℕ) :
    waitForSocketFrom env exitchan deadline (timeout / 10 ^ 7 + 2 + more) i s =
      waitForSocketFrom env exitchan deadline (timeout / 10 ^ 7 + 2) i s := by
  induction more with
  | zero => rfl
  | succ more ih =>
    have hrounds : timeout ≤ 10 ^ 7 * (timeout / 10 ^ 7 + 1 + more) :=
      (Nat.lt_mul_div_succ timeout (by decide)).le.trans (Nat.mul_le_mul_left _ (by omega))
    have hdeadline : deadline ≤ (s.clock + 10 * (timeout / 10 ^ 7 + 1 + more)) * 10 ^ 6 := by
      rw [Nat.add_mul, Nat.mul_right_comm]
      exact h.trans (Nat.add_le_add_left hrounds _)
    rw [← ih]
    have hsucc := @waitForSocketFrom_succ W env exitchan deadline _ i s hdeadline
    rwa [show timeout / 10 ^ 7 + 1 + more + 2 = timeout / 10 ^ 7 + 2 + (more + 1) by omega,
      show timeout / 10 ^ 7 + 1 + more + 1 = timeout / 10 ^ 7 + 2 + more by omega] at hsucc

theorem returns_waitForSocketFrom (exitchan : ℕ → Option Error) (deadline rounds i : ℕ) :
    Returns (waitForSocketFrom env.patient exitchan deadline rounds i) := by
  induction rounds generalizing i with
  | zero => exact returns_fail _
  | succ rounds ih =>
    refine returns_bind ?_ fun _ => returns_ite (returns_pure _) (ih _)
    cases exitchan i with
    | some error => exact returns_fail _
    | none => exact returns_pollReachable env _ _

/-- **Waiting for the socket panics exactly if its deadline does not fit an `Instant`.** -/
theorem waitForSocket_dropped_iff (exitchan : ℕ → Option Error) (timeout : ℕ) (s : Sys W) :
    (waitForSocket env.patient exitchan timeout s).1 = .dropped ↔
      ¬Op.instant env s * 10 ^ 6 + timeout < Vsock.instantLimit := by
  rw [waitForSocket, bind_of_ok (Op.now_patient env s), Vsock.addDuration]
  by_cases hfits : Op.instant env s * 10 ^ 6 + timeout < Vsock.instantLimit
  · rw [if_pos hfits]
    exact iff_of_false (returns_waitForSocketFrom env _ _ _ _ _) (not_not.mpr hfits)
  · rw [if_neg hfits]
    exact iff_of_true rfl hfits

end WaitForSocket

end Machine

/-! ### Dialing and accepting -/

namespace Vsock

variable {α : Type}

/-- **Accepting panics exactly if its deadline does not fit an `Instant`.** -/
theorem acceptWithRetry_panicked_iff (clock : ℕ → ℕ) (acceptOnce : ℕ → Except NetError α)
    (config : DialConfig) :
    (∃ fuel, acceptWithRetry clock acceptOnce config fuel = some .panicked) ↔
      ¬clock 0 + config.retryTimeout < instantLimit := by
  unfold acceptWithRetry addDuration
  by_cases hfits : clock 0 + config.retryTimeout < instantLimit
  · rw [if_pos hfits]
    refine iff_of_false ?_ (not_not.mpr hfits)
    rintro ⟨fuel, hrun⟩
    dsimp only at hrun
    rw [acceptLoop_eq] at hrun
    obtain ⟨last, -, hlast⟩ := Option.map_eq_some_iff.mp hrun
    cases hlast
  · rw [if_neg hfits]
    exact iff_of_true ⟨0, rfl⟩ hfits

theorem dialWithConfig_panicked_iff (clock : ℕ → ℕ) (peers : ℕ → Peer) (port : ℕ)
    (config : DialConfig) :
    (∃ fuel, dialWithConfig clock peers port config fuel = some .panicked) ↔
      ¬clock 0 + config.retryTimeout < instantLimit := by
  simp only [dialWithConfig_eq, acceptWithRetry_panicked_iff]

end Vsock

/-! ### When no deadline panics -/

section Fit

variable {W α : Type}

/-- **The deadline of a start fits**: where it comes to be fixed, the variable spells no negative
number, and the clock has room for the timeout that is meant. -/
def StartFits (env : Env W) (s : Sys W) : Prop :=
  ∀ value s₁, Machine.beforeWait env.patient s = (.ok value, s₁) → ¬SpellsNegative value ∧
    ∀ secs, MeantTimeout value secs → Op.instant env s₁ / 1000 + secs < 2 ^ 63

/-- The timeout that is used fits exactly if it is the one that is meant, and that one fits. -/
theorem initTimeoutSecs_fits_iff (value : Option String) (now : ℕ) :
    now + Machine.initTimeoutSecs value < 2 ^ 63 ↔
      ¬SpellsNegative value ∧ ∀ secs, MeantTimeout value secs → now + secs < 2 ^ 63 := by
  constructor
  · intro hfits
    have hnot : ¬SpellsNegative value := fun hnegative => by
      have hlarge := Machine.initTimeoutSecs_of_negative hnegative
      omega
    refine ⟨hnot, fun secs hmeant => ?_⟩
    rwa [hmeant.unique (Machine.initTimeoutSecs_meant hnot)]
  · rintro ⟨hnot, hfits⟩
    exact hfits _ (Machine.initTimeoutSecs_meant hnot)

theorem startVmm_returns_iff (env : Env W) (s : Sys W) :
    (Machine.startVmm env.patient s).1 ≠ .dropped ↔ StartFits env s := by
  rw [ne_eq, Machine.startVmm_dropped_iff]
  constructor
  · intro hfits value s₁ hrun
    rw [← initTimeoutSecs_fits_iff]
    by_contra hlarge
    exact hfits ⟨value, s₁, hrun, hlarge⟩
  · rintro hfits ⟨value, s₁, hrun, hlarge⟩
    exact hlarge ((initTimeoutSecs_fits_iff value _).mpr (hfits value s₁ hrun))

/-- **When the deadlines fit.** For every content of the variable, every world and state, every
clock and every timeout: the timeout that a start uses is the one that is meant unless the variable
spells a negative number; a start that is not dropped returns exactly if its deadline fits an
`Instant`; and so do `wait_for_socket`, `dial_with_config` and `accept_with_retry`. -/
theorem deadlines_fit_iff (value : Option String) (env : Env W) (s : Sys W)
    (exitchan : ℕ → Option Error) (timeout : ℕ) (clock : ℕ → ℕ) (peers : ℕ → Vsock.Peer)
    (port : ℕ) (config : Vsock.DialConfig) (acceptOnce : ℕ → Except Vsock.NetError α) :
    (MeantTimeout value (Machine.initTimeoutSecs value) ↔ ¬SpellsNegative value) ∧
      ((Machine.startVmm env.patient s).1 ≠ .dropped ↔ StartFits env s) ∧
      ((Machine.waitForSocket env.patient exitchan timeout s).1 ≠ .dropped ↔
        Op.instant env s * 10 ^ 6 + timeout < Vsock.instantLimit) ∧
      ((∀ fuel, Vsock.dialWithConfig clock peers port config fuel ≠ some .panicked) ↔
        clock 0 + config.retryTimeout < Vsock.instantLimit) ∧
      ((∀ fuel, Vsock.acceptWithRetry clock acceptOnce config fuel ≠ some .panicked) ↔
        clock 0 + config.retryTimeout < Vsock.instantLimit) := by
  refine ⟨Machine.initTimeoutSecs_meant_iff value, startVmm_returns_iff env s, ?_, ?_, ?_⟩
  · rw [ne_eq, Machine.waitForSocket_dropped_iff, not_not]
  · have hpanics := Vsock.dialWithConfig_panicked_iff clock peers port config
    rw [← not_exists, hpanics, not_not]
  · have hpanics := Vsock.acceptWithRetry_panicked_iff clock acceptOnce config
    rw [← not_exists, hpanics, not_not]

end Fit

/-- A world in which nothing goes wrong, and in which the variable spells a negative number. -/
def negativeTimeout : Env Unit := .answering fun
  | .envVar _ => some "-1"
  | query => query.smooth

/-- **A negative timeout panics, and leaves a VMM running**; so does the greatest `Duration` in the
other three, without one. -/
theorem negative_timeout_panics :
    (Machine.startVmm negativeTimeout.patient sampleMachine).1 = .dropped ∧
      (Machine.startVmm negativeTimeout.patient sampleMachine).2.procs = [{ pid := 4242 }] ∧
      Machine.initTimeoutSecs (some "-1") = 2 ^ 64 - 1 ∧
      (Machine.waitForSocket negativeTimeout.patient (fun _ => none) Vsock.maxDuration
        sampleMachine).1 = .dropped ∧
      (∀ peers port fuel, Vsock.dialWithConfig (fun _ => 0) peers port
        { retryTimeout := Vsock.maxDuration } fuel = some .panicked) ∧
      ∀ fuel, Vsock.acceptWithRetry (fun _ => 0) (fun _ => .ok ())
        { retryTimeout := Vsock.maxDuration } fuel = some .panicked := by
  have hoverflow : Vsock.addDuration 0 Vsock.maxDuration = none := if_neg (by decide)
  refine ⟨by decide +kernel, by decide +kernel, by decide +kernel, by decide +kernel, ?_, ?_⟩
  · intro peers port fuel
    rw [Vsock.dialWithConfig, hoverflow]
  · intro fuel
    rw [Vsock.acceptWithRetry, hoverflow]

end FirecrackerSdk

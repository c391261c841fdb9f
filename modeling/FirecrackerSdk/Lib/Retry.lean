import Mathlib.Data.Nat.Notation
import Mathlib.Logic.Basic

/-!
# Retrying

A call is repeated until it succeeds or fails in a way that is not worth another try. There may be
no such attempt, so the loop runs on fuel; it returns with some amount of fuel exactly if there is
one, and then it returns the first (`Retry.exists_run_iff`).
-/

namespace Retry

variable {ε α : Type} (attempt : ℕ → Except ε α) (again : ℕ → ε → Bool)

/-- **The loop**, from an attempt on: the number of the attempt that it ends with, and what comes of
that attempt. -/
def run : ℕ → ℕ → Option (ℕ × Except ε α)
  | 0, _ => none
  | fuel + 1, i =>
    match attempt i with
    | .ok a => some (i, .ok a)
    | .error e => if again i e then run fuel (i + 1) else some (i, .error e)

/-- An attempt after which there is no other. -/
def Final (i : ℕ) : Prop := ∀ e, attempt i = .error e → again i e = false

variable {attempt again}

theorem run_of_final {i : ℕ} (h : Final attempt again i) (fuel : ℕ) :
    run attempt again (fuel + 1) i = some (i, attempt i) := by
  rw [run]
  cases hattempt : attempt i with
  | ok a => rfl
  | error e =>
    dsimp only
    rw [h e hattempt]
    rfl

theorem run_of_not_final {i : ℕ} (h : ¬Final attempt again i) (fuel : ℕ) :
    run attempt again (fuel + 1) i = run attempt again fuel (i + 1) := by
  simp only [Final, not_forall, Bool.not_eq_false] at h
  obtain ⟨e, hattempt, hagain⟩ := h
  rw [run, hattempt]
  exact if_pos hagain

theorem final_of_run {fuel i n : ℕ} {r : Except ε α} (h : run attempt again fuel i = some (n, r)) :
    i ≤ n ∧ r = attempt n ∧ Final attempt again n ∧
      ∀ j, i ≤ j → j < n → ¬Final attempt again j := by
  induction fuel generalizing i with
  | zero => cases h
  | succ fuel ih =>
    by_cases hfinal : Final attempt again i
    · rw [run_of_final hfinal] at h
      obtain ⟨rfl, rfl⟩ := Prod.mk.inj (Option.some.inj h)
      exact ⟨Nat.le_refl i, rfl, hfinal, fun j hle hlt => absurd hle (Nat.not_le.mpr hlt)⟩
    · rw [run_of_not_final hfinal] at h
      obtain ⟨hle, hr, hn, hbefore⟩ := ih h
      refine ⟨Nat.le_of_succ_le hle, hr, hn, fun j hij hj => ?_⟩
      rcases Nat.eq_or_lt_of_le hij with rfl | hlt
      · exact hfinal
      · exact hbefore j hlt hj

theorem run_of_first {i k : ℕ} (hfinal : Final attempt again (i + k))
    (hbefore : ∀ j, i ≤ j → j < i + k → ¬Final attempt again j) :
    run attempt again (k + 1) i = some (i + k, attempt (i + k)) := by
  induction k generalizing i with
  | zero => exact run_of_final hfinal 0
  | succ k ih =>
    have hnext : i + (k + 1) = i + 1 + k := by omega
    rw [run_of_not_final (hbefore i (Nat.le_refl i) (by omega)), hnext]
    rw [hnext] at hfinal
    exact ih hfinal fun j hij hj => hbefore j (by omega) (by omega)

/-- **The loop ends with the first attempt that is final**, if there is one. -/
theorem exists_run_iff {n : ℕ} {r : Except ε α} :
    (∃ fuel, run attempt again fuel 0 = some (n, r)) ↔
      r = attempt n ∧ Final attempt again n ∧ ∀ j < n, ¬Final attempt again j := by
  constructor
  · rintro ⟨fuel, h⟩
    obtain ⟨-, hr, hn, hbefore⟩ := final_of_run h
    exact ⟨hr, hn, fun j hj => hbefore j (Nat.zero_le j) hj⟩
  · rintro ⟨rfl, hn, hbefore⟩
    have hrun := run_of_first (i := 0) (k := n) (by rwa [Nat.zero_add]) fun j _ hj =>
      hbefore j (by omega)
    rw [Nat.zero_add] at hrun
    exact ⟨n + 1, hrun⟩

end Retry

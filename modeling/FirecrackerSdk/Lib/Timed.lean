import FirecrackerSdk.Lib.Prog
import Mathlib.Algebra.BigOperators.Intervals
import Mathlib.Algebra.Group.Action.Defs
import Mathlib.Algebra.Order.BigOperators.Group.Finset

/-!
# Programs under time limits

A program whose operations take time is written twice: once as what it computes, and once with a
clock, where each operation takes as long as it takes and is given up if that exceeds a limit. The
state counts the operations, so that the number of an operation tells how long it takes.

The second does what the first does as long as every operation of the first is done in time; else
it ends at the first that is not (`Timed.Follows`). Either way no operation takes longer than the
limit (`Timed.Follows.clock_le`).
-/

/-- A state, and the time. -/
structure Timed (σ : Type) where
  state : σ
  clock : ℕ

namespace Timed

variable {σ ε α β : Type} (count : σ → ℕ) (delay : ℕ → ℕ) (limit : Option ℕ) (late : ε)

/-! ### The constructs -/

/-- A program that takes no time. -/
def lift (x : Prog σ ε α) : Prog (Timed σ) ε α := fun s =>
  ((x s.state).1, { s with state := (x s.state).2 })

/-- An operation under a time limit, if there is one. -/
def limited (x : Prog σ ε α) : Prog (Timed σ) ε α := fun s =>
  match limit with
  | some t =>
    if delay (count s.state) ≤ t then
      ((x s.state).1, ⟨(x s.state).2, s.clock + delay (count s.state)⟩)
    else (.err late, { s with clock := s.clock + t })
  | none => ((x s.state).1, ⟨(x s.state).2, s.clock + delay (count s.state)⟩)

/-- The operation of this number is done in time. -/
def InTime (k : ℕ) : Prop := ∀ t ∈ limit, delay k ≤ t

instance (k : ℕ) : Decidable (InTime delay limit k) :=
  match limit with
  | none => isTrue nofun
  | some t =>
    decidable_of_iff (delay k ≤ t) ⟨fun h _ ht => Option.some.inj ht ▸ h, fun h => h t rfl⟩

/-- The time that some operations take. -/
def spent (first last : ℕ) : ℕ := (Finset.Ico first last).sum delay

/-- **The first operation that is not done in time**, of those from `first` on. -/
structure FirstLate (first last k : ℕ) : Prop where
  le : first ≤ k
  lt : k < last
  tooLate : ¬InTime delay limit k
  before : ∀ j, first ≤ j → j < k → InTime delay limit j

/-- **The program with a clock follows the other one** as far as the operations are done in time. -/
structure Follows (x' : Prog (Timed σ) ε α) (x : Prog σ ε α) : Prop where
  grows : ∀ s, count s ≤ count (x s).2
  onTime : ∀ s clock, (∀ k, count s ≤ k → k < count (x s).2 → InTime delay limit k) →
    x' ⟨s, clock⟩ = ((x s).1, ⟨(x s).2, clock + spent delay (count s) (count (x s).2)⟩)
  tooLate : ∀ s clock k, FirstLate delay limit (count s) (count (x s).2) k →
    ∃ s', x' ⟨s, clock⟩ = (.err late, ⟨s', clock + spent delay (count s) k + limit.getD 0⟩)

variable {count delay limit late}

/-! ### Following -/

theorem spent_self (k : ℕ) : spent delay k k = 0 := by
  rw [spent, Finset.Ico_self, Finset.sum_empty]

theorem spent_succ (k : ℕ) : spent delay k (k + 1) = delay k := by
  rw [spent, Nat.Ico_succ_singleton, Finset.sum_singleton]

theorem spent_add {a b c : ℕ} (hab : a ≤ b) (hbc : b ≤ c) :
    spent delay a b + spent delay b c = spent delay a c :=
  Finset.sum_Ico_consecutive delay hab hbc

/-- Some operation is the first that is not done in time, unless all are. -/
theorem firstLate_or (first last : ℕ) :
    (∀ k, first ≤ k → k < last → InTime delay limit k) ∨
      ∃ k, FirstLate delay limit first last k := by
  by_cases h : ∃ k, first ≤ k ∧ k < last ∧ ¬InTime delay limit k
  · right
    obtain ⟨hle, hlt, hlate⟩ := Nat.find_spec h
    refine ⟨Nat.find h, hle, hlt, hlate, fun j hj hjk => ?_⟩
    by_contra hno
    exact Nat.find_min h hjk ⟨hj, hjk.trans hlt, hno⟩
  · left
    intro k hle hlt
    by_contra hno
    exact h ⟨k, hle, hlt, hno⟩

/-- A program that does not do an operation. -/
theorem follows_lift {x : Prog σ ε α} (h : ∀ s, count (x s).2 = count s) :
    Follows count delay limit late (lift x) x where
  grows s := (h s).ge
  onTime s clock _ := by
    rw [h, spent_self]
    rfl
  tooLate s clock k hk := by
    have hle := hk.le
    have hlt := hk.lt
    rw [h] at hlt
    omega

/-- An operation. -/
theorem follows_limited {x : Prog σ ε α} (h : ∀ s, count (x s).2 = count s + 1) :
    Follows count delay limit late (limited count delay limit late x) x where
  grows s := by
    rw [h]
    exact Nat.le_succ _
  onTime s clock hall := by
    have hin := hall (count s) le_rfl (by rw [h]; exact Nat.lt_succ_self _)
    unfold limited
    rw [h, spent_succ]
    cases hlimit : limit with
    | none => rfl
    | some t => exact if_pos (hin t hlimit)
  tooLate s clock k hk := by
    have hlt := hk.lt
    rw [h] at hlt
    obtain rfl : k = count s := by
      have hle := hk.le
      omega
    unfold limited
    rw [spent_self]
    cases hlimit : limit with
    | none =>
      refine absurd ?_ hk.tooLate
      rw [hlimit]
      nofun
    | some t =>
      refine ⟨s, if_neg fun hle => hk.tooLate ?_⟩
      rw [hlimit]
      rintro _ ⟨⟩
      exact hle

/-- **One program after the other.** -/
theorem follows_bind {x' : Prog (Timed σ) ε α} {x : Prog σ ε α}
    {f' : α → Prog (Timed σ) ε β} {f : α → Prog σ ε β} (hx : Follows count delay limit late x' x)
    (hf : ∀ a, Follows count delay limit late (f' a) (f a)) :
    Follows count delay limit late (x' >>= f') (x >>= f) := by
  -- where the first part ends, and where both do
  have hsplit : ∀ s, (∃ a, (x s).1 = .ok a ∧ (x >>= f) s = f a (x s).2) ∨
      ((∀ a, (x s).1 ≠ .ok a) ∧ ((x >>= f) s).2 = (x s).2) := by
    intro s
    rcases hrun : x s with ⟨o, s'⟩
    cases o with
    | ok a => exact .inl ⟨a, rfl, Prog.bind_of_ok hrun⟩
    | err e => exact .inr ⟨nofun, by rw [Prog.bind_of_err hrun]⟩
    | dropped => exact .inr ⟨nofun, by rw [Prog.bind_of_dropped hrun]⟩
  have hend : ∀ s, count (x s).2 ≤ count ((x >>= f) s).2 := by
    intro s
    rcases hsplit s with ⟨a, -, heq⟩ | ⟨-, heq⟩
    · rw [heq]
      exact (hf a).grows _
    · rw [heq]
  refine ⟨fun s => (hx.grows s).trans (hend s), fun s clock hall => ?_, fun s clock k hk => ?_⟩
  · have hfirst := hx.onTime s clock fun k hle hlt => hall k hle (hlt.trans_le (hend s))
    rcases hrun : x s with ⟨o, s'⟩
    rw [hrun] at hfirst
    cases o with
    | ok a =>
      have hstart : count s ≤ count s' := by
        have hgrows := hx.grows s
        rwa [hrun] at hgrows
      rw [Prog.bind_of_ok hrun] at hall ⊢
      rw [Prog.bind_of_ok hfirst, (hf a).onTime s' _ fun k hle hlt => hall k (hstart.trans hle) hlt,
        Nat.add_assoc, spent_add hstart ((hf a).grows s')]
    | err e => rw [Prog.bind_of_err hrun, Prog.bind_of_err hfirst]
    | dropped => rw [Prog.bind_of_dropped hrun, Prog.bind_of_dropped hfirst]
  · by_cases hearly : k < count (x s).2
    · obtain ⟨s', hrun⟩ := hx.tooLate s clock k ⟨hk.le, hearly, hk.tooLate, hk.before⟩
      exact ⟨s', Prog.bind_of_err hrun⟩
    · have hall : ∀ j, count s ≤ j → j < count (x s).2 → InTime delay limit j :=
        fun j hle hlt => hk.before j hle (by omega)
      have hfirst := hx.onTime s clock hall
      have hlt := hk.lt
      rcases hrun : x s with ⟨o, s'⟩
      rw [hrun] at hfirst hearly
      cases o with
      | ok a =>
        rw [Prog.bind_of_ok hrun] at hlt
        have hstart : count s ≤ count s' := by
          have hgrows := hx.grows s
          rwa [hrun] at hgrows
        have hlater : FirstLate delay limit (count s') (count (f a s').2) k :=
          ⟨Nat.le_of_not_lt hearly, hlt, hk.tooLate, fun j hle hlt =>
            hk.before j (hstart.trans hle) hlt⟩
        obtain ⟨s'', hrest⟩ := (hf a).tooLate s'
          (clock + spent delay (count s) (count s')) k hlater
        refine ⟨s'', ?_⟩
        rw [Prog.bind_of_ok hfirst, hrest, Nat.add_assoc clock,
          spent_add hstart (Nat.le_of_not_lt hearly)]
      | err e =>
        rw [Prog.bind_of_err hrun] at hlt
        exact absurd hlt hearly
      | dropped =>
        rw [Prog.bind_of_dropped hrun] at hlt
        exact absurd hlt hearly

/-! ### How long it takes -/

theorem spent_le {t first last : ℕ} (h : ∀ k, first ≤ k → k < last → delay k ≤ t) :
    spent delay first last ≤ (last - first) * t := by
  have hsum := Finset.sum_le_card_nsmul (Finset.Ico first last) delay t fun k hk =>
    h k (Finset.mem_Ico.mp hk).1 (Finset.mem_Ico.mp hk).2
  rw [Nat.card_Ico, smul_eq_mul] at hsum
  exact hsum

/-- **A program under a limit takes at most the limit for each operation** of the program that it
follows. -/
theorem Follows.clock_le {t : ℕ} {x' : Prog (Timed σ) ε α} {x : Prog σ ε α}
    (h : Follows count delay (some t) late x' x) (s : σ) (clock : ℕ) :
    (x' ⟨s, clock⟩).2.clock ≤ clock + (count (x s).2 - count s) * t := by
  rcases @firstLate_or delay (some t) (count s) (count (x s).2) with hall | ⟨k, hk⟩
  · have hle := spent_le fun k hle hlt => hall k hle hlt t rfl
    rw [h.onTime s clock hall]
    exact Nat.add_le_add_left hle clock
  · obtain ⟨s', hrun⟩ := h.tooLate s clock k hk
    have hle := spent_le fun j hle hlt => hk.before j hle hlt t rfl
    -- what is given up after the limit counts as one more operation
    have hmore : (k - count s) * t + t ≤ (count (x s).2 - count s) * t := by
      rw [← Nat.succ_mul]
      have hkle := hk.le
      have hklt := hk.lt
      exact Nat.mul_le_mul_right t (by omega)
    rw [hrun]
    dsimp only [Option.getD_some]
    omega

end Timed

import Mathlib.Data.List.Induction

/-!
# Runs that are allowed step by step

A deterministic machine runs through a list of inputs by folding its step function over it. A
guard says of an input whether it is allowed in the state it finds; a run is allowed if
each of its inputs is allowed in the state that the inputs before it have led to
(`Guarded.all`).

Two rules go with it. A property that allowed steps keep holds after an allowed run
(`Guarded.invariant`). And where a step leads to a good state exactly if it starts in one and is
allowed, the good runs are the allowed ones (`Guarded.all_iff`).
-/

namespace Guarded

variable {σ α : Type} (step : σ → α → σ) (ok : σ → α → Bool)

/-- **Every input is allowed in the state it finds.** -/
def all : σ → List α → Bool
  | _, [] => true
  | s, a :: run => ok s a && all (step s a) run

theorem all_append (s : σ) (run run' : List α) :
    all step ok s (run ++ run') = (all step ok s run && all step ok (run.foldl step s) run') := by
  induction run generalizing s with
  | nil => rfl
  | cons a run ih =>
    rw [List.cons_append, all, all, ih, Bool.and_assoc]
    rfl

theorem all_snoc (s : σ) (run : List α) (a : α) :
    all step ok s (run ++ [a]) = (all step ok s run && ok (run.foldl step s) a) := by
  rw [all_append, all, all, Bool.and_true]

variable {step ok}

/-- **What allowed steps keep holds after an allowed run.** -/
theorem invariant {I : σ → Prop} (h : ∀ s a, I s → ok s a = true → I (step s a)) {s : σ}
    (hs : I s) {run : List α} (hrun : all step ok s run = true) : I (run.foldl step s) := by
  induction run generalizing s with
  | nil => exact hs
  | cons a run ih =>
    rw [all, Bool.and_eq_true] at hrun
    exact ih (h s a hs hrun.1) hrun.2

/-- **The runs that end in a good state are the allowed ones**, where a step leads to a good
state exactly if it is allowed and starts in one. -/
theorem all_iff {good : σ → Prop} (h : ∀ s a, good (step s a) ↔ good s ∧ ok s a = true) {s : σ}
    (hs : good s) (run : List α) : good (run.foldl step s) ↔ all step ok s run = true := by
  induction run using List.reverseRecOn with
  | nil => exact iff_of_true hs rfl
  | append_singleton run a ih =>
    rw [List.foldl_append, all_snoc, Bool.and_eq_true, ← ih]
    exact h _ a

end Guarded

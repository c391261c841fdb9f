import Mathlib.Data.List.Induction

/-!
# Runs of a machine that does not take every event in every state

A step gives the next state, or nothing if the event cannot happen in the state. A run is a list
of events that can happen one after the other (`Partial.run`). What holds of the events so far and
the state they have led to is proved event by event (`Partial.invariant`).
-/

namespace Partial

variable {σ α : Type} (step : σ → α → Option σ)

/-- **The state that a list of events leads to.** -/
def run : σ → List α → Option σ
  | s, [] => some s
  | s, a :: events => (step s a).bind fun s' => run s' events

theorem run_append (s : σ) (events events' : List α) :
    run step s (events ++ events') = (run step s events).bind fun s' => run step s' events' := by
  induction events generalizing s with
  | nil => rfl
  | cons a events ih =>
    rw [List.cons_append, run, run, Option.bind_assoc]
    congr 1
    funext s'
    exact ih s'

theorem run_snoc (s : σ) (events : List α) (a : α) :
    run step s (events ++ [a]) = (run step s events).bind fun s' => step s' a := by
  rw [run_append]
  congr 1
  funext s'
  exact Option.bind_fun_some _

variable {step}

theorem run_snoc_eq_some {s s' : σ} {events : List α} {a : α} :
    run step s (events ++ [a]) = some s' ↔
      ∃ s₁, run step s events = some s₁ ∧ step s₁ a = some s' := by
  rw [run_snoc, Option.bind_eq_some_iff]

/-- **What each event keeps holds at the end of a run**, of the events and of the state. -/
theorem invariant {I : List α → σ → Prop} {s₀ : σ} (hinit : I [] s₀)
    (hstep : ∀ events s a s', I events s → step s a = some s' → I (events ++ [a]) s')
    {events : List α} {s : σ} (hrun : run step s₀ events = some s) : I events s := by
  induction events using List.reverseRecOn generalizing s with
  | nil =>
    obtain rfl := Option.some.inj hrun
    exact hinit
  | append_singleton events a ih =>
    obtain ⟨s₁, hbefore, hlast⟩ := run_snoc_eq_some.mp hrun
    exact hstep events s₁ a s (ih hbefore) hlast

end Partial

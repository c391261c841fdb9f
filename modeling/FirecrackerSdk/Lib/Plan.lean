import Mathlib.Data.List.Basic

/-!
# Following a plan

A plan is a list of requests to make one after the other; an entry `none` stands for a
request that cannot even be formed. Following it leaves a log of the requests that were
made, each with the error it returned, and ends in one of three ways: the plan is
done, a request failed or could not be formed, or the follower was interrupted while it
was making one.

`Plan.Follows` says which logs and ends are possible. Plans are followed in sequence
(`Plan.Follows.append`, `Plan.Follows.weaken`), and whoever follows a plan makes the requests of
a prefix of it, stops at the first failure, and is done exactly when the whole plan was
made without one (`Plan.Follows.isPrefix`, `Plan.Follows.failure_last`,
`Plan.Follows.failed`, `Plan.Follows.done_iff`).
-/

namespace Plan

variable {α ε : Type}

/-- How following a plan ended. -/
inductive End where
  | done
  | failed
  | interrupted
  deriving DecidableEq

/-- **Following a plan**: the plan, the log, and the end. -/
inductive Follows : List (Option α) → List (α × Option ε) → End → Prop
  | done : Follows [] [] .done
  | stuck {plan : List (Option α)} : Follows (none :: plan) [] .failed
  | interrupted {a : α} {plan : List (Option α)} : Follows (some a :: plan) [] .interrupted
  | made {a : α} {plan : List (Option α)} {log : List (α × Option ε)} {e : End}
      (h : Follows plan log e) : Follows (some a :: plan) ((a, none) :: log) e
  | refused {a : α} {error : ε} {plan : List (Option α)} :
      Follows (some a :: plan) [(a, some error)] .failed

/-- The requests of a log, as entries of a plan. -/
def requests (log : List (α × Option ε)) : List (Option α) := log.map fun entry => some entry.1

namespace Follows

variable {plan plan' : List (Option α)} {log log' : List (α × Option ε)} {e : End}

/-- A plan that is done is followed by the next one. -/
theorem append (h : Follows plan log .done) (h' : Follows plan' log' e) :
    Follows (plan ++ plan') (log ++ log') e := by
  generalize hd : End.done = d at h
  induction h with
  | done => exact h'
  | stuck => cases hd
  | interrupted => cases hd
  | made _ ih => exact .made (ih hd)
  | refused => cases hd

/-- What comes after a plan that is not done does not matter. -/
theorem weaken (h : Follows plan log e) (he : e ≠ .done) : Follows (plan ++ plan') log e := by
  induction h with
  | done => exact absurd rfl he
  | stuck => exact .stuck
  | interrupted => exact .interrupted
  | made _ ih => exact .made (ih he)
  | refused => exact .refused

/-- **The requests that were made are a prefix of the plan.** -/
theorem isPrefix (h : Follows plan log e) : requests log <+: plan := by
  induction h with
  | done => exact List.prefix_rfl
  | stuck => exact List.nil_prefix
  | interrupted => exact List.nil_prefix
  | made _ ih => exact (List.prefix_cons_inj _).mpr ih
  | refused => exact (List.prefix_cons_inj _).mpr List.nil_prefix

/-- **Nothing is requested after a failure.** -/
theorem failure_last (h : Follows plan log e) {before after : List (α × Option ε)} {a : α}
    {error : ε} (hlog : log = before ++ (a, some error) :: after) : after = [] := by
  induction h generalizing before with
  | done | stuck | interrupted => simp at hlog
  | made _ ih =>
    cases before with
    | nil => simp at hlog
    | cons x before => exact ih (List.cons.inj hlog).2
  | refused =>
    cases before with
    | nil => exact (List.cons.inj hlog).2.symm
    | cons x before => simp at hlog

/-- **A failed follower stopped at a failure**, or before a request that could not be
formed. -/
theorem failed (h : Follows plan log .failed) :
    (∃ before a error, log = before ++ [(a, some error)]) ∨
      ∃ rest, plan = requests log ++ none :: rest := by
  generalize hf : End.failed = f at h
  induction h with
  | done => cases hf
  | interrupted => cases hf
  | stuck => exact .inr ⟨_, rfl⟩
  | made _ ih =>
    rcases ih hf with ⟨before, a, error, rfl⟩ | ⟨rest, rfl⟩
    · exact .inl ⟨_ :: before, a, error, rfl⟩
    · exact .inr ⟨rest, rfl⟩
  | refused => exact .inl ⟨[], _, _, rfl⟩

/-- **A follower is done exactly when the whole plan was made without a failure.** -/
theorem done_iff (h : Follows plan log e) :
    e = .done ↔ requests log = plan ∧ ∀ entry ∈ log, entry.2 = none := by
  induction h with
  | done => simp [requests]
  | stuck => simp [requests]
  | interrupted => simp [requests]
  | made _ ih =>
    rw [ih]
    simp [requests]
  | refused => simp [requests]

end Follows

end Plan

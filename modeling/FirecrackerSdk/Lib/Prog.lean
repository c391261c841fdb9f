import Mathlib.Logic.Relation

/-!
# Programs that fail and programs that are dropped

A shallow embedding of an asynchronous, fallible procedure over a state. Running
one ends in one of three ways:

* it returns a value;
* it returns an error – the early exit of a `?`;
* it never returns: its future was dropped while it was suspended, or it
  panicked. What it had already written to the state stays written, and nothing
  after that point happens.

The third way is what makes the embedding more than a state monad with
exceptions: an error can be caught (`Prog.attempt`), a drop cannot.

The reasoning rules are relational. `Prog.Within R x` says that whatever way `x`
ends, the final state is related by `R` to the initial one; for a reflexive and
transitive `R` it passes through every construct of the language
(`Prog.within_bind`, `Prog.within_attempt`, …). Preservation of an invariant is
the instance `fun s s' => I s → I s'`. Where a step depends on what an earlier one
returned, the equations of a run (`Prog.bind_of_ok`, `Prog.attempt_of_err`, …) follow
it state by state.
-/

/-- The three ways a run can end. -/
inductive Outcome (ε α : Type) where
  /-- It returned a value. -/
  | ok (a : α) : Outcome ε α
  /-- It returned an error. -/
  | err (e : ε) : Outcome ε α
  /-- It never returned. -/
  | dropped : Outcome ε α
  deriving DecidableEq

/-- The outcome of a program that returned a result. -/
def Outcome.ofExcept {ε α : Type} : Except ε α → Outcome ε α
  | .ok a => .ok a
  | .error e => .err e

theorem Outcome.ofExcept_inj {ε α : Type} {r r' : Except ε α}
    (h : Outcome.ofExcept r = Outcome.ofExcept r') : r = r' := by
  cases r <;> cases r' <;> cases h <;> rfl

theorem Outcome.ofExcept_ne_dropped {ε α : Type} (r : Except ε α) :
    Outcome.ofExcept r ≠ .dropped := by
  cases r <;> simp [Outcome.ofExcept]

/-- A program over states `σ` that may fail with an `ε` or be dropped. -/
def Prog (σ ε α : Type) : Type := σ → Outcome ε α × σ

namespace Prog

variable {σ ε α β : Type}

/-! ### The constructs -/

/-- Return a value. -/
protected def pure (a : α) : Prog σ ε α := fun s => (.ok a, s)

/-- Run `x`, and `f` on its value; an error or a drop of `x` ends the run. -/
protected def bind (x : Prog σ ε α) (f : α → Prog σ ε β) : Prog σ ε β := fun s =>
  match x s with
  | (.ok a, s') => f a s'
  | (.err e, s') => (.err e, s')
  | (.dropped, s') => (.dropped, s')

instance : Monad (Prog σ ε) where
  pure := Prog.pure
  bind := Prog.bind

/-- Return an error. -/
def fail (e : ε) : Prog σ ε α := fun s => (.err e, s)

/-- Never return. -/
def drop : Prog σ ε α := fun s => (.dropped, s)

/-- Run `x` and hand its error over as a value. A drop is not caught. -/
def attempt (x : Prog σ ε α) : Prog σ ε (Except ε α) := fun s =>
  match x s with
  | (.ok a, s') => (.ok (.ok a), s')
  | (.err e, s') => (.ok (.error e), s')
  | (.dropped, s') => (.dropped, s')

/-- Return the value or the error that a result holds. -/
def ofExcept : Except ε α → Prog σ ε α
  | .ok a => Prog.pure a
  | .error e => fail e

/-- Read a part of the state. -/
def gets (f : σ → α) : Prog σ ε α := fun s => (.ok (f s), s)

/-- Update the state. -/
def modify (f : σ → σ) : Prog σ ε Unit := fun s => (.ok (), f s)

/-! ### How the constructs run -/

@[simp] theorem pure_apply (a : α) (s : σ) : (pure a : Prog σ ε α) s = (.ok a, s) := rfl

@[simp] theorem fail_apply (e : ε) (s : σ) : (fail e : Prog σ ε α) s = (.err e, s) := rfl

@[simp] theorem drop_apply (s : σ) : (drop : Prog σ ε α) s = (.dropped, s) := rfl

@[simp] theorem gets_apply (f : σ → α) (s : σ) : (gets f : Prog σ ε α) s = (.ok (f s), s) := rfl

@[simp] theorem modify_apply (f : σ → σ) (s : σ) :
    (modify f : Prog σ ε Unit) s = (.ok (), f s) := rfl

theorem bind_apply (x : Prog σ ε α) (f : α → Prog σ ε β) (s : σ) :
    (x >>= f) s = match x s with
      | (.ok a, s') => f a s'
      | (.err e, s') => (.err e, s')
      | (.dropped, s') => (.dropped, s') := rfl

theorem attempt_apply (x : Prog σ ε α) (s : σ) :
    x.attempt s = match x s with
      | (.ok a, s') => (.ok (.ok a), s')
      | (.err e, s') => (.ok (.error e), s')
      | (.dropped, s') => (.dropped, s') := rfl

@[simp] theorem ofExcept_ok (a : α) (s : σ) :
    (ofExcept (.ok a) : Prog σ ε α) s = (.ok a, s) := rfl

@[simp] theorem ofExcept_error (e : ε) (s : σ) :
    (ofExcept (.error e) : Prog σ ε α) s = (.err e, s) := rfl

theorem ofExcept_fst (r : Except ε α) (s : σ) :
    (ofExcept r : Prog σ ε α) s = (.ofExcept r, s) := by
  cases r <;> rfl

theorem bind_of_ok {x : Prog σ ε α} {f : α → Prog σ ε β} {s s' : σ} {a : α}
    (h : x s = (.ok a, s')) : (x >>= f) s = f a s' := by
  rw [bind_apply, h]

theorem bind_of_err {x : Prog σ ε α} {f : α → Prog σ ε β} {s s' : σ} {e : ε}
    (h : x s = (.err e, s')) : (x >>= f) s = (.err e, s') := by
  rw [bind_apply, h]

theorem bind_of_dropped {x : Prog σ ε α} {f : α → Prog σ ε β} {s s' : σ}
    (h : x s = (.dropped, s')) : (x >>= f) s = (.dropped, s') := by
  rw [bind_apply, h]

theorem bind_assoc {γ : Type} (x : Prog σ ε α) (f : α → Prog σ ε β) (g : β → Prog σ ε γ) :
    (x >>= f) >>= g = x >>= fun a => f a >>= g := by
  funext s
  rw [bind_apply, bind_apply, bind_apply]
  rcases x s with ⟨a | e | _, s'⟩ <;> rfl

/-- A sequence depends on its first part through how that ran only. -/
theorem bind_congr {x y : Prog σ ε α} {f : α → Prog σ ε β} {s t : σ} (h : x s = y t) :
    (x >>= f) s = (y >>= f) t := by
  rw [bind_apply, h, ← bind_apply]

/-- Two sequences with the same first part run alike if the rest does, where the first part
returns. -/
theorem bind_congr_of_ok {x : Prog σ ε α} {f g : α → Prog σ ε β} {s : σ}
    (h : ∀ a s', x s = (.ok a, s') → f a s' = g a s') : (x >>= f) s = (x >>= g) s := by
  rw [bind_apply, bind_apply]
  rcases hx : x s with ⟨a | e | _, s'⟩
  · exact h a s' hx
  · rfl
  · rfl

theorem attempt_of_ok {x : Prog σ ε α} {s s' : σ} {a : α} (h : x s = (.ok a, s')) :
    x.attempt s = (.ok (.ok a), s') := by
  rw [attempt_apply, h]

theorem attempt_of_err {x : Prog σ ε α} {s s' : σ} {e : ε} (h : x s = (.err e, s')) :
    x.attempt s = (.ok (.error e), s') := by
  rw [attempt_apply, h]

theorem attempt_of_dropped {x : Prog σ ε α} {s s' : σ} (h : x s = (.dropped, s')) :
    x.attempt s = (.dropped, s') := by
  rw [attempt_apply, h]

theorem gets_bind (f : σ → α) (g : α → Prog σ ε β) (s : σ) : (gets f >>= g) s = g (f s) s := rfl

theorem attempt_bind_of_ok {x : Prog σ ε α} {f : α → Prog σ ε β} {s s' : σ} {a : α}
    (h : x s = (.ok a, s')) : (x >>= f).attempt s = (f a).attempt s' := by
  rw [attempt_apply, bind_of_ok h, attempt_apply]

theorem map_of_ok {x : Prog σ ε α} {g : α → β} {s s' : σ} {a : α} (h : x s = (.ok a, s')) :
    (g <$> x) s = (.ok (g a), s') :=
  bind_of_ok (f := fun a => pure (g a)) h

theorem map_of_dropped {x : Prog σ ε α} {g : α → β} {s s' : σ} (h : x s = (.dropped, s')) :
    (g <$> x) s = (.dropped, s') :=
  bind_of_dropped (f := fun a => pure (g a)) h

/-- A run whose outcome is known. -/
theorem eq_of_fst {o : Outcome ε α} {r : Outcome ε α × σ} (h : r.1 = o) : r = (o, r.2) :=
  Prod.ext h rfl

/-- A sequence returns only if both parts do. -/
theorem bind_eq_ok {x : Prog σ ε α} {f : α → Prog σ ε β} {s s' : σ} {b : β} :
    (x >>= f) s = (.ok b, s') ↔ ∃ a s₁, x s = (.ok a, s₁) ∧ f a s₁ = (.ok b, s') := by
  rw [bind_apply]
  constructor
  · intro h
    rcases hx : x s with ⟨a | e | _, s₁⟩ <;> rw [hx] at h
    · exact ⟨a, s₁, rfl, h⟩
    · cases h
    · cases h
  · rintro ⟨a, s₁, hx, hf⟩
    rw [hx]
    exact hf

/-- A sequence whose first part does not return ends there. -/
theorem bind_of_not_ok {x : Prog σ ε α} {f : α → Prog σ ε β} {s : σ}
    (h : ∀ a, (x s).1 ≠ .ok a) :
    ((x >>= f) s).2 = (x s).2 ∧ ∀ b, ((x >>= f) s).1 ≠ .ok b := by
  rw [bind_apply]
  rcases hx : x s with ⟨a | e | _, s₁⟩
  · rw [hx] at h
    exact absurd rfl (h a)
  · exact ⟨rfl, by simp⟩
  · exact ⟨rfl, by simp⟩

/-- Returning something else leaves the final state alone. -/
theorem snd_bind_pure (x : Prog σ ε α) (g : α → β) (s : σ) :
    ((x >>= fun a => pure (g a)) s).2 = (x s).2 := by
  rw [bind_apply]
  rcases x s with ⟨a | e | _, s'⟩ <;> rfl

/-- Catching the error leaves the final state alone. -/
theorem snd_attempt (x : Prog σ ε α) (s : σ) : (x.attempt s).2 = (x s).2 := by
  rw [attempt_apply]
  rcases x s with ⟨a | e | _, s'⟩ <;> rfl

/-- A property of the final state of a sequence: it has to hold where the first part
stops, and where the second does. -/
theorem bind_final {x : Prog σ ε α} {f : α → Prog σ ε β} {s : σ} {Q : σ → Prop}
    (hstop : Q (x s).2) (hgo : ∀ a, (x s).1 = .ok a → Q (f a (x s).2).2) : Q ((x >>= f) s).2 := by
  rw [bind_apply]
  rcases hx : x s with ⟨a | e | _, s₁⟩ <;> rw [hx] at hstop hgo
  · exact hgo a rfl
  · exact hstop
  · exact hstop

/-! ### Returning -/

/-- **The program returns**, a value or an error, whatever state it starts from. -/
def Returns (x : Prog σ ε α) : Prop := ∀ s, (x s).1 ≠ .dropped

/-- A sequence is dropped in its first part, or after it has returned. -/
theorem bind_dropped_iff {x : Prog σ ε α} {f : α → Prog σ ε β} {s : σ} :
    ((x >>= f) s).1 = .dropped ↔
      (x s).1 = .dropped ∨ ∃ a s', x s = (.ok a, s') ∧ (f a s').1 = .dropped := by
  rw [bind_apply]
  rcases x s with ⟨a | e | _, s'⟩
  · constructor
    · intro h
      exact .inr ⟨a, s', rfl, h⟩
    · rintro (h | ⟨_, _, ⟨⟩, h⟩)
      · cases h
      · exact h
  · constructor
    · intro h
      cases h
    · rintro (h | ⟨_, _, ⟨⟩, -⟩)
      cases h
  · exact iff_of_true rfl (.inl rfl)

theorem attempt_dropped_iff {x : Prog σ ε α} {s : σ} :
    (x.attempt s).1 = .dropped ↔ (x s).1 = .dropped := by
  rw [attempt_apply]
  rcases x s with ⟨a | e | _, s'⟩ <;> simp

section Returns

theorem returns_pure (a : α) : Returns (pure a : Prog σ ε α) := fun _ h => by cases h

theorem returns_fail (e : ε) : Returns (fail e : Prog σ ε α) := fun _ h => by cases h

theorem returns_gets (f : σ → α) : Returns (gets f : Prog σ ε α) := fun _ h => by cases h

theorem returns_modify (f : σ → σ) : Returns (modify f : Prog σ ε Unit) := fun _ h => by cases h

theorem returns_ofExcept (r : Except ε α) : Returns (ofExcept r : Prog σ ε α) := by
  intro s
  rw [ofExcept_fst]
  exact Outcome.ofExcept_ne_dropped r

theorem returns_bind {x : Prog σ ε α} {f : α → Prog σ ε β} (hx : Returns x)
    (hf : ∀ a, Returns (f a)) : Returns (x >>= f) := by
  intro s h
  rcases bind_dropped_iff.mp h with h | ⟨a, s', -, h⟩
  · exact hx s h
  · exact hf a s' h

theorem returns_attempt {x : Prog σ ε α} (hx : Returns x) : Returns x.attempt :=
  fun s h => hx s (attempt_dropped_iff.mp h)

theorem returns_ite {c : Prop} [Decidable c] {x y : Prog σ ε α} (hx : Returns x)
    (hy : Returns y) : Returns (if c then x else y) := by
  split
  · exact hx
  · exact hy

end Returns

/-! ### Relating the final state to the initial one -/

/-- **Every run of `x` stays within `R`**: however it ends, the final state is
related to the initial one. -/
def Within (R : σ → σ → Prop) (x : Prog σ ε α) : Prop := ∀ s, R s (x s).2

section Within

variable {R : σ → σ → Prop}

theorem within_pure [Std.Refl R] (a : α) : Within R (pure a : Prog σ ε α) :=
  fun s => refl_of R s

theorem within_fail [Std.Refl R] (e : ε) : Within R (fail e : Prog σ ε α) :=
  fun s => refl_of R s

theorem within_drop [Std.Refl R] : Within R (drop : Prog σ ε α) :=
  fun s => refl_of R s

theorem within_gets [Std.Refl R] (f : σ → α) : Within R (gets f : Prog σ ε α) :=
  fun s => refl_of R s

theorem within_ofExcept [Std.Refl R] (r : Except ε α) : Within R (ofExcept r : Prog σ ε α) := by
  cases r with
  | ok a => exact within_pure a
  | error e => exact within_fail e

theorem within_bind [IsTrans σ R] {x : Prog σ ε α} {f : α → Prog σ ε β}
    (hx : Within R x) (hf : ∀ a, Within R (f a)) : Within R (x >>= f) := by
  intro s
  have h := hx s
  rw [bind_apply]
  rcases hs : x s with ⟨a | e | _, s'⟩ <;> rw [hs] at h
  · exact trans_of R h (hf a s')
  · exact h
  · exact h

theorem within_attempt {x : Prog σ ε α} (hx : Within R x) : Within R x.attempt := by
  intro s
  have h := hx s
  rw [attempt_apply]
  rcases hs : x s with ⟨_ | _ | _, s'⟩ <;> rw [hs] at h <;> exact h

theorem within_ite {c : Prop} [Decidable c] {x y : Prog σ ε α} (hx : Within R x)
    (hy : Within R y) : Within R (if c then x else y) := by
  split
  · exact hx
  · exact hy

end Within

end Prog

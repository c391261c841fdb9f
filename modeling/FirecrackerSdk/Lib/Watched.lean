import FirecrackerSdk.Lib.Prog

/-!
# Programs that are watched

A program whose operations may panic is written twice: once as what it computes, and once with every
such operation spelled out and written down. The second does what the first does
(`Watched.Mirrors`), and what it writes down can be reasoned about: which operations there were, and
which of them failed.
-/

/-- A state, and what has been written down. -/
structure Watched (σ E : Type) where
  state : σ
  log : List E := []

namespace Watched

variable {σ E ε α β : Type}

/-! ### The constructs -/

/-- A program that writes nothing down. -/
def run (x : Prog σ ε α) : Prog (Watched σ E) ε α := fun s =>
  ((x s.state).1, { s with state := (x s.state).2 })

/-- Write an event down. -/
def note (event : E) : Prog (Watched σ E) ε Unit :=
  Prog.modify fun s => { s with log := s.log ++ [event] }

/-- Panic unless a condition holds. -/
def check (condition : Prop) [Decidable condition] (event : E) : Prog (Watched σ E) ε Unit :=
  if condition then pure () else do
    note event
    Prog.drop

/-! ### Doing the same -/

/-- **The first program does what the second does** from this state on, and writes down only events
with this property. -/
def Mirrors (P : E → Prop) (x : Prog (Watched σ E) ε α) (y : Prog σ ε α) (state : σ) : Prop :=
  ∀ log, ∃ events, x ⟨state, log⟩ = ((y state).1, ⟨(y state).2, log ++ events⟩) ∧
    ∀ event ∈ events, P event

variable {P : E → Prop} {state : σ}

/-- A program that writes nothing down does what it does. -/
theorem mirrors_of_silent {x : Prog (Watched σ E) ε α} {y : Prog σ ε α}
    (h : ∀ log, x ⟨state, log⟩ = ((y state).1, ⟨(y state).2, log⟩)) : Mirrors P x y state := by
  intro log
  refine ⟨[], ?_, by simp⟩
  rw [h, List.append_nil]

theorem mirrors_run (x : Prog σ ε α) : Mirrors P (run x) x state := mirrors_of_silent fun _ => rfl

theorem mirrors_pure (a : α) : Mirrors P (pure a : Prog (Watched σ E) ε α) (pure a) state :=
  mirrors_of_silent fun _ => rfl

theorem mirrors_fail (e : ε) :
    Mirrors P (Prog.fail e : Prog (Watched σ E) ε α) (Prog.fail e) state :=
  mirrors_of_silent fun _ => rfl

theorem mirrors_drop : Mirrors P (Prog.drop : Prog (Watched σ E) ε α) Prog.drop state :=
  mirrors_of_silent fun _ => rfl

theorem mirrors_ofExcept (r : Except ε α) :
    Mirrors P (Prog.ofExcept r : Prog (Watched σ E) ε α) (Prog.ofExcept r) state := by
  refine mirrors_of_silent fun log => ?_
  rw [Prog.ofExcept_fst, Prog.ofExcept_fst]

/-- The rest has to do the same only after what the first part can return. -/
theorem mirrors_bind {x : Prog (Watched σ E) ε α} {y : Prog σ ε α}
    {f : α → Prog (Watched σ E) ε β} {g : α → Prog σ ε β} (hx : Mirrors P x y state)
    (hf : ∀ a state', y state = (.ok a, state') → Mirrors P (f a) (g a) state') :
    Mirrors P (x >>= f) (y >>= g) state := by
  intro log
  obtain ⟨events, hrun, hevents⟩ := hx log
  rcases hy : y state with ⟨a | e | _, state'⟩
  · rw [hy] at hrun
    obtain ⟨more, hmore, hmoreEvents⟩ := hf a state' hy (log ++ events)
    refine ⟨events ++ more, ?_, ?_⟩
    · rw [Prog.bind_of_ok hrun, Prog.bind_of_ok hy, hmore, List.append_assoc]
    · intro event hevent
      rcases List.mem_append.mp hevent with hevent | hevent
      · exact hevents event hevent
      · exact hmoreEvents event hevent
  · rw [hy] at hrun
    exact ⟨events, by rw [Prog.bind_of_err hrun, Prog.bind_of_err hy], hevents⟩
  · rw [hy] at hrun
    exact ⟨events, by rw [Prog.bind_of_dropped hrun, Prog.bind_of_dropped hy], hevents⟩

theorem mirrors_attempt {x : Prog (Watched σ E) ε α} {y : Prog σ ε α}
    (hx : Mirrors P x y state) : Mirrors P x.attempt y.attempt state := by
  intro log
  obtain ⟨events, hrun, hevents⟩ := hx log
  refine ⟨events, ?_, hevents⟩
  rw [Prog.attempt_apply, Prog.attempt_apply, hrun]
  rcases y state with ⟨_ | _ | _, state'⟩ <;> rfl

/-- An operation that is not spelled out in the second program. -/
theorem mirrors_step {x : Prog (Watched σ E) ε α} {a : α} {f : α → Prog (Watched σ E) ε β}
    {y : Prog σ ε β} (hx : Mirrors P x (pure a) state) (hf : Mirrors P (f a) y state) :
    Mirrors P (x >>= f) y state := by
  refine mirrors_bind (g := fun _ => y) hx fun a' state' hreturned => ?_
  cases hreturned
  exact hf

/-- An operation that panics ends both. -/
theorem mirrors_panic {x : Prog (Watched σ E) ε α} {f : α → Prog (Watched σ E) ε β}
    (hx : Mirrors P x Prog.drop state) : Mirrors P (x >>= f) Prog.drop state :=
  mirrors_bind (g := fun _ => Prog.drop) hx fun _ _ hreturned => by cases hreturned

theorem mirrors_ite {condition : Prop} [Decidable condition] {x x' : Prog (Watched σ E) ε α}
    {y y' : Prog σ ε α} (hx : condition → Mirrors P x y state)
    (hx' : ¬condition → Mirrors P x' y' state) :
    Mirrors P (if condition then x else x') (if condition then y else y') state := by
  split
  · rename_i h
    exact hx h
  · rename_i h
    exact hx' h

theorem mirrors_note {event : E} (h : P event) :
    Mirrors P (note event : Prog (Watched σ E) ε Unit) (pure ()) state := by
  intro log
  refine ⟨[event], rfl, fun e he => ?_⟩
  rwa [List.mem_singleton.mp he]

theorem mirrors_check {condition : Prop} [Decidable condition] {event : E} (h : condition) :
    Mirrors P (check condition event : Prog (Watched σ E) ε Unit) (pure ()) state := by
  rw [check, if_pos h]
  exact mirrors_pure ()

/-- A value that is there as long as a condition holds. -/
theorem mirrors_checked {condition : Prop} [Decidable condition] {event : E} {a : α}
    (h : condition) :
    Mirrors P (check condition event >>= fun _ => pure a : Prog (Watched σ E) ε α) (pure a) state :=
  mirrors_step (mirrors_check h) (mirrors_pure a)

theorem mirrors_check_of_not {condition : Prop} [Decidable condition] {event : E}
    (h : ¬condition) (hevent : P event) :
    Mirrors P (check condition event : Prog (Watched σ E) ε Unit) Prog.drop state := by
  rw [check, if_neg h]
  exact mirrors_step (mirrors_note hevent) mirrors_drop

end Watched

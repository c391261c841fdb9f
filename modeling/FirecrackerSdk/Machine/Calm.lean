import FirecrackerSdk.Machine.Passive

/-!
# The operations that own nothing leave the ledger alone

An operation that owns nothing leaves the child, the forwarder, the cleanup functions and the
stored error of the machine alone, spawns nothing, and writes only client calls and
acquisitions to the trace. `FirecrackerSdk.Calm` is that relation between the state before and
the state after; the primitives stay within it, and so does every such operation
(`FirecrackerSdk.passive_calm`).
-/

namespace FirecrackerSdk

variable {W : Type} {A : ClientCall → Prop}

/-- **Nothing owned was touched**, and only certain client calls were made. -/
structure Calm (A : ClientCall → Prop) (s s' : Sys W) : Prop where
  core : s'.machine.core = s.machine.core
  procs : s'.procs = s.procs
  fresh : s.fresh ≤ s'.fresh
  trace : ∃ events, s'.trace = s.trace ++ events ∧ ∀ e ∈ events, e.isCalm A

instance : Std.Refl (Calm (W := W) A) where
  refl _ := ⟨rfl, rfl, le_rfl, [], by simp, by simp⟩

instance : IsTrans (Sys W) (Calm A) where
  trans := by
    rintro s t u ⟨hc, hp, hf, es, he, hes⟩ ⟨hc', hp', hf', es', he', hes'⟩
    refine ⟨hc'.trans hc, hp'.trans hp, hf.trans hf', es ++ es', ?_, ?_⟩
    · rw [he', he, List.append_assoc]
    · intro e hmem
      rcases List.mem_append.mp hmem with h | h
      · exact hes e h
      · exact hes' e h

open Prog

section Primitives

variable (env : Env W)

theorem calm_ask {α : Type} (q : Query α) : Within (Calm A) (Op.ask env q) :=
  fun _ => ⟨rfl, rfl, le_rfl, [], by simp [Op.ask], by simp⟩

theorem calm_machine : Within (Calm A) (Op.machine : Op W Machine) := within_gets _

/-- Writing to a field that the lifecycle does not own. -/
theorem calm_update {f : Machine → Machine} (h : ∀ m, (f m).core = m.core) :
    Within (Calm A) (Op.update f : Op W Unit) :=
  fun s => ⟨h s.machine, rfl, le_rfl, [], by simp [Op.update], by simp⟩

theorem calm_emit {e : Event} (h : e.isCalm A) : Within (Calm A) (Op.emit e : Op W Unit) :=
  fun _ => ⟨rfl, rfl, le_rfl, [e], rfl, by simpa using h⟩

theorem calm_box (action : CleanupAction) : Within (Calm A) (Op.box action : Op W CleanupFn) :=
  fun _ => ⟨rfl, rfl, Nat.le_succ _, [], by simp [Op.box], by simp⟩

/-- Only the clock moves. -/
theorem calm_clock (f : ℕ → ℕ) :
    Within (Calm A) (Prog.modify fun s => { s with clock := f s.clock } : Op W Unit) :=
  fun _ => ⟨rfl, rfl, le_rfl, [], by simp, by simp⟩

theorem calm_acquire (tags : List String) : Within (Calm A) (Machine.acquire tags : Op W _) :=
  within_acquire calm_box (fun _ => calm_emit trivial) tags

theorem passive_calm : Passive env A (Calm A) where
  ask q _ := calm_ask env q
  update := calm_update
  emit := calm_emit
  box := calm_box
  clock := calm_clock

end Primitives

end FirecrackerSdk

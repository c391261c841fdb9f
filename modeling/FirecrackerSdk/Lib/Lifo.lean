import Mathlib.Data.List.Nodup
import Mathlib.Data.List.Induction
import Mathlib.Data.List.Perm.Basic

/-!
# The last-in first-out discipline

What it is for a history of pushes, pops and drains to respect a stack: an abstract
machine with a stack and a flag that says whether a drain is going on, and the
histories it accepts. Items are pushed between drains; a drain pops the top item
again and again, and may only close when the stack is empty.

Two consequences, for histories in which nothing is pushed twice:

* no item is popped twice (`Lifo.nodup_pops`);
* every drain pops exactly the items that are pending when it opens – pushed, and
  not popped yet – in the reverse of the order in which they were pushed
  (`Lifo.pops_of_drain`).
-/

namespace Lifo

variable {α : Type}

/-- The steps of a history. -/
inductive Step (α : Type) where
  | push (a : α)
  | opens
  | pop (a : α)
  | closes

/-- The abstract stack, top first, and whether it is being drained. -/
structure Stack (α : Type) where
  items : List α := []
  draining : Bool := false

/-- What one step does, if it is allowed. -/
def Stack.step [DecidableEq α] (stack : Stack α) : Step α → Option (Stack α)
  | .push a => if stack.draining then none else some { stack with items := a :: stack.items }
  | .opens => if stack.draining then none else some { stack with draining := true }
  | .pop a =>
    match stack.items with
    | [] => none
    | b :: items => if stack.draining && a = b then some { stack with items := items } else none
  | .closes =>
    if stack.draining && stack.items.isEmpty then some { stack with draining := false } else none

/-- What a history does, if each of its steps is allowed. -/
def Stack.replay [DecidableEq α] : Stack α → List (Step α) → Option (Stack α)
  | stack, [] => some stack
  | stack, step :: steps => (stack.step step).bind fun stack' => stack'.replay steps

/-- The items pushed by a history, in order. -/
def pushes (steps : List (Step α)) : List α :=
  steps.filterMap fun
    | .push a => some a
    | _ => none

/-- The items popped by a history, in order. -/
def pops (steps : List (Step α)) : List α :=
  steps.filterMap fun
    | .pop a => some a
    | _ => none

@[simp] theorem pushes_append (h h' : List (Step α)) : pushes (h ++ h') = pushes h ++ pushes h' :=
  List.filterMap_append

@[simp] theorem pops_append (h h' : List (Step α)) : pops (h ++ h') = pops h ++ pops h' :=
  List.filterMap_append

@[simp] theorem pushes_nil : pushes ([] : List (Step α)) = [] := rfl

@[simp] theorem pops_nil : pops ([] : List (Step α)) = [] := rfl

@[simp] theorem pushes_push (a : α) (h : List (Step α)) : pushes (.push a :: h) = a :: pushes h :=
  rfl

@[simp] theorem pushes_opens (h : List (Step α)) : pushes (.opens :: h) = pushes h := rfl

@[simp] theorem pushes_pop (a : α) (h : List (Step α)) : pushes (.pop a :: h) = pushes h := rfl

@[simp] theorem pushes_closes (h : List (Step α)) : pushes (.closes :: h) = pushes h := rfl

@[simp] theorem pops_push (a : α) (h : List (Step α)) : pops (.push a :: h) = pops h := rfl

@[simp] theorem pops_opens (h : List (Step α)) : pops (.opens :: h) = pops h := rfl

@[simp] theorem pops_pop (a : α) (h : List (Step α)) : pops (.pop a :: h) = a :: pops h := rfl

@[simp] theorem pops_closes (h : List (Step α)) : pops (.closes :: h) = pops h := rfl

section Replay

variable [DecidableEq α]

theorem replay_append (stack : Stack α) (h h' : List (Step α)) :
    stack.replay (h ++ h') = (stack.replay h).bind fun stack' => stack'.replay h' := by
  induction h generalizing stack with
  | nil => rfl
  | cons step steps ih =>
    simp only [List.cons_append, Stack.replay]
    cases stack.step step with
    | none => rfl
    | some stack' => exact ih stack'

/-- Pushing one item after the other. -/
theorem replay_push (items : List α) (as : List α) :
    (⟨items, false⟩ : Stack α).replay (as.map .push) = some ⟨as.reverse ++ items, false⟩ := by
  induction as generalizing items with
  | nil => rfl
  | cons a as ih =>
    simp only [List.map_cons, Stack.replay, Stack.step, Bool.false_eq_true, if_false,
      Option.bind_some]
    rw [ih, List.reverse_cons, List.append_assoc]
    rfl

/-- Draining the whole stack. -/
theorem replay_pop (items : List α) :
    (⟨items, true⟩ : Stack α).replay (items.map .pop) = some ⟨[], true⟩ := by
  induction items with
  | nil => rfl
  | cons a items ih => simpa [Stack.replay, Stack.step] using ih

/-! ### What a step can do -/

theorem step_push {stack stack' : Stack α} {a : α} (h : stack.step (.push a) = some stack') :
    stack.draining = false ∧ stack' = { stack with items := a :: stack.items } := by
  simp only [Stack.step] at h
  split at h
  · cases h
  · rename_i hdraining
    exact ⟨Bool.eq_false_iff.mpr hdraining, (Option.some.inj h).symm⟩

theorem step_opens {stack stack' : Stack α} (h : stack.step .opens = some stack') :
    stack.draining = false ∧ stack' = { stack with draining := true } := by
  simp only [Stack.step] at h
  split at h
  · cases h
  · rename_i hdraining
    exact ⟨Bool.eq_false_iff.mpr hdraining, (Option.some.inj h).symm⟩

/-- What is popped is the top item. -/
theorem step_pop {stack stack' : Stack α} {a : α} (h : stack.step (.pop a) = some stack') :
    stack.items = a :: stack'.items ∧ stack.draining = true ∧ stack'.draining = true := by
  simp only [Stack.step] at h
  split at h
  · cases h
  · rename_i b items hitems
    obtain ⟨hcond, hstack⟩ := Option.ite_none_right_eq_some.mp h
    obtain ⟨hdraining, hsame⟩ := Bool.and_eq_true_iff.mp hcond
    obtain rfl := Option.some.inj hstack
    obtain rfl : a = b := by simpa using hsame
    exact ⟨hitems, hdraining, hdraining⟩

theorem step_closes {stack stack' : Stack α} (h : stack.step .closes = some stack') :
    stack.items = [] ∧ stack' = { stack with draining := false } := by
  obtain ⟨hcond, hstack⟩ := Option.ite_none_right_eq_some.mp h
  exact ⟨List.isEmpty_iff.mp (Bool.and_eq_true_iff.mp hcond).2, (Option.some.inj hstack).symm⟩

/-- **What is pushed is what is popped or still there**, counted with
multiplicity. -/
theorem perm_of_replay {stack stack' : Stack α} {h : List (Step α)}
    (hr : stack.replay h = some stack') :
    (stack.items ++ pushes h).Perm (pops h ++ stack'.items) := by
  induction h generalizing stack with
  | nil =>
    obtain rfl : stack = stack' := Option.some.inj hr
    simp
  | cons step steps ih =>
    simp only [Stack.replay, Option.bind_eq_some_iff] at hr
    obtain ⟨mid, hstep, hrest⟩ := hr
    have hperm := ih hrest
    cases step with
    | push a =>
      obtain ⟨-, rfl⟩ := step_push hstep
      rw [pushes_push, pops_push]
      exact List.perm_middle.trans hperm
    | opens =>
      obtain ⟨-, rfl⟩ := step_opens hstep
      exact hperm
    | pop a =>
      rw [(step_pop hstep).1, pushes_pop, pops_pop]
      exact hperm.cons a
    | closes =>
      obtain ⟨-, rfl⟩ := step_closes hstep
      exact hperm

/-- **No item is popped twice**, when none is pushed twice; and what has been popped
is not on the stack any more. -/
theorem nodup_pops {stack : Stack α} {h : List (Step α)}
    (hr : (⟨[], false⟩ : Stack α).replay h = some stack) (hnd : (pushes h).Nodup) :
    (pops h ++ stack.items).Nodup :=
  (perm_of_replay hr).nodup_iff.mp (by simpa using hnd)

/-- The items that are pending after a history: pushed and not popped, in the order
of the pushes. -/
def pending (h : List (Step α)) : List α := (pushes h).filter fun a => a ∉ pops h

/-- **The stack holds the pending items**, the last pushed on top. -/
theorem items_eq_pending {h : List (Step α)} {stack : Stack α}
    (hr : (⟨[], false⟩ : Stack α).replay h = some stack) (hnd : (pushes h).Nodup) :
    stack.items = (pending h).reverse := by
  induction h using List.reverseRecOn generalizing stack with
  | nil =>
    obtain rfl := Option.some.inj hr
    rfl
  | append_singleton h step ih =>
    rw [replay_append, Option.bind_eq_some_iff] at hr
    obtain ⟨mid, hmid, hstep⟩ := hr
    simp only [Stack.replay, Option.bind_eq_some_iff, Option.some.injEq, exists_eq_right] at hstep
    have hndh : (pushes h).Nodup := by
      rw [pushes_append] at hnd
      exact hnd.of_append_left
    have hitems := ih hmid hndh
    have hpops := nodup_pops hmid hndh
    cases step with
    | push a =>
      obtain ⟨-, rfl⟩ := step_push hstep
      have ha : a ∉ pops h := fun hmem => by
        -- a popped item has been pushed before, and `a` is pushed only now
        have hpushed : a ∈ pushes h := by
          have := (perm_of_replay hmid).mem_iff.mpr (List.mem_append_left _ hmem)
          simpa using this
        rw [pushes_append] at hnd
        exact (List.disjoint_of_nodup_append hnd) hpushed (by simp)
      simp [pending, List.filter_append, ha, hitems]
    | opens =>
      obtain ⟨-, rfl⟩ := step_opens hstep
      simpa [pending] using hitems
    | pop a =>
      have htop : mid.items = a :: stack.items := (step_pop hstep).1
      -- dropping the top item is filtering it out, as it stands there once
      have hnd' : (a :: stack.items).Nodup := by
        rw [← htop]
        exact hpops.of_append_right
      have hrev : (pending h).reverse = a :: stack.items := by rw [← hitems, htop]
      have hfilter : ((pending h).filter fun c => c ∉ [a]).reverse = stack.items := by
        rw [← List.filter_reverse, hrev]
        simp only [List.mem_singleton, List.filter_cons, not_true, decide_false,
          Bool.false_eq_true, if_false]
        refine List.filter_eq_self.mpr fun c hcmem => ?_
        have : c ≠ a := fun hca => (List.nodup_cons.mp hnd').1 (hca ▸ hcmem)
        simpa using this
      have hpush : pushes (h ++ [.pop a]) = pushes h := by simp
      rw [← hfilter, pending, pending, List.filter_filter, hpush]
      refine congrArg List.reverse (List.filter_congr fun c _ => ?_)
      simp [not_or, and_comm]
    | closes =>
      obtain ⟨-, rfl⟩ := step_closes hstep
      simpa [pending] using hitems

/-- A stretch of pops takes the items off the top, in order. -/
theorem items_of_pops {stack stack' : Stack α} {as : List α}
    (hr : stack.replay (as.map .pop) = some stack') :
    stack.items = as ++ stack'.items ∧ stack'.draining = stack.draining := by
  induction as generalizing stack with
  | nil =>
    obtain rfl := Option.some.inj hr
    exact ⟨rfl, rfl⟩
  | cons a as ih =>
    simp only [List.map_cons, Stack.replay, Option.bind_eq_some_iff] at hr
    obtain ⟨mid, hstep, hrest⟩ := hr
    obtain ⟨htop, hdraining, hdraining'⟩ := step_pop hstep
    obtain ⟨hitems, hdr⟩ := ih hrest
    exact ⟨by rw [htop, List.cons_append, ← hitems], by rw [hdr, hdraining, hdraining']⟩

/-- Between the opening and the closing of a drain there are only pops. -/
theorem eq_pops_of_replay_closes {stack stack' : Stack α} (hd : stack.draining = true)
    {h post : List (Step α)} (hno : Step.closes ∉ h)
    (hr : stack.replay (h ++ .closes :: post) = some stack') : h = (pops h).map .pop := by
  induction h generalizing stack with
  | nil => rfl
  | cons step steps ih =>
    simp only [List.cons_append, Stack.replay, Option.bind_eq_some_iff] at hr
    obtain ⟨mid, hstep, hrest⟩ := hr
    have hno' : Step.closes ∉ steps := fun hmem => hno (List.mem_cons_of_mem _ hmem)
    cases step with
    | push a => simp [Stack.step, hd] at hstep
    | opens => simp [Stack.step, hd] at hstep
    | pop a =>
      rw [pops_pop, List.map_cons, ← ih (step_pop hstep).2.2 hno' hrest]
    | closes => exact absurd List.mem_cons_self hno

/-- A drain that never closes is still going on. -/
theorem draining_of_replay {stack stack' : Stack α} (hd : stack.draining = true)
    {h : List (Step α)} (hno : Step.closes ∉ h) (hr : stack.replay h = some stack') :
    stack'.draining = true := by
  induction h generalizing stack with
  | nil =>
    obtain rfl := Option.some.inj hr
    exact hd
  | cons step steps ih =>
    simp only [Stack.replay, Option.bind_eq_some_iff] at hr
    obtain ⟨mid, hstep, hrest⟩ := hr
    refine ih ?_ (fun hmem => hno (List.mem_cons_of_mem _ hmem)) hrest
    cases step with
    | push a => simp [Stack.step, hd] at hstep
    | opens => simp [Stack.step, hd] at hstep
    | pop a => exact (step_pop hstep).2.2
    | closes => exact absurd List.mem_cons_self hno

/-- **Every drain closes**, when none is going on at the end. -/
theorem closes_mem_of_replay {stack : Stack α} {pre rest : List (Step α)}
    (hr : (⟨[], false⟩ : Stack α).replay (pre ++ .opens :: rest) = some stack)
    (hd : stack.draining = false) : Step.closes ∈ rest := by
  rw [replay_append, Option.bind_eq_some_iff] at hr
  obtain ⟨opened, -, hrest⟩ := hr
  simp only [Stack.replay, Option.bind_eq_some_iff] at hrest
  obtain ⟨drained, hopen, hrest⟩ := hrest
  obtain ⟨-, rfl⟩ := step_opens hopen
  by_contra hno
  rw [draining_of_replay rfl hno hrest] at hd
  cases hd

/-- **Every drain pops exactly the pending items, the last pushed first.** -/
theorem pops_of_drain {stack : Stack α} {pre mid post : List (Step α)}
    (hr : (⟨[], false⟩ : Stack α).replay (pre ++ .opens :: (mid ++ .closes :: post)) = some stack)
    (hnd : (pushes pre).Nodup) (hno : Step.closes ∉ mid) :
    pops mid = (pending pre).reverse := by
  rw [replay_append, Option.bind_eq_some_iff] at hr
  obtain ⟨opened, hpre, hrest⟩ := hr
  simp only [Stack.replay, Option.bind_eq_some_iff] at hrest
  obtain ⟨drained, hopen, hrest⟩ := hrest
  have hitems := items_eq_pending hpre hnd
  obtain ⟨-, rfl⟩ := step_opens hopen
  have hmid := eq_pops_of_replay_closes rfl hno hrest
  rw [replay_append, Option.bind_eq_some_iff] at hrest
  obtain ⟨emptied, hpops, hclose⟩ := hrest
  rw [hmid] at hpops
  have hempty : emptied.items = [] := by
    simp only [Stack.replay, Option.bind_eq_some_iff] at hclose
    obtain ⟨_, hc, -⟩ := hclose
    exact (step_closes hc).1
  have htaken := (items_of_pops hpops).1
  rw [hempty, List.append_nil] at htaken
  rw [← hitems, ← htaken]

end Replay

end Lifo

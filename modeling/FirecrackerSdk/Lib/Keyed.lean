import Mathlib.Data.List.Basic

/-!
# Edits of a list by key

Some operations on a list look only at elements of certain keys. They replace each of them by
elements of such keys, and put more of these at either end (`Keyed.Edit`). What stands between is
moved past, as it is.

One such edit after the other is one again (`Keyed.Edit.comp`). Two of them that look at different
keys do not see each other, and it matters in one way only which is done first: where both put
something at the same end, the later one puts it outside (`Keyed.Edit.comm_iff`).
-/

namespace Keyed

variable {α κ : Type}

/-- The elements of the keys that are looked at. -/
def touched (key : α → κ) (T : κ → Bool) (l : List α) : List α := l.filter fun a => T (key a)

/-- The other elements. -/
def untouched (key : α → κ) (T : κ → Bool) (l : List α) : List α := l.filter fun a => !T (key a)

theorem touched_append (key : α → κ) (T : κ → Bool) (l l' : List α) :
    touched key T (l ++ l') = touched key T l ++ touched key T l' :=
  List.filter_append ..

theorem untouched_append (key : α → κ) (T : κ → Bool) (l l' : List α) :
    untouched key T (l ++ l') = untouched key T l ++ untouched key T l' :=
  List.filter_append ..

/-- **An edit of the elements of some keys.** It may look at all of them before it does anything
(`blind` says that it looks at nothing else). -/
structure Edit (key : α → κ) (T : κ → Bool) where
  front : List α → List α
  image : List α → α → List α
  back : List α → List α
  front_touched : ∀ l, ∀ a ∈ front l, T (key a) = true
  back_touched : ∀ l, ∀ a ∈ back l, T (key a) = true
  image_touched : ∀ l a, T (key a) = true → ∀ b ∈ image l a, T (key b) = true
  image_untouched : ∀ l a, T (key a) = false → image l a = [a]
  blind : ∀ l l', touched key T l = touched key T l' →
    front l = front l' ∧ image l = image l' ∧ back l = back l'

namespace Edit

variable {key : α → κ} {S T : κ → Bool}

/-- What an edit makes of a list. -/
def run (e : Edit key T) (l : List α) : List α := e.front l ++ l.flatMap (e.image l) ++ e.back l

/-! ### What is touched, and what is not -/

theorem flatMap_eq_self {f : α → List α} {l : List α} (h : ∀ a ∈ l, f a = [a]) :
    l.flatMap f = l := by
  rw [List.flatMap_congr h]
  exact List.flatMap_singleton' l

theorem filter_eq_self_of_touched {l : List α} (h : ∀ a ∈ l, T (key a) = true) :
    touched key T l = l ∧ untouched key T l = [] :=
  ⟨List.filter_eq_self.mpr h, List.filter_eq_nil_iff.mpr fun a ha => by simp [h a ha]⟩

/-- What comes of the elements of the list. -/
theorem filter_flatMap_image (e : Edit key T) (l' l : List α) :
    touched key T (l.flatMap (e.image l')) = (touched key T l).flatMap (e.image l') ∧
      untouched key T (l.flatMap (e.image l')) = untouched key T l := by
  induction l with
  | nil => exact ⟨rfl, rfl⟩
  | cons a l ih =>
    obtain ⟨hin, hout⟩ := ih
    rw [List.flatMap_cons, touched_append, untouched_append, hin, hout]
    cases ha : T (key a) with
    | true =>
      obtain ⟨hsame, hnone⟩ := filter_eq_self_of_touched (e.image_touched l' a ha)
      have hcons : touched key T (a :: l) = a :: touched key T l := List.filter_cons_of_pos ha
      rw [hsame, hnone, hcons, List.flatMap_cons]
      exact ⟨rfl, (List.filter_cons_of_neg (by simp [ha])).symm⟩
    | false =>
      have hcons : touched key T (a :: l) = touched key T l :=
        List.filter_cons_of_neg (by simp [ha])
      rw [e.image_untouched l' a ha, hcons]
      simp [touched, untouched, ha]

theorem touched_run (e : Edit key T) (l : List α) :
    touched key T (e.run l) =
      e.front l ++ (touched key T l).flatMap (e.image l) ++ e.back l := by
  rw [run, touched_append, touched_append, (e.filter_flatMap_image l l).1,
    (filter_eq_self_of_touched (e.front_touched l)).1,
    (filter_eq_self_of_touched (e.back_touched l)).1]

/-- **What is not touched stays**, in its order and as often. -/
theorem untouched_run (e : Edit key T) (l : List α) :
    untouched key T (e.run l) = untouched key T l := by
  rw [run, untouched_append, untouched_append, (e.filter_flatMap_image l l).2,
    (filter_eq_self_of_touched (e.front_touched l)).2,
    (filter_eq_self_of_touched (e.back_touched l)).2, List.append_nil, List.nil_append]

/-- What is touched afterwards depends on what was touched before. -/
theorem touched_run_congr (e : Edit key T) {l l' : List α}
    (h : touched key T l = touched key T l') :
    touched key T (e.run l) = touched key T (e.run l') := by
  obtain ⟨hfront, himage, hback⟩ := e.blind l l' h
  rw [e.touched_run, e.touched_run, h, hfront, himage, hback]

/-- **What is touched is edited as if it were alone.** -/
theorem run_touched (e : Edit key T) (l : List α) :
    touched key T (e.run l) = e.run (touched key T l) := by
  have hagain : touched key T l = touched key T (touched key T l) := by
    simp [touched, List.filter_filter]
  obtain ⟨hfront, himage, hback⟩ := e.blind _ _ hagain
  rw [e.touched_run, run, hfront, himage, hback]

/-! ### Making edits -/

/-- An edit that looks at the elements one by one. -/
def pointwise (image : α → List α)
    (htouched : ∀ a, T (key a) = true → ∀ b ∈ image a, T (key b) = true)
    (huntouched : ∀ a, T (key a) = false → image a = [a]) (front back : List α)
    (hfront : ∀ a ∈ front, T (key a) = true) (hback : ∀ a ∈ back, T (key a) = true) :
    Edit key T where
  front _ := front
  image _ := image
  back _ := back
  front_touched _ := hfront
  back_touched _ := hback
  image_touched _ := htouched
  image_untouched _ := huntouched
  blind _ _ _ := ⟨rfl, rfl, rfl⟩

/-- One edit or the other, as a test on what is touched says. -/
def choose (test : List α → Bool)
    (htest : ∀ l l', touched key T l = touched key T l' → test l = test l') (e f : Edit key T) :
    Edit key T where
  front l := if test l then e.front l else f.front l
  image l := if test l then e.image l else f.image l
  back l := if test l then e.back l else f.back l
  front_touched l := by
    split
    · exact e.front_touched l
    · exact f.front_touched l
  back_touched l := by
    split
    · exact e.back_touched l
    · exact f.back_touched l
  image_touched l := by
    split
    · exact e.image_touched l
    · exact f.image_touched l
  image_untouched l := by
    split
    · exact e.image_untouched l
    · exact f.image_untouched l
  blind l l' h := by
    rw [htest l l' h]
    split
    · exact e.blind l l' h
    · exact f.blind l l' h

theorem run_choose {test : List α → Bool}
    {htest : ∀ l l', touched key T l = touched key T l' → test l = test l'} (e f : Edit key T)
    (l : List α) : (choose test htest e f).run l = if test l then e.run l else f.run l := by
  unfold run choose
  dsimp only
  split <;> rfl

/-! ### One edit after the other -/

/-- Nothing is done. -/
def skip (T : κ → Bool) : Edit key T :=
  pointwise (fun a => [a]) (fun _ ha _ hb => List.mem_singleton.mp hb ▸ ha) (fun _ _ => rfl) [] []
    nofun nofun

theorem run_skip (l : List α) : (@skip α κ key T).run l = l := by
  simp [run, skip, pointwise]

/-- An edit of some keys is one of more keys. -/
def widen (h : ∀ k, S k = true → T k = true) (e : Edit key S) : Edit key T where
  front := e.front
  image := e.image
  back := e.back
  front_touched l a ha := h _ (e.front_touched l a ha)
  back_touched l a ha := h _ (e.back_touched l a ha)
  image_touched l a ha b hb := by
    cases hS : S (key a) with
    | true => exact h _ (e.image_touched l a hS b hb)
    | false =>
      rw [e.image_untouched l a hS] at hb
      rw [List.mem_singleton.mp hb]
      exact ha
  image_untouched l a ha := by
    refine e.image_untouched l a (Bool.eq_false_iff.mpr fun hS => ?_)
    rw [h _ hS] at ha
    cases ha
  blind l l' hsame := by
    refine e.blind l l' ?_
    -- the fewer keys are among the more
    have hmore : ∀ l : List α, touched key S l = touched key S (touched key T l) := by
      intro l
      rw [touched, touched, touched, List.filter_filter]
      refine List.filter_congr fun a _ => ?_
      cases hS : S (key a) with
      | true => simp [h _ hS]
      | false => rfl
    rw [hmore, hsame, ← hmore]

theorem run_widen (h : ∀ k, S k = true → T k = true) (e : Edit key S) (l : List α) :
    (e.widen h).run l = e.run l :=
  rfl

theorem mem_flatMap_image (e : Edit key T) {l' l : List α} (h : ∀ a ∈ l, T (key a) = true) :
    ∀ b ∈ l.flatMap (e.image l'), T (key b) = true := by
  intro b hb
  obtain ⟨a, ha, hb⟩ := List.mem_flatMap.mp hb
  exact e.image_touched l' a (h a ha) b hb

/-- **One edit, then another.** -/
def comp (e f : Edit key T) : Edit key T where
  front l := f.front (e.run l) ++ (e.front l).flatMap (f.image (e.run l))
  image l a := (e.image l a).flatMap (f.image (e.run l))
  back l := (e.back l).flatMap (f.image (e.run l)) ++ f.back (e.run l)
  front_touched l a ha := by
    rcases List.mem_append.mp ha with ha | ha
    · exact f.front_touched _ a ha
    · exact f.mem_flatMap_image (e.front_touched l) a ha
  back_touched l a ha := by
    rcases List.mem_append.mp ha with ha | ha
    · exact f.mem_flatMap_image (e.back_touched l) a ha
    · exact f.back_touched _ a ha
  image_touched l a ha := f.mem_flatMap_image (e.image_touched l a ha)
  image_untouched l a ha := by
    rw [e.image_untouched l a ha, List.flatMap_singleton]
    exact f.image_untouched _ a ha
  blind l l' h := by
    obtain ⟨hfront, himage, hback⟩ := e.blind l l' h
    obtain ⟨hfront', himage', hback'⟩ := f.blind _ _ (e.touched_run_congr h)
    rw [hfront, himage, hback, hfront', himage', hback']
    exact ⟨rfl, rfl, rfl⟩

theorem run_comp (e f : Edit key T) (l : List α) : (e.comp f).run l = f.run (e.run l) := by
  have hassoc : l.flatMap (fun a => (e.image l a).flatMap (f.image (e.run l))) =
      (l.flatMap (e.image l)).flatMap (f.image (e.run l)) := List.flatMap_assoc.symm
  rw [run, comp]
  dsimp only
  rw [hassoc, run, run, List.flatMap_append, List.flatMap_append]
  simp only [List.append_assoc]

/-! ### Edits of different keys -/

/-- What the other edit looks at is not touched. -/
theorem touched_run_of_disjoint (h : ∀ k, S k = true → T k = false) (e : Edit key S)
    (l : List α) : touched key T (e.run l) = touched key T l := by
  have hother : ∀ l : List α, touched key T l = touched key T (untouched key S l) := by
    intro l
    rw [touched, touched, untouched, List.filter_filter]
    refine List.filter_congr fun a _ => ?_
    cases hS : S (key a) with
    | true => simp [h _ hS]
    | false => simp
  rw [hother, e.untouched_run, ← hother]

/-- An edit does not touch what another one puts at the ends. -/
theorem flatMap_image_of_disjoint (h : ∀ k, S k = true → T k = false) (f : Edit key T)
    {l' l : List α} (hl : ∀ a ∈ l, S (key a) = true) : l.flatMap (f.image l') = l :=
  flatMap_eq_self fun a ha => f.image_untouched l' a (h _ (hl a ha))

/-- What two edits make of an element does not depend on which is first. -/
theorem image_comm (h : ∀ k, S k = true → T k = false) (e : Edit key S) (f : Edit key T)
    (l : List α) (a : α) :
    (e.image l a).flatMap (f.image l) = (f.image l a).flatMap (e.image l) := by
  cases hS : S (key a) with
  | true =>
    rw [f.image_untouched l a (h _ hS), List.flatMap_singleton]
    exact flatMap_image_of_disjoint h f (e.image_touched l a hS)
  | false =>
    rw [e.image_untouched l a hS, List.flatMap_singleton]
    cases hT : T (key a) with
    | true =>
      refine (flatMap_eq_self fun b hb => e.image_untouched l b ?_).symm
      refine Bool.eq_false_iff.mpr fun hSb => ?_
      have hTb := f.image_touched l a hT b hb
      rw [h _ hSb] at hTb
      cases hTb
    | false =>
      rw [f.image_untouched l a hT, List.flatMap_singleton, e.image_untouched l a hS]

/-- **One edit after another of different keys**: the later one puts its elements outside those of
the first. -/
theorem run_run (h : ∀ k, S k = true → T k = false) (e : Edit key S) (f : Edit key T)
    (l : List α) :
    f.run (e.run l) = f.front l ++ e.front l ++
      l.flatMap (fun a => (e.image l a).flatMap (f.image l)) ++ (e.back l ++ f.back l) := by
  obtain ⟨hfront, himage, hback⟩ := f.blind _ _ (touched_run_of_disjoint h e l)
  rw [run, hfront, himage, hback, run, List.flatMap_append, List.flatMap_append,
    flatMap_image_of_disjoint h f (e.front_touched l),
    flatMap_image_of_disjoint h f (e.back_touched l), List.flatMap_assoc]
  simp only [List.append_assoc]

/-- Two lists of different elements. -/
theorem append_comm_iff {xs ys : List α} (h : ∀ a ∈ xs, a ∉ ys) :
    xs ++ ys = ys ++ xs ↔ xs = [] ∨ ys = [] := by
  constructor
  · intro heq
    cases xs with
    | nil => exact .inl rfl
    | cons x xs =>
      cases ys with
      | nil => exact .inr rfl
      | cons y ys =>
        obtain rfl := (List.cons.inj heq).1
        exact absurd List.mem_cons_self (h x List.mem_cons_self)
  · rintro (rfl | rfl)
    · exact (List.append_nil ys).symm
    · exact List.append_nil xs

/-- **Two edits of different keys commute** on a list exactly if they do not both put something at
the same end of it. -/
theorem comm_iff (h : ∀ k, S k = true → T k = false) (e : Edit key S) (f : Edit key T)
    (l : List α) :
    f.run (e.run l) = e.run (f.run l) ↔
      (e.front l = [] ∨ f.front l = []) ∧ (e.back l = [] ∨ f.back l = []) := by
  have hsymm : ∀ k, T k = true → S k = false := fun k hT =>
    Bool.eq_false_iff.mpr fun hS => by
      rw [h k hS] at hT
      cases hT
  have hapart : ∀ {xs ys : List α}, (∀ a ∈ xs, S (key a) = true) →
      (∀ a ∈ ys, T (key a) = true) → ∀ a ∈ xs, a ∉ ys := by
    intro xs ys hxs hys a hx hy
    have hT := hys a hy
    rw [h _ (hxs a hx)] at hT
    cases hT
  have hmiddle : l.flatMap (fun a => (e.image l a).flatMap (f.image l)) =
      l.flatMap fun a => (f.image l a).flatMap (e.image l) :=
    List.flatMap_congr fun a _ => image_comm h e f l a
  have hfronts := append_comm_iff (hapart (e.front_touched l) (f.front_touched l))
  have hbacks := append_comm_iff (hapart (e.back_touched l) (f.back_touched l))
  rw [run_run h e f l, run_run hsymm f e l, hmiddle, ← hfronts, ← hbacks]
  constructor
  · intro heq
    obtain ⟨hrest, hback⟩ := List.append_inj' heq (by simp [Nat.add_comm])
    obtain ⟨hfront, -⟩ := List.append_inj hrest (by simp [Nat.add_comm])
    exact ⟨hfront.symm, hback⟩
  · rintro ⟨hfront, hback⟩
    rw [hfront, hback]

end Edit

end Keyed

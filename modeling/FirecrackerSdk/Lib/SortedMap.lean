import Mathlib.Data.List.Basic
import Mathlib.Data.List.Induction
import Mathlib.Order.Lattice

/-!
# Maps as sorted association lists

A map kept as the list of its entries in the increasing order of their keys, which is what an
ordered tree map shows of itself when it is iterated over. Inserting an entry replaces the one that
has its key (`SortedMap.insert`), so that of a sequence of entries the last of each key is left
(`SortedMap.insertAll_perm`), and a sequence that is in order already is left as it is
(`SortedMap.insertAll_of_sorted`).
-/

namespace SortedMap

variable {α β γ : Type*} [LinearOrder α]

/-- Insert an entry, replacing the one of the same key. -/
def insert (key : α) (value : β) : List (α × β) → List (α × β)
  | [] => [(key, value)]
  | entry :: rest =>
    if key < entry.1 then (key, value) :: entry :: rest
    else if key = entry.1 then (key, value) :: rest
    else entry :: insert key value rest

/-- The value of a key. -/
def get (key : α) : List (α × β) → Option β
  | [] => none
  | entry :: rest => if key = entry.1 then some entry.2 else get key rest

/-- **The invariant**: the keys increase. -/
def Sorted (l : List (α × β)) : Prop := l.Pairwise fun a b => a.1 < b.1

theorem mem_insert {key : α} {value : β} {l : List (α × β)} {entry : α × β}
    (h : entry ∈ insert key value l) : entry = (key, value) ∨ entry ∈ l := by
  induction l with
  | nil => exact .inl (List.mem_singleton.mp h)
  | cons first rest ih =>
    rw [insert] at h
    split_ifs at h with hlt heq
    · exact List.mem_cons.mp h
    · rcases List.mem_cons.mp h with h | h
      · exact .inl h
      · exact .inr (List.mem_cons_of_mem _ h)
    · rcases List.mem_cons.mp h with rfl | h
      · exact .inr List.mem_cons_self
      · exact (ih h).imp_right (List.mem_cons_of_mem _)

theorem Sorted.insert {l : List (α × β)} (h : Sorted l) (key : α) (value : β) :
    Sorted (insert key value l) := by
  induction l with
  | nil => exact List.pairwise_singleton _ _
  | cons first rest ih =>
    obtain ⟨hfirst, hrest⟩ := List.pairwise_cons.mp h
    rw [SortedMap.insert]
    split_ifs with hlt heq
    · refine List.pairwise_cons.mpr ⟨fun entry hmem => ?_, h⟩
      rcases List.mem_cons.mp hmem with rfl | hmem
      · exact hlt
      · exact hlt.trans (hfirst entry hmem)
    · subst heq
      exact List.pairwise_cons.mpr ⟨hfirst, hrest⟩
    · refine List.pairwise_cons.mpr ⟨fun entry hmem => ?_, ih hrest⟩
      rcases mem_insert hmem with rfl | hmem
      · exact lt_of_le_of_ne (not_lt.mp hlt) (Ne.symm heq)
      · exact hfirst entry hmem

/-- An entry whose key is above all others goes to the end. -/
theorem insert_of_lt {key : α} {l : List (α × β)} (h : ∀ entry ∈ l, entry.1 < key) (value : β) :
    insert key value l = l ++ [(key, value)] := by
  induction l with
  | nil => rfl
  | cons first rest ih =>
    obtain ⟨hfirst, hrest⟩ := List.forall_mem_cons.mp h
    rw [insert, if_neg hfirst.asymm, if_neg hfirst.ne', ih hrest]
    rfl

/-- **The value of a key after an insertion.** -/
theorem get_insert (k key : α) (value : β) (l : List (α × β)) :
    get k (insert key value l) = if k = key then some value else get k l := by
  induction l with
  | nil => rfl
  | cons first rest ih =>
    rw [insert]
    by_cases hlt : key < first.1
    · rw [if_pos hlt]
      rfl
    · rw [if_neg hlt]
      by_cases heq : key = first.1
      · subst heq
        rw [if_pos rfl, get, get]
        split <;> rfl
      · rw [if_neg heq, get, get, ih]
        by_cases hk : k = first.1
        · rw [if_pos hk, if_neg fun hkey => heq (hkey.symm.trans hk)]
          exact (if_pos hk).symm
        · rw [if_neg hk, if_neg hk]

/-- **What an insertion makes of the entries**: those of the key go, the new one comes in. -/
theorem insert_perm {l : List (α × β)} (h : Sorted l) (key : α) (value : β) :
    (insert key value l).Perm ((key, value) :: l.filter fun entry => decide (entry.1 ≠ key)) := by
  induction l with
  | nil => exact .refl _
  | cons first rest ih =>
    obtain ⟨hfirst, hrest⟩ := List.pairwise_cons.mp h
    have hkeep : ∀ {m : List (α × β)}, (∀ entry ∈ m, key < entry.1) →
        (m.filter fun entry => decide (entry.1 ≠ key)) = m := by
      intro m hm
      exact List.filter_eq_self.mpr fun entry hmem => decide_eq_true (hm entry hmem).ne'
    rw [insert]
    split_ifs with hlt heq
    · rw [hkeep fun entry hmem => ?_]
      rcases List.mem_cons.mp hmem with rfl | hmem
      · exact hlt
      · exact hlt.trans (hfirst entry hmem)
    · subst heq
      rw [List.filter_cons_of_neg (by simp), hkeep hfirst]
    · rw [List.filter_cons_of_pos (by simpa using Ne.symm heq)]
      exact ((ih hrest).cons first).trans (.swap _ _ _)

/-! ### Inserting a sequence of entries -/

/-- The map of a sequence of entries, inserted one after the other. -/
def insertAll (l : List (α × β)) : List (α × β) :=
  l.foldl (fun map entry => insert entry.1 entry.2 map) []

theorem insertAll_concat (l : List (α × β)) (entry : α × β) :
    insertAll (l ++ [entry]) = insert entry.1 entry.2 (insertAll l) := by
  rw [insertAll, List.foldl_append]
  rfl

theorem sorted_insertAll (l : List (α × β)) : Sorted (insertAll l) := by
  induction l using List.reverseRecOn with
  | nil => exact List.Pairwise.nil
  | append_singleton l entry ih =>
    rw [insertAll_concat]
    exact ih.insert _ _

theorem mem_insertAll {l : List (α × β)} {entry : α × β} (h : entry ∈ insertAll l) :
    entry ∈ l := by
  induction l using List.reverseRecOn with
  | nil => exact h
  | append_singleton l last ih =>
    rw [insertAll_concat] at h
    rcases mem_insert h with rfl | h
    · exact List.mem_append_right _ List.mem_cons_self
    · exact List.mem_append_left _ (ih h)

/-- **A sequence that is in order is its own map.** -/
theorem insertAll_of_sorted {l : List (α × β)} (h : Sorted l) : insertAll l = l := by
  induction l using List.reverseRecOn with
  | nil => rfl
  | append_singleton l entry ih =>
    obtain ⟨hl, -, hlast⟩ := List.pairwise_append.mp h
    rw [insertAll_concat, ih hl, insert_of_lt fun first hmem => hlast first hmem entry (by simp)]

/-- The last element of each key, where it stands. -/
def keepLast (key : γ → α) : List γ → List γ
  | [] => []
  | x :: xs => if xs.any fun y => key y == key x then keepLast key xs else x :: keepLast key xs

/-- One more element displaces those of its key. -/
theorem keepLast_concat (key : γ → α) (xs : List γ) (x : γ) :
    keepLast key (xs ++ [x]) =
      ((keepLast key xs).filter fun y => decide (key y ≠ key x)) ++ [x] := by
  induction xs with
  | nil => simp [keepLast]
  | cons y ys ih =>
    rw [List.cons_append, keepLast, keepLast, List.any_append, ih]
    by_cases hys : (ys.any fun z => key z == key y) = true
    · rw [if_pos (by rw [hys]; rfl), if_pos hys]
    · rw [if_neg hys, List.filter_cons, Bool.eq_false_iff.mpr hys]
      by_cases hx : key y = key x
      · rw [if_pos (by simp [hx]), if_neg (by simp [hx])]
      · rw [if_neg (by simpa using Ne.symm hx), if_pos (by simpa using hx), List.cons_append]

theorem keepLast_sublist (key : γ → α) (xs : List γ) : (keepLast key xs).Sublist xs := by
  induction xs with
  | nil => exact .refl _
  | cons x xs ih =>
    rw [keepLast]
    split
    · exact ih.cons x
    · exact ih.cons_cons x

theorem keepLast_map (key : γ → α) {δ : Type*} (f : δ → γ) (xs : List δ) :
    keepLast key (xs.map f) = (keepLast (fun x => key (f x)) xs).map f := by
  induction xs with
  | nil => rfl
  | cons x xs ih =>
    rw [List.map_cons, keepLast, keepLast, ih, List.any_map]
    change (if (xs.any fun y => key (f y) == key (f x)) = true then _ else _) = _
    split <;> rfl

/-- Where the keys are distinct all elements stay. -/
theorem keepLast_of_nodup {key : γ → α} {xs : List γ} (h : (xs.map key).Nodup) :
    keepLast key xs = xs := by
  induction xs with
  | nil => rfl
  | cons x xs ih =>
    obtain ⟨hx, hxs⟩ := List.nodup_cons.mp h
    rw [keepLast, ih hxs, if_neg fun hany => ?_]
    obtain ⟨y, hmem, heq⟩ := List.any_eq_true.mp hany
    exact hx (List.mem_map.mpr ⟨y, hmem, beq_iff_eq.mp heq⟩)

/-- **The map of a sequence holds the last entry of each key.** -/
theorem insertAll_perm (l : List (α × β)) : (insertAll l).Perm (keepLast Prod.fst l) := by
  induction l using List.reverseRecOn with
  | nil => exact .refl _
  | append_singleton l entry ih =>
    rw [insertAll_concat, keepLast_concat]
    refine (insert_perm (sorted_insertAll l) _ _).trans ?_
    refine (List.Perm.cons _ (ih.filter _)).trans ?_
    exact (List.perm_append_singleton _ _).symm

end SortedMap

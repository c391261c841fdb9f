import Mathlib.Data.List.Pairwise

/-!
# Names that are given or made up

A list of things of which each has a name that was made up for it and may have been given another
one (`Naming.Entry`). Where the made-up names are all different, and so are the given ones, two
things have the same name exactly if one has been given the name that was made up for another that
has been given none (`Naming.nodup_names_iff`).
-/

namespace Naming

variable {α : Type}

/-- The name that was made up for a thing, and the one that it was given. -/
structure Entry (α : Type) where
  default : α
  given : Option α

/-- The name of a thing. -/
def Entry.name (entry : Entry α) : α := entry.given.getD entry.default

theorem Entry.name_of_none {entry : Entry α} (h : entry.given = none) :
    entry.name = entry.default := by
  rw [name, h, Option.getD_none]

theorem Entry.name_of_some {entry : Entry α} {a : α} (h : entry.given = some a) :
    entry.name = a := by
  rw [name, h, Option.getD_some]

/-- The names that were given. -/
def given (entries : List (Entry α)) : List α := entries.filterMap (·.given)

/-- **No clash**: a thing without a given name has a name that was not given to another. -/
def NoClash (entries : List (Entry α)) : Prop :=
  ∀ entry ∈ entries, entry.given = none → entry.default ∉ given entries

theorem given_append (entries entries' : List (Entry α)) :
    given (entries ++ entries') = given entries ++ given entries' := List.filterMap_append

theorem given_cons (entry : Entry α) (entries : List (Entry α)) :
    given (entry :: entries) = entry.given.toList ++ given entries := by
  rw [given, List.filterMap_cons]
  cases entry.given <;> rfl

theorem mem_given {entries : List (Entry α)} {a : α} :
    a ∈ given entries ↔ ∃ entry ∈ entries, entry.given = some a :=
  List.mem_filterMap

/-- Things with different given names. -/
theorem pairwise_given {entries : List (Entry α)} (h : (given entries).Nodup) :
    entries.Pairwise fun e e' => ∀ a, e.given = some a → e'.given ≠ some a := by
  refine (List.pairwise_filterMap.mp h).imp fun hne a ha ha' => ?_
  exact hne a ha a ha' rfl

/-- **When all names are different.** -/
theorem nodup_names_iff {entries : List (Entry α)} (hdefaults : (entries.map (·.default)).Nodup)
    (hgiven : (given entries).Nodup) :
    (entries.map Entry.name).Nodup ↔ NoClash entries := by
  rw [List.Nodup, List.pairwise_map]
  constructor
  · intro hnames entry hmem hnone hclash
    obtain ⟨other, hother, hsome⟩ := mem_given.mp hclash
    have hne : entry ≠ other := by
      rintro rfl
      rw [hnone] at hsome
      cases hsome
    have : Std.Symm fun e e' : Entry α => e.name ≠ e'.name := ⟨fun _ _ h => Ne.symm h⟩
    refine hnames.forall hmem hother hne ?_
    rw [Entry.name_of_none hnone, Entry.name_of_some hsome]
  · intro hclash
    have hpairs := (List.pairwise_map.mp hdefaults).and (pairwise_given hgiven)
    refine hpairs.imp_of_mem fun {e e'} hmem hmem' hpair heq => ?_
    -- a made-up name may only meet a made-up one, a given name only a given one
    cases h : e.given with
    | none =>
      rw [Entry.name_of_none h] at heq
      cases h' : e'.given with
      | none =>
        rw [Entry.name_of_none h'] at heq
        exact hpair.1 heq
      | some a' =>
        rw [Entry.name_of_some h'] at heq
        exact hclash e hmem h (mem_given.mpr ⟨e', hmem', heq ▸ h'⟩)
    | some a =>
      rw [Entry.name_of_some h] at heq
      cases h' : e'.given with
      | none =>
        rw [Entry.name_of_none h'] at heq
        exact hclash e' hmem' h' (mem_given.mpr ⟨e, hmem, heq ▸ h⟩)
      | some a' =>
        rw [Entry.name_of_some h'] at heq
        exact hpair.2 a h (heq ▸ h')

end Naming

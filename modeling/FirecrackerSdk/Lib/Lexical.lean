import FirecrackerSdk.Lib.Text

/-!
# Paths without a file system

What a path means as far as its text goes: names lead down, and a step to the parent takes the
last name back.

A place (`Lexical.Place`) is where a path leads. From the root there is no way up, and a step to
the parent is lost; from a directory that is not known there is, and the place counts the levels
above it. Following a path from any place is following it from nowhere in particular and putting
the result after the place, less as many names as it climbed (`Lexical.resolve_eq_after`). So
whether a path stays below the place that it starts from is a matter of the path alone
(`Lexical.climb`).
-/

namespace Lexical

variable {α : Type}

/-- A step of a path. -/
inductive Step (α : Type) where
  | name (a : α)
  | parent
  deriving DecidableEq

/-- **A place**: below the root or below some directory, how many levels above that directory,
and the names that lead down from there. -/
structure Place (α : Type) where
  absolute : Bool
  above : ℕ
  names : List α
  rooted : absolute = true → above = 0
  deriving DecidableEq

namespace Place

/-- The root. -/
def root : Place α := ⟨true, 0, [], fun _ => rfl⟩

/-- Where one is. -/
def here : Place α := ⟨false, 0, [], fun _ => rfl⟩

/-- The place below another under a list of names. -/
def below (place : Place α) (names : List α) : Place α :=
  { place with names := place.names ++ names }

/-- The place one level up. -/
def up (place : Place α) : Place α where
  absolute := place.absolute
  above := if place.names = [] ∧ place.absolute = false then place.above + 1 else place.above
  names := place.names.dropLast
  rooted habs := by
    rw [if_neg (by simp [habs])]
    exact place.rooted habs

/-- Make a step. -/
def step (place : Place α) : Step α → Place α
  | .name a => place.below [a]
  | .parent => place.up

/-- The place that another leads to from here: it takes back as many names as it climbs. -/
def after (place other : Place α) : Place α where
  absolute := place.absolute
  above := if place.absolute then 0 else place.above + (other.above - place.names.length)
  names := place.names.take (place.names.length - other.above) ++ other.names
  rooted habs := if_pos habs

@[ext] theorem ext {p q : Place α} (habsolute : p.absolute = q.absolute)
    (habove : p.above = q.above) (hnames : p.names = q.names) : p = q := by
  cases p
  cases q
  cases habsolute
  cases habove
  cases hnames
  rfl

theorem after_here (place : Place α) : place.after here = place := by
  ext1
  · rfl
  · cases habs : place.absolute with
    | true => simp [after, habs, place.rooted habs]
    | false => simp [after, here, habs]
  · simp [after, here]

/-- A place that does not climb stays below. -/
theorem after_eq_below {place other : Place α} (h : other.above = 0) :
    place.after other = place.below other.names := by
  ext1
  · rfl
  · cases habs : place.absolute with
    | true => simp [after, below, habs, place.rooted habs]
    | false => simp [after, below, habs, h]
  · simp [after, below, h]

theorem after_below (place other : Place α) (names : List α) :
    place.after (other.below names) = (place.after other).below names := by
  ext1
  · rfl
  · rfl
  · exact (List.append_assoc _ _ _).symm

/-- A step up is a step up, whether it is made before or after putting two places together. -/
theorem after_up {place other : Place α} (h : other.absolute = false) :
    place.after other.up = (place.after other).up := by
  by_cases hnames : other.names = []
  · -- the step leads above what was climbed so far
    have hlen : ∀ n, place.names.take n = [] ↔ n = 0 ∨ place.names.length = 0 := by
      intro n
      rw [List.take_eq_nil_iff, List.length_eq_zero_iff]
    ext1
    · rfl
    · cases habs : place.absolute with
      | true => simp [after, up, habs]
      | false =>
        simp only [after, up, habs, hnames, h, List.append_nil, hlen, and_true, if_true,
          Bool.false_eq_true, if_false]
        split <;> omega
    · simp only [after, up, hnames, h, List.append_nil, List.dropLast_nil, and_true, if_true]
      rw [List.dropLast_eq_take, List.take_take, List.length_take]
      congr 1
      omega
  · -- the step takes back a name of the second place
    ext1
    · rfl
    · simp [after, up, hnames]
    · simp only [after, up, hnames, false_and, if_false]
      rw [List.dropLast_append_of_ne_nil hnames]

end Place

/-! ### Following a path -/

open Place

/-- Follow a path. -/
def resolve (start : Place α) (path : List (Step α)) : Place α := path.foldl Place.step start

theorem resolve_append (start : Place α) (first second : List (Step α)) :
    resolve start (first ++ second) = resolve (resolve start first) second :=
  List.foldl_append

theorem resolve_absolute (start : Place α) (path : List (Step α)) :
    (resolve start path).absolute = start.absolute := by
  induction path generalizing start with
  | nil => rfl
  | cons s path ih =>
    cases s with
    | name a => exact ih _
    | parent => exact ih _

/-- **Following a path from a place** is following it from here, and putting what comes out after
the place. -/
theorem resolve_eq_after (start : Place α) (path : List (Step α)) :
    resolve start path = start.after (resolve here path) := by
  induction path using List.reverseRecOn with
  | nil => exact (after_here start).symm
  | append_singleton path s ih =>
    rw [resolve_append, resolve_append, ih]
    cases s with
    | name a => exact (after_below _ _ _).symm
    | parent => exact (after_up (resolve_absolute here path)).symm

/-- How many levels a path climbs above the place that it starts from. -/
def climb (path : List (Step α)) : ℕ := (resolve here path).above

/-- **What a path leads to inside a root that it cannot leave.** -/
def inside (path : List (Step α)) : List α := (resolve root path).names

theorem inside_eq (path : List (Step α)) : inside path = (resolve here path).names := by
  rw [inside, resolve_eq_after]
  simp [after, root]

/-- A path that does not climb leads below the place that it starts from, to what it leads to
inside a root. -/
theorem resolve_of_climb_eq_zero {path : List (Step α)} (h : climb path = 0) (start : Place α) :
    resolve start path = start.below (inside path) := by
  rw [resolve_eq_after, after_eq_below h, inside_eq]

/-- **A path that leads from a place to where it leads to inside the place as a root** does not
climb, if the place is not empty. -/
theorem resolve_eq_below_iff {start : Place α} (hne : start.names ≠ []) {path : List (Step α)} :
    resolve start path = start.below (inside path) ↔ climb path = 0 := by
  constructor
  · intro h
    have hnames := congrArg (fun place => place.names.length) h
    rw [resolve_eq_after] at hnames
    simp only [after, below, inside_eq, List.length_append, List.length_take] at hnames
    have hpos := List.length_pos_iff.mpr hne
    unfold climb
    omega
  · exact fun h => resolve_of_climb_eq_zero h start

/-- A path that is followed from the root by mistake leads to where it should have led to, if it
is the root that it should have been followed from or it climbs up to there. What comes after it
must not climb then. -/
theorem resolve_root_eq_below_iff {start : Place α} {path : List (Step α)} (hne : inside path ≠ [])
    {more : List (Step α)} :
    resolve (resolve root path) more = (resolve start path).below (inside more) ↔
      (start.absolute = true ∧ start.names.length ≤ climb path) ∧ climb more = 0 := by
  have hroot : resolve root path = root.below (inside path) := by
    ext1
    · exact resolve_absolute root path
    · exact (resolve root path).rooted (resolve_absolute root path)
    · rfl
  have hpos := List.length_pos_iff.mpr hne
  constructor
  · intro h
    -- compare how deep the two places are
    have habsolute := congrArg Place.absolute h
    have hnames := congrArg (fun place => place.names.length) h
    rw [hroot, resolve_eq_after, resolve_eq_after start path] at hnames
    simp only [after, below, root, inside_eq, List.nil_append, List.length_append,
      List.length_take] at hnames hpos
    rw [resolve_absolute, resolve_absolute] at habsolute
    have hstart : start.absolute = true := by
      rw [← resolve_absolute start path]
      exact habsolute.symm
    unfold climb
    refine ⟨⟨hstart, ?_⟩, ?_⟩ <;> omega
  · rintro ⟨⟨habsolute, hclimb⟩, hmore⟩
    -- whoever climbs to the root or further starts from there
    have hsame : resolve start path = resolve root path := by
      rw [resolve_eq_after start, resolve_eq_after root]
      ext1
      · exact habsolute
      · simp [after, root, habsolute]
      · have hnone : start.names.length - (resolve here path).above = 0 :=
          Nat.sub_eq_zero_of_le hclimb
        simp [after, root, hnone]
    rw [hsame, resolve_of_climb_eq_zero hmore]

/-! ### The text of a path -/

/-- The step that a piece of text between slashes stands for, if it is one. -/
def stepOf (piece : List Char) : Option (Step (List Char)) :=
  if piece = [] ∨ piece = ['.'] then none
  else if piece = ['.', '.'] then some .parent
  else some (.name piece)

/-- The steps of a path. -/
def steps (text : List Char) : List (Step (List Char)) :=
  (Text.splitBy (· == '/') text).filterMap stepOf

/-- Whether a path starts at the root. -/
def isAbsolute (text : List Char) : Bool := text.head? == some '/'

/-- **Where a path leads.** -/
def place (text : List Char) : Place (List Char) :=
  resolve (if isAbsolute text then root else here) (steps text)

theorem steps_append_slash (first second : List Char) :
    steps (first ++ '/' :: second) = steps first ++ steps second := by
  rw [steps, Text.splitBy_append_cons (by decide), List.filterMap_append]
  rfl

/-- Slashes at the beginning make no difference to the steps. -/
theorem steps_dropWhile_slash : ∀ text : List Char,
    steps (text.dropWhile (· == '/')) = steps text
  | [] => rfl
  | c :: text => by
    by_cases hslash : c = '/'
    · rw [hslash, List.dropWhile_cons_of_pos (by decide), steps_dropWhile_slash text]
      exact (steps_append_slash [] text).symm
    · rw [List.dropWhile_cons_of_neg (by simpa using hslash)]

/-- What is left of a path without the slashes at its beginning starts nowhere in particular. -/
theorem isAbsolute_dropWhile_slash : ∀ text : List Char,
    isAbsolute (text.dropWhile (· == '/')) = false
  | [] => rfl
  | c :: text => by
    by_cases hslash : c = '/'
    · rw [hslash, List.dropWhile_cons_of_pos (by decide), isAbsolute_dropWhile_slash text]
    · rw [List.dropWhile_cons_of_neg (by simpa using hslash)]
      simpa [isAbsolute] using hslash

end Lexical

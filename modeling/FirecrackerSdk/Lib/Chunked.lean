import Mathlib.Data.List.Infix

/-!
# Reading a stream piece by piece

A stream that arrives in pieces, and the search for a pattern in what has arrived.

A source (`Chunked.Source`) holds what is still to come and how the coming reads will split
it. A read asks for at most so many items and gets a non-empty piece, unless the stream has
ended; every way of splitting is the reads of some source. What the rules say is that
nothing is lost or reordered (`Chunked.Source.read_append`), and that a read gets nothing only
at the end (`Chunked.Source.read_eq_nil`).

A pattern is looked for at every position of what has arrived (`Chunked.position`). Where it
was found first does not change when more arrives (`Chunked.position_append`): this is what
makes an incremental search independent of the splitting.
-/

namespace Chunked

variable {α : Type}

/-! ### Sources -/

/-- A stream that is read in pieces: what is to come, the sizes that the reads would
like to have, and how many reads there have been. -/
structure Source (α : Type) where
  rest : List α
  sizes : ℕ → ℕ
  reads : ℕ := 0

namespace Source

/-- How many items a read of at most `n` gets: at least one, if there is one and one is
asked for. -/
def pieceSize (s : Source α) (n : ℕ) : ℕ :=
  min (max 1 (s.sizes s.reads)) (min n s.rest.length)

/-- The piece that a read of at most `n` items gets. -/
def piece (s : Source α) (n : ℕ) : List α := s.rest.take (s.pieceSize n)

/-- The source after such a read. -/
def advance (s : Source α) (n : ℕ) : Source α :=
  { s with rest := s.rest.drop (s.pieceSize n), reads := s.reads + 1 }

/-- **Nothing is lost**: the piece is followed by what is still to come. -/
theorem read_append (s : Source α) (n : ℕ) : s.piece n ++ (s.advance n).rest = s.rest :=
  List.take_append_drop _ _

theorem length_piece (s : Source α) (n : ℕ) : (s.piece n).length = s.pieceSize n := by
  rw [piece, List.length_take]
  unfold pieceSize
  omega

/-- **A read gets nothing only at the end.** -/
theorem read_eq_nil {s : Source α} {n : ℕ} (hn : 0 < n) : s.piece n = [] ↔ s.rest = [] := by
  rw [← List.length_eq_zero_iff, length_piece, ← List.length_eq_zero_iff]
  unfold pieceSize
  omega

/-- A read that gets something leaves less to come. -/
theorem length_advance {s : Source α} {n : ℕ} (h : s.piece n ≠ []) :
    (s.advance n).rest.length < s.rest.length := by
  have hlen := congrArg List.length (s.read_append n)
  have hpos := List.length_pos_iff.mpr h
  rw [List.length_append] at hlen
  omega

/-- The source after several such reads. -/
def after (s : Source α) (n : ℕ) : ℕ → Source α
  | 0 => s
  | k + 1 => (s.advance n).after n k

/-- What several such reads get. -/
def arrived (s : Source α) (n : ℕ) : ℕ → List α
  | 0 => []
  | k + 1 => s.piece n ++ (s.advance n).arrived n k

/-- **Nothing is lost** by several reads either. -/
theorem arrived_append (s : Source α) (n k : ℕ) : s.arrived n k ++ (s.after n k).rest = s.rest := by
  induction k generalizing s with
  | zero => rfl
  | succ k ih => rw [arrived, after, List.append_assoc, ih, read_append]

end Source

/-! ### Looking for a pattern -/

section Search

variable [DecidableEq α]

/-- The first position at which a pattern stands. -/
def position (pattern : List α) : List α → Option ℕ
  | [] => if pattern = [] then some 0 else none
  | a :: as =>
    if pattern <+: a :: as then some 0 else (position pattern as).map (· + 1)

theorem position_of_prefix {pattern l : List α} (h : pattern <+: l) :
    position pattern l = some 0 := by
  cases l with
  | nil => rw [position, if_pos (List.prefix_nil.mp h)]
  | cons a l => rw [position, if_pos h]

/-- What stands at the position that was found. -/
theorem position_eq_some {pattern : List α} :
    ∀ {l : List α} {i : ℕ}, position pattern l = some i →
      i + pattern.length ≤ l.length ∧ pattern <+: l.drop i
  | [], i, h => by
    rw [position] at h
    split at h
    · obtain rfl := Option.some.inj h
      rename_i hnil
      rw [hnil]
      simp
    · cases h
  | a :: l, i, h => by
    rw [position] at h
    split at h
    · obtain rfl := Option.some.inj h
      rename_i hpre
      exact ⟨by simpa using hpre.length_le, hpre⟩
    · obtain ⟨j, hj, rfl⟩ := Option.map_eq_some_iff.mp h
      obtain ⟨hlen, hpre⟩ := position_eq_some hj
      refine ⟨?_, hpre⟩
      rw [List.length_cons]
      omega

/-- **Where a pattern was found first does not change when more arrives.** -/
theorem position_append {pattern : List α} :
    ∀ {l : List α} {i : ℕ}, position pattern l = some i →
      ∀ more, position pattern (l ++ more) = some i
  | [], i, h, more => by
    rw [position] at h
    split at h
    · obtain rfl := Option.some.inj h
      rename_i hnil
      rw [hnil]
      exact position_of_prefix List.nil_prefix
    · cases h
  | a :: l, i, h, more => by
    rw [position] at h
    split at h
    · obtain rfl := Option.some.inj h
      rename_i hpre
      exact position_of_prefix (hpre.trans (List.prefix_append _ _))
    · rename_i hno
      obtain ⟨j, hj, rfl⟩ := Option.map_eq_some_iff.mp h
      have hfits := (position_eq_some hj).1
      have hno' : ¬ pattern <+: a :: (l ++ more) := by
        intro hpre
        -- the pattern is no longer than what had arrived
        refine hno (List.prefix_of_prefix_length_le hpre ?_ ?_)
        · exact List.prefix_append (a :: l) more
        · rw [List.length_cons]
          omega
      rw [List.cons_append, position, if_neg hno', position_append hj more]
      rfl

end Search

end Chunked

import Mathlib.Data.List.Basic

/-!
# Pipes

A pipe holds a bounded number of bytes. What is written to it is read in order; a write waits for
room and a read for bytes. A write of at most `atomic` bytes is not split, a longer one can be. A
read ends when the pipe is empty and nobody has it open for writing, a write fails when nobody has
it open for reading.

The bound is a field, so that no pipe holds too much. What was ever read is kept with the pipe, and
with it what was ever written (`Pipe.sent`).
-/

/-- **A pipe** for at most this many bytes. -/
structure Pipe (capacity : ℕ) where
  /-- All the bytes that were read. -/
  received : List UInt8 := []
  /-- The bytes in it. -/
  buffer : List UInt8 := []
  /-- Somebody has it open for writing. -/
  writer : Bool := true
  /-- Somebody has it open for reading. -/
  reader : Bool := true
  bounded : buffer.length ≤ capacity := by exact Nat.zero_le _

namespace Pipe

variable {capacity : ℕ}

/-- All the bytes that were written. -/
def sent (pipe : Pipe capacity) : List UInt8 := pipe.received ++ pipe.buffer

/-- A write of so many bytes can take this many of them. -/
def Takes (pipe : Pipe capacity) (atomic length count : ℕ) : Prop :=
  0 < count ∧ count ≤ length ∧ pipe.buffer.length + count ≤ capacity ∧
    (length ≤ atomic → count = length)

instance (pipe : Pipe capacity) (atomic length count : ℕ) :
    Decidable (pipe.Takes atomic length count) :=
  inferInstanceAs (Decidable (_ ∧ _ ∧ _ ∧ _))

/-- Write the first of some bytes. -/
def write (pipe : Pipe capacity) (atomic : ℕ) (bytes : List UInt8) (count : ℕ) :
    Option (Pipe capacity) :=
  if h : pipe.Takes atomic bytes.length count then
    some { pipe with
      buffer := pipe.buffer ++ bytes.take count
      bounded := by
        rw [List.length_append, List.length_take_of_le h.2.1]
        exact h.2.2.1 }
  else none

/-- Read so many bytes. -/
def read (pipe : Pipe capacity) (count : ℕ) : Option (Pipe capacity) :=
  if 0 < count ∧ count ≤ pipe.buffer.length then
    some { pipe with
      received := pipe.received ++ pipe.buffer.take count
      buffer := pipe.buffer.drop count
      bounded := Nat.le_trans (List.drop_sublist count pipe.buffer).length_le pipe.bounded }
  else none

/-- A read finds the end. -/
def AtEnd (pipe : Pipe capacity) : Prop := pipe.buffer = [] ∧ pipe.writer = false

instance (pipe : Pipe capacity) : Decidable pipe.AtEnd := inferInstanceAs (Decidable (_ ∧ _))

/-- Nobody writes to it any more. -/
def closeWriter (pipe : Pipe capacity) : Pipe capacity := { pipe with writer := false }

/-- Nobody reads from it any more. -/
def closeReader (pipe : Pipe capacity) : Pipe capacity := { pipe with reader := false }

theorem write_eq_some {pipe pipe' : Pipe capacity} {atomic count : ℕ} {bytes : List UInt8} :
    pipe.write atomic bytes count = some pipe' ↔ ∃ h : pipe.Takes atomic bytes.length count,
      pipe' = { pipe with
        buffer := pipe.buffer ++ bytes.take count
        bounded := by
          rw [List.length_append, List.length_take_of_le h.2.1]
          exact h.2.2.1 } := by
  rw [write]
  split
  · rename_i h
    rw [Option.some.injEq, exists_prop_of_true h]
    exact eq_comm
  · rename_i h
    exact ⟨nofun, fun ⟨htakes, _⟩ => absurd htakes h⟩

theorem read_eq_some {pipe pipe' : Pipe capacity} {count : ℕ} :
    pipe.read count = some pipe' ↔ (0 < count ∧ count ≤ pipe.buffer.length) ∧
      pipe' = { pipe with
        received := pipe.received ++ pipe.buffer.take count
        buffer := pipe.buffer.drop count
        bounded := Nat.le_trans (List.drop_sublist count pipe.buffer).length_le pipe.bounded } := by
  rw [read]
  split
  · rename_i h
    rw [Option.some.injEq, and_iff_right h]
    exact eq_comm
  · rename_i h
    exact ⟨nofun, fun hread => absurd hread.1 h⟩

/-- What a write changes. -/
theorem sent_write {pipe pipe' : Pipe capacity} {atomic count : ℕ} {bytes : List UInt8}
    (h : pipe.write atomic bytes count = some pipe') :
    pipe'.sent = pipe.sent ++ bytes.take count ∧ pipe'.received = pipe.received ∧
      pipe'.writer = pipe.writer ∧ pipe'.reader = pipe.reader := by
  obtain ⟨-, rfl⟩ := write_eq_some.mp h
  exact ⟨(List.append_assoc _ _ _).symm, rfl, rfl, rfl⟩

theorem exists_write {pipe : Pipe capacity} {atomic count : ℕ} {bytes : List UInt8}
    (h : pipe.Takes atomic bytes.length count) :
    ∃ pipe', pipe.write atomic bytes count = some pipe' ∧
      pipe'.buffer = pipe.buffer ++ bytes.take count :=
  ⟨_, dif_pos h, rfl⟩

/-- What a read changes. -/
theorem sent_read {pipe pipe' : Pipe capacity} {count : ℕ} (h : pipe.read count = some pipe') :
    pipe'.sent = pipe.sent ∧ pipe'.writer = pipe.writer ∧ pipe'.reader = pipe.reader ∧
      pipe'.received.length = pipe.received.length + count := by
  obtain ⟨⟨-, hcount⟩, rfl⟩ := read_eq_some.mp h
  refine ⟨?_, rfl, rfl, ?_⟩
  · rw [sent, sent, List.append_assoc, List.take_append_drop]
  · rw [List.length_append, List.length_take_of_le hcount]

/-- What was read is the first of what was written. -/
theorem received_prefix (pipe : Pipe capacity) : pipe.received <+: pipe.sent :=
  List.prefix_append _ _

theorem AtEnd.received_eq {pipe : Pipe capacity} (h : pipe.AtEnd) : pipe.received = pipe.sent := by
  rw [sent, h.1, List.append_nil]

/-- Something can be written to an empty pipe. -/
theorem exists_takes {pipe : Pipe capacity} {atomic length : ℕ} (hatomic : atomic ≤ capacity)
    (hcapacity : 0 < capacity) (hempty : pipe.buffer = []) (hlength : 0 < length) :
    ∃ count, pipe.Takes atomic length count := by
  refine ⟨min length capacity, ?_⟩
  rw [Takes, hempty, List.length_nil]
  omega

/-- What fits can be written at once. -/
theorem takes_of_fits {pipe : Pipe capacity} {atomic length : ℕ} (hlength : 0 < length)
    (h : pipe.buffer.length + length ≤ capacity) : pipe.Takes atomic length length :=
  ⟨hlength, Nat.le_refl _, h, fun _ => rfl⟩

/-- Nothing can be written to a full pipe. -/
theorem not_takes_of_full {pipe : Pipe capacity} (h : capacity ≤ pipe.buffer.length)
    (atomic length count : ℕ) : ¬pipe.Takes atomic length count := by
  rintro ⟨hcount, -, hroom, -⟩
  omega

/-- Something can be read from a pipe that is not empty. -/
theorem isSome_read {pipe : Pipe capacity} (h : pipe.buffer ≠ []) : (pipe.read 1).isSome := by
  have hlength : 0 < pipe.buffer.length := List.length_pos_iff.mpr h
  rw [read, if_pos ⟨Nat.one_pos, hlength⟩]
  rfl

end Pipe

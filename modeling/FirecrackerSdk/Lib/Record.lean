import Mathlib.Data.List.Perm.Basic
import Mathlib.Data.List.Nodup

/-!
# Records written field by field

A record is written as a list of named values and read back from one. Each of its fields
(`Record.Field`) says what is written of it, which can be nothing, how it is read, and what it is if
it is missing; the law that a field carries is that what is written of it is read back, with nothing
read as the missing field.

A list of fields with different names that make up the record is then written and read as a whole.
The reader looks up its own names, so that it reads the same record in whatever order the entries
come, and whatever other entries are among them (`Record.decode_of_perm`). It fails on a field that
occurs twice.
-/

namespace Record

variable {V S : Type}

/-- A field of a record, as it is written and read. -/
structure Field (V S : Type) where
  name : String
  {α : Type}
  get : S → α
  set : α → S → S
  /-- What is written of the field, if anything is. -/
  write : α → Option V
  read : V → Option α
  /-- The field of a record that was written without it, if there can be one. -/
  missing : Option α
  /-- The same where the values of a record come without names. -/
  missingItem : Option α
  /-- The values of the field that there can be. -/
  Valid : α → Prop
  keeps : ∀ a, Valid a → (write a).elim missing read = some a

/-- The names of the fields. -/
def names (fields : List (Field V S)) : List String := fields.map (·.name)

/-- Write a record. -/
def encode (fields : List (Field V S)) (record : S) : List (String × V) :=
  fields.filterMap fun field => (field.write (field.get record)).map (field.name, ·)

/-- The value of a field, from its entries. There must not be two. -/
def Field.ofEntries (field : Field V S) : List (String × V) → Option field.α
  | [] => field.missing
  | [entry] => field.read entry.2
  | _ => none

/-- The value of a field among the entries of a record. -/
def Field.value (field : Field V S) (entries : List (String × V)) : Option field.α :=
  field.ofEntries (entries.filter fun entry => entry.1 = field.name)

/-- Read a record: all its fields, into a blank one. -/
def decode (fields : List (Field V S)) (blank : S) (entries : List (String × V)) : Option S :=
  fields.foldlM (fun record field => (field.value entries).map (field.set · record)) blank

/-- Read a record whose values come without names, in the order of the fields. None may be left
over. -/
def decodeItems (fields : List (Field V S)) (blank : S) (items : List V) : Option S :=
  if fields.length < items.length then none
  else fields.zipIdx.foldlM (fun record field =>
    (items[field.2]?.elim field.1.missingItem field.1.read).map (field.1.set · record)) blank

/-- **Fields that make up a record**: their names are different, and a record is put together from
its fields. -/
structure Complete (fields : List (Field V S)) (blank : S) : Prop where
  nodup : (names fields).Nodup
  rebuild : ∀ record, fields.foldl (fun r field => field.set (field.get record) r) blank = record

/-- A record whose fields all have values that there can be. -/
def Valid (fields : List (Field V S)) (record : S) : Prop :=
  ∀ field ∈ fields, field.Valid (field.get record)

/-! ### The entries of a field -/

/-- What is written of a field, in a record. -/
def Field.entries (field : Field V S) (record : S) : List (String × V) :=
  ((field.write (field.get record)).map (field.name, ·)).toList

theorem encode_cons (field : Field V S) (fields : List (Field V S)) (record : S) :
    encode (field :: fields) record = field.entries record ++ encode fields record := by
  rw [encode, encode, Field.entries, List.filterMap_cons]
  cases field.write (field.get record) <;> rfl

theorem name_of_mem_encode {fields : List (Field V S)} {record : S} {entry : String × V}
    (h : entry ∈ encode fields record) : entry.1 ∈ names fields := by
  obtain ⟨field, hfield, hentry⟩ := List.mem_filterMap.mp h
  obtain ⟨value, -, rfl⟩ := Option.map_eq_some_iff.mp hentry
  exact List.mem_map.mpr ⟨field, hfield, rfl⟩

theorem filter_entries (field : Field V S) (record : S) (name : String) :
    ((field.entries record).filter fun entry => entry.1 = name) =
      if field.name = name then field.entries record else [] := by
  unfold Field.entries
  cases field.write (field.get record) with
  | none => simp
  | some value => simp [List.filter_cons]

/-- **Only its own entry has the name of a field.** -/
theorem filter_encode {fields : List (Field V S)} (hnodup : (names fields).Nodup) (record : S)
    {field : Field V S} (hfield : field ∈ fields) :
    ((encode fields record).filter fun entry => entry.1 = field.name) = field.entries record := by
  induction fields with
  | nil => exact absurd hfield List.not_mem_nil
  | cons first rest ih =>
    obtain ⟨hfirst, hrest⟩ := List.nodup_cons.mp hnodup
    rw [encode_cons, List.filter_append, filter_entries]
    rcases List.mem_cons.mp hfield with rfl | hfield
    · -- no later field has the name of the first
      have hnone : ((encode rest record).filter fun entry => entry.1 = field.name) = [] := by
        refine List.filter_eq_nil_iff.mpr fun entry hentry heq => hfirst ?_
        have hname := name_of_mem_encode hentry
        rw [of_decide_eq_true heq] at hname
        exact hname
      rw [if_pos rfl, hnone, List.append_nil]
    · have hne : first.name ≠ field.name := by
        intro heq
        exact hfirst (List.mem_map.mpr ⟨field, hfield, heq.symm⟩)
      rw [if_neg hne, List.nil_append, ih hrest hfield]

/-! ### The value of a field -/

/-- What is written of a field is its value again. -/
theorem Field.value_of_filter {field : Field V S} {record : S} {entries : List (String × V)}
    (hfilter : (entries.filter fun entry => entry.1 = field.name) = field.entries record)
    (hvalid : field.Valid (field.get record)) :
    field.value entries = some (field.get record) := by
  have hkeeps := field.keeps _ hvalid
  rw [Field.value, hfilter, Field.entries]
  cases hwrite : field.write (field.get record) with
  | none =>
    rw [hwrite] at hkeeps
    exact hkeeps
  | some value =>
    rw [hwrite] at hkeeps
    exact hkeeps

theorem Field.ofEntries_perm (field : Field V S) {l l' : List (String × V)} (h : l.Perm l') :
    field.ofEntries l = field.ofEntries l' := by
  have hlength := h.length_eq
  rcases l with _ | ⟨a, _ | ⟨b, l⟩⟩
  · rw [h.nil_eq]
  · rw [h.singleton_eq]
  · rcases l' with _ | ⟨a', _ | ⟨b', l'⟩⟩
    · cases hlength
    · cases hlength
    · rfl

/-- The value of a field does not depend on the order of the entries. -/
theorem Field.value_perm (field : Field V S) {entries entries' : List (String × V)}
    (h : entries.Perm entries') : field.value entries = field.value entries' :=
  field.ofEntries_perm (h.filter _)

/-- Nor does it depend on entries of other names. -/
theorem Field.value_append_of_ne (field : Field V S) (entries : List (String × V))
    {others : List (String × V)} (h : ∀ entry ∈ others, entry.1 ≠ field.name) :
    field.value (entries ++ others) = field.value entries := by
  have hnone : (others.filter fun entry => entry.1 = field.name) = [] :=
    List.filter_eq_nil_iff.mpr fun entry hentry heq => h entry hentry (of_decide_eq_true heq)
  rw [Field.value, Field.value, List.filter_append, hnone, List.append_nil]

/-! ### The whole record -/

/-- A record is read if its fields are. -/
theorem foldlM_of_values {fields : List (Field V S)} {record : S} {entries : List (String × V)}
    (h : ∀ field ∈ fields, field.value entries = some (field.get record)) (r : S) :
    fields.foldlM (fun r field => (field.value entries).map (field.set · r)) r =
      some (fields.foldl (fun r field => field.set (field.get record) r) r) := by
  induction fields generalizing r with
  | nil => rfl
  | cons field fields ih =>
    obtain ⟨hfield, hfields⟩ := List.forall_mem_cons.mp h
    rw [List.foldlM_cons, hfield]
    exact ih hfields _

/-- **A record is read back**, in whatever order its fields come and whatever other entries there
are. -/
theorem decode_of_perm {fields : List (Field V S)} {blank record : S}
    (hnodup : (names fields).Nodup)
    (hrebuild : fields.foldl (fun r field => field.set (field.get record) r) blank = record)
    (hvalid : Valid fields record) {entries others : List (String × V)}
    (hothers : ∀ entry ∈ others, entry.1 ∉ names fields)
    (hperm : entries.Perm (encode fields record ++ others)) :
    decode fields blank entries = some record := by
  have hvalues : ∀ field ∈ fields, field.value entries = some (field.get record) := by
    intro field hfield
    have hother : ∀ entry ∈ others, entry.1 ≠ field.name := by
      intro entry hentry heq
      exact hothers entry hentry (heq ▸ List.mem_map.mpr ⟨field, hfield, rfl⟩)
    rw [field.value_perm hperm, field.value_append_of_ne _ hother]
    exact Field.value_of_filter (filter_encode hnodup record hfield) (hvalid field hfield)
  rw [decode, foldlM_of_values hvalues, hrebuild]

/-- A record is read back as it was written. -/
theorem decode_encode {fields : List (Field V S)} {blank record : S}
    (hcomplete : Complete fields blank) (hvalid : Valid fields record) :
    decode fields blank (encode fields record) = some record := by
  have hperm : (encode fields record).Perm (encode fields record ++ []) := by
    rw [List.append_nil]
  exact decode_of_perm hcomplete.nodup (hcomplete.rebuild record) hvalid
    (fun _ h => absurd h List.not_mem_nil) hperm

/-- A field that has no value makes the record fail. -/
theorem decode_eq_none {fields : List (Field V S)} {field : Field V S} (hfield : field ∈ fields)
    {entries : List (String × V)} (h : field.value entries = none) (blank : S) :
    decode fields blank entries = none := by
  unfold decode
  induction fields generalizing blank with
  | nil => exact absurd hfield List.not_mem_nil
  | cons first fields ih =>
    rw [List.foldlM_cons]
    rcases List.mem_cons.mp hfield with rfl | hfield
    · rw [h]
      rfl
    · cases first.value entries with
      | none => rfl
      | some a => exact ih hfield (first.set a blank)

/-- **A field that occurs twice makes the record fail.** -/
theorem decode_of_twice {fields : List (Field V S)} {name : String} (hname : name ∈ names fields)
    {entries : List (String × V)}
    (h : 2 ≤ (entries.filter fun entry => entry.1 = name).length) (blank : S) :
    decode fields blank entries = none := by
  obtain ⟨field, hfield, rfl⟩ := List.mem_map.mp hname
  refine decode_eq_none hfield ?_ blank
  rw [Field.value]
  rcases hl : entries.filter fun entry => entry.1 = field.name with _ | ⟨a, _ | ⟨b, l⟩⟩
  · rw [hl] at h
    cases h
  · rw [hl] at h
    cases Nat.le_of_succ_le_succ h
  · rw [hl]
    rfl

/-- What no field sets is in the record as it was in the blank one. -/
theorem decode_unchanged {β : Type} {fields : List (Field V S)} {f : S → β}
    (hset : ∀ field ∈ fields, ∀ a record, f (field.set a record) = f record) {blank record : S}
    {entries : List (String × V)} (h : decode fields blank entries = some record) :
    f record = f blank := by
  unfold decode at h
  induction fields generalizing blank with
  | nil =>
    obtain rfl := Option.some.inj h
    rfl
  | cons field fields ih =>
    obtain ⟨hfield, hfields⟩ := List.forall_mem_cons.mp hset
    rw [List.foldlM_cons] at h
    obtain ⟨next, hnext, hrest⟩ := Option.bind_eq_some_iff.mp h
    obtain ⟨a, -, rfl⟩ := Option.map_eq_some_iff.mp hnext
    rw [ih hfields hrest, hfield]

end Record

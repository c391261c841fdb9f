import FirecrackerSdk.Plugins
import FirecrackerSdk.Lib.Record

/-!
# The JSON of the models

The records of `models/` derive `Serialize` and `Deserialize`, with attributes on their fields. Each
is here the list of its fields (`FirecrackerSdk.Field` and the functions in it, one for each
combination of attributes), from which both directions follow (`FirecrackerSdk.Table.codec`). A
type that is written and read is a `FirecrackerSdk.Codec`, which carries the proof that what is
written is read back.

An object is the list of its entries as they stand in the text: those of a record come in the order
of its declaration, and a text can have a name twice. A `Value` that is read from it is a sorted map
all through (`FirecrackerSdk.JsonValue.normalize`). Why a text is not read is left out.
-/

namespace FirecrackerSdk

/-! ### Values as they are kept -/

namespace JsonValue

mutual

/-- The `Value` that is read from a text: the entries of every object are sorted by their names, and
of those with the same name the last is kept. -/
def normalize : JsonValue → JsonValue
  | .array items => .array (normalizeItems items)
  | .object fields => .object (SortedMap.insertAll (normalizeFields fields))
  | .null => .null
  | .bool b => .bool b
  | .number text => .number text
  | .string text => .string text

/-- The items of an array, as they are kept. -/
def normalizeItems : List JsonValue → List JsonValue
  | [] => []
  | item :: items => item.normalize :: normalizeItems items

/-- The entries of an object, each as it is kept. -/
def normalizeFields : List (String × JsonValue) → List (String × JsonValue)
  | [] => []
  | (name, value) :: fields => (name, value.normalize) :: normalizeFields fields

end

/-- The entries of an object, as they are kept. -/
def normalizeMap (fields : List (String × JsonValue)) : List (String × JsonValue) :=
  SortedMap.insertAll (normalizeFields fields)

/-- A map as it is kept: sorted, and so all its values. -/
def IsMap (fields : List (String × JsonValue)) : Prop :=
  SortedMap.Sorted fields ∧ ∀ entry ∈ fields, entry.2.normalize = entry.2

theorem normalizeFields_eq_self {fields : List (String × JsonValue)}
    (h : ∀ entry ∈ fields, entry.2.normalize = entry.2) : normalizeFields fields = fields := by
  induction fields with
  | nil => rfl
  | cons entry fields ih =>
    obtain ⟨hentry, hfields⟩ := List.forall_mem_cons.mp h
    rw [normalizeFields, hentry, ih hfields]

/-- A map is kept as it is. -/
theorem IsMap.normalizeMap {fields : List (String × JsonValue)} (h : IsMap fields) :
    normalizeMap fields = fields := by
  rw [JsonValue.normalizeMap, normalizeFields_eq_self h.2, SortedMap.insertAll_of_sorted h.1]

mutual

/-- **What is kept is kept as it is.** -/
theorem normalize_normalize : ∀ value : JsonValue, value.normalize.normalize = value.normalize
  | .array items => congrArg JsonValue.array (normalizeItems_normalizeItems items)
  | .object fields => by
    have hmap : IsMap (SortedMap.insertAll (normalizeFields fields)) :=
      ⟨SortedMap.sorted_insertAll _, fun entry hentry =>
        normalize_of_mem_normalizeFields fields entry (SortedMap.mem_insertAll hentry)⟩
    rw [normalize, normalize]
    exact congrArg JsonValue.object hmap.normalizeMap
  | .null => rfl
  | .bool _ => rfl
  | .number _ => rfl
  | .string _ => rfl

theorem normalizeItems_normalizeItems :
    ∀ items : List JsonValue, normalizeItems (normalizeItems items) = normalizeItems items
  | [] => rfl
  | item :: items => by
    rw [normalizeItems, normalizeItems, normalize_normalize item,
      normalizeItems_normalizeItems items]

theorem normalize_of_mem_normalizeFields :
    ∀ (fields : List (String × JsonValue)), ∀ entry ∈ normalizeFields fields,
      entry.2.normalize = entry.2
  | [], _, h => absurd h List.not_mem_nil
  | (_, value) :: fields, entry, h => by
    rw [normalizeFields] at h
    rcases List.mem_cons.mp h with rfl | h
    · exact normalize_normalize value
    · exact normalize_of_mem_normalizeFields fields entry h

end

theorem fst_mem_of_mem_normalizeFields {fields : List (String × JsonValue)}
    {entry : String × JsonValue} (h : entry ∈ normalizeFields fields) :
    entry.1 ∈ fields.map Prod.fst := by
  induction fields with
  | nil => exact absurd h List.not_mem_nil
  | cons first fields ih =>
    rw [normalizeFields] at h
    rw [List.map_cons, List.mem_cons]
    rcases List.mem_cons.mp h with rfl | h
    · exact .inl rfl
    · exact .inr (ih h)

/-- What is read from a text is kept as it is. -/
theorem isMap_normalizeMap (fields : List (String × JsonValue)) : IsMap (normalizeMap fields) :=
  ⟨SortedMap.sorted_insertAll _, fun entry hentry =>
    normalize_of_mem_normalizeFields fields entry (SortedMap.mem_insertAll hentry)⟩

end JsonValue

/-! ### Types that are written and read -/

/-- A type with its `Serialize` and `Deserialize`. What is written of a value that there can be is
read back, and it is never `null`, which is what an `Option` makes of `None`. -/
structure Codec (α : Type) where
  toValue : α → JsonValue
  fromValue : JsonValue → Option α
  Valid : α → Prop
  fromValue_toValue : ∀ a, Valid a → fromValue (toValue a) = some a
  toValue_ne_null : ∀ a, toValue a ≠ .null

/-- The greatest `i64`. -/
def i64Max : ℕ := 2 ^ 63 - 1

/-- Read an `i64`: no number with a fraction or an exponent, and not `-0`, is one. -/
def parseI64 (text : String) : Option ℤ :=
  if text = "-0" then none else Text.parseSigned i64Max text.toList

theorem parseI64_toString {n : ℤ} (hlow : -2 ^ 63 ≤ n) (hhigh : n < 2 ^ 63) :
    parseI64 (toString n) = some n := by
  have hparse : Text.parseSigned i64Max (toString n).toList = some n :=
    Text.parseSigned_toString (by simp [i64Max]; omega) (by simp [i64Max]; omega)
  have hne : toString n ≠ "-0" := by
    intro heq
    have hzero : Text.parseSigned i64Max "-0".toList = some 0 := by decide
    rw [heq] at hparse
    obtain rfl := Option.some.inj (hzero.symm.trans hparse)
    revert heq
    decide
  rw [parseI64, if_neg hne, hparse]

namespace Codec

/-- `String`. -/
def string : Codec String where
  toValue := .string
  fromValue := JsonValue.asStr
  Valid _ := True
  fromValue_toValue _ _ := rfl
  toValue_ne_null _ := nofun

/-- `bool`. -/
def bool : Codec Bool where
  toValue := .bool
  fromValue
    | .bool b => some b
    | _ => none
  Valid _ := True
  fromValue_toValue _ _ := rfl
  toValue_ne_null _ := nofun

/-- `i64`. -/
def i64 : Codec ℤ where
  toValue n := .number (toString n)
  fromValue
    | .number text => parseI64 text
    | _ => none
  Valid n := -2 ^ 63 ≤ n ∧ n < 2 ^ 63
  fromValue_toValue _ h := parseI64_toString h.1 h.2
  toValue_ne_null _ := nofun

/-- `i64`, as a type of that range. -/
def int64 : Codec Int64 where
  toValue n := i64.toValue n.toInt
  fromValue value := (i64.fromValue value).map Int64.ofInt
  Valid _ := True
  fromValue_toValue n _ := by
    rw [i64.fromValue_toValue _ ⟨n.le_toInt, n.toInt_lt⟩, Option.map_some, Int64.ofInt_toInt]
  toValue_ne_null _ := nofun

variable {α S : Type}

/-- `Vec`. -/
def vec (codec : Codec α) : Codec (List α) where
  toValue items := .array (items.map codec.toValue)
  fromValue
    | .array items => items.mapM codec.fromValue
    | _ => none
  Valid items := ∀ item ∈ items, codec.Valid item
  fromValue_toValue items h := by
    dsimp only
    induction items with
    | nil => rfl
    | cons item items ih =>
      obtain ⟨hitem, hitems⟩ := List.forall_mem_cons.mp h
      rw [List.map_cons, List.mapM_cons, codec.fromValue_toValue item hitem, ih hitems]
      rfl
  toValue_ne_null _ := nofun

end Codec

/-! ### Fields and their attributes -/

/-- A field of a model. -/
abbrev Field (S : Type) : Type 1 := Record.Field JsonValue S

namespace Field

variable {α S : Type}

/-- A field without attributes, apart from its name. -/
def required (name : String) (codec : Codec α) (get : S → α) (set : α → S → S) : Field S where
  name := name
  get := get
  set := set
  write a := some (codec.toValue a)
  read := codec.fromValue
  missing := none
  missingItem := none
  Valid := codec.Valid
  keeps := codec.fromValue_toValue

/-- `#[serde(default)]`. -/
def defaulted (name : String) (fallback : α) (codec : Codec α) (get : S → α) (set : α → S → S) :
    Field S where
  name := name
  get := get
  set := set
  write a := some (codec.toValue a)
  read := codec.fromValue
  missing := some fallback
  missingItem := some fallback
  Valid := codec.Valid
  keeps := codec.fromValue_toValue

/-- `#[serde(default, skip_serializing_if = "Vec::is_empty")]`. -/
def unlessEmpty (name : String) (codec : Codec α) (get : S → List α) (set : List α → S → S) :
    Field S where
  name := name
  get := get
  set := set
  write items := if items.isEmpty then none else some (codec.vec.toValue items)
  read := codec.vec.fromValue
  missing := some []
  missingItem := some []
  Valid := codec.vec.Valid
  keeps items h := by
    split
    · rename_i hempty
      rw [List.isEmpty_iff.mp hempty]
      rfl
    · exact codec.vec.fromValue_toValue items h

/-- Read an `Option`. -/
def fromOption (codec : Codec α) : JsonValue → Option (Option α)
  | .null => some none
  | value => (codec.fromValue value).map some

theorem fromOption_toValue (codec : Codec α) {a : α} (h : codec.Valid a) :
    fromOption codec (codec.toValue a) = some (some a) := by
  rw [fromOption, codec.fromValue_toValue a h]
  · rfl
  · exact codec.toValue_ne_null a

/-- `#[serde(skip_serializing_if = "Option::is_none")]`. An `Option` may be missing, but not among
values without names. -/
def optional (name : String) (codec : Codec α) (get : S → Option α) (set : Option α → S → S) :
    Field S where
  name := name
  get := get
  set := set
  write a := a.map codec.toValue
  read := fromOption codec
  missing := some none
  missingItem := none
  Valid a := ∀ x ∈ a, codec.Valid x
  keeps a h := by
    cases a with
    | none => rfl
    | some x => exact fromOption_toValue codec (h x rfl)

end Field

/-! ### Records -/

/-- **A record without `#[serde(flatten)]`**: its fields, and that they make it up. -/
structure Table (S : Type) where
  fields : List (Field S)
  blank : S
  complete : Record.Complete fields blank

namespace Table

variable {S : Type} (table : Table S)

/-- The names of the fields. -/
def names : List String := Record.names table.fields

/-- A record is written as an object and read from an object or an array. -/
def codec : Codec S where
  toValue record := .object (Record.encode table.fields record)
  fromValue
    | .object entries => Record.decode table.fields table.blank entries
    | .array items => Record.decodeItems table.fields table.blank items
    | _ => none
  Valid := Record.Valid table.fields
  fromValue_toValue _ hvalid := Record.decode_encode table.complete hvalid
  toValue_ne_null _ := nofun

end Table

/-! ### Records that collect what they have no field for -/

/-- A record with a map under `#[serde(flatten)]`, next to its fields. -/
structure Flattened (S : Type) where
  fields : List (Field S)
  raw : S → List (String × JsonValue)
  /-- The record that has only collected. -/
  blank : List (String × JsonValue) → S
  nodup : (Record.names fields).Nodup
  rebuild : ∀ record, fields.foldl (fun r field => field.set (field.get record) r)
    (blank (raw record)) = record
  raw_blank : ∀ entries, raw (blank entries) = entries
  raw_set : ∀ field ∈ fields, ∀ a record, raw (field.set a record) = raw record

namespace Flattened

variable {S : Type} (record : Flattened S)

/-- The names of the fields. -/
def names : List String := Record.names record.fields

/-- Write the record: the map comes after the fields. -/
def toValue (x : S) : JsonValue := .object (Record.encode record.fields x ++ record.raw x)

/-- The entries that there is no field for. -/
def collected (entries : List (String × JsonValue)) : List (String × JsonValue) :=
  JsonValue.normalizeMap (entries.filter fun entry => entry.1 ∉ record.names)

/-- Read the record, which is not read from an array. -/
def fromValue : JsonValue → Option S
  | .object entries => Record.decode record.fields (record.blank (record.collected entries)) entries
  | _ => none

/-- **Nothing that was collected has the name of a field.** -/
def Apart (x : S) : Prop := ∀ entry ∈ record.raw x, entry.1 ∉ record.names

/-- What there can be: the fields have values that there can be, and what was collected is a map,
apart from the fields. -/
def Valid (x : S) : Prop :=
  Record.Valid record.fields x ∧ JsonValue.IsMap (record.raw x) ∧ record.Apart x

/-- What is collected has no name of a field. -/
theorem not_mem_names_of_mem_collected {entries : List (String × JsonValue)}
    {entry : String × JsonValue} (h : entry ∈ record.collected entries) :
    entry.1 ∉ record.names := by
  have hmem := JsonValue.fst_mem_of_mem_normalizeFields (SortedMap.mem_insertAll h)
  obtain ⟨first, hfirst, heq⟩ := List.mem_map.mp hmem
  rw [← heq]
  exact of_decide_eq_true (List.mem_filter.mp hfirst).2

/-- What a record holds after it was read. -/
theorem raw_of_fromValue {entries : List (String × JsonValue)} {x : S}
    (h : record.fromValue (.object entries) = some x) :
    record.raw x = record.collected entries := by
  rw [Record.decode_unchanged record.raw_set h, record.raw_blank]

/-- All that was written and is not of a field is the map. -/
theorem collected_toValue {x : S} (hmap : JsonValue.IsMap (record.raw x))
    (hapart : record.Apart x) :
    record.collected (Record.encode record.fields x ++ record.raw x) = record.raw x := by
  have hfields : ((Record.encode record.fields x).filter
      fun entry => entry.1 ∉ record.names) = [] :=
    List.filter_eq_nil_iff.mpr fun entry hentry hnot =>
      of_decide_eq_true hnot (Record.name_of_mem_encode hentry)
  have hraw : ((record.raw x).filter fun entry => entry.1 ∉ record.names) = record.raw x :=
    List.filter_eq_self.mpr fun entry hentry => decide_eq_true (hapart entry hentry)
  rw [collected, List.filter_append, hfields, hraw, List.nil_append, hmap.normalizeMap]

/-- **When a record with a map is read back**: exactly if nothing in the map has the name of a
field. -/
theorem fromValue_toValue_iff {x : S} (hvalid : Record.Valid record.fields x)
    (hmap : JsonValue.IsMap (record.raw x)) :
    record.fromValue (record.toValue x) = some x ↔ record.Apart x := by
  constructor
  · intro h entry hentry
    rw [record.raw_of_fromValue h] at hentry
    exact record.not_mem_names_of_mem_collected hentry
  · intro hapart
    rw [toValue, fromValue, record.collected_toValue hmap hapart]
    exact Record.decode_of_perm record.nodup (record.rebuild x) hvalid hapart (.refl _)

/-- **What is read is apart from the fields**, whatever the entries are. -/
theorem apart_of_fromValue {value : JsonValue} {x : S} (h : record.fromValue value = some x) :
    JsonValue.IsMap (record.raw x) ∧ record.Apart x := by
  cases value with
  | object entries =>
    have hraw := record.raw_of_fromValue h
    constructor
    · rw [hraw]
      exact JsonValue.isMap_normalizeMap _
    · intro entry hentry
      rw [hraw] at hentry
      exact record.not_mem_names_of_mem_collected hentry
  | _ => cases h

/-- A record with a map, as a type that is written and read. -/
def codec : Codec S where
  toValue := record.toValue
  fromValue := record.fromValue
  Valid := record.Valid
  fromValue_toValue _ h := (record.fromValue_toValue_iff h.1 h.2.1).mpr h.2.2
  toValue_ne_null _ := nofun

end Flattened

end FirecrackerSdk

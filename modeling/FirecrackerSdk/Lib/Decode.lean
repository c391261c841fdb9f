import Mathlib.Data.List.Forall2

/-!
# Decoding records

A decoder takes a value and gives what it holds, or an error. A record is decoded field by field, a
list item by item; both are decoded exactly if all their parts are. What is said of a decoder is
which values it takes, and how what it gives is related to them (`Decode.Takes`).
-/

namespace Decode

variable {V ε α β : Type}

/-- Decode a field, if the record has it. -/
def visit (decode : V → Except ε α) : Option V → Except ε (Option α)
  | none => .ok none
  | some value => (decode value).map some

theorem bind_eq_ok_iff {x : Except ε α} {f : α → Except ε β} {b : β} :
    x >>= f = .ok b ↔ ∃ a, x = .ok a ∧ f a = .ok b := by
  cases x with
  | error e =>
    constructor
    · rintro ⟨⟩
    · rintro ⟨a, ⟨⟩, -⟩
  | ok a =>
    constructor
    · intro h
      exact ⟨a, rfl, h⟩
    · rintro ⟨a, ⟨⟩, h⟩
      exact h

theorem map_eq_ok_iff {x : Except ε α} {f : α → β} {b : β} :
    x.map f = .ok b ↔ ∃ a, x = .ok a ∧ f a = b := by
  cases x <;> simp [Except.map]

/-- A field that is needed is there if the record is decoded. -/
theorem isSome_of_visit {decode : V → Except ε α} {field : Option V} {a : α}
    (h : visit decode field = .ok (some a)) : field.isSome = true := by
  cases field with
  | none => cases h
  | some value => rfl

/-- Items are decoded one by one. -/
theorem mapM_eq_ok_iff {decode : V → Except ε α} {items : List V} {results : List α} :
    items.mapM decode = .ok results ↔
      List.Forall₂ (fun item result => decode item = .ok result) items results := by
  induction items generalizing results with
  | nil =>
    rw [List.mapM_nil, List.forall₂_nil_left_iff]
    constructor
    · rintro ⟨⟩
      rfl
    · rintro rfl
      rfl
  | cons item items ih =>
    rw [List.mapM_cons, bind_eq_ok_iff, List.forall₂_cons_left_iff]
    constructor
    · rintro ⟨result, hresult, hrest⟩
      obtain ⟨results', hresults, hpure⟩ := bind_eq_ok_iff.mp hrest
      cases hpure
      exact ⟨result, results', hresult, ih.mp hresults, rfl⟩
    · rintro ⟨result, results', hresult, hresults, rfl⟩
      exact ⟨result, hresult, bind_eq_ok_iff.mpr ⟨results', ih.mpr hresults, rfl⟩⟩

/-- **Which values a decoder takes**, and what it makes of them. -/
def Takes (decode : V → Except ε α) (P : V → Prop) (R : V → α → Prop) : Prop :=
  ∀ value, P value → ∃ a, decode value = .ok a ∧ R value a

variable {decode : V → Except ε α} {P : V → Prop} {R : V → α → Prop}

/-- A decoder that gives what a value denotes, if it denotes something. -/
theorem takes_of_denoted {denoted : V → Option α}
    (h : ∀ value a, denoted value = some a → decode value = .ok a) :
    Takes decode (fun value => (denoted value).isSome = true)
      fun value a => denoted value = some a := by
  intro value hvalue
  obtain ⟨a, ha⟩ := Option.isSome_iff_exists.mp hvalue
  exact ⟨a, h value a ha, ha⟩

theorem eq_bind_of_rel {denoted : V → Option α} {field : Option V} {given : Option α}
    (h : Option.Rel (fun value a => denoted value = some a) field given) :
    given = field.bind denoted := by
  cases h with
  | none => rfl
  | some ha => exact ha.symm

/-- A field that may be left out. -/
theorem Takes.visit (h : Takes decode P R) {field : Option V}
    (hfield : ∀ value, field = some value → P value) :
    ∃ given, Decode.visit decode field = .ok given ∧ Option.Rel R field given := by
  cases field with
  | none => exact ⟨none, rfl, .none⟩
  | some value =>
    obtain ⟨a, hok, hrel⟩ := h value (hfield value rfl)
    exact ⟨some a, by rw [Decode.visit, hok]; rfl, .some hrel⟩

/-- A field that is there. -/
theorem Takes.visit_some (h : Takes decode P R) {field : Option V}
    (hfield : ∃ value, field = some value ∧ P value) :
    ∃ value a, field = some value ∧ Decode.visit decode field = .ok (some a) ∧ R value a := by
  obtain ⟨value, rfl, hvalue⟩ := hfield
  obtain ⟨a, hok, hrel⟩ := h value hvalue
  exact ⟨value, a, rfl, by rw [Decode.visit, hok]; rfl, hrel⟩

theorem Takes.mapM (h : Takes decode P R) {items : List V} (hitems : ∀ item ∈ items, P item) :
    ∃ results, items.mapM decode = .ok results ∧ List.Forall₂ R items results := by
  induction items with
  | nil => exact ⟨[], rfl, .nil⟩
  | cons item items ih =>
    obtain ⟨result, hok, hrel⟩ := h item (hitems item List.mem_cons_self)
    obtain ⟨results, hoks, hrels⟩ := ih fun i hi => hitems i (List.mem_cons_of_mem _ hi)
    exact ⟨result :: results, mapM_eq_ok_iff.mpr (.cons hok (mapM_eq_ok_iff.mp hoks)),
      .cons hrel hrels⟩

/-- Only items that are decoded are in a list that is. -/
theorem exists_of_mapM {items : List V} {results : List α} (h : items.mapM decode = .ok results) :
    ∀ item ∈ items, ∃ result, decode item = .ok result := by
  intro item hitem
  obtain ⟨i, hi, rfl⟩ := List.getElem_of_mem hitem
  have hall := mapM_eq_ok_iff.mp h
  exact ⟨_, hall.get hi (hall.length_eq ▸ hi)⟩

end Decode

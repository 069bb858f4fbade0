import Inlay.Config.Value
import Mathlib.Data.List.Nodup

/-!
# Fields by their names

What setting a field does to the names of the fields and to their order. A field that is there is
set in its place, and a new one comes last, so that no name comes twice.
-/

set_option autoImplicit false

namespace Inlay

namespace Fields

variable {name other : Key} {value new : Value} {fields : Fields}

/-- The names of fields, each in the form that all names of the same field share. -/
def names (fields : Fields) : List Key := fields.map fun field => field.1.normal

theorem normal_mem_names {field : Key × Value} (member : field ∈ fields) :
    field.1.normal ∈ names fields := List.mem_map_of_mem member

theorem nodup_names_cons {field : Key × Value} :
    (names (field :: fields)).Nodup ↔ field.1.normal ∉ names fields ∧ (names fields).Nodup :=
  List.nodup_cons

theorem get?_cons (field : Key × Value) (fields : Fields) :
    get? name (field :: fields) =
      if field.1.normal = name.normal then some field.2 else get? name fields := by
  obtain ⟨key, value⟩ := field
  simp only [get?, Key.same_iff]

theorem set_cons (field : Key × Value) (fields : Fields) :
    set name value (field :: fields) =
      if field.1.normal = name.normal then (field.1, value) :: fields
      else field :: set name value fields := by
  obtain ⟨key, old⟩ := field
  simp only [set, Key.same_iff]

theorem get?_eq_none_iff : get? name fields = none ↔ name.normal ∉ names fields := by
  induction fields with
  | nil => simp [get?, names]
  | cons field fields ih =>
      rw [get?_cons, names, List.map_cons, List.mem_cons, not_or]
      split
      · next same => simp [same]
      · next apart =>
          rw [ih]
          exact (and_iff_right (Ne.symm apart)).symm

theorem get?_congr (same : name.normal = other.normal) :
    get? name fields = get? other fields := by
  induction fields with
  | nil => rfl
  | cons field fields ih => rw [get?_cons, get?_cons, same, ih]

theorem exists_mem_of_get? (held : get? name fields = some value) :
    ∃ field ∈ fields, field.2 = value := by
  induction fields with
  | nil => cases held
  | cons field fields ih =>
      rw [get?_cons] at held
      split at held
      · exact ⟨field, .head _, Option.some.inj held⟩
      · obtain ⟨later, member, same⟩ := ih held
        exact ⟨later, .tail _ member, same⟩

theorem get?_of_mem (distinct : (names fields).Nodup) {field : Key × Value}
    (member : field ∈ fields) : get? field.1 fields = some field.2 := by
  induction fields with
  | nil => cases member
  | cons first fields ih =>
      obtain ⟨fresh, others⟩ := nodup_names_cons.mp distinct
      rw [get?_cons]
      rcases List.mem_cons.mp member with rfl | later
      · rw [if_pos rfl]
      · have apart : ¬ first.1.normal = field.1.normal :=
          fun same => fresh (same ▸ normal_mem_names later)
        rw [if_neg apart, ih others later]

theorem get?_set_of_same (same : name.normal = other.normal) (value : Value) (fields : Fields) :
    get? other (set name value fields) = some value := by
  rw [get?_set, if_pos (Key.same_iff.mpr same)]

theorem get?_set_of_ne (apart : name.normal ≠ other.normal) (value : Value) (fields : Fields) :
    get? other (set name value fields) = get? other fields := by
  rw [get?_set, if_neg (mt Key.same_iff.mp apart)]

/-- Setting a field to the value that it holds changes nothing. -/
theorem set_of_get? (held : get? name fields = some value) : set name value fields = fields := by
  induction fields with
  | nil => cases held
  | cons field fields ih =>
      rw [get?_cons] at held
      rw [set_cons]
      split at held
      · next same =>
          cases held
          rw [if_pos same]
      · next apart => rw [if_neg apart, ih held]

theorem set_set (same : name.normal = other.normal) :
    set other new (set name value fields) = set name new fields := by
  induction fields with
  | nil => simp [set, Key.same_iff, same]
  | cons field fields ih =>
      rw [set_cons, set_cons]
      split
      · next here => rw [set_cons, if_pos (here.trans same)]
      · next apart => rw [set_cons, if_neg (same ▸ apart), ih]

/-- A field that is there keeps its place, so it may be set before or after another one. -/
theorem set_comm (apart : name.normal ≠ other.normal) (present : name.normal ∈ names fields) :
    set name value (set other new fields) = set other new (set name value fields) := by
  induction fields with
  | nil => simp [names] at present
  | cons field fields ih =>
      rw [set_cons field fields, set_cons field fields]
      by_cases here : field.1.normal = name.normal
      · have elsewhere : ¬ field.1.normal = other.normal := fun same => apart (here.symm.trans same)
        rw [if_neg elsewhere, if_pos here, set_cons, if_pos here, set_cons, if_neg elsewhere]
      · have later : name.normal ∈ names fields := by
          rcases List.mem_cons.mp present with same | later
          · exact absurd same.symm here
          · exact later
        rw [if_neg here]
        split
        · next same => rw [set_cons, if_neg here, set_cons, if_pos same]
        · next elsewhere => rw [set_cons, if_neg here, set_cons, if_neg elsewhere, ih later]

theorem mem_names_set (name other : Key) (value : Value) (fields : Fields) :
    other.normal ∈ names (set name value fields) ↔
      other.normal = name.normal ∨ other.normal ∈ names fields := by
  induction fields with
  | nil => simp [set, names]
  | cons field fields ih =>
      rw [set_cons]
      split
      · next same =>
          simp only [names, List.map_cons, List.mem_cons, same]
          exact (or_self_left).symm
      · have first := or_congr_right (a := other.normal = field.1.normal) ih
        simp only [names, List.map_cons, List.mem_cons] at first ⊢
        rw [first, or_left_comm]

theorem eq_or_mem_of_mem_set {field : Key × Value} (member : field ∈ set name value fields) :
    field.2 = value ∨ field ∈ fields := by
  induction fields with
  | nil => exact .inl (by rw [List.mem_singleton.mp member])
  | cons first fields ih =>
      rw [set_cons] at member
      split at member
      · rcases List.mem_cons.mp member with rfl | later
        · exact .inl rfl
        · exact .inr (.tail _ later)
      · rcases List.mem_cons.mp member with rfl | later
        · exact .inr (.head _)
        · exact (ih later).imp_right (.tail _)

theorem nodup_names_set (distinct : (names fields).Nodup) (name : Key) (value : Value) :
    (names (set name value fields)).Nodup := by
  induction fields with
  | nil => simp [set, names]
  | cons field fields ih =>
      obtain ⟨fresh, others⟩ := nodup_names_cons.mp distinct
      rw [set_cons]
      split
      · exact distinct
      · next apart =>
          refine nodup_names_cons.mpr ⟨fun member => ?_, ih others⟩
          rcases (mem_names_set name field.1 value fields).mp member with same | inside
          · exact apart same
          · exact fresh inside

end Fields

end Inlay

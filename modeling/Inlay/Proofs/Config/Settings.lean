import Inlay.Config.Options

/-!
# Settings of a section

A setting is the field of its section, or what stands for it if it is not given, and a setting
that is a list is of a kind whose texts can be listed. Where a section is no mapping, none of its
settings can be examined.
-/

set_option autoImplicit false

namespace Inlay

namespace Value

/-- Whether the texts of a value can be listed. -/
def isListable : Value → Bool
  | .null | .text _ => true
  | value => value.itemWordings?.isSome

/-- The field of a section, or what stands for it if it is not given. -/
def field (part : Value) (name : String) (default : Value) : Value :=
  match part with
  | .mapping fields => (Fields.get? (Text.ofString name) fields).getD default
  | _ => default

end Value

namespace Config

theorem setting_eq (name : String) (default part : Value) :
    setting name default part =
      if part.isMapping then .ok (part.field name default)
      else .error (.config (.withoutFields part.kind)) := by
  cases part <;> rfl

theorem toTexts_cases (value : Value) :
    (value.isListable = true ∧ ∃ texts, value.toTexts = .ok texts) ∨
      (value.isListable = false ∧
        value.toTexts = .error (.config (.withoutItems value.kind))) := by
  cases value with
  | null | text _ | bytes _ | list _ | mapping _ | set _ | pairs _ => exact .inl ⟨rfl, _, rfl⟩
  | bool _ | int _ | float _ | moment _ => exact .inr ⟨rfl, rfl⟩

end Config

end Inlay

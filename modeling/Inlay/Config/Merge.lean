import Inlay.Config.Value

/-!
# Merging configurations

One configuration laid over another: where both hold a mapping their fields are merged, and
everywhere else the upper one wins.
-/

set_option autoImplicit false

namespace Inlay

mutual

/-- Lays fields over others, one after another. -/
def mergeFields (base : Fields) : List (Key × Value) → Fields
  | [] => base
  | (name, value) :: fields =>
      mergeFields (Fields.set name (mergeValue (Fields.get? name base) value) base) fields
termination_by structural fields => fields

/-- Lays a value over the one that a field has, if it has any. -/
def mergeValue (old : Option Value) : Value → Value
  | .mapping fields =>
      match old with
      | some (.mapping base) => .mapping (mergeFields base fields)
      | _ => .mapping fields
  | value => value
termination_by structural value => value

end

end Inlay

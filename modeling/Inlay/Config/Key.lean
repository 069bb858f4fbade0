import Inlay.Config.Moment
import Inlay.Number.Binary64
import Inlay.Text.Digit
import Inlay.Text.Quoted

/-!
# Names of fields

A field of a mapping is named by a text, a number, a truth value, a moment, by bytes or by
nothing. Names that stand for equal numbers or for the same instant name the same field
(`same_iff`).
-/

set_option autoImplicit false

namespace Inlay

/-- The name of a field. -/
inductive Key where
  | null
  | bool (value : Bool)
  | int (value : Int)
  | float (value : Binary64)
  | text (name : Text)
  | moment (value : Moment)
  | bytes (value : List UInt8)
deriving Repr, DecidableEq

instance : Coe Text Key := ⟨.text⟩

namespace Key

/-- The form that all names of the same field share. Truth values count as zero and one, whole
numbers as integers, and moments as instants. -/
def normal : Key → Key
  | .bool value => .int (if value then 1 else 0)
  | .float value =>
      if value.isWhole then .int value.truncate
      else if value.isUndefined then .float .undefined
      else .float value
  | .moment value => .moment value.instant
  | key => key

/-- Whether two names name the same field. -/
def same (key other : Key) : Bool := key.normal == other.normal

theorem same_iff {key other : Key} : key.same other = true ↔ key.normal = other.normal := by
  simp [same]

def shown : Key → Text
  | .null => "None"
  | .bool value => if value then "True" else "False"
  | .int value => intNumeral value
  | .float value => value.text
  | .text name => quoted name
  | .moment value => value.message
  | .bytes value => quotedBytes value

/-- A name as a text of its own: a text stands for itself, a moment for its usual form, and all
else is shown. -/
def asText : Key → Text
  | .text name => name
  | .moment value => value.text
  | key => key.shown

end Key

end Inlay

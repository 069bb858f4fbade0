import Inlay.Config.Key

/-!
# Configuration values

The values of a configuration document, of all kinds that a document can write: besides nothing,
truth values, numbers, texts, moments, lists and mappings also bytes, sets, and lists of pairs,
which is what ordered mappings are read as. A mapping keeps its fields in the order in which their
names first came, and a set lists its items in the order in which the machine goes through them.
A value is finite: a document that refers to itself inside itself has none.
-/

set_option autoImplicit false

namespace Inlay

/-- A value of a configuration. Nothing looks into the pairs of a list of them, so each one is known
by how it is shown. -/
inductive Value where
  | null
  | bool (value : Bool)
  | int (value : Int)
  | float (value : Binary64)
  | text (value : Text)
  | moment (value : Moment)
  | bytes (value : List UInt8)
  | list (items : List Value)
  | mapping (fields : List (Key × Value))
  | set (items : List Key)
  | pairs (wordings : List Text)
deriving Repr, Inhabited

abbrev Fields := List (Key × Value)

namespace Fields

def get? (name : Key) : Fields → Option Value
  | [] => none
  | (key, value) :: fields => if key.same name then some value else get? name fields

/-- The fields with one of them set: in its place, and under the name that it has, if it is
there, else behind the others. -/
def set (name : Key) (value : Value) : Fields → Fields
  | [] => [(name, value)]
  | (key, old) :: fields =>
      if key.same name then (key, value) :: fields else (key, old) :: set name value fields

/-- A field that was set holds the new value, and all others hold theirs. -/
theorem get?_set (name other : Key) (value : Value) (fields : Fields) :
    get? other (set name value fields) =
      if name.same other then some value else get? other fields := by
  induction fields with
  | nil => simp [set, get?]
  | cons field fields ih =>
      obtain ⟨key, old⟩ := field
      simp only [set, get?, Key.same_iff] at ih ⊢
      by_cases here : key.normal = name.normal
      · by_cases same : name.normal = other.normal <;> simp [get?, Key.same_iff, here, same]
      · rw [if_neg here]
        by_cases same : key.normal = other.normal
        · have apart : ¬ name.normal = other.normal := fun equal => here (same.trans equal.symm)
          simp [get?, Key.same_iff, same, apart]
        · simp [get?, Key.same_iff, same, ih]

end Fields

namespace Value

def kind : Value → String
  | .null => "NoneType"
  | .bool _ => "bool"
  | .int _ => "int"
  | .float _ => "float"
  | .text _ => "str"
  | .moment value => s!"datetime.{value.kind}"
  | .bytes _ => "bytes"
  | .list _ | .pairs _ => "list"
  | .mapping _ => "dict"
  | .set _ => "set"

def isMapping : Value → Bool
  | .mapping _ => true
  | _ => false

def shortKind : Value → String
  | .moment value => value.kind
  | value => value.kind

/-- A value that counts as not given: nothing, false, zero, or empty. -/
def isVoid : Value → Bool
  | .null => true
  | .bool value => !value
  | .int value => value == 0
  | .float value => value.isZero
  | .text value => value.isEmpty
  | .moment _ => false
  | .bytes value => value.isEmpty
  | .list items => items.isEmpty
  | .mapping fields => fields.isEmpty
  | .set items => items.isEmpty
  | .pairs wordings => wordings.isEmpty

/-- The value, or a replacement for one that counts as not given. -/
def orElse (value replacement : Value) : Value := if value.isVoid then replacement else value

mutual

def shown : Value → Text
  | .null => Key.shown .null
  | .bool value => Key.shown (.bool value)
  | .int value => Key.shown (.int value)
  | .float value => Key.shown (.float value)
  | .text value => Key.shown (.text value)
  | .moment value => Key.shown (.moment value)
  | .bytes value => Key.shown (.bytes value)
  | .list items => "[" ++ shownItems items ++ "]"
  | .mapping fields => "\x7b" ++ shownFields fields ++ "\x7d"
  | .set items =>
      if items.isEmpty then "set()"
      else "\x7b" ++ Text.joinWith ", " (items.map Key.shown) ++ "\x7d"
  | .pairs wordings => "[" ++ Text.joinWith ", " wordings ++ "]"
termination_by structural value => value

/-- The items of a list, separated by commas. -/
def shownItems : List Value → Text
  | [] => []
  | item :: items =>
      let behind : Text := if items.isEmpty then [] else ", " ++ shownItems items
      shown item ++ behind
termination_by structural items => items

/-- The fields of a mapping, separated by commas. -/
def shownFields : List (Key × Value) → Text
  | [] => []
  | (name, value) :: fields =>
      let behind : Text := if fields.isEmpty then [] else ", " ++ shownFields fields
      name.shown ++ ": " ++ shown value ++ behind
termination_by structural fields => fields

end

mutual

/-- The texts that a value holds, from first to last. Neither names of fields nor what is in sets
and pairs are among them. -/
def texts : Value → List Text
  | .text value => [value]
  | .list items => itemTexts items
  | .mapping fields => fieldTexts fields
  | _ => []
termination_by structural value => value

def itemTexts : List Value → List Text
  | [] => []
  | item :: items => texts item ++ itemTexts items
termination_by structural items => items

def fieldTexts : List (Key × Value) → List Text
  | [] => []
  | (_, value) :: fields => texts value ++ fieldTexts fields
termination_by structural fields => fields

end

/-- A value as a text of its own: a text stands for itself, a moment for its usual form, and all
else is shown. -/
def asText : Value → Text
  | .text value => value
  | .moment value => value.text
  | value => value.shown

end Value

end Inlay

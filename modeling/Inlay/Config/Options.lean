import Inlay.Component.Inline
import Inlay.Config.Integer

/-!
# Options of a run

The options of a run as a configuration gives them. Missing and blank settings take their
defaults; a setting that is a list may be written as a single text.
-/

set_option autoImplicit false

namespace Inlay

/-- The texts of what a value holds, if it holds items: those of a list or a set, the names of a
mapping, and the numbers of bytes. -/
def Value.itemWordings? : Value → Option (List Text)
  | .list items => some (items.map Value.asText)
  | .mapping fields => some (fields.map (·.1.asText))
  | .set items => some (items.map Key.asText)
  | .pairs wordings => some wordings
  | .bytes value => some (value.map fun byte => natNumeral byte.toNat)
  | _ => none

/-- The texts of a list setting. A single text is a list by itself; of a value that holds items
those that are not blank are taken. -/
def Value.toTexts : Value → Except Fault (List Text)
  | .null => .ok []
  | .text value => .ok [value]
  | value =>
      match value.itemWordings? with
      | some wordings => .ok (wordings.filter fun text => !Text.isBlankText text)
      | none => .error (.config (.withoutItems value.kind))

namespace Config

def fieldsOf : Value → Except Fault Fields
  | .mapping fields => .ok fields
  | value => .error (.config (.withoutFields value.kind))

/-- A section of a configuration. A section that is missing or counts as not given has no
fields. -/
def sectionOf (name : Text) (config : Fields) : Value :=
  ((Fields.get? name config).getD (.mapping [])).orElse (.mapping [])

def setting (name : String) (default : Value) (part : Value) : Except Fault Value := do
  let fields ← fieldsOf part
  return (Fields.get? (Text.ofString name) fields).getD default

def dotted (extension : Text) : Text :=
  match extension with
  | .char '.' :: _ => extension
  | _ => '.' :: extension

def styleOptions (styles : Value) : Except Fault StyleOptions := do
  let extensions ← (← setting "less_extensions" (.list [.text ".less"]) styles).toTexts
  let mark ← setting "import_prefix" .null styles
  let roots ← (← setting "package_roots" .null styles).toTexts
  return {
    packageMark := (mark.orElse (.text ['~'])).asText
    packageRoots := roots.map Path.ofText
    lessExtensions := if extensions = [] then [".less"] else extensions.map dotted }

/-- The greatest number of files in work at once in its section; zero means any number. -/
def concurrency (inlining : Value) : Except Fault Int := do
  let value ← setting "max_concurrency" (.int 16) inlining
  match (value.orElse (.int 0)).toInteger with
  | .error cause => .error (.config cause)
  | .ok number =>
      if number < 0 then .error (.config .negativeConcurrency) else .ok number

/-- The options of a run. Settings are examined in a fixed order, so that of several that are
not usable the first one is reported. -/
def inlineOptions (config : Value) : Except Fault InlineOptions := do
  let fields ← fieldsOf config
  let inlining := sectionOf "inline" fields
  let styles ← styleOptions (sectionOf "styles" fields)
  let maxConcurrency ← concurrency inlining
  let includes ← (← setting "include" .null inlining).toTexts
  let excludes ← (← setting "exclude" .null inlining).toTexts
  let encoding ← setting "encoding" .null inlining
  return {
    includes := if includes = [] then ["**/*.ts"] else includes
    excludes := excludes
    encodingName := (encoding.orElse (.text "utf-8")).asText
    maxConcurrency := maxConcurrency
    styles := styles }

end Config

end Inlay

import Inlay.Stylesheet.Import
import Inlay.Stylesheet.ReferenceOnly
import Inlay.Stylesheet.Resolve
import Inlay.TextFile

/-!
# Expanding imports

Import statements are replaced by the content of the files that they name, and the imports of
those files in turn. Each file is included once unless an import asks for more. Imports that
stay are either rewritten in their place, or collected in order and taken out of the text.
-/

set_option autoImplicit false

namespace Inlay

/-- What becomes of the imports that stay. -/
inductive Placement where
  | inPlace
  | hoisted
deriving Repr, DecidableEq

/-- A file that an import contributed, and whether the import asked for it in any case. -/
structure Inclusion where
  file : Path
  repeated : Bool
deriving Repr, DecidableEq

/-- What an expansion carries along: the file that is expanded, the files that were included,
and the imports that were taken out of the text, of both the last one first. -/
structure Progress where
  entry : Path
  inclusions : List Inclusion
  hoisted : List Text
deriving Repr, DecidableEq

namespace Progress

/-- Whether a file is the one that is expanded, or was included already. -/
def hasSeen (progress : Progress) (file : Path) : Bool :=
  progress.entry == file || progress.inclusions.any fun inclusion => inclusion.file == file

def addFile (progress : Progress) (file : Path) (repeated : Bool) : Progress :=
  { progress with inclusions := ⟨file, repeated⟩ :: progress.inclusions }

/-- The progress after one more import was taken out of the text. -/
def hoist (progress : Progress) (statement : Text) : Progress :=
  { progress with hoisted := statement :: progress.hoisted }

/-- The imports that were taken out of the text, in order. -/
def imports (progress : Progress) : List Text := progress.hoisted.reverse

end Progress

/-- What the rendering of a stylesheet depends on besides the files: its options, the
directory that relative paths start at, and the compiler. -/
structure StyleContext where
  options : StyleOptions
  workingDirectory : Location
  compile : Text → Except Text Text

abbrev Expansion := Text × Progress

def deepestImport : Nat := 16

namespace Stylesheet

/-- Puts an import that stays where its placement says. -/
def placeImport (placement : Placement) (statement : Text) (progress : Progress) : Expansion :=
  match placement with
  | .inPlace => (statement, progress)
  | .hoisted => ([], progress.hoist statement)

def underCondition (condition content : Text) : Text :=
  if condition = [] then content
  else "@media " ++ condition ++ " \x7b\n" ++ content ++ "\n\x7d"

/-- The expansion of a file that is visited: from a placement, the file, its text, and the
progress so far. -/
abbrev Visit := Placement → Path → Text → Progress → Inquiry Expansion

/-- The content that an import of a file's text contributes under its options. -/
def importContent (visit : Visit) (placement : Placement) (names : List Text) (file : Path)
    (text : Text) (progress : Progress) : Inquiry Expansion :=
  if names.contains "reference" then do
    let (expanded, progress) ← visit .inPlace file text progress
    return (referenceOnly expanded, progress)
  else if names.contains "inline" then return (text, progress)
  else visit placement file text progress

def expandStatement (context : StyleContext) (visit : Visit) (placement : Placement)
    (file : Text) (statement : ImportStatement) (progress : Progress) : Inquiry Expansion := do
  let names := statement.options
  if ImportStatement.staysImport statement.target names then
    let condition := Text.trimEnd statement.condition
    return placeImport placement (ImportStatement.plainImport statement.target condition) progress
  else
    let reference := ImportStatement.unquoted statement.target
    let importer := Path.ofText file
    match ← resolveImport context.workingDirectory context.options reference importer with
    | none =>
        if names.contains "optional" then
          Inquiry.debug .stylesheets
            ("Skipping optional import '" ++ reference ++ "' in " ++ importer.text)
          return ([], progress)
        else .fail (.stylesheet file (.unresolvedImport reference))
    | some found =>
        let repeated := names.contains "multiple"
        if !repeated && progress.hasSeen found then return ([], progress)
        else
          let progress := progress.addFile found repeated
          Inquiry.debug .stylesheets
            ("Expanding import '" ++ reference ++ "' -> " ++ found.text)
          let text ← Inquiry.readUnified .utf8 found
          let (content, progress) ← importContent visit placement names found text progress
          return (underCondition (Text.trim statement.condition) content, progress)

/-- The texts that replace the tokens of a file, one after another. -/
def expandTokens (context : StyleContext) (visit : Visit) (placement : Placement) (file : Text) :
    List SheetToken → Progress → Inquiry (List Text × Progress)
  | [], progress => return ([], progress)
  | .inert token :: tokens, progress => do
      let (images, progress) ← expandTokens context visit placement file tokens progress
      return (spelling token :: images, progress)
  | .importing statement :: tokens, progress => do
      let (image, progress) ← expandStatement context visit placement file statement progress
      let (images, progress) ← expandTokens context visit placement file tokens progress
      return (image :: images, progress)

def expandText (context : StyleContext) (visit : Visit) (placement : Placement) (file text : Text)
    (progress : Progress) : Inquiry Expansion := do
  let pieces := SheetToken.scan.pieces text
  let (images, progress) ← expandTokens context visit placement file (tokensOf pieces) progress
  return (fill pieces images, progress)

/-- Expands the text of a file, with so many levels of files left, the file itself among
them. -/
def expandLevel (context : StyleContext) :
    Nat → Placement → Text → Text → Progress → Inquiry Expansion
  | 0, _, file, _, _ => .fail (.stylesheet file .importsTooDeep)
  | levels + 1, placement, file, text, progress =>
      expandText context (fun placement path => expandLevel context levels placement path.text)
        placement file text progress

/-- The text of a file with its imports expanded, the files that were included, and the imports
that were taken out of it. -/
def expand (context : StyleContext) (placement : Placement) (file text : Text) :
    Inquiry Expansion :=
  let path := Path.ofText file
  match path.refusal? with
  | some fault => .fail (.access fault path.text)
  | none =>
      expandLevel context (deepestImport + 1) placement file text
        ⟨path.absolute context.workingDirectory, [], []⟩

end Stylesheet

end Inlay

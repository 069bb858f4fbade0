import Inlay.Component.Reference
import Inlay.Host
import Inlay.Literal.Body
import Inlay.Literal.PathList
import Inlay.Stylesheet.Render

/-!
# Inlining the references of a component

Each template reference becomes a template in a literal. Then the first style reference
becomes a list of styles, in the order in which their files are listed.
-/

set_option autoImplicit false

namespace Inlay

/-- What a run is asked to do. -/
structure InlineOptions where
  includes : List Text := ["**/*.ts"]
  excludes : List Text := []
  encodingName : Text := "utf-8"
  maxConcurrency : Int := 16
  styles : StyleOptions := {}
deriving Repr, DecidableEq

/-- What the inlining of a component depends on besides the files. -/
structure Setting where
  options : InlineOptions
  workingDirectory : Location
  host : Host

namespace Setting

def charset (setting : Setting) : Charset := setting.host.charset setting.options.encodingName

def styleContext (setting : Setting) : StyleContext :=
  ⟨setting.options.styles, setting.workingDirectory, setting.host.compile⟩

end Setting

namespace Component

def templateProperty (content : Text) : Text :=
  "template: \"" ++ literalBody content ++ "\""

/-- How styles are written in place of their reference, given the body of each. -/
def stylesProperty (bodies : List Text) : Text :=
  "styles: ['" ++ Text.joinWith ",\n" bodies ++ "']"

def loadTemplate (resolve : Text → Path) (charset : Charset) (reference : TemplateReference) :
    Inquiry Text := do
  let file := resolve reference.path
  Inquiry.debug .inliner ("Inlining template " ++ file.text)
  let content ← Inquiry.readResource charset file
  return templateProperty content

/-- The content with each template reference replaced, in the order of the references. -/
def inlineTemplates (resolve : Text → Path) (charset : Charset) (content : Text) :
    Inquiry Text := do
  let pieces := TemplateReference.scan.pieces content
  let images ← Inquiry.forEach (loadTemplate resolve charset) (tokensOf pieces)
  return fill pieces images

/-- The body of one style: its file rendered, on one line. -/
def loadStyle (setting : Setting) (resolve : Text → Path) (path : Text) : Inquiry Text := do
  let file := resolve path
  Inquiry.debug .inliner ("Inlining stylesheet " ++ file.text)
  let raw ← Inquiry.readResource setting.charset file
  let rendered ← Stylesheet.render setting.styleContext file.text raw
  return literalBody rendered

/-- The bodies of the listed styles. All of them are loaded side by side, even if one fails. Of the
faults the one that comes first in time is told. -/
def loadStyles (setting : Setting) (race : Race) (resolve : Text → Path) (paths : List Text) :
    Inquiry (List Text) := do
  let outcomes ← Inquiry.forEach (fun path => (loadStyle setting resolve path).attempt) paths
  Inquiry.ofExcept (gather race outcomes)

def stylePaths (reference : StyleReference) : Except Fault (List Text) :=
  match PathList.parse reference.literal with
  | .ok paths => .ok paths
  | .error unread =>
      .error (.malformedPathList reference.literal (PathList.offsetOf reference.literal unread))

def inlineStyles (setting : Setting) (race : Race) (resolve : Text → Path) (content : Text) :
    Inquiry Text :=
  match StyleReference.scan.search? content with
  | none => return content
  | some (before, reference, behind) => do
      let paths ← Inquiry.ofExcept (stylePaths reference)
      let bodies ← loadStyles setting race resolve paths
      return before ++ stylesProperty bodies ++ behind

def inlineContent (setting : Setting) (race : Race) (resolve : Text → Path) (content : Text) :
    Inquiry Text := do
  let templated ← inlineTemplates resolve setting.charset content
  inlineStyles setting race resolve templated

end Component

end Inlay

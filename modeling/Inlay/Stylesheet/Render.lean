import Inlay.Stylesheet.Expand

/-!
# Rendering stylesheets

A plain stylesheet is rendered as it is. A source is expanded and compiled; the imports that
were taken out of it come first in the result, each once.
-/

set_option autoImplicit false

namespace Inlay.Stylesheet

def asLine (text : Text) : Text := text ++ "\n"

/-- The distinct imports, each on a line of its own, in front of the compiled text. -/
def withImports (imports : List Text) (compiled : Text) : Text :=
  imports.eraseDups.flatMap asLine ++ compiled

def compileExpanded (context : StyleContext) (file : Text) (expansion : Expansion) :
    Except Fault Text :=
  match checkBalanced expansion.1 with
  | .error cause => .error (.stylesheet file cause)
  | .ok () =>
      match context.compile expansion.1 with
      | .error message => .error (.stylesheet file (.compiler message))
      | .ok compiled => .ok (withImports expansion.2.imports compiled)

def compileSource (context : StyleContext) (file text : Text) : Inquiry Text := do
  let expansion ← expand context .hoisted file text
  Inquiry.ofExcept (compileExpanded context file expansion)

def render (context : StyleContext) (file text : Text) : Inquiry Text :=
  if isLess (Path.ofText file) context.options.lessExtensions then do
    Inquiry.debug .stylesheets ("Compiling LESS stylesheet " ++ file)
    compileSource context file text
  else return text

end Inlay.Stylesheet

import Inlay.Stylesheet.Structure
import Inlay.Text.Alphanumeric

/-!
# Stylesheets imported for reference

A stylesheet that is imported for reference contributes names but no rules: of its top-level
statements only variables, detached rule sets and mixins with parameters are kept.
-/

set_option autoImplicit false

namespace Inlay.Stylesheet

def withoutComments (text : Text) : Text :=
  Inert.commentScan.replace
    (fun
      | .comment _ => []
      | token => spelling token)
    text

def isNameChar (c : CodePoint) : Bool := isWordChar c || c == '-'

/-- Whether a statement begins with a variable's name and a colon. -/
def isDeclaration : Text → Bool
  | .char '@' :: text =>
      match text.takeWhile isNameChar, Text.trimStart (text.dropWhile isNameChar) with
      | _ :: _, .char ':' :: _ => true
      | _, _ => false
  | _ => false

/-- Whether a statement has a block with a parenthesis before it and is no at-rule. -/
def isParametric (statement : Text) : Bool :=
  statement.head? != some '@' &&
    match Text.cut? '\x7b' statement with
    | some (head, _) => head.contains '('
    | none => false

/-- The body of a statement: without comments, and without blanks at its ends. -/
def statementBody (statement : Text) : Text := Text.trim (withoutComments statement)

def isReferable (body : Text) : Bool := isDeclaration body || isParametric body

/-- The bodies of the statements that are kept when a stylesheet is imported for reference. -/
def referableBodies (text : Text) : List Text :=
  ((statements text).map statementBody).filter isReferable

/-- What a stylesheet that is imported for reference contributes. -/
def referenceOnly (text : Text) : Text := Text.joinWith ['\n'] (referableBodies text)

end Inlay.Stylesheet

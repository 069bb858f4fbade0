import Inlay.Fault
import Inlay.Stylesheet.Token

/-!
# The structure of stylesheets

Braces and semicolons outside inert tokens, the check that braces pair up, and the statements
at the top level of a stylesheet.
-/

set_option autoImplicit false

namespace Inlay

/-- What gives a stylesheet its structure, and the inert tokens in between. -/
inductive StructureToken where
  | inert (token : Inert)
  | opening
  | closing
  | semicolon
deriving Repr, DecidableEq

instance : Spelled StructureToken where
  spelling
    | .inert token => spelling token
    | .opening => ['\x7b']
    | .closing => ['\x7d']
    | .semicolon => [';']

namespace StructureToken

/-- Reads an inert token, a brace or a semicolon. -/
def read? (text : Text) : Option (StructureToken × Text) :=
  match Inert.read? text with
  | some (token, rest) => some (.inert token, rest)
  | none =>
      match text with
      | .char '\x7b' :: rest => some (.opening, rest)
      | .char '\x7d' :: rest => some (.closing, rest)
      | .char ';' :: rest => some (.semicolon, rest)
      | _ => none

theorem split_of_read? {text rest : Text} {token : StructureToken}
    (outcome : read? text = some (token, rest)) :
    text = spelling token ++ rest ∧ spelling token ≠ [] := by
  unfold read? at outcome
  split at outcome
  · next found =>
      simp only [Option.some.injEq, Prod.mk.injEq] at outcome
      obtain ⟨rfl, rfl⟩ := outcome
      exact Inert.split_of_read? found
  · split at outcome <;> simp only [Option.some.injEq, Prod.mk.injEq, reduceCtorEq] at outcome
    all_goals
      obtain ⟨rfl, rfl⟩ := outcome
      simp [spelling]

def scan : Recognizer StructureToken where
  read? := read?
  splits outcome := (split_of_read? outcome).1
  consumes outcome := (split_of_read? outcome).2

end StructureToken

abbrev StructurePiece := Piece StructureToken

namespace Stylesheet

/-- The statements among pieces, given the depth of braces and the statement so far, last
character first. A statement ends with the brace that closes the outermost pair, or with a
semicolon outside all braces; what remains at the end belongs to none. -/
def statementsFrom (depth : Int) (sofar : Text) : List StructurePiece → List Text
  | [] => []
  | piece :: pieces =>
      let sofar := (piece.render spelling).reverse ++ sofar
      match piece with
      | .token .opening => statementsFrom (depth + 1) sofar pieces
      | .token .closing =>
          if depth = 1 then sofar.reverse :: statementsFrom 0 [] pieces
          else statementsFrom (depth - 1) sofar pieces
      | .token .semicolon =>
          if depth = 0 then sofar.reverse :: statementsFrom 0 [] pieces
          else statementsFrom depth sofar pieces
      | _ => statementsFrom depth sofar pieces

/-- The statements at the top level of a stylesheet, in order, with the text between them. -/
def statements (text : Text) : List Text :=
  statementsFrom 0 [] (StructureToken.scan.pieces text)

def lineFeeds (text : Text) : Nat := text.count ('\n' : CodePoint)

/-- Checks that braces pair up, given the depth and the line number so far. -/
def balanceFrom (depth line : Nat) : List StructurePiece → Except CompileCause Unit
  | [] => if depth = 0 then .ok () else .error (.unclosedBraces depth)
  | piece :: pieces =>
      let next := line + lineFeeds (piece.render spelling)
      match piece with
      | .token .opening => balanceFrom (depth + 1) next pieces
      | .token .closing =>
          if depth = 0 then .error (.unexpectedBrace line)
          else balanceFrom (depth - 1) next pieces
      | _ => balanceFrom depth next pieces

/-- Checks that the braces of a stylesheet outside its inert tokens pair up. -/
def checkBalanced (text : Text) : Except CompileCause Unit :=
  balanceFrom 0 1 (StructureToken.scan.pieces text)

end Stylesheet

end Inlay

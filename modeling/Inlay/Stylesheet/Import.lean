import Inlay.Stylesheet.Token
import Inlay.Text.LetterCase

/-!
# Import statements

An import statement names a target, with options before it and a media condition behind it.
Some imports stay in the result as plain imports; the others are replaced by the content that
they name.
-/

set_option autoImplicit false

namespace Inlay

/-- An import statement by its parts as they are written: the blanks behind the keyword, the
options between parentheses with the blanks behind them, the target with its quotes or
parentheses, and all else up to the semicolon. -/
structure ImportStatement where
  gap : Text
  optionList : Option (Text × Text)
  target : Text
  condition : Text
deriving Repr, DecidableEq

namespace ImportStatement

def keyword : Text := "@import"

theorem keyword_ne_nil : keyword ≠ [] := by decide

/-- How an option list is written, with the blanks behind it. -/
def optionListSpelling : Option (Text × Text) → Text
  | none => []
  | some (names, gap) => "(" ++ names ++ ")" ++ gap

instance : Spelled ImportStatement where
  spelling statement :=
    keyword ++ (statement.gap ++ (optionListSpelling statement.optionList ++
      (statement.target ++ (statement.condition ++ ";"))))

/-- Reads an option list, if there is one, and the blanks behind it. -/
def optionList? (text : Text) : Option (Text × Text) × Text :=
  match text with
  | .char '(' :: inside =>
      match Text.cut? ')' inside with
      | some (names, rest) => (some (names, Text.leadingBlanks rest), Text.trimStart rest)
      | none => (none, text)
  | _ => (none, text)

/-- Reads a target between two of the given quotes, with any characters inside. -/
def quotedTarget? (quote : CodePoint) (text : Text) : Option (Text × Text) :=
  match Text.after? [quote] text with
  | none => none
  | some body =>
      (Text.cut? quote body).map fun (inside, rest) => (quote :: inside ++ [quote], rest)

/-- Reads a target: an address, or a reference in quotes. -/
def target? (text : Text) : Option (Text × Text) :=
  match Inert.address? text with
  | some found => some found
  | none =>
      match quotedTarget? '"' text with
      | some found => some found
      | none => quotedTarget? '\'' text

def read? (text : Text) : Option (ImportStatement × Text) :=
  match Text.after? keyword text with
  | none => none
  | some behind =>
      let listed := optionList? (Text.trimStart behind)
      match target? listed.2 with
      | none => none
      | some (target, rest) =>
          (Text.cut? ';' rest).map fun (condition, rest) =>
            (⟨Text.leadingBlanks behind, listed.1, target, condition⟩, rest)

/-- The options of an import statement in lower case, without blanks around them. -/
def options (statement : ImportStatement) : List Text :=
  let names := (statement.optionList.map (·.1)).getD []
  ((Text.splitOn ',' names).map Text.trim).filterMap fun name =>
    if name = [] then none else some (lower name)

def unquoted (target : Text) : Text := (target.drop 1).dropLast

def isAddress (target : Text) : Bool := ("url(" : Text).isPrefixOf target

def namesCss (reference : Text) : Bool := Text.endsWith ".css" (lower reference)

/-- Whether an import stays in the result: addresses always do; other targets do if an option
asks for it, or if they name a plain stylesheet or another host, unless an option asks for the
content. -/
def staysImport (target : Text) (options : List Text) : Bool :=
  if isAddress target then true
  else if options.contains "less" || options.contains "inline" then false
  else
    let reference := unquoted target
    options.contains "css" || namesCss reference || Text.hasPart "://" reference
      || ("//" : Text).isPrefixOf reference

/-- The plain import of a target under a media condition. A target that is neither an address
nor a plain stylesheet is written as an address. -/
def plainImport (target condition : Text) : Text :=
  if isAddress target || namesCss (unquoted target) then
    "@import " ++ target ++ condition ++ ";"
  else "@import url(" ++ target ++ ")" ++ condition ++ ";"

theorem append_optionList? (text : Text) :
    optionListSpelling (optionList? text).1 ++ (optionList? text).2 = text := by
  unfold optionList?
  split
  · split
    · next found =>
        rw [(Text.cut?_eq_some_iff.mp found).1]
        simp [optionListSpelling, Text.ofString, Text.leadingBlanks_append_trimStart]
    · rfl
  · rfl

theorem append_of_quotedTarget? {quote : CodePoint} {text target rest : Text}
    (outcome : quotedTarget? quote text = some (target, rest)) : text = target ++ rest := by
  unfold quotedTarget? at outcome
  split at outcome
  · simp at outcome
  · next body after =>
      simp only [Option.map_eq_some_iff, Prod.exists, Prod.mk.injEq] at outcome
      obtain ⟨inner, tail, found, rfl, rfl⟩ := outcome
      rw [Text.after?_eq_some_iff.mp after, (Text.cut?_eq_some_iff.mp found).1]
      simp

theorem append_of_target? {text target rest : Text}
    (outcome : target? text = some (target, rest)) : text = target ++ rest := by
  unfold target? at outcome
  split at outcome
  · next found =>
      rw [Option.some.injEq] at outcome
      subst outcome
      exact (Inert.split_of_address? found).1
  · split at outcome
    · next found =>
        rw [Option.some.injEq] at outcome
        subst outcome
        exact append_of_quotedTarget? found
    · exact append_of_quotedTarget? outcome

theorem split_of_read? {text rest : Text} {statement : ImportStatement}
    (outcome : read? text = some (statement, rest)) :
    text = spelling statement ++ rest ∧ spelling statement ≠ [] := by
  unfold read? at outcome
  split at outcome
  · simp at outcome
  · next behind after =>
      dsimp only at outcome
      split at outcome
      · simp at outcome
      · next target tail found =>
          simp only [Option.map_eq_some_iff, Prod.exists, Prod.mk.injEq] at outcome
          obtain ⟨condition, last, cut, rfl, rfl⟩ := outcome
          refine ⟨?_, List.append_ne_nil_of_left_ne_nil keyword_ne_nil _⟩
          have lead := Text.leadingBlanks_append_trimStart behind
          have listed := append_optionList? (Text.trimStart behind)
          have ending : .char ';' :: last = Text.ofString ";" ++ last := rfl
          rw [append_of_target? found, (Text.cut?_eq_some_iff.mp cut).1, ending] at listed
          rw [Text.after?_eq_some_iff.mp after]
          simp only [spelling, List.append_assoc] at listed ⊢
          rw [listed, lead]

end ImportStatement

/-- What the expansion of imports sees in a stylesheet. -/
inductive SheetToken where
  | importing (statement : ImportStatement)
  | inert (token : Inert)
deriving Repr, DecidableEq

instance : Spelled SheetToken where
  spelling
    | .importing statement => spelling statement
    | .inert token => spelling token

namespace SheetToken

/-- Reads an import statement, or else an inert token. -/
def read? (text : Text) : Option (SheetToken × Text) :=
  match ImportStatement.read? text with
  | some (statement, rest) => some (.importing statement, rest)
  | none => (Inert.read? text).map fun (token, rest) => (.inert token, rest)

theorem split_of_read? {text rest : Text} {token : SheetToken}
    (outcome : read? text = some (token, rest)) :
    text = spelling token ++ rest ∧ spelling token ≠ [] := by
  unfold read? at outcome
  split at outcome
  · next found =>
      simp only [Option.some.injEq, Prod.mk.injEq] at outcome
      obtain ⟨rfl, rfl⟩ := outcome
      exact ImportStatement.split_of_read? found
  · simp only [Option.map_eq_some_iff, Prod.exists, Prod.mk.injEq] at outcome
    obtain ⟨inert, tail, found, rfl, rfl⟩ := outcome
    exact Inert.split_of_read? found

def scan : Recognizer SheetToken where
  read? := read?
  splits outcome := (split_of_read? outcome).1
  consumes outcome := (split_of_read? outcome).2

end SheetToken

end Inlay

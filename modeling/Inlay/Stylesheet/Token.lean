import Inlay.Text.Scan

/-!
# Inert tokens

Comments, quoted strings and unquoted addresses of a stylesheet. Nothing inside them counts
as an import, a brace or the end of a statement. A comment or string that does not end is no
token, and the scan goes on behind its first character.
-/

set_option autoImplicit false

namespace Inlay

/-- A stretch of a stylesheet whose characters have no structure, as it is written. -/
inductive Inert where
  | comment (text : Text)
  | string (text : Text)
  | address (text : Text)
deriving Repr, DecidableEq

instance : Spelled Inert where
  spelling
    | .comment text => text
    | .string text => text
    | .address text => text

namespace Inert

/-- The text up to and including the end of a block comment, and the rest. -/
def throughCommentEnd? : Text → Option (Text × Text)
  | [] => none
  | .char '*' :: .char '/' :: text => some (['*', '/'], text)
  | c :: text => (throughCommentEnd? text).map fun (body, rest) => (c :: body, rest)

/-- The text up to and including a closing quote, and the rest. A backslash takes the next
character with it, and a line feed on its own is refused. -/
def throughQuote? (quote : CodePoint) : Text → Option (Text × Text)
  | [] => none
  | c :: text =>
      if c = quote then some ([c], text)
      else if c = '\n' then none
      else if c = '\\' then
        match text with
        | [] => none
        | d :: text => (throughQuote? quote text).map fun (body, rest) => (c :: d :: body, rest)
      else (throughQuote? quote text).map fun (body, rest) => (c :: body, rest)

/-- Reads a comment to the end of the line, which stays. -/
def lineComment? (text : Text) : Option (Text × Text) :=
  (Text.after? "//" text).map fun body =>
    ("//" ++ body.takeWhile (· != '\n'), body.dropWhile (· != '\n'))

def blockComment? (text : Text) : Option (Text × Text) :=
  match Text.after? "/*" text with
  | none => none
  | some body =>
      (throughCommentEnd? body).map fun (inside, rest) => ("/*" ++ inside, rest)

def quotedBy? (quote : CodePoint) (text : Text) : Option (Text × Text) :=
  match Text.after? [quote] text with
  | none => none
  | some body => (throughQuote? quote body).map fun (inside, rest) => (quote :: inside, rest)

def address? (text : Text) : Option (Text × Text) :=
  match Text.after? "url(" text with
  | none => none
  | some body =>
      (Text.cut? ')' body).map fun (inside, rest) =>
        ("url(" ++ inside ++ ")", rest)

def comment? (text : Text) : Option (Text × Text) :=
  match lineComment? text with
  | some found => some found
  | none => blockComment? text

def string? (text : Text) : Option (Text × Text) :=
  match quotedBy? '"' text with
  | some found => some found
  | none => quotedBy? '\'' text

def commentOrString? (text : Text) : Option (Inert × Text) :=
  match comment? text with
  | some (taken, rest) => some (.comment taken, rest)
  | none => (string? text).map fun (taken, rest) => (.string taken, rest)

def read? (text : Text) : Option (Inert × Text) :=
  match commentOrString? text with
  | some found => some found
  | none => (address? text).map fun (taken, rest) => (.address taken, rest)

theorem append_of_throughCommentEnd? {text body rest : Text}
    (outcome : throughCommentEnd? text = some (body, rest)) : text = body ++ rest := by
  fun_induction throughCommentEnd? text generalizing body with
  | case1 => simp at outcome
  | case2 text => simp at outcome; simp [← outcome.1, ← outcome.2]
  | case3 c text _ ih =>
      simp only [Option.map_eq_some_iff, Prod.exists, Prod.mk.injEq] at outcome
      obtain ⟨inner, after, found, rfl, rfl⟩ := outcome
      simp [ih found]

theorem append_of_throughQuote? {quote : CodePoint} {text body rest : Text}
    (outcome : throughQuote? quote text = some (body, rest)) : text = body ++ rest := by
  fun_induction throughQuote? quote text generalizing body with
  | case1 => simp at outcome
  | case2 => simp at outcome; simp [← outcome.1, ← outcome.2]
  | case3 => simp at outcome
  | case4 => simp at outcome
  | case5 _ _ d text ih =>
      simp only [Option.map_eq_some_iff, Prod.exists, Prod.mk.injEq] at outcome
      obtain ⟨inner, after, found, rfl, rfl⟩ := outcome
      simp [ih found]
  | case6 c text _ _ _ ih =>
      simp only [Option.map_eq_some_iff, Prod.exists, Prod.mk.injEq] at outcome
      obtain ⟨inner, after, found, rfl, rfl⟩ := outcome
      simp [ih found]

theorem split_of_comment? {text comment rest : Text}
    (outcome : comment? text = some (comment, rest)) :
    text = comment ++ rest ∧ comment ≠ [] := by
  unfold comment? lineComment? blockComment? at outcome
  split at outcome
  · next found =>
      simp only [Option.map_eq_some_iff, Option.some.injEq] at found outcome
      obtain ⟨body, after, rfl⟩ := found
      simp only [Prod.mk.injEq] at outcome
      rw [Text.after?_eq_some_iff.mp after, ← outcome.1, ← outcome.2]
      simp [List.takeWhile_append_dropWhile]
  · split at outcome
    · simp at outcome
    · next body after =>
        simp only [Option.map_eq_some_iff, Prod.exists, Prod.mk.injEq] at outcome
        obtain ⟨inner, tail, found, rfl, rfl⟩ := outcome
        rw [Text.after?_eq_some_iff.mp after, append_of_throughCommentEnd? found]
        simp

theorem split_of_quotedBy? {quote : CodePoint} {text string rest : Text}
    (outcome : quotedBy? quote text = some (string, rest)) :
    text = string ++ rest ∧ string ≠ [] := by
  unfold quotedBy? at outcome
  split at outcome
  · simp at outcome
  · next body after =>
      simp only [Option.map_eq_some_iff, Prod.exists, Prod.mk.injEq] at outcome
      obtain ⟨inner, tail, found, rfl, rfl⟩ := outcome
      rw [Text.after?_eq_some_iff.mp after, append_of_throughQuote? found]
      simp

theorem split_of_string? {text string rest : Text}
    (outcome : string? text = some (string, rest)) : text = string ++ rest ∧ string ≠ [] := by
  unfold string? at outcome
  split at outcome
  · next found =>
      rw [Option.some.injEq] at outcome
      subst outcome
      exact split_of_quotedBy? found
  · exact split_of_quotedBy? outcome

theorem split_of_address? {text address rest : Text}
    (outcome : address? text = some (address, rest)) :
    text = address ++ rest ∧ address ≠ [] := by
  unfold address? at outcome
  split at outcome
  · simp at outcome
  · next body after =>
      simp only [Option.map_eq_some_iff, Prod.exists, Prod.mk.injEq] at outcome
      obtain ⟨inner, tail, found, rfl, rfl⟩ := outcome
      rw [Text.after?_eq_some_iff.mp after, (Text.cut?_eq_some_iff.mp found).1]
      simp [Text.ofString]

theorem split_of_commentOrString? {text rest : Text} {token : Inert}
    (outcome : commentOrString? text = some (token, rest)) :
    text = spelling token ++ rest ∧ spelling token ≠ [] := by
  unfold commentOrString? at outcome
  split at outcome
  · next found =>
      simp only [Option.some.injEq, Prod.mk.injEq] at outcome
      obtain ⟨rfl, rfl⟩ := outcome
      exact split_of_comment? found
  · simp only [Option.map_eq_some_iff, Prod.exists, Prod.mk.injEq] at outcome
    obtain ⟨taken, tail, found, rfl, rfl⟩ := outcome
    exact split_of_string? found

theorem split_of_read? {text rest : Text} {token : Inert}
    (outcome : read? text = some (token, rest)) :
    text = spelling token ++ rest ∧ spelling token ≠ [] := by
  unfold read? at outcome
  split at outcome
  · next found =>
      rw [Option.some.injEq] at outcome
      subst outcome
      exact split_of_commentOrString? found
  · simp only [Option.map_eq_some_iff, Prod.exists, Prod.mk.injEq] at outcome
    obtain ⟨taken, tail, found, rfl, rfl⟩ := outcome
    exact split_of_address? found

def commentScan : Recognizer Inert where
  read? := commentOrString?
  splits outcome := (split_of_commentOrString? outcome).1
  consumes outcome := (split_of_commentOrString? outcome).2

end Inert

end Inlay

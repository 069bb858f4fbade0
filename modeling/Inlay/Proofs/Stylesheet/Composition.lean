import Inlay.Proofs.Stylesheet.ExpansionRun

/-!
# What an expansion is composed of

An expansion meets the import statements of a file in the order of the text, and those of an
included file before it goes on. `Composes` relates a text to the import statements that lead
to files, in that order, and to the outcome; it leaves open which of them contribute the
content of their file.
-/

set_option autoImplicit false

namespace Inlay

/-- An import statement that leads to a file, with the name of the file that holds it, and
whether it contributes the content of the file that it leads to. -/
structure ImportEvent where
  importer : Text
  statement : ImportStatement
  found : Path
  contributes : Bool
deriving Repr, DecidableEq

/-- The files that were included, in order. -/
def contributions (events : List ImportEvent) : List Path :=
  (events.filter (·.contributes)).map (·.found)

@[simp]
theorem contributions_nil : contributions [] = [] := rfl

@[simp]
theorem contributions_append (first second : List ImportEvent) :
    contributions (first ++ second) = contributions first ++ contributions second := by
  simp [contributions]

theorem contributions_cons (event : ImportEvent) (events : List ImportEvent) :
    contributions (event :: events) =
      if event.contributes then event.found :: contributions events
      else contributions events := by
  unfold contributions
  rw [List.filter_cons]
  split <;> rfl

def Placement.image : Placement → Text → Text
  | .inPlace, statement => statement
  | .hoisted, _ => []

namespace Stylesheet

theorem placeImport_fst (placement : Placement) (statement : Text) (progress : Progress) :
    (placeImport placement statement progress).1 = placement.image statement := by
  cases placement <;> rfl

abbrev Composition := List ImportEvent → Except Fault Text → Prop

/-- The content that an import of a file's text contributes, given the compositions of texts. -/
def ContentComposes (nested : Placement → Path → Text → Composition) (placement : Placement)
    (names : List Text) (found : Path) (text : Text) : Composition := fun events outcome =>
  if names.contains "reference" then
    ∃ whole, nested .inPlace found text events whole ∧ outcome = whole.map referenceOnly
  else if names.contains "inline" then events = [] ∧ outcome = .ok text
  else nested placement found text events outcome

/-- What replaces an import statement, given where it leads. A statement that leads to a file
either contributes nothing or the content of the file. -/
inductive StatementComposes (files : FileSystem) (nested : Placement → Path → Text → Composition)
    (placement : Placement) (importer : Text) (statement : ImportStatement) :
    Except Fault ImportTarget → Composition where
  | fault {fault : Fault} :
      StatementComposes files nested placement importer statement (.error fault) [] (.error fault)
  | plain {text : Text} :
      StatementComposes files nested placement importer statement (.ok (.plain text)) []
        (.ok (placement.image text))
  | missing :
      StatementComposes files nested placement importer statement (.ok .missing) [] (.ok [])
  | passed {found : Path} :
      StatementComposes files nested placement importer statement (.ok (.file found))
        [⟨importer, statement, found, false⟩] (.ok [])
  | unreadable {found : Path} {fault : Fault} :
      (Inquiry.readUnified .utf8 found).result files = .error fault →
      StatementComposes files nested placement importer statement (.ok (.file found))
        [⟨importer, statement, found, true⟩] (.error fault)
  | included {found : Path} {text : Text} {events : List ImportEvent}
      {outcome : Except Fault Text} :
      (Inquiry.readUnified .utf8 found).result files = .ok text →
      ContentComposes nested placement statement.options found text events outcome →
      StatementComposes files nested placement importer statement (.ok (.file found))
        (⟨importer, statement, found, true⟩ :: events)
        (outcome.map (underCondition statement.wrapping))

/-- The text that replaces pieces, given what replaces each import statement. -/
inductive PiecesCompose (replaced : ImportStatement → Composition) :
    List (Piece SheetToken) → Composition where
  | nil : PiecesCompose replaced [] [] (.ok [])
  | char {c : CodePoint} {pieces : List (Piece SheetToken)} {events : List ImportEvent}
      {outcome : Except Fault Text} :
      PiecesCompose replaced pieces events outcome →
      PiecesCompose replaced (.char c :: pieces) events (outcome.map ([c] ++ ·))
  | inert {token : Inert} {pieces : List (Piece SheetToken)} {events : List ImportEvent}
      {outcome : Except Fault Text} :
      PiecesCompose replaced pieces events outcome →
      PiecesCompose replaced (.token (.inert token) :: pieces) events
        (outcome.map (spelling token ++ ·))
  | failed {statement : ImportStatement} {pieces : List (Piece SheetToken)}
      {events : List ImportEvent} {fault : Fault} :
      replaced statement events (.error fault) →
      PiecesCompose replaced (.token (.importing statement) :: pieces) events (.error fault)
  | replaced {statement : ImportStatement} {pieces : List (Piece SheetToken)}
      {events more : List ImportEvent} {image : Text} {outcome : Except Fault Text} :
      replaced statement events (.ok image) →
      PiecesCompose replaced pieces more outcome →
      PiecesCompose replaced (.token (.importing statement) :: pieces) (events ++ more)
        (outcome.map (image ++ ·))

/-- The expansion of a file's text that is so many levels from the deepest. -/
def TextComposes (context : StyleContext) (files : FileSystem) :
    Nat → Placement → Text → Text → Composition
  | 0, _, file, _ => fun events outcome =>
      events = [] ∧ outcome = .error (.stylesheet file .importsTooDeep)
  | levels + 1, placement, file, text =>
      PiecesCompose
        (fun statement =>
          StatementComposes files
            (fun placement path => TextComposes context files levels placement path.text)
            placement file statement (importTarget context files file statement))
        (SheetToken.scan.pieces text)

/-- The expansion of the text of a file that is no import of another one. -/
def Composes (context : StyleContext) (files : FileSystem) (placement : Placement)
    (file text : Text) : Composition := fun events outcome =>
  match (Path.ofText file).refusal? with
  | some fault => events = [] ∧ outcome = .error (.access fault (Path.ofText file).text)
  | none => TextComposes context files (deepestImport + 1) placement file text events outcome

/-- An import statement stands in a text, outside comments, strings and addresses. -/
def HasImport (text : Text) (statement : ImportStatement) : Prop :=
  .token (.importing statement) ∈ SheetToken.scan.pieces text

/-- An event of the expansion of a file with some pieces: its statement leads where it says, and
stands among these pieces or in a file that was included. -/
structure Occurs (context : StyleContext) (files : FileSystem) (file : Text)
    (pieces : List (Piece SheetToken)) (events : List ImportEvent) (event : ImportEvent) :
    Prop where
  leads : importTarget context files event.importer event.statement = .ok (.file event.found)
  stands : event.importer = file ∧ .token (.importing event.statement) ∈ pieces ∨
    ∃ found ∈ contributions events, ∃ text, event.importer = found.text ∧
      (Inquiry.readUnified .utf8 found).result files = .ok text ∧
        HasImport text event.statement

variable {context : StyleContext} {files : FileSystem} {placement : Placement}

theorem Occurs.mono {file : Text} {pieces more : List (Piece SheetToken)}
    {events others : List ImportEvent} {event : ImportEvent}
    (occurs : Occurs context files file pieces events event)
    (wider : pieces ⊆ more) (longer : contributions events ⊆ contributions others) :
    Occurs context files file more others event := by
  refine ⟨occurs.leads, ?_⟩
  rcases occurs.stands with ⟨same, here⟩ | ⟨found, included, deeper⟩
  · exact .inl ⟨same, wider here⟩
  · exact .inr ⟨found, longer included, deeper⟩

/-- What is met in a file that was included counts for the file that includes it. -/
theorem Occurs.lift {file text : Text} {found : Path}
    {pieces : List (Piece SheetToken)} {events others : List ImportEvent} {event : ImportEvent}
    (occurs : Occurs context files found.text (SheetToken.scan.pieces text) events event)
    (read : (Inquiry.readUnified .utf8 found).result files = .ok text)
    (included : found ∈ contributions others)
    (longer : contributions events ⊆ contributions others) :
    Occurs context files file pieces others event := by
  refine ⟨occurs.leads, .inr ?_⟩
  rcases occurs.stands with ⟨same, here⟩ | ⟨other, among, deeper⟩
  · exact ⟨found, included, text, same, read, here⟩
  · exact ⟨other, longer among, deeper⟩

def Composition.Occurring (context : StyleContext) (files : FileSystem) (file : Text)
    (pieces : List (Piece SheetToken)) (composition : Composition) : Prop :=
  ∀ events outcome, composition events outcome →
    ∀ event ∈ events, Occurs context files file pieces events event

theorem occurring_contentComposes {nested : Placement → Path → Text → Composition}
    (inside : ∀ placement path text,
      (nested placement path text).Occurring context files path.text (SheetToken.scan.pieces text))
    (names : List Text) (found : Path) (text : Text) :
    (ContentComposes nested placement names found text).Occurring context files found.text
      (SheetToken.scan.pieces text) := by
  intro events outcome composed
  unfold ContentComposes at composed
  split at composed
  · obtain ⟨whole, composed, _⟩ := composed
    exact inside .inPlace found text events whole composed
  · split at composed
    · rw [composed.1]
      intro event member
      cases member
    · exact inside placement found text events outcome composed

theorem occurring_statementComposes {nested : Placement → Path → Text → Composition}
    (inside : ∀ placement path text,
      (nested placement path text).Occurring context files path.text (SheetToken.scan.pieces text))
    (file : Text) (statement : ImportStatement) :
    Composition.Occurring context files file [.token (.importing statement)]
      (StatementComposes files nested placement file statement
        (importTarget context files file statement)) := by
  intro events outcome composed event member
  generalize leads : importTarget context files file statement = target at composed
  cases composed with
  | fault => cases member
  | plain => cases member
  | missing => cases member
  | passed =>
      rw [List.mem_singleton.mp member]
      exact ⟨leads, .inl ⟨rfl, .head _⟩⟩
  | unreadable =>
      rw [List.mem_singleton.mp member]
      exact ⟨leads, .inl ⟨rfl, .head _⟩⟩
  | @included found text events outcome read content =>
      rcases List.mem_cons.mp member with rfl | later
      · exact ⟨leads, .inl ⟨rfl, .head _⟩⟩
      · have occurs := occurring_contentComposes inside statement.options found text events
          outcome content event later
        have front : contributions (⟨file, statement, found, true⟩ :: events) =
            found :: contributions events := contributions_cons _ _
        exact occurs.lift read (front ▸ .head _) (front ▸ List.subset_cons_self _ _)

theorem occurring_piecesCompose {replaced : ImportStatement → Composition} {file : Text}
    (inside : ∀ statement,
      (replaced statement).Occurring context files file [.token (.importing statement)])
    (pieces : List (Piece SheetToken)) :
    (PiecesCompose replaced pieces).Occurring context files file pieces := by
  intro events outcome composed
  induction composed with
  | nil =>
      intro event member
      cases member
  | char _ ih =>
      exact fun event member =>
        (ih event member).mono (List.subset_cons_self _ _) (List.Subset.refl _)
  | inert _ ih =>
      exact fun event member =>
        (ih event member).mono (List.subset_cons_self _ _) (List.Subset.refl _)
  | failed statementComposed =>
      exact fun event member =>
        (inside _ _ _ statementComposed event member).mono (by simp) (List.Subset.refl _)
  | replaced statementComposed _ ih =>
      intro event member
      rcases List.mem_append.mp member with first | second
      · exact (inside _ _ _ statementComposed event first).mono (by simp) (by simp)
      · exact (ih event second).mono (List.subset_cons_self _ _) (by simp)

theorem occurring_textComposes (levels : Nat) (file text : Text) :
    (TextComposes context files levels placement file text).Occurring context files file
      (SheetToken.scan.pieces text) := by
  induction levels generalizing placement file text with
  | zero =>
      rintro events outcome ⟨rfl, _⟩ event member
      cases member
  | succ levels ih =>
      exact occurring_piecesCompose (occurring_statementComposes (fun _ path text =>
        ih path.text text) file) _

theorem occurring_composes (file text : Text) :
    (Composes context files placement file text).Occurring context files file
      (SheetToken.scan.pieces text) := by
  intro events outcome composed
  unfold Composes at composed
  split at composed
  · rw [composed.1]
    intro event member
    cases member
  · exact occurring_textComposes _ file text events outcome composed

end Stylesheet

end Inlay

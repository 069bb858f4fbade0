import Inlay.Stylesheet.Expand

/-!
# Runs of an expansion

The result of an expansion on a file system, piece by piece. Where an import statement leads
(`importTarget`) depends neither on the placement nor on what was included before; what it
contributes does (`result_expandStatement`).
-/

set_option autoImplicit false

namespace Inlay

def Expansion.prepend (front : Text) (expansion : Expansion) : Expansion :=
  (front ++ expansion.1, expansion.2)

namespace Progress

variable {progress : Progress}

/-- The files that were included, in order. -/
def files (progress : Progress) : List Path := progress.inclusions.reverse.map (·.file)

@[simp]
theorem files_addFile (file : Path) (repeated : Bool) :
    (progress.addFile file repeated).files = progress.files ++ [file] := by
  simp [files, addFile]

theorem hasSeen_iff {file : Path} :
    progress.hasSeen file = true ↔ file = progress.entry ∨ file ∈ progress.files := by
  simp only [hasSeen, files, Bool.or_eq_true, beq_iff_eq, List.any_eq_true, List.mem_map,
    List.mem_reverse]
  exact or_congr_left eq_comm

end Progress

/-- Where an import statement leads: to the plain import that stays, to a missing file that may
be missing, or to a file. -/
inductive ImportTarget where
  | plain (statement : Text)
  | missing
  | file (found : Path)
deriving Repr, DecidableEq

namespace ImportStatement

/-- Whether a statement asks for its file even if that was included before. -/
def asksAgain (statement : ImportStatement) : Bool := statement.options.contains "multiple"

def wrapping (statement : ImportStatement) : Text := Text.trim statement.condition

end ImportStatement

namespace Stylesheet

variable {context : StyleContext} {files : FileSystem} {placement : Placement}

def importTarget (context : StyleContext) (files : FileSystem) (file : Text)
    (statement : ImportStatement) : Except Fault ImportTarget :=
  if ImportStatement.staysImport statement.target statement.options then
    .ok (.plain
      (ImportStatement.plainImport statement.target (Text.trimEnd statement.condition)))
  else
    let reference := ImportStatement.unquoted statement.target
    match (resolveImport context.workingDirectory context.options reference
      (Path.ofText file)).result files with
    | .error fault => .error fault
    | .ok (some found) => .ok (.file found)
    | .ok none =>
        if statement.options.contains "optional" then .ok .missing
        else .error (.stylesheet file (.unresolvedImport reference))

/-- The result of a run over pieces, given the result of each import statement. -/
def runPieces (step : ImportStatement → Progress → Except Fault Expansion) :
    List (Piece SheetToken) → Progress → Except Fault Expansion
  | [], progress => .ok ([], progress)
  | .char c :: pieces, progress => (runPieces step pieces progress).map (Expansion.prepend [c])
  | .token (.inert token) :: pieces, progress =>
      (runPieces step pieces progress).map (Expansion.prepend (spelling token))
  | .token (.importing statement) :: pieces, progress =>
      match step statement progress with
      | .error fault => .error fault
      | .ok (image, progress) =>
          (runPieces step pieces progress).map (Expansion.prepend image)

def contentResult (visited : Placement → Path → Text → Progress → Except Fault Expansion)
    (placement : Placement) (names : List Text) (found : Path) (text : Text)
    (progress : Progress) : Except Fault Expansion :=
  if names.contains "reference" then
    (visited .inPlace found text progress).map fun expansion =>
      (referenceOnly expansion.1, expansion.2)
  else if names.contains "inline" then .ok (text, progress)
  else visited placement found text progress

def includedResult (files : FileSystem)
    (visited : Placement → Path → Text → Progress → Except Fault Expansion)
    (placement : Placement) (statement : ImportStatement) (found : Path)
    (progress : Progress) : Except Fault Expansion :=
  match (Inquiry.readUnified .utf8 found).result files with
  | .error fault => .error fault
  | .ok text =>
      (contentResult visited placement statement.options found text
        (progress.addFile found statement.asksAgain)).map fun content =>
          (underCondition statement.wrapping content.1, content.2)

/-- The result of an import statement, given where it leads and the result of each visit. -/
def statementResult (files : FileSystem)
    (visited : Placement → Path → Text → Progress → Except Fault Expansion)
    (placement : Placement) (statement : ImportStatement) (target : Except Fault ImportTarget)
    (progress : Progress) : Except Fault Expansion :=
  match target with
  | .error fault => .error fault
  | .ok (.plain text) => .ok (placeImport placement text progress)
  | .ok .missing => .ok ([], progress)
  | .ok (.file found) =>
      if !statement.asksAgain && progress.hasSeen found then .ok ([], progress)
      else includedResult files visited placement statement found progress

theorem result_importContent (visit : Visit) (names : List Text) (found : Path) (text : Text)
    (progress : Progress) :
    (importContent visit placement names found text progress).result files =
      contentResult (fun placement path text progress =>
        (visit placement path text progress).result files)
        placement names found text progress := by
  unfold importContent contentResult
  by_cases naming : names.contains "reference"
  · simp only [if_pos naming, Inquiry.result_bind]
    cases (visit .inPlace found text progress).result files <;> rfl
  · simp only [if_neg naming]
    split <;> rfl

theorem result_expandStatement (visit : Visit) (file : Text) (statement : ImportStatement)
    (progress : Progress) :
    (expandStatement context visit placement file statement progress).result files =
      statementResult files (fun placement path text progress =>
        (visit placement path text progress).result files)
        placement statement (importTarget context files file statement) progress := by
  unfold expandStatement importTarget
  by_cases stays : ImportStatement.staysImport statement.target statement.options
  · simp only [if_pos stays]
    rfl
  · simp only [if_neg stays, Inquiry.result_bind]
    cases (resolveImport context.workingDirectory context.options
      (ImportStatement.unquoted statement.target) (Path.ofText file)).result files with
    | error fault => rfl
    | ok resolved =>
        cases resolved with
        | none =>
            by_cases optional : statement.options.contains "optional"
            · simp only [if_pos optional]
              rfl
            · simp only [if_neg optional]
              rfl
        | some found =>
            by_cases passed : !statement.asksAgain && progress.hasSeen found
            · simp only [statementResult, if_pos passed]
              exact congrArg _ (if_pos passed)
            · simp only [statementResult, if_neg passed, includedResult]
              refine (congrArg _ (if_neg passed)).trans ?_
              simp only [Inquiry.result_bind, Inquiry.result_debug]
              cases (Inquiry.readUnified .utf8 found).result files with
              | error fault => rfl
              | ok text =>
                  simp only [result_importContent, ImportStatement.asksAgain]
                  cases contentResult _ placement statement.options found text _ <;> rfl

/-- The images of the tokens of pieces, filled in, are the result of a run over the pieces. -/
theorem result_expandTokens (context : StyleContext) (files : FileSystem)
    (placement : Placement) (visit : Visit) (file : Text) (pieces : List (Piece SheetToken))
    (progress : Progress) :
    ((expandTokens context visit placement file (tokensOf pieces) progress).result files).map
        (fun (images, progress) => (fill pieces images, progress)) =
      runPieces (fun statement progress =>
        (expandStatement context visit placement file statement progress).result files)
        pieces progress := by
  induction pieces generalizing progress with
  | nil => rfl
  | cons piece pieces ih =>
      cases piece with
      | char c =>
          simp only [runPieces, ← ih, tokensOf, List.filterMap_cons, fill]
          cases (expandTokens context visit placement file _ progress).result files <;> rfl
      | token token =>
          cases token with
          | inert token =>
              simp only [runPieces, ← ih, tokensOf, List.filterMap_cons, expandTokens]
              rw [Inquiry.result_bind]
              cases (expandTokens context visit placement file _ progress).result files <;> rfl
          | importing statement =>
              simp only [runPieces, tokensOf, List.filterMap_cons, expandTokens]
              rw [Inquiry.result_bind]
              cases (expandStatement context visit placement file statement progress).result
                files with
              | error fault => rfl
              | ok outcome =>
                  obtain ⟨image, progress⟩ := outcome
                  simp only [← ih, tokensOf]
                  rw [Inquiry.result_bind]
                  cases (expandTokens context visit placement file _ progress).result
                    files <;> rfl

/-- The result of an import statement of a file that is so many levels from the deepest. -/
def importResult (context : StyleContext) (files : FileSystem) (levels : Nat)
    (placement : Placement) (file : Text) (statement : ImportStatement) (progress : Progress) :
    Except Fault Expansion :=
  statementResult files (fun placement path text progress =>
    (expandLevel context levels placement path.text text progress).result files)
    placement statement (importTarget context files file statement) progress

theorem result_expandLevel_zero (file text : Text) (progress : Progress) :
    (expandLevel context 0 placement file text progress).result files =
      .error (.stylesheet file .importsTooDeep) := rfl

theorem result_expandLevel_succ (levels : Nat) (file text : Text) (progress : Progress) :
    (expandLevel context (levels + 1) placement file text progress).result files =
      runPieces (importResult context files levels placement file)
        (SheetToken.scan.pieces text) progress := by
  unfold expandLevel expandText
  rw [Inquiry.result_bind]
  have run := result_expandTokens context files placement
    (fun placement path => expandLevel context levels placement path.text) file
    (SheetToken.scan.pieces text) progress
  simp only [result_expandStatement] at run
  unfold importResult
  rw [← run]
  cases (expandTokens context _ placement file _ progress).result files <;> rfl

theorem result_expand (file text : Text) :
    (expand context placement file text).result files =
      match (Path.ofText file).refusal? with
      | some fault => .error (.access fault (Path.ofText file).text)
      | none =>
          (expandLevel context (deepestImport + 1) placement file text
            ⟨(Path.ofText file).absolute context.workingDirectory, [], []⟩).result files := by
  unfold expand
  dsimp only
  cases (Path.ofText file).refusal? <;> rfl

end Stylesheet

end Inlay

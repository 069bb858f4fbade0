import Inlay.Proofs.Stylesheet.IncludeOnce
import Mathlib.Data.Set.Card

/-!
# How deep imports nest

`Expands` is the recursion of an expansion without any bound on its steps: it carries the files
that are open, and refuses a file that is opened too deep. Every expansion has exactly one such
run. Where no import asks for a file again the open files are all different, so that an
expansion is refused for its depth only where more files can be reached than may be open.
-/

set_option autoImplicit false

namespace Inlay

/-- Whether the imports of the file that a statement names are expanded in turn. A file that is
taken verbatim is not, unless it is taken for reference as well. -/
def ImportStatement.isFollowed (statement : ImportStatement) : Bool :=
  statement.options.contains "reference" || !statement.options.contains "inline"

namespace Stylesheet

/-- What an expansion works on: the text of a file, pieces of it, or one of its imports. -/
inductive Matter where
  | whole (text : Text)
  | part (pieces : List (Piece SheetToken))
  | importing (statement : ImportStatement)

/-- The import statements that some matter holds. -/
def Matter.Holds : Matter → ImportStatement → Prop
  | .whole text, statement => HasImport text statement
  | .part pieces, statement => .token (.importing statement) ∈ pieces
  | .importing own, statement => statement = own

/-- A run of an expansion. The open files are those whose imports are being expanded, the entry
apart and the last one first; so their number is the depth. Each file whose text is worked on
is recorded by the files that are open then. -/
inductive Expands (context : StyleContext) (files : FileSystem) :
    (opened : List Path) → Placement → (file : Text) → Matter → Progress →
      (visits : List (List Path)) → Except Fault Expansion → Prop where
  | refused {opened : List Path} {placement : Placement} {file text : Text}
      {progress : Progress} :
      deepestImport < opened.length →
      Expands context files opened placement file (.whole text) progress []
        (.error (.stylesheet file .importsTooDeep))
  | visited {opened : List Path} {placement : Placement} {file text : Text}
      {progress : Progress} {visits : List (List Path)} {outcome : Except Fault Expansion} :
      opened.length ≤ deepestImport →
      Expands context files opened placement file (.part (SheetToken.scan.pieces text)) progress
        visits outcome →
      Expands context files opened placement file (.whole text) progress (opened :: visits)
        outcome
  | nil {opened : List Path} {placement : Placement} {file : Text} {progress : Progress} :
      Expands context files opened placement file (.part []) progress [] (.ok ([], progress))
  | char {opened : List Path} {placement : Placement} {file : Text} {progress : Progress}
      {c : CodePoint} {pieces : List (Piece SheetToken)} {visits : List (List Path)}
      {outcome : Except Fault Expansion} :
      Expands context files opened placement file (.part pieces) progress visits outcome →
      Expands context files opened placement file (.part (.char c :: pieces)) progress visits
        (outcome.map (Expansion.prepend [c]))
  | inert {opened : List Path} {placement : Placement} {file : Text} {progress : Progress}
      {token : Inert} {pieces : List (Piece SheetToken)} {visits : List (List Path)}
      {outcome : Except Fault Expansion} :
      Expands context files opened placement file (.part pieces) progress visits outcome →
      Expands context files opened placement file (.part (.token (.inert token) :: pieces))
        progress visits (outcome.map (Expansion.prepend (spelling token)))
  | failed {opened : List Path} {placement : Placement} {file : Text} {progress : Progress}
      {statement : ImportStatement} {pieces : List (Piece SheetToken)}
      {visits : List (List Path)} {fault : Fault} :
      Expands context files opened placement file (.importing statement) progress visits
        (.error fault) →
      Expands context files opened placement file
        (.part (.token (.importing statement) :: pieces)) progress visits (.error fault)
  | replaced {opened : List Path} {placement : Placement} {file : Text}
      {progress : Progress} {statement : ImportStatement} {pieces : List (Piece SheetToken)}
      {visits more : List (List Path)} {expansion : Expansion}
      {outcome : Except Fault Expansion} :
      Expands context files opened placement file (.importing statement) progress visits
        (.ok expansion) →
      Expands context files opened placement file (.part pieces) expansion.2 more outcome →
      Expands context files opened placement file
        (.part (.token (.importing statement) :: pieces)) progress (visits ++ more)
        (outcome.map (Expansion.prepend expansion.1))
  | unresolved {opened : List Path} {placement : Placement} {file : Text}
      {progress : Progress} {statement : ImportStatement} {fault : Fault} :
      importTarget context files file statement = .error fault →
      Expands context files opened placement file (.importing statement) progress []
        (.error fault)
  | plain {opened : List Path} {placement : Placement} {file : Text} {progress : Progress}
      {statement : ImportStatement} {image : Text} :
      importTarget context files file statement = .ok (.plain image) →
      Expands context files opened placement file (.importing statement) progress []
        (.ok (placeImport placement image progress))
  | missing {opened : List Path} {placement : Placement} {file : Text} {progress : Progress}
      {statement : ImportStatement} :
      importTarget context files file statement = .ok .missing →
      Expands context files opened placement file (.importing statement) progress []
        (.ok ([], progress))
  | seen {opened : List Path} {placement : Placement} {file : Text} {progress : Progress}
      {statement : ImportStatement} {found : Path} :
      importTarget context files file statement = .ok (.file found) →
      statement.asksAgain = false → progress.hasSeen found = true →
      Expands context files opened placement file (.importing statement) progress []
        (.ok ([], progress))
  | unreadable {opened : List Path} {placement : Placement} {file : Text}
      {progress : Progress} {statement : ImportStatement} {found : Path} {fault : Fault} :
      importTarget context files file statement = .ok (.file found) →
      statement.asksAgain = true ∨ progress.hasSeen found = false →
      (Inquiry.readUnified .utf8 found).result files = .error fault →
      Expands context files opened placement file (.importing statement) progress []
        (.error fault)
  | verbatim {opened : List Path} {placement : Placement} {file : Text} {progress : Progress}
      {statement : ImportStatement} {found : Path} {text : Text} :
      importTarget context files file statement = .ok (.file found) →
      statement.asksAgain = true ∨ progress.hasSeen found = false →
      (Inquiry.readUnified .utf8 found).result files = .ok text →
      statement.isFollowed = false →
      Expands context files opened placement file (.importing statement) progress []
        (.ok (underCondition statement.wrapping text,
          progress.addFile found statement.asksAgain))
  | referred {opened : List Path} {placement : Placement} {file : Text} {progress : Progress}
      {statement : ImportStatement} {found : Path} {text : Text} {visits : List (List Path)}
      {outcome : Except Fault Expansion} :
      importTarget context files file statement = .ok (.file found) →
      statement.asksAgain = true ∨ progress.hasSeen found = false →
      (Inquiry.readUnified .utf8 found).result files = .ok text →
      statement.options.contains "reference" = true →
      Expands context files (found :: opened) .inPlace found.text (.whole text)
        (progress.addFile found statement.asksAgain) visits outcome →
      Expands context files opened placement file (.importing statement) progress visits
        (outcome.map fun expansion =>
          (underCondition statement.wrapping (referenceOnly expansion.1), expansion.2))
  | nested {opened : List Path} {placement : Placement} {file : Text} {progress : Progress}
      {statement : ImportStatement} {found : Path} {text : Text} {visits : List (List Path)}
      {outcome : Except Fault Expansion} :
      importTarget context files file statement = .ok (.file found) →
      statement.asksAgain = true ∨ progress.hasSeen found = false →
      (Inquiry.readUnified .utf8 found).result files = .ok text →
      statement.options.contains "reference" = false → statement.isFollowed = true →
      Expands context files (found :: opened) placement found.text (.whole text)
        (progress.addFile found statement.asksAgain) visits outcome →
      Expands context files opened placement file (.importing statement) progress visits
        (outcome.map fun expansion =>
          (underCondition statement.wrapping expansion.1, expansion.2))

/-- The run of an expansion from its entry, if the name of the entry can be used. -/
def ExpandsEntry (context : StyleContext) (files : FileSystem) (placement : Placement)
    (file text : Text) (visits : List (List Path)) (outcome : Except Fault Expansion) : Prop :=
  match (Path.ofText file).refusal? with
  | some fault => visits = [] ∧ outcome = .error (.access fault (Path.ofText file).text)
  | none =>
      Expands context files [] placement file (.whole text)
        ⟨(Path.ofText file).absolute context.workingDirectory, [], []⟩ visits outcome

/-- The result of some matter at a depth. -/
def Matter.resultAt (context : StyleContext) (files : FileSystem) (depth : Nat)
    (placement : Placement) (file : Text) : Matter → Progress → Except Fault Expansion
  | .whole text, progress =>
      (expandLevel context (deepestImport + 1 - depth) placement file text progress).result files
  | .part pieces, progress =>
      runPieces (importResult context files (deepestImport - depth) placement file) pieces
        progress
  | .importing statement, progress =>
      importResult context files (deepestImport - depth) placement file statement progress

variable {context : StyleContext} {files : FileSystem} {placement : Placement}
  {opened : List Path} {file : Text} {progress : Progress}

theorem resultAt_whole_of_lt {depth : Nat} (deep : deepestImport < depth) (text : Text) :
    Matter.resultAt context files depth placement file (.whole text) progress =
      .error (.stylesheet file .importsTooDeep) := by
  have none : deepestImport + 1 - depth = 0 := by omega
  simp only [Matter.resultAt, none, result_expandLevel_zero]

theorem resultAt_whole_of_le {depth : Nat} (shallow : depth ≤ deepestImport) (text : Text) :
    Matter.resultAt context files depth placement file (.whole text) progress =
      Matter.resultAt context files depth placement file (.part (SheetToken.scan.pieces text))
        progress := by
  have some : deepestImport + 1 - depth = (deepestImport - depth) + 1 := by omega
  simp only [Matter.resultAt, some, result_expandLevel_succ]

theorem passes_eq_false {statement : ImportStatement} {found : Path}
    (wanted : statement.asksAgain = true ∨ progress.hasSeen found = false) :
    (!statement.asksAgain && progress.hasSeen found) = false := by
  rcases wanted with again | unseen
  · rw [again, Bool.not_true, Bool.false_and]
  · rw [unseen, Bool.and_false]

/-- An import of a file that is not passed over, by what its options say of the content. -/
theorem resultAt_importing_of_file {depth : Nat} {statement : ImportStatement} {found : Path}
    {text : Text} (leads : importTarget context files file statement = .ok (.file found))
    (wanted : statement.asksAgain = true ∨ progress.hasSeen found = false)
    (read : (Inquiry.readUnified .utf8 found).result files = .ok text) :
    Matter.resultAt context files depth placement file (.importing statement) progress =
      (contentResult (fun placement path text progress =>
          Matter.resultAt context files (depth + 1) placement path.text (.whole text) progress)
        placement statement.options found text
        (progress.addFile found statement.asksAgain)).map fun content =>
          (underCondition statement.wrapping content.1, content.2) := by
  simp only [Matter.resultAt, importResult, statementResult, leads, passes_eq_false wanted,
    includedResult, read, Bool.false_eq_true, if_false, Nat.add_sub_add_right]

theorem Expands.outcome_eq {matter : Matter} {visits : List (List Path)}
    {outcome : Except Fault Expansion}
    (run : Expands context files opened placement file matter progress visits outcome) :
    outcome = matter.resultAt context files opened.length placement file progress := by
  induction run with
  | refused deep => rw [resultAt_whole_of_lt deep]
  | visited shallow _ ih => rw [resultAt_whole_of_le shallow, ih]
  | nil => rfl
  | char _ ih => rw [ih]; rfl
  | inert _ ih => rw [ih]; rfl
  | failed _ ih =>
      simp only [Matter.resultAt] at ih ⊢
      simp only [runPieces, ← ih]
  | replaced _ _ ih later =>
      simp only [Matter.resultAt] at ih later ⊢
      simp only [runPieces, ← ih, later]
  | unresolved leads => simp only [Matter.resultAt, importResult, leads, statementResult]
  | plain leads => simp only [Matter.resultAt, importResult, leads, statementResult]
  | missing leads => simp only [Matter.resultAt, importResult, leads, statementResult]
  | seen leads once before =>
      simp only [Matter.resultAt, importResult, leads, statementResult, once, before,
        Bool.not_false, Bool.and_self, if_true]
  | unreadable leads wanted read =>
      simp only [Matter.resultAt, importResult, leads, statementResult, passes_eq_false wanted,
        includedResult, read, Bool.false_eq_true, if_false]
  | verbatim leads wanted read unfollowed =>
      simp only [ImportStatement.isFollowed, Bool.or_eq_false_iff, Bool.not_eq_false'] at unfollowed
      rw [resultAt_importing_of_file leads wanted read]
      simp only [contentResult, unfollowed, Bool.false_eq_true, if_false, if_true, Except.map]
  | referred leads wanted read named _ ih =>
      rw [resultAt_importing_of_file leads wanted read, ih]
      simp only [contentResult, named, if_true, List.length_cons]
      cases Matter.resultAt _ _ _ _ _ _ _ <;> rfl
  | nested leads wanted read unnamed followed _ ih =>
      simp only [ImportStatement.isFollowed, unnamed, Bool.false_or, Bool.not_eq_true'] at followed
      rw [resultAt_importing_of_file leads wanted read, ih]
      simp only [contentResult, unnamed, followed, Bool.false_eq_true, if_false, List.length_cons]

theorem exists_expands_importing {statement : ImportStatement}
    (visits : ∀ found placement text progress, ∃ visits,
      Expands context files (found :: opened) placement found.text (.whole text) progress visits
        (Matter.resultAt context files (opened.length + 1) placement found.text (.whole text)
          progress)) :
    ∃ visits, Expands context files opened placement file (.importing statement) progress visits
      (Matter.resultAt context files opened.length placement file (.importing statement)
        progress) := by
  cases leads : importTarget context files file statement with
  | error fault =>
      simp only [Matter.resultAt, importResult, leads, statementResult]
      exact ⟨[], .unresolved leads⟩
  | ok target =>
      cases target with
      | plain image =>
          simp only [Matter.resultAt, importResult, leads, statementResult]
          exact ⟨[], .plain leads⟩
      | missing =>
          simp only [Matter.resultAt, importResult, leads, statementResult]
          exact ⟨[], .missing leads⟩
      | file found =>
          by_cases passes : statement.asksAgain = false ∧ progress.hasSeen found = true
          · simp only [Matter.resultAt, importResult, leads, statementResult, passes.1, passes.2,
              Bool.not_false, Bool.and_self, if_true]
            exact ⟨[], .seen leads passes.1 passes.2⟩
          · have wanted : statement.asksAgain = true ∨ progress.hasSeen found = false := by
              rw [not_and_or] at passes
              simpa using passes
            cases read : (Inquiry.readUnified .utf8 found).result files with
            | error fault =>
                simp only [Matter.resultAt, importResult, leads, statementResult,
                  passes_eq_false wanted, includedResult, read, Bool.false_eq_true, if_false]
                exact ⟨[], .unreadable leads wanted read⟩
            | ok text =>
                rw [resultAt_importing_of_file leads wanted read]
                unfold contentResult
                by_cases named : statement.options.contains "reference" = true
                · obtain ⟨inside, run⟩ := visits found .inPlace text
                    (progress.addFile found statement.asksAgain)
                  refine ⟨inside, ?_⟩
                  have referred : Expands context files opened placement file
                      (.importing statement) progress inside _ :=
                    run.referred leads wanted read named
                  simp only [named, if_true]
                  convert referred using 1
                  cases Matter.resultAt _ _ _ _ _ _ _ <;> rfl
                · by_cases verbatim : statement.options.contains "inline" = true
                  · simp only [named, verbatim, Bool.false_eq_true, if_false, if_true]
                    refine ⟨[], .verbatim leads wanted read ?_⟩
                    rw [ImportStatement.isFollowed, eq_false_of_ne_true named, verbatim]
                    rfl
                  · simp only [named, verbatim, Bool.false_eq_true, if_false]
                    obtain ⟨inside, run⟩ := visits found placement text
                      (progress.addFile found statement.asksAgain)
                    refine ⟨inside, .nested leads wanted read (eq_false_of_ne_true named) ?_ run⟩
                    rw [ImportStatement.isFollowed, eq_false_of_ne_true verbatim]
                    exact Bool.or_true _

theorem exists_expands_part
    (statements : ∀ statement progress, ∃ visits,
      Expands context files opened placement file (.importing statement) progress visits
        (Matter.resultAt context files opened.length placement file (.importing statement)
          progress))
    (pieces : List (Piece SheetToken)) (progress : Progress) :
    ∃ visits, Expands context files opened placement file (.part pieces) progress visits
      (Matter.resultAt context files opened.length placement file (.part pieces) progress) := by
  induction pieces generalizing progress with
  | nil => exact ⟨[], .nil⟩
  | cons piece pieces ih =>
      cases piece with
      | char c =>
          obtain ⟨visits, run⟩ := ih progress
          exact ⟨visits, run.char⟩
      | token token =>
          cases token with
          | inert token =>
              obtain ⟨visits, run⟩ := ih progress
              exact ⟨visits, run.inert⟩
          | importing statement =>
              obtain ⟨visits, run⟩ := statements statement progress
              simp only [Matter.resultAt, runPieces] at run ⊢
              cases outcome : importResult context files (deepestImport - opened.length) placement
                  file statement progress with
              | error fault =>
                  rw [outcome] at run
                  exact ⟨visits, run.failed⟩
              | ok expansion =>
                  rw [outcome] at run
                  obtain ⟨more, later⟩ := ih expansion.2
                  exact ⟨visits ++ more, run.replaced later⟩

theorem exists_expands_whole (room : Nat) (placement : Placement) (opened : List Path)
    (depth : opened.length + room = deepestImport + 1) (file text : Text)
    (progress : Progress) :
    ∃ visits, Expands context files opened placement file (.whole text) progress visits
      (Matter.resultAt context files opened.length placement file (.whole text) progress) := by
  -- By induction on how many files may still be opened inside of this one.
  induction room generalizing placement opened file text progress with
  | zero =>
      have deep : deepestImport < opened.length := by omega
      rw [resultAt_whole_of_lt deep]
      exact ⟨[], .refused deep⟩
  | succ room ih =>
      have shallow : opened.length ≤ deepestImport := by omega
      have inside : ∀ found placement text progress, ∃ visits,
          Expands context files (found :: opened) placement found.text (.whole text) progress
            visits (Matter.resultAt context files (opened.length + 1) placement found.text
              (.whole text) progress) := fun found placement text progress =>
        ih placement (found :: opened) (by rw [List.length_cons]; omega) found.text text progress
      have statements : ∀ statement progress, ∃ visits,
          Expands context files opened placement file (.importing statement) progress visits
            (Matter.resultAt context files opened.length placement file (.importing statement)
              progress) := fun statement progress => exists_expands_importing inside
      obtain ⟨visits, run⟩ :=
        exists_expands_part statements (SheetToken.scan.pieces text) progress
      rw [resultAt_whole_of_le shallow]
      exact ⟨opened :: visits, run.visited shallow⟩

theorem Expands.length_le {matter : Matter} {visits : List (List Path)}
    {outcome : Except Fault Expansion}
    (run : Expands context files opened placement file matter progress visits outcome) :
    ∀ visit ∈ visits, visit.length ≤ deepestImport := by
  induction run with
  | visited shallow _ ih =>
      intro visit member
      rcases List.mem_cons.mp member with rfl | inside
      · exact shallow
      · exact ih visit inside
  | replaced _ _ ih later =>
      intro visit member
      rcases List.mem_append.mp member with first | second
      · exact ih visit first
      · exact later visit second
  | char _ ih => exact ih
  | inert _ ih => exact ih
  | failed _ ih => exact ih
  | referred _ _ _ _ _ ih => exact ih
  | nested _ _ _ _ _ _ ih => exact ih
  | _ =>
      intro visit member
      cases member

/-! ## Open files -/

def importsOf (text : Text) : List ImportStatement :=
  (tokensOf (SheetToken.scan.pieces text)).filterMap fun
    | .importing statement => some statement
    | .inert _ => none

theorem hasImport_iff {text : Text} {statement : ImportStatement} :
    HasImport text statement ↔ statement ∈ importsOf text := by
  constructor
  · intro stands
    exact List.mem_filterMap.mpr
      ⟨.importing statement, List.mem_filterMap.mpr ⟨_, stands, rfl⟩, rfl⟩
  · intro member
    obtain ⟨token, among, taken⟩ := List.mem_filterMap.mp member
    obtain ⟨piece, stands, held⟩ := List.mem_filterMap.mp among
    cases token with
    | inert _ => cases taken
    | importing own =>
        cases taken
        cases piece with
        | char c => cases held
        | token _ =>
            cases held
            exact stands

instance (text : Text) : Decidable (NeverAsksAgain text) :=
  decidable_of_iff (∀ statement ∈ importsOf text, statement.asksAgain = false)
    (forall_congr' fun _ => imp_congr_left hasImport_iff.symm)

/-- The files that imports of some kind in a file's text lead to. -/
def targetsOf (context : StyleContext) (files : FileSystem) (kind : ImportStatement → Bool)
    (file text : Text) : List Path :=
  (importsOf text).filterMap fun statement =>
    match kind statement, importTarget context files file statement with
    | true, .ok (.file found) => some found
    | _, _ => none

theorem mem_targetsOf {kind : ImportStatement → Bool} {text : Text} {found : Path} :
    found ∈ targetsOf context files kind file text ↔
      ∃ statement, HasImport text statement ∧ kind statement = true ∧
        importTarget context files file statement = .ok (.file found) := by
  unfold targetsOf
  simp only [List.mem_filterMap, hasImport_iff]
  refine exists_congr fun statement => and_congr_right fun _ => ?_
  cases kind statement with
  | false => simp
  | true =>
      cases importTarget context files file statement with
      | error fault => simp
      | ok target => cases target <;> simp

/-- The files that can be reached from a text by imports of some kind, each import standing in
the file that the one before leads to. -/
inductive Reaches (context : StyleContext) (files : FileSystem)
    (kind : ImportStatement → Bool) (file text : Text) : Path → Prop where
  | direct {found : Path} :
      found ∈ targetsOf context files kind file text →
      Reaches context files kind file text found
  | onward {between : Path} {content : Text} {found : Path} :
      Reaches context files kind file text between →
      content ∈ ((Inquiry.readUnified .utf8 between).result files).toOption →
      found ∈ targetsOf context files kind between.text content →
      Reaches context files kind file text found

/-- A list of files that holds the targets of a text, and those of each of its files, holds all
files that can be reached. -/
theorem Reaches.mem {kind : ImportStatement → Bool} {text : Text} {found : Path}
    (reaches : Reaches context files kind file text found) (among : List Path)
    (direct : targetsOf context files kind file text ⊆ among)
    (onward : ∀ between ∈ among,
      ∀ content ∈ ((Inquiry.readUnified .utf8 between).result files).toOption,
        targetsOf context files kind between.text content ⊆ among) : found ∈ among := by
  induction reaches with
  | direct target => exact direct target
  | onward _ read target ih => exact onward _ ih _ read target

/-- No import of a text, or of a file that can be reached from it by imports of some kind, asks
for its file again. -/
def NeverRepeats (context : StyleContext) (files : FileSystem) (kind : ImportStatement → Bool)
    (file text : Text) : Prop :=
  NeverAsksAgain text ∧ ∀ found, Reaches context files kind file text found →
    ∀ content ∈ ((Inquiry.readUnified .utf8 found).result files).toOption,
      NeverAsksAgain content

theorem neverRepeats_of_closed {kind : ImportStatement → Bool} {text : Text} (among : List Path)
    (silent : NeverAsksAgain text) (direct : targetsOf context files kind file text ⊆ among)
    (onward : ∀ between ∈ among,
      ∀ content ∈ ((Inquiry.readUnified .utf8 between).result files).toOption,
        targetsOf context files kind between.text content ⊆ among ∧ NeverAsksAgain content) :
    NeverRepeats context files kind file text := by
  refine ⟨silent, fun found reaches content read => ?_⟩
  have held := reaches.mem among direct fun between listed content read =>
    (onward between listed content read).1
  exact (onward found held content read).2

/-- On a settled file system the path of a file that is reached is its location. -/
theorem Reaches.exists_location {kind : ImportStatement → Bool} {text : Text} {found : Path}
    (reaches : Reaches context files kind file text found) (fits : context.Fits files) :
    ∃ location bytes, files.find? location = some (.file bytes) ∧ found = ⟨.root, location⟩ := by
  have led : ∃ importer statement,
      importTarget context files importer statement = .ok (.file found) := by
    cases reaches with
    | direct target =>
        obtain ⟨statement, _, _, leads⟩ := mem_targetsOf.mp target
        exact ⟨file, statement, leads⟩
    | @onward between _ _ _ _ target =>
        obtain ⟨statement, _, _, leads⟩ := mem_targetsOf.mp target
        exact ⟨between.text, statement, leads⟩
  obtain ⟨importer, statement, leads⟩ := led
  obtain ⟨_, _, location, bytes, _, stands, same⟩ := importTarget_file_location fits leads
  exact ⟨location, bytes, stands, same⟩

/-- The files other than the entry that can be reached by imports of some kind. -/
def reachedFiles (context : StyleContext) (files : FileSystem) (kind : ImportStatement → Bool)
    (file text : Text) : Set Path :=
  {found | Reaches context files kind file text found ∧
    found ≠ (Path.ofText file).absolute context.workingDirectory}

theorem importTarget_error {statement : ImportStatement} {fault : Fault}
    (failed : importTarget context files file statement = .error fault) (importer : Text) :
    fault ≠ .stylesheet importer .importsTooDeep := by
  unfold importTarget at failed
  split at failed
  · cases failed
  · dsimp only at failed
    split at failed
    · next unresolved =>
        cases failed
        exact resolveImport_error unresolved importer _
    · cases failed
    · split at failed
      · cases failed
      · cases failed
        simp

theorem decode_utf8_error {bytes : Bytes} {fault : Fault}
    (failed : Charset.utf8.decode bytes = .error fault) : ∃ failure, fault = .decoding failure := by
  unfold Charset.decode Charset.utf8 at failed
  dsimp only at failed
  cases decoded : Encoding.utf8.codec.decode bytes with
  | ok text =>
      rw [decoded] at failed
      cases failed
  | error failure =>
      rw [decoded] at failed
      cases failed
      exact ⟨failure, rfl⟩

theorem readUnified_error {found : Path} {fault : Fault}
    (failed : (Inquiry.readUnified .utf8 found).result files = .error fault) (importer : Text) :
    fault ≠ .stylesheet importer .importsTooDeep := by
  have named : (Inquiry.checkEncodingName Charset.utf8.name).result files = .ok () := rfl
  simp only [Inquiry.readUnified, Inquiry.readExact, Inquiry.result_bind, named] at failed
  simp only [Inquiry.result] at failed
  cases read : files.read found with
  | error cause =>
      rw [read] at failed
      cases failed
      exact Fault.noConfusion
  | ok bytes =>
      rw [read] at failed
      simp only [Inquiry.result_ofExcept] at failed
      split at failed
      · cases failed
      · next undecoded =>
          cases failed
          obtain ⟨failure, rfl⟩ := decode_utf8_error undecoded
          exact Fault.noConfusion

/-- A run keeps its entry, and forgets no file that was included. -/
theorem Expands.keeps {matter : Matter} {visits : List (List Path)}
    {outcome : Except Fault Expansion}
    (run : Expands context files opened placement file matter progress visits outcome) :
    ∀ expansion, outcome = .ok expansion →
      expansion.2.entry = progress.entry ∧ progress.files ⊆ expansion.2.files := by
  induction run with
  | refused | failed | unresolved | unreadable => rintro _ ⟨⟩
  | nil | missing | seen =>
      rintro _ ⟨⟩
      exact ⟨rfl, List.Subset.refl _⟩
  | visited _ _ ih => exact ih
  | @char _ _ _ _ _ _ _ outcome _ ih | @inert _ _ _ _ _ _ _ outcome _ ih =>
      cases outcome with
      | error fault => rintro _ ⟨⟩
      | ok expansion =>
          rintro _ ⟨⟩
          exact ih expansion rfl
  | @replaced _ _ _ _ _ _ _ _ first outcome _ _ ih later =>
      cases outcome with
      | error fault => rintro _ ⟨⟩
      | ok expansion =>
          rintro _ ⟨⟩
          have before := ih first rfl
          have behind := later expansion rfl
          exact ⟨behind.1.trans before.1, List.Subset.trans before.2 behind.2⟩
  | @plain _ placement =>
      rintro _ ⟨⟩
      cases placement <;> exact ⟨rfl, List.Subset.refl _⟩
  | verbatim =>
      rintro _ ⟨⟩
      exact ⟨rfl, by simp⟩
  | @referred _ _ _ _ _ _ _ _ outcome _ _ _ _ _ ih
  | @nested _ _ _ _ _ _ _ _ outcome _ _ _ _ _ _ ih =>
      cases outcome with
      | error fault => rintro _ ⟨⟩
      | ok expansion =>
          rintro _ ⟨⟩
          have inside := ih expansion rfl
          rw [Progress.files_addFile] at inside
          exact ⟨inside.1, List.Subset.trans (List.subset_append_left _ _) inside.2⟩

/-- Open files that are all different, none of them the entry, and all reached from it. -/
structure Unrepeated (reached : Path → Prop) (entry : Path) (opened : List Path) : Prop where
  nodup : opened.Nodup
  fresh : entry ∉ opened
  reached : ∀ found ∈ opened, reached found

/-- The imports of some matter are asked for once, and the files to be followed are reached. -/
def Matter.Sound (context : StyleContext) (files : FileSystem) (reached : Path → Prop)
    (file : Text) (matter : Matter) : Prop :=
  ∀ statement, matter.Holds statement →
    statement.asksAgain = false ∧
      ∀ found, statement.isFollowed = true →
        importTarget context files file statement = .ok (.file found) → reached found

theorem Matter.Sound.head {reached : Path → Prop} {statement : ImportStatement}
    {pieces : List (Piece SheetToken)}
    (sound : (Matter.part (.token (.importing statement) :: pieces)).Sound context files reached
      file) :
    (Matter.importing statement).Sound context files reached file := by
  rintro _ rfl
  exact sound _ (.head _)

theorem Matter.Sound.tail {reached : Path → Prop} {piece : Piece SheetToken}
    {pieces : List (Piece SheetToken)}
    (sound : (Matter.part (piece :: pieces)).Sound context files reached file) :
    (Matter.part pieces).Sound context files reached file :=
  fun statement held => sound statement (.tail _ held)

theorem eq_error_of_map {image : Expansion → Expansion} {outcome : Except Fault Expansion}
    {fault : Fault} (failed : outcome.map image = .error fault) : outcome = .error fault := by
  cases outcome with
  | error own => exact failed
  | ok expansion => cases failed

theorem cons_subset_files_addFile {found : Path} {repeated : Bool}
    (seen : opened ⊆ progress.files) :
    found :: opened ⊆ (progress.addFile found repeated).files := by
  rw [Progress.files_addFile]
  exact List.cons_subset.mpr ⟨by simp, List.Subset.trans seen (List.subset_append_left _ _)⟩

theorem Unrepeated.cons {reached : Path → Prop} {statement : ImportStatement} {found : Path}
    (unrepeated : Unrepeated reached progress.entry opened) (seen : opened ⊆ progress.files)
    (wanted : statement.asksAgain = true ∨ progress.hasSeen found = false)
    (once : statement.asksAgain = false) (here : reached found) :
    Unrepeated reached progress.entry (found :: opened) := by
  have unseen : ¬(found = progress.entry ∨ found ∈ progress.files) := by
    rw [← Progress.hasSeen_iff]
    simpa [once] using wanted
  rw [not_or] at unseen
  refine ⟨List.nodup_cons.mpr ⟨fun again => unseen.2 (seen again), unrepeated.nodup⟩, ?_, ?_⟩
  · rw [List.mem_cons, not_or]
    exact ⟨Ne.symm unseen.1, unrepeated.fresh⟩
  · intro other member
    rcases List.mem_cons.mp member with rfl | before
    · exact here
    · exact unrepeated.reached other before

/-- Where no import asks for a file again, the open files of a run never repeat; and if the run
is refused for its depth, then more files are open than may be. -/
theorem Expands.unrepeated {reached : Path → Prop} {matter : Matter}
    {visits : List (List Path)} {outcome : Except Fault Expansion}
    (run : Expands context files opened placement file matter progress visits outcome)
    (inside : ∀ found, reached found → ∀ content,
      (Inquiry.readUnified .utf8 found).result files = .ok content →
        Matter.Sound context files reached found.text (.whole content))
    (sound : matter.Sound context files reached file)
    (unrepeated : Unrepeated reached progress.entry opened) (seen : opened ⊆ progress.files) :
    (∀ visit ∈ visits, Unrepeated reached progress.entry visit) ∧
      ∀ importer, outcome = .error (.stylesheet importer .importsTooDeep) →
        ∃ deeper, Unrepeated reached progress.entry deeper ∧ deepestImport < deeper.length := by
  induction run with
  | refused deep => exact ⟨by simp, fun _ _ => ⟨_, unrepeated, deep⟩⟩
  | visited _ _ ih =>
      obtain ⟨visits, deeper⟩ := ih sound unrepeated seen
      refine ⟨fun visit member => ?_, deeper⟩
      rcases List.mem_cons.mp member with rfl | later
      · exact unrepeated
      · exact visits visit later
  | nil => exact ⟨by simp, by simp⟩
  | char _ ih | inert _ ih =>
      obtain ⟨visits, deeper⟩ := ih sound.tail unrepeated seen
      exact ⟨visits, fun importer refused => deeper importer (eq_error_of_map refused)⟩
  | failed _ ih => exact ih sound.head unrepeated seen
  | @replaced _ _ _ _ _ _ _ _ first _ statementRun _ ih later =>
      obtain ⟨visits, _⟩ := ih sound.head unrepeated seen
      -- What was included by the statement only adds to the files that were seen.
      obtain ⟨sameEntry, kept⟩ := statementRun.keeps first rfl
      rw [← sameEntry] at unrepeated ⊢
      obtain ⟨more, deeper⟩ := later sound.tail unrepeated (List.Subset.trans seen kept)
      refine ⟨fun visit member => ?_, fun importer refused =>
        deeper importer (eq_error_of_map refused)⟩
      rcases List.mem_append.mp member with before | behind
      · rw [sameEntry]
        exact visits visit before
      · exact more visit behind
  | unresolved failed =>
      exact ⟨by simp, fun importer refused =>
        absurd (Except.error.inj refused) (importTarget_error failed importer)⟩
  | plain | missing | seen | verbatim => exact ⟨by simp, by simp⟩
  | unreadable _ _ failed =>
      exact ⟨by simp, fun importer refused =>
        absurd (Except.error.inj refused) (readUnified_error failed importer)⟩
  | @referred _ _ _ _ statement found _ _ _ leads wanted read named _ ih
  | @nested _ _ _ _ statement found _ _ _ leads wanted read _ named _ ih =>
      obtain ⟨once, follow⟩ := sound statement rfl
      -- The file was not seen before, so it is neither open nor the entry.
      have followed : statement.isFollowed = true := by
        simp [ImportStatement.isFollowed] at named ⊢
        simp [named]
      have here := follow found followed leads
      obtain ⟨visits, deeper⟩ := ih (inside found here _ read)
        (unrepeated.cons seen wanted once here) (cons_subset_files_addFile seen)
      exact ⟨visits, fun importer refused => deeper importer (eq_error_of_map refused)⟩

/-- Where no import asks again, what is to be followed in a file that is reached is reached. -/
theorem sound_of_neverRepeats {text : Text}
    (never : NeverRepeats context files ImportStatement.isFollowed file text) :
    (Matter.whole text).Sound context files
        (Reaches context files ImportStatement.isFollowed file text) file ∧
      ∀ found, Reaches context files ImportStatement.isFollowed file text found → ∀ content,
        (Inquiry.readUnified .utf8 found).result files = .ok content →
          (Matter.whole content).Sound context files
            (Reaches context files ImportStatement.isFollowed file text) found.text := by
  constructor
  · intro statement stands
    exact ⟨never.1 statement stands, fun found followed leads =>
      .direct (mem_targetsOf.mpr ⟨statement, stands, followed, leads⟩)⟩
  · intro found reaches content read statement stands
    have present : content ∈ ((Inquiry.readUnified .utf8 found).result files).toOption := by
      rw [read]
      rfl
    exact ⟨never.2 found reaches content present statement stands, fun next followed leads =>
      .onward reaches present (mem_targetsOf.mpr ⟨statement, stands, followed, leads⟩)⟩

theorem encard_reachedFiles_le {kind : ImportStatement → Bool} {text : Text} (among : List Path)
    (held : ∀ found, Reaches context files kind file text found →
      found ∈ (Path.ofText file).absolute context.workingDirectory :: among) :
    (reachedFiles context files kind file text).encard ≤ among.length := by
  have within : reachedFiles context files kind file text ⊆ (among.toFinset : Set Path) := by
    rintro found ⟨reaches, other⟩
    have listed := (List.mem_cons.mp (held found reaches)).resolve_left other
    simpa using listed
  calc (reachedFiles context files kind file text).encard
      ≤ (among.toFinset : Set Path).encard := Set.encard_le_encard within
    _ = (among.toFinset.card : ℕ∞) := Set.encard_coe_eq_coe_finsetCard _
    _ ≤ among.length := Nat.cast_le.mpr among.toFinset_card_le

theorem Unrepeated.length_le_encard {reached : Path → Prop} {entry : Path}
    (unrepeated : Unrepeated reached entry opened) :
    (opened.length : ℕ∞) ≤ {found | reached found ∧ found ≠ entry}.encard := by
  have among : (opened.toFinset : Set Path) ⊆ {found | reached found ∧ found ≠ entry} := by
    intro found member
    have listed : found ∈ opened := by simpa using member
    refine ⟨unrepeated.reached found listed, ?_⟩
    rintro rfl
    exact unrepeated.fresh listed
  calc (opened.length : ℕ∞) = (opened.toFinset : Set Path).encard := by
        rw [Set.encard_coe_eq_coe_finsetCard, List.toFinset_card_of_nodup unrepeated.nodup]
    _ ≤ _ := Set.encard_le_encard among

theorem ExpandsEntry.unrepeated {text : Text} {visits : List (List Path)}
    {outcome : Except Fault Expansion}
    (run : ExpandsEntry context files placement file text visits outcome)
    (never : NeverRepeats context files ImportStatement.isFollowed file text) :
    (∀ visit ∈ visits, Unrepeated (Reaches context files ImportStatement.isFollowed file text)
        ((Path.ofText file).absolute context.workingDirectory) visit) ∧
      ∀ importer, outcome = .error (.stylesheet importer .importsTooDeep) →
        deepestImport <
          (reachedFiles context files ImportStatement.isFollowed file text).encard := by
  unfold ExpandsEntry at run
  split at run
  · obtain ⟨rfl, rfl⟩ := run
    exact ⟨by simp, by simp⟩
  · obtain ⟨sound, inside⟩ := sound_of_neverRepeats never
    obtain ⟨unrepeated, deeper⟩ := run.unrepeated inside sound ⟨List.nodup_nil, by simp, by simp⟩
      (List.nil_subset _)
    refine ⟨unrepeated, fun importer refused => ?_⟩
    obtain ⟨longer, different, long⟩ := deeper importer refused
    exact (Nat.cast_lt.mpr long).trans_le different.length_le_encard

theorem ExpandsEntry.outcome_eq {text : Text} {visits : List (List Path)}
    {outcome : Except Fault Expansion}
    (run : ExpandsEntry context files placement file text visits outcome) :
    outcome = (expand context placement file text).result files := by
  rw [result_expand]
  unfold ExpandsEntry at run
  cases refused : (Path.ofText file).refusal? with
  | some fault =>
      rw [refused] at run
      exact run.2
  | none =>
      rw [refused] at run
      exact run.outcome_eq

theorem exists_expandsEntry (context : StyleContext) (files : FileSystem)
    (placement : Placement) (file text : Text) :
    ∃ visits, ExpandsEntry context files placement file text visits
      ((expand context placement file text).result files) := by
  rw [result_expand]
  unfold ExpandsEntry
  cases (Path.ofText file).refusal? with
  | some fault => exact ⟨[], rfl, rfl⟩
  | none => exact exists_expands_whole (deepestImport + 1) placement [] (Nat.zero_add _) file text _

theorem ExpandsEntry.length_le {text : Text} {visits : List (List Path)}
    {outcome : Except Fault Expansion}
    (run : ExpandsEntry context files placement file text visits outcome) :
    ∀ visit ∈ visits, visit.length ≤ deepestImport := by
  unfold ExpandsEntry at run
  split at run
  · rw [run.1]
    simp
  · exact run.length_le

/-- An expansion has a run, and no other outcome than that of the run; it works on no file deeper
than allowed. Where no import asks for its file again, no file is open twice and the entry is
not opened again; and unless more files can be followed than may be open, no import is refused
for its depth. The files are counted by their paths, which tell their locations. -/
theorem expand_nesting (context : StyleContext) (files : FileSystem) (placement : Placement)
    (file text : Text) :
    (∃ visits, ExpandsEntry context files placement file text visits
      ((expand context placement file text).result files)) ∧
    (∀ visits outcome, ExpandsEntry context files placement file text visits outcome →
      outcome = (expand context placement file text).result files ∧
        ∀ visit ∈ visits, visit.length ≤ deepestImport) ∧
    (NeverRepeats context files ImportStatement.isFollowed file text →
      (∀ visits outcome, ExpandsEntry context files placement file text visits outcome →
        ∀ visit ∈ visits, visit.Nodup ∧
          (Path.ofText file).absolute context.workingDirectory ∉ visit) ∧
      ((reachedFiles context files ImportStatement.isFollowed file text).encard ≤ deepestImport →
        ∀ importer, (expand context placement file text).result files ≠
          .error (.stylesheet importer .importsTooDeep))) ∧
    (context.Fits files →
      ∀ found ∈ reachedFiles context files ImportStatement.isFollowed file text,
        ∃ location bytes,
          files.find? location = some (.file bytes) ∧ found = ⟨.root, location⟩) := by
  refine ⟨exists_expandsEntry context files placement file text, ?_, fun never => ⟨?_, ?_⟩, ?_⟩
  · exact fun visits outcome run => ⟨run.outcome_eq, run.length_le⟩
  · intro visits outcome run visit member
    have unrepeated := (run.unrepeated never).1 visit member
    exact ⟨unrepeated.nodup, unrepeated.fresh⟩
  · intro few importer refused
    obtain ⟨visits, run⟩ := exists_expandsEntry context files placement file text
    exact absurd few (not_le.mpr ((run.unrepeated never).2 importer refused))
  · exact fun fits found reached => reached.1.exists_location fits

/-! ## Chains of imports -/

def plainContext : StyleContext := ⟨{}, [], .ok⟩

def importOf (options name : Text) : Text := "@import " ++ options ++ "'" ++ name ++ "';"

/-- Files each of which imports the next one, with a text of its own for the last one. -/
def chainedFiles (options closing : Text) : List Text → List (Location × Entry)
  | [] => []
  | [name] => [([name], .file (Utf8.encode closing))]
  | name :: next :: names =>
      ([name], .file (Utf8.encode (importOf options next))) ::
        chainedFiles options closing (next :: names)

def sixteenNames : List Text :=
  ["a", "b", "c", "d", "e", "f", "g", "h", "i", "j", "k", "l", "m", "n", "o", "p"]

def seventeenNames : List Text := sixteenNames ++ [("q" : Text)]

def rootFiles (names : List Text) : List Path := names.map fun name => ⟨.root, [name]⟩

/-- Sixteen files in a row, the last of which imports the first one and the entry again. -/
def importRing : FileSystem where
  entries := chainedFiles [] (importOf [] "a" ++ importOf [] "entry") ("entry" :: sixteenNames)
  workingDirectory := []

theorem expand_nesting_of_importRing :
    NeverRepeats plainContext importRing ImportStatement.isFollowed "entry" (importOf [] "a") ∧
      (reachedFiles plainContext importRing ImportStatement.isFollowed "entry"
        (importOf [] "a")).encard ≤ deepestImport ∧
      ∀ importer, (expand plainContext .inPlace "entry" (importOf [] "a")).result importRing ≠
        .error (.stylesheet importer .importsTooDeep) := by
  have entry : (Path.ofText "entry").absolute plainContext.workingDirectory =
      ⟨.root, ["entry"]⟩ := by decide +kernel
  have direct : targetsOf plainContext importRing ImportStatement.isFollowed "entry"
      (importOf [] "a") ⊆ rootFiles ("entry" :: sixteenNames) := by decide +kernel
  have onward : ∀ between ∈ rootFiles ("entry" :: sixteenNames),
      ∀ content ∈ ((Inquiry.readUnified .utf8 between).result importRing).toOption,
        targetsOf plainContext importRing ImportStatement.isFollowed between.text content ⊆
            rootFiles ("entry" :: sixteenNames) ∧ NeverAsksAgain content := by
    decide +kernel
  have never : NeverRepeats plainContext importRing ImportStatement.isFollowed "entry"
      (importOf [] "a") := neverRepeats_of_closed _ (by decide +kernel) direct onward
  have few : (reachedFiles plainContext importRing ImportStatement.isFollowed "entry"
      (importOf [] "a")).encard ≤ deepestImport := by
    refine encard_reachedFiles_le (rootFiles sixteenNames) fun found reaches => ?_
    rw [entry]
    exact reaches.mem _ direct fun between listed content read =>
      (onward between listed content read).1
  have nesting := expand_nesting plainContext importRing .inPlace "entry" (importOf [] "a")
  exact ⟨never, few, (nesting.2.2.1 never).2 few⟩

/-- Seventeen files in a row, each imported for reference and inline. -/
def importLadder : FileSystem where
  entries := chainedFiles "(reference, inline) " "@v: 1;" ("entry" :: seventeenNames)
  workingDirectory := []

/-- An import that is taken for reference is followed even if it is inline, so that the files
which other imports lead to do not bound the depth. -/
theorem inline_imports_may_nest_too_deep :
    ¬∀ (context : StyleContext) (files : FileSystem) (placement : Placement) (file text : Text),
      NeverRepeats context files (fun _ => true) file text →
      (reachedFiles context files (fun statement => !statement.options.contains "inline") file
        text).encard ≤ deepestImport →
      ∀ importer, (expand context placement file text).result files ≠
        .error (.stylesheet importer .importsTooDeep) := by
  intro claimed
  have never : NeverRepeats plainContext importLadder (fun _ => true) "entry"
      (importOf "(reference, inline) " "a") := by
    refine neverRepeats_of_closed (rootFiles seventeenNames) ?_ ?_ ?_ <;> decide +kernel
  have nowhere : targetsOf plainContext importLadder
      (fun statement => !statement.options.contains "inline") "entry"
      (importOf "(reference, inline) " "a") = [] := by decide +kernel
  have none : (reachedFiles plainContext importLadder
      (fun statement => !statement.options.contains "inline") "entry"
      (importOf "(reference, inline) " "a")).encard ≤ ([] : List Path).length := by
    refine encard_reachedFiles_le [] fun found reaches => ?_
    have held := reaches.mem [] (by rw [nowhere]; exact List.nil_subset _)
      fun _ listed => absurd listed List.not_mem_nil
    exact absurd held List.not_mem_nil
  refine claimed plainContext importLadder .inPlace "entry" _ never (none.trans (by simp)) "/q" ?_
  decide +kernel

end Stylesheet

end Inlay

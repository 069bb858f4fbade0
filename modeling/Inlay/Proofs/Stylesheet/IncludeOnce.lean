import Inlay.Proofs.Stylesheet.Composition
import Inlay.Proofs.Stylesheet.Resolution

/-!
# Including each file once

An expansion is composed of its import statements so that one which does not ask for its file
again contributes the content exactly if the file is neither the entry nor included earlier.
The files that count as seen are threaded through all nested files, whatever the options of
the imports between them.
-/

set_option autoImplicit false

namespace Inlay.Stylesheet

variable {context : StyleContext} {files : FileSystem} {placement : Placement}

/-- Where some files are seen, a statement contributes its file if it asks for the file again,
or if the file is neither among them nor included by an earlier event. -/
def OnceFrom (seen : List Path) (events : List ImportEvent) : Prop :=
  ∀ earlier event later, events = earlier ++ event :: later →
    (event.contributes = true ↔
      event.statement.asksAgain = true ∨ event.found ∉ seen ++ contributions earlier)

theorem onceFrom_nil (seen : List Path) : OnceFrom seen [] := by
  intro earlier event later split
  simp at split

theorem OnceFrom.append {seen : List Path} {first second : List ImportEvent}
    (firstOnce : OnceFrom seen first)
    (secondOnce : OnceFrom (seen ++ contributions first) second) :
    OnceFrom seen (first ++ second) := by
  intro earlier event later split
  -- The event is one of the second list, or one of the first with some rest behind it.
  rcases List.append_eq_append_iff.mp split with ⟨between, rfl, rest⟩ | ⟨between, rfl, rest⟩
  · rw [contributions_append, ← List.append_assoc]
    exact secondOnce between event later rest
  · cases between with
    | nil =>
        rw [List.append_nil] at firstOnce secondOnce
        exact secondOnce [] event later (by simpa using rest.symm) |>.trans (by simp)
    | cons head between =>
        rw [List.cons_append, List.cons.injEq] at rest
        obtain ⟨rfl, _⟩ := rest
        exact firstOnce earlier event between rfl

theorem onceFrom_singleton {seen : List Path} {event : ImportEvent}
    (rule : event.contributes = true ↔
      event.statement.asksAgain = true ∨ event.found ∉ seen) : OnceFrom seen [event] := by
  intro earlier other later split
  cases earlier with
  | nil =>
      rw [List.nil_append, List.cons.injEq] at split
      obtain ⟨rfl, _⟩ := split
      simpa using rule
  | cons head earlier => simp at split

/-- If no statement asks for its file again, no file is included twice, nor is one that was
seen before. -/
theorem OnceFrom.nodup {seen : List Path} {events : List ImportEvent}
    (once : OnceFrom seen events)
    (never : ∀ event ∈ events, event.statement.asksAgain = false) :
    (contributions events).Nodup ∧ ∀ found ∈ contributions events, found ∉ seen := by
  induction events generalizing seen with
  | nil => simp
  | cons event events ih =>
      have later : OnceFrom (seen ++ contributions [event]) events := by
        intro earlier other rest split
        have rule := once (event :: earlier) other rest (by rw [split]; rfl)
        rwa [← List.singleton_append, contributions_append, ← List.append_assoc] at rule
      obtain ⟨nodup, fresh⟩ := ih later fun other member => never other (.tail _ member)
      have rule := once [] event events rfl
      rw [contributions_cons] at fresh ⊢
      by_cases contributes : event.contributes
      · have unseen : event.found ∉ seen := by
          have decided := rule.mp contributes
          rw [never event (.head _)] at decided
          simpa using decided
        simp only [contributes, if_true, contributions_nil, List.mem_append,
          List.mem_singleton, not_or] at fresh ⊢
        refine ⟨List.nodup_cons.mpr ⟨fun again => (fresh _ again).2 rfl, nodup⟩, ?_⟩
        intro found member
        rcases List.mem_cons.mp member with rfl | again
        · exact unseen
        · exact (fresh found again).1
      · rw [if_neg contributes] at fresh ⊢
        exact ⟨nodup, fun found member seenBefore =>
          fresh found member (List.mem_append_left _ seenBefore)⟩

/-- The result of a run that started from a progress is composed of events that include each
file once, and the progress at the end tells which files were included. -/
def Explained (composition : Composition) (progress : Progress)
    (result : Except Fault Expansion) : Prop :=
  ∃ events, composition events (result.map Prod.fst) ∧
    OnceFrom (progress.entry :: progress.files) events ∧
    ∀ expansion, result = .ok expansion →
      expansion.2.entry = progress.entry ∧
        expansion.2.files = progress.files ++ contributions events

def VisitsExplained (nested : Placement → Path → Text → Composition)
    (visited : Placement → Path → Text → Progress → Except Fault Expansion) : Prop :=
  ∀ placement path text progress,
    Explained (nested placement path text) progress (visited placement path text progress)

theorem Explained.map {composition more : Composition} {progress : Progress}
    {result : Except Fault Expansion} (explained : Explained composition progress result)
    (image : Text → Text)
    (extends_ : ∀ events outcome, composition events outcome →
      more events (outcome.map image)) :
    Explained more progress (result.map fun expansion => (image expansion.1, expansion.2)) := by
  obtain ⟨events, composed, once, follows⟩ := explained
  have mapped := extends_ events _ composed
  cases result with
  | error fault =>
      refine ⟨events, mapped, once, ?_⟩
      rintro expansion ⟨⟩
  | ok expansion =>
      refine ⟨events, mapped, once, ?_⟩
      rintro _ ⟨⟩
      exact follows expansion rfl

theorem Explained.andThen {first second whole : Composition} {progress : Progress}
    {expansion : Expansion} {rest : Except Fault Expansion}
    (explained : Explained first progress (.ok expansion))
    (later : Explained second expansion.2 rest)
    (joined : ∀ events more outcome, first events (.ok expansion.1) → second more outcome →
      whole (events ++ more) (outcome.map (expansion.1 ++ ·))) :
    Explained whole progress (rest.map (Expansion.prepend expansion.1)) := by
  obtain ⟨events, composed, once, follows⟩ := explained
  obtain ⟨more, composedLater, onceLater, followsLater⟩ := later
  obtain ⟨sameEntry, included⟩ := follows expansion rfl
  rw [sameEntry, included, ← List.cons_append] at onceLater
  have both := joined events more _ composed composedLater
  cases rest with
  | error fault =>
      refine ⟨events ++ more, both, once.append onceLater, ?_⟩
      rintro ended ⟨⟩
  | ok ended =>
      refine ⟨events ++ more, both, once.append onceLater, ?_⟩
      rintro _ ⟨⟩
      obtain ⟨sameLater, includedLater⟩ := followsLater ended rfl
      refine ⟨sameLater.trans sameEntry, includedLater.trans ?_⟩
      rw [included, contributions_append, List.append_assoc]

theorem explained_of_no_events {composition : Composition} {progress : Progress}
    {expansion : Expansion} (composed : composition [] (.ok expansion.1))
    (sameEntry : expansion.2.entry = progress.entry)
    (sameFiles : expansion.2.files = progress.files) :
    Explained composition progress (.ok expansion) := by
  refine ⟨[], composed, onceFrom_nil _, ?_⟩
  rintro _ ⟨⟩
  exact ⟨sameEntry, by simpa using sameFiles⟩

theorem explained_of_fault {composition : Composition} {progress : Progress} {fault : Fault}
    (composed : composition [] (.error fault)) :
    Explained composition progress (.error fault) := by
  refine ⟨[], composed, onceFrom_nil _, ?_⟩
  rintro expansion ⟨⟩

theorem explained_contentResult {nested : Placement → Path → Text → Composition}
    {visited : Placement → Path → Text → Progress → Except Fault Expansion}
    (inside : VisitsExplained nested visited) (names : List Text) (found : Path) (text : Text)
    (progress : Progress) :
    Explained (ContentComposes nested placement names found text) progress
      (contentResult visited placement names found text progress) := by
  unfold contentResult
  split
  · next naming =>
      refine (inside .inPlace found text progress).map referenceOnly fun events outcome whole => ?_
      unfold ContentComposes
      rw [if_pos naming]
      exact ⟨outcome, whole, rfl⟩
  · next whole =>
      split
      · next verbatim =>
          refine explained_of_no_events ?_ rfl rfl
          unfold ContentComposes
          rw [if_neg whole, if_pos verbatim]
          exact ⟨rfl, rfl⟩
      · next expanded =>
          obtain ⟨events, composed, once, follows⟩ := inside placement found text progress
          refine ⟨events, ?_, once, follows⟩
          unfold ContentComposes
          rwa [if_neg whole, if_neg expanded]

theorem explained_includedResult {nested : Placement → Path → Text → Composition}
    {visited : Placement → Path → Text → Progress → Except Fault Expansion}
    (inside : VisitsExplained nested visited) (importer : Text) (statement : ImportStatement)
    (found : Path) (progress : Progress)
    (rule : statement.asksAgain = true ∨ found ∉ progress.entry :: progress.files) :
    Explained (StatementComposes files nested placement importer statement (.ok (.file found)))
      progress (includedResult files visited placement statement found progress) := by
  have first : OnceFrom (progress.entry :: progress.files)
      [⟨importer, statement, found, true⟩] := onceFrom_singleton (iff_of_true rfl rule)
  unfold includedResult
  cases read : (Inquiry.readUnified .utf8 found).result files with
  | error fault =>
      refine ⟨_, .unreadable read, first, ?_⟩
      rintro expansion ⟨⟩
  | ok text =>
      have content : Explained (ContentComposes nested placement _ _ _) _ _ :=
        explained_contentResult inside statement.options found text
          (progress.addFile found statement.asksAgain)
      have wrapped : Explained (fun events outcome =>
          StatementComposes files nested placement importer statement (.ok (.file found))
            (⟨importer, statement, found, true⟩ :: events) outcome) _ _ :=
        content.map (underCondition statement.wrapping) fun _ _ inner => .included read inner
      obtain ⟨events, composed, once, follows⟩ := wrapped
      refine ⟨_, composed, ?_, fun expansion done => ?_⟩
      · rw [Progress.files_addFile, ← List.cons_append] at once
        exact first.append once
      · obtain ⟨sameEntry, included⟩ := follows expansion done
        refine ⟨sameEntry, included.trans ?_⟩
        rw [Progress.files_addFile, contributions_cons, List.append_assoc]
        rfl

theorem explained_statementResult {nested : Placement → Path → Text → Composition}
    {visited : Placement → Path → Text → Progress → Except Fault Expansion}
    (inside : VisitsExplained nested visited) (importer : Text) (statement : ImportStatement)
    (target : Except Fault ImportTarget) (progress : Progress) :
    Explained (StatementComposes files nested placement importer statement target) progress
      (statementResult files visited placement statement target progress) := by
  cases target with
  | error fault => exact explained_of_fault .fault
  | ok target =>
      cases target with
      | plain text =>
          refine explained_of_no_events ?_ ?_ ?_
          · rw [placeImport_fst]
            exact .plain
          · cases placement <;> rfl
          · cases placement <;> rfl
      | missing => exact explained_of_no_events .missing rfl rfl
      | file found =>
          unfold statementResult
          dsimp only
          split
          · next passed =>
              rw [Bool.and_eq_true, Bool.not_eq_true', Progress.hasSeen_iff] at passed
              refine ⟨_, .passed, onceFrom_singleton (iff_of_false (by simp) ?_), ?_⟩
              · rintro (again | unseen)
                · rw [passed.1] at again
                  cases again
                · exact unseen (List.mem_cons.mpr passed.2)
              · rintro expansion ⟨⟩
                simp [contributions]
          · next included =>
              refine explained_includedResult inside importer statement found progress ?_
              by_cases again : statement.asksAgain
              · exact .inl again
              · refine .inr fun member => included ?_
                rw [Bool.and_eq_true, Bool.not_eq_true', Progress.hasSeen_iff]
                exact ⟨eq_false_of_ne_true again, List.mem_cons.mp member⟩

theorem explained_runPieces {replaced : ImportStatement → Composition}
    {step : ImportStatement → Progress → Except Fault Expansion}
    (explained : ∀ statement progress,
      Explained (replaced statement) progress (step statement progress))
    (pieces : List (Piece SheetToken)) (progress : Progress) :
    Explained (PiecesCompose replaced pieces) progress (runPieces step pieces progress) := by
  induction pieces generalizing progress with
  | nil => exact explained_of_no_events .nil rfl rfl
  | cons piece pieces ih =>
      cases piece with
      | char c => exact (ih progress).map ([c] ++ ·) fun _ _ composed => .char composed
      | token token =>
          cases token with
          | inert token =>
              exact (ih progress).map (spelling token ++ ·) fun _ _ composed => .inert composed
          | importing statement =>
              have first := explained statement progress
              simp only [runPieces]
              cases ran : step statement progress with
              | error fault =>
                  rw [ran] at first
                  obtain ⟨events, composed, once, _⟩ := first
                  refine ⟨events, .failed composed, once, ?_⟩
                  rintro expansion ⟨⟩
              | ok expansion =>
                  rw [ran] at first
                  exact first.andThen (ih expansion.2) fun _ _ _ composed later =>
                    .replaced composed later

theorem explained_expandLevel (levels : Nat) (file text : Text) (progress : Progress) :
    Explained (TextComposes context files levels placement file text) progress
      ((expandLevel context levels placement file text progress).result files) := by
  induction levels generalizing placement file text progress with
  | zero =>
      rw [result_expandLevel_zero]
      exact explained_of_fault ⟨rfl, rfl⟩
  | succ levels ih =>
      rw [result_expandLevel_succ]
      refine explained_runPieces (fun statement progress => ?_) _ progress
      exact explained_statementResult (fun placement path text progress =>
        ih path.text text progress) file statement _ progress

theorem explained_expand (file text : Text) :
    Explained (Composes context files placement file text)
      ⟨(Path.ofText file).absolute context.workingDirectory, [], []⟩
      ((expand context placement file text).result files) := by
  rw [result_expand]
  unfold Composes
  cases refused : (Path.ofText file).refusal? with
  | some fault => exact explained_of_fault ⟨rfl, rfl⟩
  | none => exact explained_expandLevel (deepestImport + 1) file text _

def NeverAsksAgain (text : Text) : Prop :=
  ∀ statement, HasImport text statement → statement.asksAgain = false

theorem asksAgain_of_occurs {file text : Text} {events : List ImportEvent} {event : ImportEvent}
    (occurs : Occurs context files file (SheetToken.scan.pieces text) events event)
    (never : NeverAsksAgain text)
    (nowhere : ∀ found ∈ contributions events, ∀ content,
      (Inquiry.readUnified .utf8 found).result files = .ok content → NeverAsksAgain content) :
    event.statement.asksAgain = false := by
  rcases occurs.stands with ⟨_, here⟩ | ⟨found, included, content, _, read, there⟩
  · exact never event.statement here
  · exact nowhere found included content read event.statement there

/-- An expansion, whether it succeeds or fails, meets imports of files in such a way that each
contributes its file if it asks for it again, or if the file is neither the entry nor included
earlier. Where no import asks again, no file is included twice and the entry never is. The path
of a file tells its location, however the reference is spelled. -/
theorem expand_includes_once (context : StyleContext) (files : FileSystem)
    (placement : Placement) (file text : Text) :
    ∃ events,
      Composes context files placement file text events
        (((expand context placement file text).result files).map Prod.fst) ∧
      (∀ expansion, (expand context placement file text).result files = .ok expansion →
        expansion.2.files = contributions events) ∧
      (∀ earlier event later, events = earlier ++ event :: later →
        (event.contributes = true ↔
          event.statement.asksAgain = true ∨
            event.found ≠ (Path.ofText file).absolute context.workingDirectory ∧
              event.found ∉ contributions earlier)) ∧
      (NeverAsksAgain text →
        (∀ found ∈ contributions events, ∀ content,
          (Inquiry.readUnified .utf8 found).result files = .ok content →
            NeverAsksAgain content) →
        (contributions events).Nodup ∧
          (Path.ofText file).absolute context.workingDirectory ∉ contributions events) ∧
      (context.Fits files →
        (∀ event ∈ events,
          ∃ tried ∈ triedPaths context (Path.ofText event.importer)
              (ImportStatement.unquoted event.statement.target),
            ∃ location bytes, files.locate tried = .ok location ∧
              files.find? location = some (.file bytes) ∧ event.found = ⟨.root, location⟩) ∧
        ∀ location, files.locate (Path.ofText file) = .ok location →
          (Path.ofText file).absolute context.workingDirectory = ⟨.root, location⟩) := by
  have explained : Explained (Composes context files placement file text) _
      ((expand context placement file text).result files) := explained_expand file text
  obtain ⟨events, composed, once, follows⟩ := explained
  have occurring := occurring_composes file text events _ composed
  refine ⟨events, composed, ?_, ?_, ?_, ?_⟩
  · intro expansion done
    exact (follows expansion done).2
  · intro earlier event later split
    rw [once earlier event later split]
    simp [Progress.files]
  · intro never nowhere
    have silent : ∀ event ∈ events, event.statement.asksAgain = false := fun event member =>
      asksAgain_of_occurs (occurring event member) never nowhere
    obtain ⟨nodup, fresh⟩ := once.nodup silent
    exact ⟨nodup, fun included => fresh _ included (.head _)⟩
  · intro fits
    refine ⟨fun event member => importTarget_file_location fits (occurring event member).leads, ?_⟩
    intro location located
    rw [fits.sameDirectory]
    exact FileSystem.absolute_of_locate fits.settled (Path.isTidy_ofText file) located

end Inlay.Stylesheet

import Inlay.Proofs.Command.Stops

/-!
# Faults that escape the command

The command reports the faults that it expects: it prints them and ends with the code 1. A
fault of another kind ends it abnormally; it comes from the shapes of the settings or from the
search for files, and from nothing else.
-/

set_option autoImplicit false

namespace Inlay

/-! ## Runs over a project -/

namespace Component

variable {setting : Setting} {files : FileSystem} {project : Text}

/-- The path of the project is too long, or the search for its files ends at a pattern. -/
def StopsSearch (limits : Text → SearchLimits) (files : FileSystem) (project : Text)
    (includes : List Text) : Prop :=
  files.look (Path.ofText project) = .error .nameTooLong ∨
    files.look (Path.ofText project) = .ok (some .directory) ∧
      Discovery.EndsUnsearchable limits files (Path.ofText project) includes

theorem escapesIff_inlineProject (bound : 0 ≤ setting.options.maxConcurrency) (root : Path) :
    Command.EscapesIff
      (Discovery.EndsUnsearchable setting.host.limits files root setting.options.includes)
      (fun _ => True) (inlineProject setting files root).result := by
  have ends : Command.EscapesIff
      (Discovery.EndsUnsearchable setting.host.limits files root setting.options.includes)
      (fun _ => True)
      (Discovery.included setting.host.limits files root setting.options.includes) :=
    Discovery.escapesIff_included
  unfold inlineProject Setting.candidates Discovery.candidates
  cases searched : Discovery.included setting.host.limits files root setting.options.includes with
  | error fault =>
      rw [searched] at ends
      exact ends.of_error
  | ok paths =>
      rw [searched] at ends
      dsimp only
      rw [if_neg (Int.not_lt.mpr bound)]
      exact ends.of_ok trivial

theorem escapesIff_runProject (bound : 0 ≤ setting.options.maxConcurrency) :
    Command.EscapesIff (StopsSearch setting.host.limits files project setting.options.includes)
      (fun _ => True) (runProject setting files project).result := by
  unfold runProject StopsSearch
  dsimp only
  cases looked : files.look (Path.ofText project) with
  | error fault =>
      cases FileSystem.look_error looked
      exact .escaped (.inl rfl) rfl
  | ok entry =>
      rcases entry with _ | _ | content
      · exact .reported (by simp) rfl
      · have ends : Command.EscapesIff _ _ (inlineProject setting files _).result :=
          escapesIff_inlineProject bound (Path.ofText project)
        simp only [reduceCtorEq, true_and, false_or]
        cases inlined : (inlineProject setting files (Path.ofText project)).result with
        | error fault =>
            rw [inlined] at ends
            exact ends.of_error
        | ok results =>
            rw [inlined] at ends
            exact ends.of_ok trivial
      · exact .reported (by simp) rfl

end Component

/-! ## The command -/

namespace Config

variable {host : Host} {files : FileSystem} {environment : Environment} {path : Text}
  {config : Value}

theorem mapping_of_ofFile (loaded : ofFile host files environment path = .ok config) :
    ∃ fields, config = .mapping fields := by
  unfold ofFile at loaded
  cases opened : readFile host files path with
  | error fault =>
      rw [opened] at loaded
      cases loaded
  | ok fields =>
      rw [opened] at loaded
      simp only [bind, Except.bind] at loaded
      split at loaded
      · cases loaded
      · cases loaded
        exact ⟨_, rfl⟩

theorem mapping_of_load {file project : Option Text}
    (loaded : load host files environment file project = .ok config) :
    ∃ fields, config = .mapping fields := by
  unfold load at loaded
  split at loaded
  · split at loaded
    · exact mapping_of_ofFile loaded
    · cases loaded
    · cases loaded
  · split at loaded
    · exact mapping_of_ofFile loaded
    · cases loaded
      exact ⟨_, rfl⟩
    · cases loaded

end Config

namespace Command

theorem printed_cons {c : CodePoint} (plain : c ≠ '\x1b' ∧ c.isHalf = false) (text : Text) :
    printed (c :: text) = c :: printed text := by
  have unread : ControlSequence.scan.read? (c :: text) = none := by
    have apart : ¬ (CodePoint.char '\x1b' = c) := fun same => plain.1 same.symm
    simp [ControlSequence.scan, ControlSequence.read?, ControlSequence.opening, Text.after?, apart]
  unfold printed Recognizer.replace
  rw [Recognizer.pieces_cons_of_none unread]
  simp [Piece.render, printedCodePoint, plain.2]

theorem printed_append {lead : Text} (plain : ∀ c ∈ lead, c ≠ '\x1b' ∧ c.isHalf = false)
    (text : Text) : printed (lead ++ text) = lead ++ printed text := by
  induction lead with
  | nil => rfl
  | cons c lead ih =>
      rw [List.cons_append, printed_cons (plain c (.head _)),
        ih fun d member => plain d (.tail _ member), List.cons_append]

/-- What the command prints in front of a fault: one lead for a configuration that could not be
loaded, one for a run that ended. -/
def leads : List Text := ["Error: ", "Error loading configuration: "]

theorem printed_lead {lead : Text} (member : lead ∈ leads) (text : Text) :
    printed (lead ++ text) = lead ++ printed text := by
  refine printed_append ?_ text
  revert lead
  decide

/-- The command ends with the code 1 and prints only what the fault was. -/
structure IsRefused (outcome : CommandOutcome) : Prop where
  abnormal : outcome.abnormal = none
  exitCode : outcome.exitCode = 1
  output : outcome.output = []
  errors : ∃ lead ∈ leads, ∃ fault : Fault,
    outcome.errors = lead ++ printed (fault.message ++ "\n")

/-- The command ends with the code 0, and its summary is that of a run over the project. -/
structure IsProcessed (setting : Setting) (files : FileSystem) (project : Text)
    (outcome : CommandOutcome) : Prop where
  abnormal : outcome.abnormal = none
  exitCode : outcome.exitCode = 0
  left : outcome.files = (Component.runProject setting files project).files
  summary : ∃ summary, (Component.runProject setting files project).result = .ok summary ∧
    outcome.output = summaryText summary ∧ outcome.errors = printed (failuresText summary)

/-- The command ends abnormally and prints nothing. -/
structure IsAbnormal (outcome : CommandOutcome) : Prop where
  abnormal : outcome.abnormal.isSome = true
  exitCode : outcome.exitCode = 1
  output : outcome.output = []
  errors : outcome.errors = []

/-- The configuration of the command, and the files that are left when its sinks are open. -/
structure IsConfigured (host : Host) (files : FileSystem) (environment : Environment)
    (arguments : Arguments) (project : Text) (fields : Fields) (left : FileSystem) : Prop where
  loaded :
    Config.load host files environment arguments.config (some project) = .ok (.mapping fields)
  opened : ∃ sinks,
    Logging.openSinks host.journal files (.mapping fields) arguments.verbose = (left, .ok sinks)

/-- A fault escapes from the settings or from the search for files. -/
def Escapes (host : Host) (files : FileSystem) (project : Text) (fields : Fields) : Prop :=
  Config.Misshapen fields ∨
    ∃ options, Config.inlineOptions (.mapping fields) = .ok options ∧
      Component.StopsSearch host.limits files project options.includes

variable {host : Host} {files left : FileSystem}
  {environment : Environment} {arguments : Arguments} {words : List Text} {fields : Fields}
  {sinks : List Sink} {project : Text} {outcome : CommandOutcome}

theorem IsAbnormal.not_refused (ends : IsAbnormal outcome) : ¬ IsRefused outcome := by
  intro refused
  have abnormal := ends.abnormal
  rw [refused.abnormal] at abnormal
  cases abnormal

theorem IsAbnormal.not_processed {setting : Setting} (ends : IsAbnormal outcome) :
    ¬ IsProcessed setting files project outcome := by
  intro processed
  have abnormal := ends.abnormal
  rw [processed.abnormal] at abnormal
  cases abnormal

theorem isRefused_of_printed {fault : Fault} {lead : Text} (member : lead ∈ leads)
    (reports : List LogEntry) :
    IsRefused
      { files, exitCode := 1, errors := printed (lead ++ fault.message ++ "\n"), reports } where
  abnormal := rfl
  exitCode := rfl
  output := rfl
  errors := by
    refine ⟨lead, member, fault, ?_⟩
    rw [List.append_assoc, printed_lead member]

theorem escapes_iff_of_error {fault : Fault}
    (optioned : Config.inlineOptions (.mapping fields) = .error fault) :
    Escapes host left project fields ↔ Config.Misshapen fields := by
  constructor
  · rintro (misshapen | ⟨options, same, -⟩)
    · exact misshapen
    · rw [optioned] at same
      cases same
  · exact .inl

theorem escapes_iff_of_ok {options : InlineOptions}
    (optioned : Config.inlineOptions (.mapping fields) = .ok options) :
    Escapes host left project fields ↔
      Component.StopsSearch host.limits left project options.includes := by
  have shapes := Config.escapesIff_inlineOptions fields
  rw [optioned] at shapes
  constructor
  · rintro (misshapen | ⟨others, same, stops⟩)
    · cases shapes with
      | returned shaped _ => exact absurd misshapen shaped
    · rw [optioned] at same
      cases same
      exact stops
  · intro stops
    exact .inr ⟨options, optioned, stops⟩

theorem maxConcurrency_nonneg {options : InlineOptions}
    (optioned : Config.inlineOptions (.mapping fields) = .ok options) :
    0 ≤ options.maxConcurrency := by
  have shapes := Config.escapesIff_inlineOptions fields
  rw [optioned] at shapes
  cases shapes with
  | returned _ bound => exact bound

theorem runConfigured_cases (sinks : List Sink) :
    Escapes host left project fields ∧
        IsAbnormal (runConfigured host left (.mapping fields) sinks project) ∨
      ¬ Escapes host left project fields ∧
        (IsRefused (runConfigured host left (.mapping fields) sinks project) ∨
          ∃ options, Config.inlineOptions (.mapping fields) = .ok options ∧
            IsProcessed ⟨options, left.workingDirectory, host⟩ left project
              (runConfigured host left (.mapping fields) sinks project)) := by
  have shapes := Config.escapesIff_inlineOptions fields
  unfold runConfigured
  dsimp only
  cases optioned : Config.inlineOptions (.mapping fields) with
  | error fault =>
      rw [optioned] at shapes
      rw [escapes_iff_of_error optioned]
      cases shapes with
      | escaped misshapen unreported =>
          simp only [unreported]
          exact .inl ⟨misshapen, rfl, rfl, rfl, rfl⟩
      | reported shaped expected =>
          simp only [expected, if_true]
          exact .inr ⟨shaped, .inl (isRefused_of_printed (by simp [leads]) _)⟩
  | ok options =>
      rw [escapes_iff_of_ok optioned]
      have ends : EscapesIff _ _ (Component.runProject ⟨options, left.workingDirectory, host⟩
          left project).result := Component.escapesIff_runProject (maxConcurrency_nonneg optioned)
      dsimp only
      cases ran : (Component.runProject ⟨options, left.workingDirectory, host⟩
          left project).result with
      | error fault =>
          rw [ran] at ends
          cases ends with
          | escaped stops unreported =>
              simp only [unreported]
              exact .inl ⟨stops, rfl, rfl, rfl, rfl⟩
          | reported found expected =>
              simp only [expected, if_true]
              exact .inr ⟨found, .inl (isRefused_of_printed (by simp [leads]) _)⟩
      | ok summary =>
          rw [ran] at ends
          cases ends with
          | returned found _ =>
              exact .inr ⟨found, .inr ⟨options, rfl, rfl, rfl, rfl, summary, ran, rfl, rfl⟩⟩

/-- There is one configuration at most, so that what escapes is decided by it. -/
theorem IsConfigured.eq {others : Fields} {other : FileSystem}
    (configured : IsConfigured host files environment arguments project fields left)
    (again : IsConfigured host files environment arguments project others other) :
    others = fields ∧ other = left := by
  obtain ⟨loaded, sinks, opened⟩ := configured
  obtain ⟨loadedAgain, others, openedAgain⟩ := again
  rw [loaded] at loadedAgain
  cases loadedAgain
  rw [opened] at openedAgain
  cases openedAgain
  exact ⟨rfl, rfl⟩

theorem runLoaded_cases (host : Host) (files : FileSystem)
    (environment : Environment) (arguments : Arguments) (project : Text) :
    (∃ fields left, IsConfigured host files environment arguments project fields left ∧
        Escapes host left project fields) ∧
        IsAbnormal (runLoaded host files environment arguments project) ∨
      ¬ (∃ fields left, IsConfigured host files environment arguments project fields left ∧
        Escapes host left project fields) ∧
        (IsRefused (runLoaded host files environment arguments project) ∨
          ∃ fields left options,
            IsConfigured host files environment arguments project fields left ∧
            Config.inlineOptions (.mapping fields) = .ok options ∧
            IsProcessed ⟨options, left.workingDirectory, host⟩ left project
              (runLoaded host files environment arguments project)) := by
  unfold runLoaded
  dsimp only
  cases loaded : Config.load host files environment arguments.config (some project) with
  | error fault =>
      refine .inr ⟨?_, .inl (isRefused_of_printed (by simp [leads]) _)⟩
      rintro ⟨fields, left, ⟨again, -⟩, -⟩
      rw [loaded] at again
      cases again
  | ok config =>
      obtain ⟨fields, rfl⟩ := Config.mapping_of_load loaded
      dsimp only
      cases opened : Logging.openSinks host.journal files (.mapping fields) arguments.verbose with
      | mk left outcome =>
          cases outcome with
          | error fault =>
              refine .inr ⟨?_, .inl (isRefused_of_printed (by simp [leads]) _)⟩
              rintro ⟨others, other, ⟨again, sinks, openedAgain⟩, -⟩
              rw [loaded] at again
              cases again
              rw [opened] at openedAgain
              cases openedAgain
          | ok sinks =>
              have configured :
                  IsConfigured host files environment arguments project fields left :=
                ⟨loaded, sinks, opened⟩
              rcases runConfigured_cases sinks with
                ⟨escapes, abnormal⟩ | ⟨orderly, refused | ⟨options, optioned, processed⟩⟩
              · exact .inl ⟨⟨fields, left, configured, escapes⟩, abnormal⟩
              all_goals
                have here : ¬ ∃ fields left,
                    IsConfigured host files environment arguments project fields left ∧
                      Escapes host left project fields := by
                  rintro ⟨others, other, again, escapes⟩
                  obtain ⟨rfl, rfl⟩ := configured.eq again
                  exact orderly escapes
              · exact .inr ⟨here, .inl refused⟩
              · exact .inr ⟨here, .inr ⟨fields, left, options, configured, optioned, processed⟩⟩

/-- A component beside a configuration of the given text. -/
def configuredProject (config : Text) : FileSystem where
  entries :=
    [(["p"], .directory), (["p", "inliner.yaml"], .file (Utf8.encode config)),
     (["p", "a.ts"], .file (Utf8.encode "templateUrl: 'a.html'"))]
  workingDirectory := []

/-- The files are given by a single pattern. -/
def patternProject : FileSystem := configuredProject "inline: \x7binclude: a.ts\x7d"

def verboseArguments : Arguments where
  words := ["p"]
  verbose := true

end Command

end Inlay

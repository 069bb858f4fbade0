import Inlay.Proofs.Stylesheet.ExpansionRun
import Inlay.Stylesheet.Render
import Mathlib.Data.List.Induction
import Mathlib.Data.List.Basic

/-!
# Imports taken out and imports left in place

An expansion that takes the imports that stay out of the text does the same as one that leaves
them in place, but for the text of these imports. Two runs are compared step by step: the first
starts with some imports taken out, the second with others, and both have included the same
files. Under an import by reference both leave the imports in place.
-/

set_option autoImplicit false

namespace Inlay

/-- A text that statements were taken out of, these statements, and the text with each of them
in its place. -/
inductive Woven : Text → List Text → Text → Prop where
  | gap (text : Text) : Woven text [] text
  | statement {taken kept : Text} {statements : List Text} (gap statement : Text) :
      Woven taken statements kept →
      Woven (gap ++ taken) (statement :: statements) (gap ++ (statement ++ kept))

namespace Woven

variable {taken kept : Text} {statements : List Text}

theorem prepend (front : Text) (woven : Woven taken statements kept) :
    Woven (front ++ taken) statements (front ++ kept) := by
  cases woven with
  | gap => exact .gap (front ++ taken)
  | statement gap statement rest =>
      rw [← List.append_assoc, ← List.append_assoc]
      exact .statement (front ++ gap) statement rest

theorem append {more whole : Text} {others : List Text} (first : Woven taken statements kept)
    (second : Woven more others whole) :
    Woven (taken ++ more) (statements ++ others) (kept ++ whole) := by
  induction first with
  | gap text => exact second.prepend text
  | statement gap statement _ ih =>
      rw [List.append_assoc, List.append_assoc, List.append_assoc]
      exact .statement gap statement ih

theorem eq_of_nil (woven : Woven taken [] kept) : taken = kept := by
  cases woven with
  | gap => rfl

theorem underCondition (condition : Text) (woven : Woven taken statements kept) :
    Woven (Stylesheet.underCondition condition taken) statements
      (Stylesheet.underCondition condition kept) := by
  unfold Stylesheet.underCondition
  split
  · exact woven
  · have wrapped := (woven.prepend ("@media " ++ condition ++ " \x7b\n")).append (.gap "\n\x7d")
    rwa [List.append_nil] at wrapped

theorem segments (woven : Woven taken statements kept) :
    ∃ (first : Text) (rest : List (Text × Text)),
      taken = first ++ rest.flatMap (·.2) ∧ statements = rest.map (·.1) ∧
        kept = first ++ rest.flatMap fun segment => segment.1 ++ segment.2 := by
  induction woven with
  | gap text => exact ⟨text, [], by simp⟩
  | statement gap statement _ ih =>
      obtain ⟨first, rest, rfl, rfl, rfl⟩ := ih
      exact ⟨gap, (statement, first) :: rest, by simp⟩

end Woven

namespace Stylesheet

/-- Two expansions on the way included the same files. -/
structure SameFiles (first second : Progress) : Prop where
  entry : first.entry = second.entry
  inclusions : first.inclusions = second.inclusions

namespace SameFiles

variable {first second : Progress}

theorem files_eq (same : SameFiles first second) : first.files = second.files := by
  unfold Progress.files
  rw [same.inclusions]

theorem hasSeen_eq (same : SameFiles first second) (found : Path) :
    first.hasSeen found = second.hasSeen found := by
  unfold Progress.hasSeen
  rw [same.entry, same.inclusions]

theorem addFile (same : SameFiles first second) (found : Path) (repeated : Bool) :
    SameFiles (first.addFile found repeated) (second.addFile found repeated) := by
  refine ⟨same.entry, ?_⟩
  unfold Progress.addFile
  rw [same.inclusions]

end SameFiles

variable {context : StyleContext} {files : FileSystem} {placement : Placement}

/-- What two runs have in common: one from a first progress, with imports that stay placed
somewhere, and one from a second progress with these imports in place. -/
inductive Agrees (placement : Placement) (first second : Progress) :
    Except Fault Expansion → Except Fault Expansion → Prop where
  | fault (fault : Fault) : Agrees placement first second (.error fault) (.error fault)
  | done {taken kept : Expansion} {statements : List Text}
      (same : SameFiles taken.2 kept.2)
      (woven : Woven taken.1 statements kept.1)
      (takenOut : taken.2.imports = first.imports ++ statements)
      (untouched : kept.2.imports = second.imports)
      (stayed : placement = .inPlace → statements = []) :
      Agrees placement first second (.ok taken) (.ok kept)

def VisitsAgree (visited : Placement → Path → Text → Progress → Except Fault Expansion) : Prop :=
  ∀ placement path text first second, SameFiles first second →
    Agrees placement first second (visited placement path text first)
      (visited .inPlace path text second)

namespace Agrees

variable {first second : Progress} {left right : Except Fault Expansion}

theorem of_same_text (same : SameFiles first second) (text : Text) :
    Agrees placement first second (.ok (text, first)) (.ok (text, second)) :=
  .done same (.gap text) (List.append_nil _).symm rfl fun _ => rfl

theorem map (agrees : Agrees placement first second left right) (image : Text → Text)
    (weaves : ∀ taken statements kept, Woven taken statements kept →
      Woven (image taken) statements (image kept)) :
    Agrees placement first second (left.map fun expansion => (image expansion.1, expansion.2))
      (right.map fun expansion => (image expansion.1, expansion.2)) := by
  cases agrees with
  | fault fault => exact .fault fault
  | done same woven takenOut untouched stayed =>
      exact .done same (weaves _ _ _ woven) takenOut untouched stayed

/-- Two runs that leave the imports in place have the same text, whatever it is used for. -/
theorem of_inPlace (agrees : Agrees .inPlace first second left right) (image : Text → Text) :
    Agrees placement first second (left.map fun expansion => (image expansion.1, expansion.2))
      (right.map fun expansion => (image expansion.1, expansion.2)) := by
  cases agrees with
  | fault fault => exact .fault fault
  | @done taken kept _ same woven takenOut untouched stayed =>
      obtain rfl := stayed rfl
      have unwoven : Woven (image taken.1) [] (image kept.1) := by
        rw [woven.eq_of_nil]
        exact .gap _
      exact .done same unwoven takenOut untouched fun _ => rfl

/-- A file that both runs include takes no import out. -/
theorem of_addFile {found : Path} {repeated : Bool}
    (agrees : Agrees placement (first.addFile found repeated) (second.addFile found repeated)
      left right) : Agrees placement first second left right := by
  cases agrees with
  | fault fault => exact .fault fault
  | done same woven takenOut untouched stayed =>
      exact .done same woven takenOut untouched stayed

theorem andThen {taken kept : Expansion}
    (agrees : Agrees placement first second (.ok taken) (.ok kept))
    (later : Agrees placement taken.2 kept.2 left right) :
    Agrees placement first second (left.map (Expansion.prepend taken.1))
      (right.map (Expansion.prepend kept.1)) := by
  cases agrees with
  | @done _ _ statements _ woven takenOut untouched stayed =>
      cases later with
      | fault fault => exact .fault fault
      | @done _ _ others same wovenLater takenLater untouchedLater stayedLater =>
          refine .done same (woven.append wovenLater) ?_ (untouchedLater.trans untouched) ?_
          · exact takenLater.trans (by rw [takenOut, List.append_assoc])
          · intro inPlace
            rw [stayed inPlace, stayedLater inPlace, List.append_nil]

end Agrees

variable {visited : Placement → Path → Text → Progress → Except Fault Expansion}
  {first second : Progress}

theorem agrees_placeImport (same : SameFiles first second) (statement : Text) :
    Agrees placement first second (.ok (placeImport placement statement first))
      (.ok (placeImport .inPlace statement second)) := by
  cases placement with
  | inPlace => exact .of_same_text same statement
  | hoisted =>
      have woven : Woven [] [statement] statement := by
        simpa using Woven.statement [] statement (.gap [])
      refine .done ⟨same.entry, same.inclusions⟩ woven ?_ rfl (fun inPlace => nomatch inPlace)
      exact List.reverse_cons

theorem agrees_contentResult (inside : VisitsAgree visited) (same : SameFiles first second)
    (names : List Text) (found : Path) (text : Text) :
    Agrees placement first second (contentResult visited placement names found text first)
      (contentResult visited .inPlace names found text second) := by
  unfold contentResult
  split
  · exact (inside .inPlace found text first second same).of_inPlace referenceOnly
  · split
    · exact .of_same_text same text
    · exact inside placement found text first second same

theorem agrees_includedResult (inside : VisitsAgree visited) (same : SameFiles first second)
    (statement : ImportStatement) (found : Path) :
    Agrees placement first second
      (includedResult files visited placement statement found first)
      (includedResult files visited .inPlace statement found second) := by
  unfold includedResult
  cases (Inquiry.readUnified .utf8 found).result files with
  | error fault => exact .fault fault
  | ok text =>
      have content : Agrees placement _ _ _ _ := agrees_contentResult inside
        (same.addFile found statement.asksAgain) statement.options found text
      exact content.of_addFile.map _ fun _ _ _ woven => woven.underCondition statement.wrapping

theorem agrees_statementResult (inside : VisitsAgree visited) (same : SameFiles first second)
    (statement : ImportStatement) (target : Except Fault ImportTarget) :
    Agrees placement first second
      (statementResult files visited placement statement target first)
      (statementResult files visited .inPlace statement target second) := by
  cases target with
  | error fault => exact .fault fault
  | ok target =>
      cases target with
      | plain text => exact agrees_placeImport same text
      | missing => exact .of_same_text same []
      | file found =>
          unfold statementResult
          dsimp only
          -- Whether the file was seen depends on the files alone, which both runs share.
          rw [same.hasSeen_eq found]
          split
          · exact .of_same_text same []
          · exact agrees_includedResult inside same statement found

/-- One statement after another: both runs go on from what they included so far, which is the
same. -/
theorem agrees_runPieces {step other : ImportStatement → Progress → Except Fault Expansion}
    (steps : ∀ statement first second, SameFiles first second →
      Agrees placement first second (step statement first) (other statement second))
    (pieces : List (Piece SheetToken)) (same : SameFiles first second) :
    Agrees placement first second (runPieces step pieces first)
      (runPieces other pieces second) := by
  induction pieces generalizing first second with
  | nil => exact .of_same_text same []
  | cons piece pieces ih =>
      cases piece with
      | char c => exact (ih same).map ([c] ++ ·) fun _ _ _ woven => woven.prepend [c]
      | token token =>
          cases token with
          | inert token =>
              exact (ih same).map (spelling token ++ ·) fun _ _ _ woven =>
                woven.prepend (spelling token)
          | importing statement =>
              have here := steps statement first second same
              simp only [runPieces]
              -- The rest runs from where the statement left the two progresses.
              generalize step statement first = taken at here ⊢
              generalize other statement second = kept at here ⊢
              cases here with
              | fault fault => exact .fault fault
              | done sameAfter woven takenOut untouched stayed =>
                  have now := Agrees.done sameAfter woven takenOut untouched stayed
                  exact now.andThen (ih sameAfter)

theorem agrees_expandLevel (levels : Nat) (file text : Text) (same : SameFiles first second) :
    Agrees placement first second
      ((expandLevel context levels placement file text first).result files)
      ((expandLevel context levels .inPlace file text second).result files) := by
  induction levels generalizing placement file text first second with
  | zero =>
      rw [result_expandLevel_zero, result_expandLevel_zero]
      exact .fault _
  | succ levels ih =>
      rw [result_expandLevel_succ, result_expandLevel_succ]
      refine agrees_runPieces (fun statement first second same => ?_) _ same
      exact agrees_statementResult (fun placement path text first second same =>
        ih path.text text same) same statement _

theorem agrees_expand (file text : Text) :
    Agrees placement ⟨(Path.ofText file).absolute context.workingDirectory, [], []⟩
      ⟨(Path.ofText file).absolute context.workingDirectory, [], []⟩
      ((expand context placement file text).result files)
      ((expand context .inPlace file text).result files) := by
  rw [result_expand, result_expand]
  cases (Path.ofText file).refusal? with
  | some fault => exact .fault _
  | none => exact agrees_expandLevel (deepestImport + 1) file text ⟨rfl, rfl⟩

theorem imports_of_reference_content {progress : Progress} {names : List Text} {found : Path}
    {text : Text} {content : Expansion} (inside : VisitsAgree visited)
    (reference : names.contains "reference" = true)
    (ran : contentResult visited placement names found text progress = .ok content) :
    content.2.imports = progress.imports := by
  unfold contentResult at ran
  rw [if_pos reference] at ran
  have twice := inside .inPlace found text progress progress ⟨rfl, rfl⟩
  generalize visited .inPlace found text progress = result at ran twice
  cases twice with
  | fault fault => cases ran
  | done _ _ _ untouched _ =>
      cases ran
      exact untouched

/-- An import by reference that leads to a file takes no import out of the text, whatever the
file imports. -/
theorem imports_of_reference {progress : Progress} {statement : ImportStatement} {found : Path}
    {expansion : Expansion} (inside : VisitsAgree visited)
    (reference : statement.options.contains "reference" = true)
    (ran : statementResult files visited placement statement (.ok (.file found)) progress =
      .ok expansion) : expansion.2.imports = progress.imports := by
  unfold statementResult includedResult at ran
  dsimp only at ran
  split at ran
  · cases ran
    rfl
  · split at ran
    · cases ran
    · next text _ =>
        generalize contributed : contentResult visited placement statement.options found text
          (progress.addFile found statement.asksAgain) = result at ran
        cases result with
        | error fault => cases ran
        | ok content =>
            cases ran
            exact (imports_of_reference_content inside reference contributed).trans rfl

/-- Of a list of statements, those that are distinct, in the order in which they occur first. -/
structure FirstOccurrences (all distinct : List Text) : Prop where
  same : ∀ statement, statement ∈ distinct ↔ statement ∈ all
  ordered : distinct.Pairwise fun first second => all.idxOf first < all.idxOf second

/-- A list that goes on does not move what occurred before. -/
theorem FirstOccurrences.ordered_append {all distinct : List Text}
    (occurrences : FirstOccurrences all distinct) (later : List Text) :
    distinct.Pairwise fun first second =>
      (all ++ later).idxOf first < (all ++ later).idxOf second := by
  refine occurrences.ordered.imp_of_mem fun first second before => ?_
  rw [List.idxOf_append_of_mem ((occurrences.same _).mp first),
    List.idxOf_append_of_mem ((occurrences.same _).mp second)]
  exact before

theorem FirstOccurrences.append_mem {all distinct : List Text} {last : Text}
    (occurrences : FirstOccurrences all distinct) (again : last ∈ all) :
    FirstOccurrences (all ++ [last]) distinct := by
  refine ⟨fun statement => ?_, occurrences.ordered_append [last]⟩
  rw [occurrences.same, List.mem_append, List.mem_singleton]
  refine ⟨.inl, ?_⟩
  rintro (member | rfl)
  · exact member
  · exact again

theorem FirstOccurrences.append_new {all distinct : List Text} {last : Text}
    (occurrences : FirstOccurrences all distinct) (new : last ∉ all) :
    FirstOccurrences (all ++ [last]) (distinct ++ [last]) := by
  constructor
  · intro statement
    rw [List.mem_append, List.mem_append, occurrences.same]
  · refine List.pairwise_append.mpr
      ⟨occurrences.ordered_append [last], List.pairwise_singleton _ _, ?_⟩
    intro first member second isLast
    have earlier := (occurrences.same first).mp member
    rw [List.mem_singleton.mp isLast, List.idxOf_append_of_notMem new,
      List.idxOf_append_of_mem earlier]
    exact Nat.lt_add_right _ (List.idxOf_lt_length_of_mem earlier)

theorem firstOccurrences_eraseDups (all : List Text) :
    FirstOccurrences all all.eraseDups := by
  induction all using List.reverseRecOn with
  | nil => exact ⟨fun _ => Iff.rfl, .nil⟩
  | append_singleton all last ih =>
      rw [List.eraseDups_append]
      by_cases again : last ∈ all
      · have nothing : [last].removeAll all = [] := by simp [List.removeAll, again]
        rw [nothing, List.eraseDups_nil, List.append_nil]
        exact ih.append_mem again
      · have itself : [last].removeAll all = [last] := by simp [List.removeAll, again]
        rw [itself]
        exact ih.append_new again

theorem result_compileSource_eq_ok {file text css : Text}
    (compiles : (compileSource context file text).result files = .ok css) :
    ∃ taken progress compiled,
      (expand context .hoisted file text).result files = .ok (taken, progress) ∧
        context.compile taken = .ok compiled ∧ css = withImports progress.imports compiled := by
  unfold compileSource at compiles
  rw [Inquiry.result_bind] at compiles
  cases expanded : (expand context .hoisted file text).result files with
  | error fault =>
      rw [expanded] at compiles
      cases compiles
  | ok expansion =>
      rw [expanded] at compiles
      simp only [Inquiry.result_ofExcept, compileExpanded] at compiles
      split at compiles
      · cases compiles
      · split at compiles
        · cases compiles
        · next compiled accepted =>
            cases compiles
            exact ⟨expansion.1, expansion.2, compiled, rfl, accepted, rfl⟩

/-- Taking the imports that stay out of the text, or leaving them in place, ends with the same
error or includes the same files; the text with the imports in place is the other one with the
imports between its segments, in order. An import by reference takes none out. What is compiled
is the text without the imports, and each distinct import stands on a line of its own before
the result, in the order of the first occurrences. -/
theorem expand_hoisted_agrees_inPlace (context : StyleContext) (files : FileSystem)
    (file text : Text) :
    ((∃ fault, (expand context .hoisted file text).result files = .error fault ∧
        (expand context .inPlace file text).result files = .error fault) ∨
      ∃ (taken kept : Expansion) (first : Text) (rest : List (Text × Text)),
        (expand context .hoisted file text).result files = .ok taken ∧
        (expand context .inPlace file text).result files = .ok kept ∧
        taken.2.files = kept.2.files ∧ kept.2.imports = [] ∧
        taken.1 = first ++ rest.flatMap (fun segment => segment.2) ∧
        taken.2.imports = rest.map (fun segment => segment.1) ∧
        kept.1 = first ++ rest.flatMap (fun segment => segment.1 ++ segment.2)) ∧
    (∀ levels importer statement found progress expansion,
      importTarget context files importer statement = .ok (.file found) →
      statement.options.contains "reference" = true →
      (expandStatement context
        (fun placement path => expandLevel context levels placement path.text) .hoisted importer
        statement progress).result files = .ok expansion →
      expansion.2.imports = progress.imports) ∧
    (∀ css, (compileSource context file text).result files = .ok css →
      ∃ taken progress compiled distinct,
        (expand context .hoisted file text).result files = .ok (taken, progress) ∧
        context.compile taken = .ok compiled ∧
        FirstOccurrences progress.imports distinct ∧
        css = distinct.flatMap (fun statement => statement ++ ("\n" : Text)) ++ compiled) := by
  refine ⟨?_, ?_, ?_⟩
  · have agrees : Agrees .hoisted _ _ ((expand context .hoisted file text).result files)
        ((expand context .inPlace file text).result files) := agrees_expand file text
    generalize (expand context .hoisted file text).result files = hoisting at agrees ⊢
    generalize (expand context .inPlace file text).result files = keeping at agrees ⊢
    cases agrees with
    | fault fault => exact .inl ⟨fault, rfl, rfl⟩
    | @done taken kept statements same woven takenOut untouched _ =>
        obtain ⟨first, rest, without, between, within⟩ := woven.segments
        refine .inr ⟨taken, kept, first, rest, rfl, rfl, same.files_eq, untouched, without, ?_,
          within⟩
        exact takenOut.trans between
  · intro levels importer statement found progress expansion leads reference ran
    rw [result_expandStatement, leads] at ran
    refine imports_of_reference (fun placement path text first second same => ?_) reference ran
    exact agrees_expandLevel levels path.text text same
  · intro css compiles
    obtain ⟨taken, progress, compiled, expanded, accepted, rfl⟩ :=
      result_compileSource_eq_ok compiles
    exact ⟨taken, progress, compiled, progress.imports.eraseDups, expanded, accepted,
      firstOccurrences_eraseDups _, rfl⟩

end Stylesheet

end Inlay

import Inlay.Proofs.Command.Shapes
import Inlay.Proofs.Discovery.Searching

/-!
# Searches that are stopped

A search for files ends with a fault that the command does not report if a pattern is none that
can be searched for below a directory, or if the search meets a path that is too long to be asked
for or goes too deep (`Discovery.escapesIff_included`). The patterns in front are searched for
before.
-/

set_option autoImplicit false

namespace Inlay

/-! ## Patterns -/

namespace Glob

variable {files : FileSystem}

/-- A pattern that starts at the root, or has nothing but dots in it. -/
def IsForeign (pattern : Text) : Prop :=
  pattern ≠ [] ∧ ((Path.ofText pattern).isAnchored = true ∨ (Path.ofText pattern).parts = [])

/-- A pattern of more parts than are taken up, all of which are steps until then. -/
def HasTooManyParts (limit : Nat) (pattern : Text) : Prop :=
  limit < (partsOf pattern).length ∧
    ∀ part ∈ (partsOf pattern).take limit, ∃ step, GlobStep.ofPart part = .ok step

theorem ofPart_error {part : Text} {cause : PatternCause}
    (failed : GlobStep.ofPart part = .error cause) : cause = .joinedStars := by
  unfold GlobStep.ofPart at failed
  repeat' split at failed
  all_goals cases failed
  rfl

/-- Parts are all taken up, or up to one with joined stars, or up to the limit. -/
theorem ofParts_cases (limit : Nat) (parts : List Text) :
    (parts.length ≤ limit ∧ ∃ glob, GlobStep.ofParts limit parts = .ok glob) ∨
      ((∃ part ∈ parts.take limit, ∃ cause, GlobStep.ofPart part = .error cause) ∧
        GlobStep.ofParts limit parts = .error .joinedStars) ∨
      (limit < parts.length ∧
        (∀ part ∈ parts.take limit, ∃ step, GlobStep.ofPart part = .ok step) ∧
        GlobStep.ofParts limit parts = .error .tooManyParts) := by
  induction parts generalizing limit with
  | nil => cases limit <;> exact .inl ⟨Nat.zero_le _, _, rfl⟩
  | cons part parts ih =>
      cases limit with
      | zero => exact .inr (.inr ⟨Nat.succ_pos _, nofun, rfl⟩)
      | succ limit =>
          rw [List.take_succ_cons, List.length_cons]
          cases own : GlobStep.ofPart part with
          | error cause =>
              cases ofPart_error own
              refine .inr (.inl ⟨⟨part, .head _, _, own⟩, ?_⟩)
              simp only [GlobStep.ofParts, own]
          | ok step =>
              rcases ih limit with ⟨short, glob, read⟩ | ⟨⟨joined, member, bad⟩, read⟩ |
                ⟨long, steps, read⟩
              · refine .inl ⟨by omega, step :: glob, ?_⟩
                simp only [GlobStep.ofParts, own, read]
              · refine .inr (.inl ⟨⟨joined, .tail _ member, bad⟩, ?_⟩)
                simp only [GlobStep.ofParts, own, read]
              · refine .inr (.inr ⟨by omega, ?_, ?_⟩)
                · exact List.forall_mem_cons.mpr ⟨⟨step, own⟩, steps⟩
                · simp only [GlobStep.ofParts, own, read]

theorem escapesIff_ofText (limit : Nat) (pattern : Text) :
    Command.EscapesIff (IsForeign pattern ∨ HasTooManyParts limit pattern) (fun _ => True)
      ((ofText limit pattern).mapError fun cause => Fault.pattern cause pattern) := by
  unfold ofText
  dsimp only
  by_cases empty : pattern = []
  · rw [if_pos empty, empty]
    refine .reported ?_ rfl
    rintro (foreign | long)
    · exact foreign.1 rfl
    · exact Nat.not_lt_zero _ long.1
  · rw [if_neg empty]
    by_cases anchored : (Path.ofText pattern).isAnchored = true
    · rw [if_pos anchored]
      exact .escaped (.inl ⟨empty, .inl anchored⟩) rfl
    · rw [if_neg anchored]
      by_cases nothing : (Path.ofText pattern).parts = []
      · rw [if_pos nothing]
        split <;> exact .escaped (.inl ⟨empty, .inr nothing⟩) rfl
      · rw [if_neg nothing]
        have own : ¬ IsForeign pattern := fun foreign => foreign.2.elim anchored nothing
        rcases ofParts_cases limit (partsOf pattern) with
          ⟨short, glob, read⟩ | ⟨⟨part, member, cause, bad⟩, read⟩ | ⟨long, steps, read⟩
        · rw [read]
          exact .returned (not_or.mpr ⟨own, fun many => Nat.not_lt.mpr short many.1⟩) trivial
        · rw [read]
          refine .reported (not_or.mpr ⟨own, fun many => ?_⟩) rfl
          obtain ⟨step, good⟩ := many.2 part member
          rw [bad] at good
          cases good
        · rw [read]
          exact .escaped (.inr ⟨long, steps⟩) rfl

/-- A search that is stopped: by a path that is too long to be asked for, or by its depth. -/
inductive IsStop : Fault → Prop where
  | tooLong (path : Text) : IsStop (.access .nameTooLong path)
  | tooDeep (path : Text) : IsStop (.searchTooDeep path)

theorem IsStop.unreported {fault : Fault} (stop : IsStop fault) :
    Command.isReported fault = false := by
  cases stop <;> rfl

theorem IsStop.of_look {path : Path} {cause : AccessFault}
    (unlooked : files.look path = .error cause) (asked : Text) : IsStop (.access cause asked) := by
  cases FileSystem.look_error unlooked
  exact .tooLong asked

theorem IsStop.of_list {path : Path} {cause : AccessFault}
    (unlisted : files.list path = .error cause) (asked : Text) : IsStop (.access cause asked) := by
  cases FileSystem.list_error unlisted
  exact .tooLong asked

/-- A search that branches fails as one of its branches does. -/
theorem exists_branch_of_error {Start : Type} {starts : List Start}
    {follow : Start → Except Fault (List Path)} {fault : Fault}
    (failed : (allOf (starts.map follow)).map List.flatten = .error fault) :
    ∃ start, follow start = .error fault := by
  cases all : allOf (starts.map follow) with
  | ok found =>
      rw [all] at failed
      cases failed
  | error own =>
      rw [all] at failed
      cases failed
      obtain ⟨start, -, there⟩ := List.mem_map.mp (mem_of_allOf_error all)
      exact ⟨start, there⟩

theorem onTheWay_error {levels depth : Nat} {directory : Path} {outcome : Except Fault (List Path)}
    {fault : Fault} (failed : onTheWay files levels depth directory outcome = .error fault)
    (own : ∀ fault, outcome = .error fault → IsStop fault) : IsStop fault := by
  unfold onTheWay at failed
  split at failed
  · cases failed
    exact .tooDeep _
  · split at failed
    · cases failed
      exact own _ rfl
    · next unlisted =>
        cases failed
        exact .of_list unlisted _
    · cases failed

/-- Following a glob fails only where it is stopped. -/
theorem select_error {glob : Glob} {levels : Nat} {path : Path} {fault : Fault}
    (failed : select files glob levels path = .error fault) : IsStop fault := by
  induction glob generalizing levels path fault with
  | nil =>
      cases levels <;> cases failed
      exact .tooDeep _
  | cons step steps ih =>
      cases levels with
      | zero =>
          cases step <;> cases failed <;> exact .tooDeep _
      | succ levels =>
          cases step with
          | inside => cases failed
          | named name =>
              simp only [select] at failed
              cases looked : files.look (path.child name) with
              | error cause =>
                  rw [looked] at failed
                  cases failed
                  exact .of_look looked _
              | ok found =>
                  simp only [looked] at failed
                  generalize (if steps.isEmpty then found.isSome
                    else found == some .directory) = isThere at failed
                  cases isThere with
                  | true => exact ih failed
                  | false => cases failed
          | matching pattern =>
              simp only [select] at failed
              split at failed
              · next unlisted =>
                  cases failed
                  exact .of_list unlisted _
              · obtain ⟨_, branch⟩ := exists_branch_of_error failed
                exact ih branch
          | anyDepth =>
              obtain ⟨_, branch⟩ := exists_branch_of_error failed
              exact onTheWay_error branch fun _ => ih

theorem paths_error {glob : Glob} {levels : Nat} {directory : Path} {fault : Fault}
    (failed : paths files glob levels directory = .error fault) : IsStop fault := by
  unfold paths at failed
  split at failed
  · next unlooked =>
      cases failed
      exact .of_look unlooked _
  · exact select_error failed
  · cases failed

end Glob

/-! ## All patterns in turn -/

namespace Discovery

variable {limits : Text → SearchLimits} {files : FileSystem} {root : Path} {pattern : Text}
  {patterns : List Text}

/-- A pattern that no glob can be made of, although it is not reported, or one whose search is
stopped by a path that is too long or by its depth. -/
def Unsearchable (limits : Text → SearchLimits) (files : FileSystem) (root : Path)
    (pattern : Text) : Prop :=
  Glob.IsForeign pattern ∨ Glob.HasTooManyParts (limits pattern).parts pattern ∨
    ∃ stop, Glob.IsStop stop ∧ searched limits files root pattern = .error stop

/-- The search ends at such a pattern if those in front of it are searched for with success. -/
def EndsUnsearchable (limits : Text → SearchLimits) (files : FileSystem) (root : Path)
    (patterns : List Text) : Prop :=
  ∃ before pattern behind, patterns = before ++ pattern :: behind ∧
    (∀ earlier ∈ before, ∃ found, searched limits files root earlier = .ok found) ∧
    Unsearchable limits files root pattern

theorem endsUnsearchable_cons :
    EndsUnsearchable limits files root (pattern :: patterns) ↔
      Unsearchable limits files root pattern ∨
        (∃ found, searched limits files root pattern = .ok found) ∧
          EndsUnsearchable limits files root patterns := by
  constructor
  · rintro ⟨_ | ⟨first, before⟩, last, behind, split, searchable, ends⟩
    · cases split
      exact .inl ends
    · cases split
      refine .inr ⟨searchable _ (.head _), before, last, behind, rfl, ?_, ends⟩
      intro earlier member
      exact searchable earlier (.tail _ member)
  · rintro (ends | ⟨found, before, last, behind, rfl, searchable, ends⟩)
    · refine ⟨[], pattern, patterns, rfl, ?_, ends⟩
      intro earlier member
      cases member
    · refine ⟨pattern :: before, last, behind, rfl, ?_, ends⟩
      intro earlier member
      cases member with
      | head => exact found
      | tail _ member => exact searchable earlier member

theorem searched_error {fault : Fault} {glob : Glob}
    (read : Glob.ofText (limits pattern).parts pattern = .ok glob)
    (failed : searched limits files root pattern = .error fault) : Glob.IsStop fault := by
  simp only [searched, read] at failed
  split at failed
  · next unfollowed =>
      cases failed
      exact Glob.paths_error unfollowed
  · obtain ⟨long, rfl⟩ := filesAmong_error failed
    exact .tooLong long

theorem escapesIff_searched :
    Command.EscapesIff (Unsearchable limits files root pattern) (fun _ => True)
      (searched limits files root pattern) := by
  have ends := Glob.escapesIff_ofText (limits pattern).parts pattern
  cases read : Glob.ofText (limits pattern).parts pattern with
  | error cause =>
      have failed : searched limits files root pattern = .error (.pattern cause pattern) := by
        simp only [searched, read]
      rw [failed]
      rw [read] at ends
      cases ends with
      | escaped unusable unreported =>
          exact .escaped (unusable.imp_right .inl) unreported
      | reported usable expected =>
          refine .reported ?_ expected
          rintro (foreign | many | ⟨stop, stops, same⟩)
          · exact usable (.inl foreign)
          · exact usable (.inr many)
          · rw [failed] at same
            cases same
            cases stops
  | ok glob =>
      rw [read] at ends
      have usable : ¬ (Glob.IsForeign pattern ∨
          Glob.HasTooManyParts (limits pattern).parts pattern) := by
        cases ends with
        | returned usable _ => exact usable
      cases outcome : searched limits files root pattern with
      | error fault =>
          have stop := searched_error read outcome
          exact .escaped (.inr (.inr ⟨fault, stop, outcome⟩)) stop.unreported
      | ok found =>
          refine .returned ?_ trivial
          rintro (foreign | many | ⟨stop, -, same⟩)
          · exact usable (.inl foreign)
          · exact usable (.inr many)
          · rw [outcome] at same
            cases same

theorem escapesIff_included :
    Command.EscapesIff (EndsUnsearchable limits files root patterns) (fun _ => True)
      (included limits files root patterns) := by
  induction patterns with
  | nil =>
      refine .returned ?_ trivial
      rintro ⟨before, pattern, behind, split, -⟩
      cases before <;> cases split
  | cons pattern patterns ih =>
      rw [included_cons]
      refine (escapesIff_searched.andThen fun found _ _ => ?_).congr endsUnsearchable_cons.symm
      exact ih.map fun _ _ => trivial

end Discovery

end Inlay

import Inlay.Discovery.Candidates
import Inlay.Proofs.Files.Writing
import Inlay.Proofs.Outcomes

/-!
# Searching for files

The search for the files of a project is one search for each pattern. It returns what all of them
return, and it returns only if all of them do (`included_eq`, `exists_included_iff`). What is
returned are files.
-/

set_option autoImplicit false

namespace Inlay.Discovery

variable {limits : Text → SearchLimits} {files : FileSystem} {root path : Path} {pattern : Text}
  {patterns : List Text} {paths found : List Path}

theorem mem_filesAmong_iff (kept : filesAmong files paths = .ok found) :
    path ∈ found ↔ path ∈ paths ∧ files.isFile path = true := by
  induction paths generalizing found with
  | nil =>
      cases kept
      simp
  | cons first paths ih =>
      unfold filesAmong at kept
      split at kept
      · cases kept
      · cases kept
      · next isFile others probed later =>
          cases kept
          have here := FileSystem.isFile_of_probeFile probed
          have among := ih later
          cases isFile with
          | true =>
              rw [if_pos rfl, List.mem_cons, List.mem_cons, among]
              constructor
              · rintro (rfl | later)
                · exact ⟨.inl rfl, here⟩
                · exact ⟨.inr later.1, later.2⟩
              · rintro ⟨rfl | later, file⟩
                · exact .inl rfl
                · exact .inr ⟨later, file⟩
          | false =>
              rw [if_neg Bool.false_ne_true, List.mem_cons, among]
              constructor
              · exact fun later => ⟨.inr later.1, later.2⟩
              · rintro ⟨rfl | later, file⟩
                · rw [here] at file
                  cases file
                · exact ⟨later, file⟩

/-- Only a path that is too long keeps the files among some paths from being told. -/
theorem filesAmong_error {fault : Fault} (failed : filesAmong files paths = .error fault) :
    ∃ long, fault = .access .nameTooLong long := by
  induction paths with
  | nil => cases failed
  | cons first paths ih =>
      unfold filesAmong at failed
      split at failed
      · next probed =>
          cases failed
          cases FileSystem.probeFile_error probed
          exact ⟨_, rfl⟩
      · next later _ =>
          cases failed
          exact ih later
      · cases failed

theorem searched_eq_ok_iff :
    searched limits files root pattern = .ok found ↔ ∃ glob paths,
      Glob.ofText (limits pattern).parts pattern = .ok glob ∧
        glob.paths files (limits pattern).levels root = .ok paths ∧
        filesAmong files paths = .ok found := by
  unfold searched
  cases Glob.ofText (limits pattern).parts pattern with
  | error cause => simp
  | ok glob =>
      dsimp only
      cases followed : glob.paths files (limits pattern).levels root with
      | error fault => simp [followed]
      | ok paths => simp [followed]

theorem included_cons :
    included limits files root (pattern :: patterns) =
      searched limits files root pattern >>= fun found =>
        (included limits files root patterns).map (found ++ ·) := by
  rw [included]
  cases searched limits files root pattern with
  | error fault => rfl
  | ok found => cases included limits files root patterns <;> rfl

theorem included_eq :
    included limits files root patterns =
      (allOf (patterns.map (searched limits files root))).map List.flatten := by
  induction patterns with
  | nil => rfl
  | cons pattern patterns ih =>
      rw [included_cons, ih, List.map_cons]
      cases searched limits files root pattern with
      | error fault => rfl
      | ok found =>
          dsimp only [allOf, bind, Except.bind]
          cases allOf (patterns.map (searched limits files root)) with
          | error fault => rfl
          | ok others => rfl

theorem exists_included_iff :
    (∃ paths, included limits files root patterns = .ok paths) ↔
      ∀ pattern ∈ patterns, ∃ found, searched limits files root pattern = .ok found := by
  induction patterns with
  | nil => exact iff_of_true ⟨[], rfl⟩ nofun
  | cons pattern patterns ih =>
      rw [List.forall_mem_cons, ← ih, included_cons]
      cases searched limits files root pattern with
      | error fault => simp [bind, Except.bind]
      | ok found =>
          cases included limits files root patterns with
          | error fault => simp [bind, Except.bind, Except.map]
          | ok others => simp [bind, Except.bind, Except.map]

theorem isFile_of_included (listed : included limits files root patterns = .ok paths)
    (member : path ∈ paths) : files.isFile path = true := by
  induction patterns generalizing paths with
  | nil =>
      cases listed
      cases member
  | cons pattern patterns ih =>
      rw [included_cons] at listed
      obtain ⟨found, returned, later⟩ := bind_eq_ok_iff.mp listed
      cases others : included limits files root patterns with
      | error fault =>
          rw [others] at later
          cases later
      | ok more =>
          rw [others] at later
          cases later
          rcases List.mem_append.mp member with here | behind
          · obtain ⟨glob, followed, -, -, kept⟩ := searched_eq_ok_iff.mp returned
            exact ((mem_filesAmong_iff kept).mp here).2
          · exact ih others behind

end Inlay.Discovery

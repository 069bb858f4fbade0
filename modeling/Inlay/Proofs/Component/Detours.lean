import Inlay.Proofs.Component.RunAccount
import Inlay.Proofs.Discovery.CandidateSet

/-!
# Detours to candidate files

Candidate paths are told apart by their parts, but the files that they lead to by their absolute
forms (`leadTogether_iff`). Paths of names lead to different files. So one file has several
candidate paths only if a pattern that includes one of them goes up by a double dot of its own.
-/

set_option autoImplicit false

namespace Inlay

/-! ## The parts that globs cover -/

namespace Glob

variable {glob : Glob} {part name text : Text} {parts texts : List Text}

theorem Covers.part_cases (covers : Covers glob parts) (member : part ∈ parts) :
    .named part ∈ glob ∨ IsStep part ∧ part ≠ parentPart := by
  induction covers with
  | nil => cases member
  | step stands covers ih =>
      rcases List.mem_cons.mp member with rfl | later
      · cases stands with
        | named => exact .inl (.head _)
        | matching step down matched => exact .inr ⟨step, down⟩
      · exact (ih later).imp_left (.tail _)
  | anyDepth further settled covers ih =>
      rcases List.mem_append.mp member with above | below
      · exact .inr (settled part above)
      · exact (ih below).imp_left (.tail _)

theorem eq_of_ofPart (read : GlobStep.ofPart part = .ok (.named name)) : part ≠ [] ∧ part = name := by
  unfold GlobStep.ofPart at read
  repeat' split at read
  all_goals cases read
  next filled _ _ _ => exact ⟨filled, rfl⟩

theorem mem_of_ofParts {limit : Nat} (read : GlobStep.ofParts limit texts = .ok glob)
    (member : .named name ∈ glob) : name ≠ [] ∧ name ∈ texts := by
  induction texts generalizing glob limit with
  | nil =>
      cases limit <;> cases read <;> cases member
  | cons text texts ih =>
      cases limit with
      | zero => cases read
      | succ limit =>
          simp only [GlobStep.ofParts] at read
          split at read
          · next step steps first others =>
              cases read
              rcases List.mem_cons.mp member with rfl | later
              · obtain ⟨filled, rfl⟩ := eq_of_ofPart first
                exact ⟨filled, .head _⟩
              · exact (ih others later).imp_right (.tail _)
          · cases read
          · cases read

/-- The names that a glob asks for are parts of its pattern. -/
theorem mem_of_ofText {limit : Nat} (read : ofText limit text = .ok glob)
    (member : .named name ∈ glob) : name ∈ (Path.ofText text).parts := by
  unfold ofText at read
  dsimp only at read
  repeat' split at read
  all_goals try cases read
  obtain ⟨filled, among⟩ := mem_of_ofParts read member
  unfold partsOf at among
  dsimp only at among
  split at among
  · -- The empty part that a slash at the end adds asks for no name.
    exact (List.mem_append.mp among).resolve_right fun last => filled (List.mem_singleton.mp last)
  · exact among

end Glob

namespace Discovery

variable {pattern part : Text} {parts : List Text}

theorem Includes.part_cases (included : Includes pattern parts) (member : part ∈ parts) :
    part ∈ (Path.ofText pattern).parts ∨ IsStep part ∧ part ≠ parentPart := by
  obtain ⟨limit, glob, read, covers⟩ := included
  exact (covers.part_cases member).imp_left (Glob.mem_of_ofText read)

theorem Includes.isStep (included : Includes pattern parts) (member : part ∈ parts) : IsStep part :=
  (included.part_cases member).elim (Path.isTidy_ofText pattern part) And.left

end Discovery

/-! ## Paths and the files that they lead to -/

namespace Path

variable {root : Path} {parts : List Text} {workingDirectory : Location}

/-- Names lead on from the absolute form of a directory as they do from the directory. -/
theorem absolute_descend (down : parentPart ∉ parts) :
    (root.descend parts).absolute workingDirectory =
      ⟨.root, (root.absolute workingDirectory).parts ++ parts⟩ := by
  refine absolute_append_of fun front => ?_
  unfold normalParts
  rw [List.foldl_append, foldl_pushPart_of_settled down, List.reverse_append, List.reverse_reverse]

end Path

namespace FileSystem

variable {files : FileSystem} {path other : Path} {location : Location}

/-- No two of the paths lead to one place. -/
def LeadApart (files : FileSystem) (paths : List Path) : Prop :=
  paths.Pairwise fun path other => ¬ files.LeadTogether path other

theorem LeadApart.eq_of_locate {paths : List Path} (apart : files.LeadApart paths)
    (member : path ∈ paths) (member' : other ∈ paths) (located : files.locate path = .ok location)
    (located' : files.locate other = .ok location) : path = other := by
  have symmetric : Std.Symm fun path other => ¬ files.LeadTogether path other :=
    ⟨fun _ _ apart together => apart together.symm⟩
  by_contra differ
  exact apart.forall member member' differ ⟨location, located, located'⟩

theorem IsSound.absolute_of_located (sound : files.IsSound) (tidy : path.IsTidy)
    (named : path.parts ≠ []) (located : files.locate path = .ok location) :
    path.absolute files.workingDirectory = ⟨.root, location⟩ := by
  refine absolute_of_locate_from ?_ tidy located
  by_cases anchored : path.isAnchored = true
  · exact .inl anchored
  · -- The first part of a relative path is looked for in the working directory.
    obtain ⟨part, parts, split⟩ := List.exists_cons_of_ne_nil named
    rw [locate_of_askable (isAskable_of_locate located), startOf, if_neg anchored, split] at located
    obtain ⟨directory, -⟩ := walk_cons_eq_ok located
    exact .inr fun member => (sound.named directory _ member).down rfl

/-- A path that leads to a file, part by part. -/
structure LeadsToFile (files : FileSystem) (path : Path) : Prop where
  tidy : path.IsTidy
  named : path.parts ≠ []
  file : files.isFile path = true

theorem leadTogether_iff (sound : files.IsSound) (leads : files.LeadsToFile path)
    (leads' : files.LeadsToFile other) :
    files.LeadTogether path other ↔
      path.absolute files.workingDirectory = other.absolute files.workingDirectory := by
  constructor
  · intro ⟨location, located, located'⟩
    rw [sound.absolute_of_located leads.tidy leads.named located,
      sound.absolute_of_located leads'.tidy leads'.named located']
  · intro same
    obtain ⟨location, -, located, -⟩ := isFile_iff.mp leads.file
    obtain ⟨location', -, located', -⟩ := isFile_iff.mp leads'.file
    rw [sound.absolute_of_located leads.tidy leads.named located,
      sound.absolute_of_located leads'.tidy leads'.named located'] at same
    cases same
    exact ⟨location, located, located'⟩

end FileSystem

/-! ## Candidate files -/

namespace Discovery

variable {files : FileSystem} {root path other : Path} {includes excludes : List Text}

theorem IsCandidate.leadsToFile (tidy : root.IsTidy)
    (candidate : IsCandidate files root includes excludes path) : files.LeadsToFile path := by
  obtain ⟨file, parts, rfl, ⟨pattern, -, included⟩, -⟩ := candidate
  refine ⟨fun part member => ?_, List.append_ne_nil_of_right_ne_nil _ included.ne_nil, file⟩
  exact (List.mem_append.mp member).elim (tidy part) included.isStep

/-- The pattern includes the path by a double dot of its own. -/
structure TakesDetour (root : Path) (pattern : Text) (path : Path) : Prop where
  upward : parentPart ∈ (Path.ofText pattern).parts
  includes : ∃ parts, path = root.descend parts ∧ parentPart ∈ parts ∧ Includes pattern parts

/-- Below a directory a candidate path has names only, or an including pattern takes a detour. -/
theorem IsCandidate.direct_or_detour (candidate : IsCandidate files root includes excludes path) :
    (∃ parts, path = root.descend parts ∧ parentPart ∉ parts) ∨
      ∃ pattern ∈ includes, TakesDetour root pattern path := by
  obtain ⟨-, parts, same, ⟨pattern, member, included⟩, -⟩ := candidate
  by_cases up : parentPart ∈ parts
  · have upward := (included.part_cases up).resolve_right fun down => down.2 rfl
    exact .inr ⟨pattern, member, upward, parts, same, up, included⟩
  · exact .inl ⟨parts, same, up⟩

end Discovery

namespace Component

variable {files : FileSystem} {setting : Setting} {paths : List Path}

/-- Where no two candidate paths lead to one file, each file that a run changes is that of one of
its results. -/
theorem existsUnique_result_of_change {root : Path} {left : FileSystem} {results : List FileResult}
    {location : Location}
    (listed : setting.candidates files root = .ok paths)
    (schedule : Schedule setting (.start files paths) (.ended left results))
    (apart : files.LeadApart paths) (changed : left.find? location ≠ files.find? location) :
    ∃! result, result ∈ results ∧ files.locate result.path = .ok location := by
  have account : IsAccount files left paths ⟨root, results⟩ :=
    isAccount_of_schedule listed schedule
  have among : ∀ result ∈ results, result.path ∈ paths := fun result member =>
    account.listed ▸ List.mem_map_of_mem member
  have once : (results.map FileResult.path).Nodup := account.listed.symm ▸ account.once
  have worked : ∃ path ∈ paths, files.locate path = .ok location := by
    by_contra none
    exact changed (account.otherPlaces location fun path member located =>
      none ⟨path, member, located⟩)
  obtain ⟨path, member, located⟩ := worked
  obtain ⟨result, own, rfl⟩ := List.mem_map.mp (account.listed.symm ▸ member)
  refine ⟨result, ⟨own, located⟩, fun other ⟨own', located'⟩ => ?_⟩
  exact List.inj_on_of_nodup_map once own' own
    (apart.eq_of_locate (among other own') (among result own) located' located)

/-- The candidate paths of a directory tree lead to different files exactly if their absolute forms
differ. Otherwise a pattern takes a detour to one of the paths that lead to the same file. Where
they differ, each changed file is that of one result, whatever was scheduled first. -/
theorem file_has_one_candidate_iff (tree : files.IsTree) (project : Text)
    (listed : setting.candidates files (.ofText project) = .ok paths) :
    (files.LeadApart paths ↔ (paths.map (Path.absolute files.workingDirectory)).Nodup) ∧
    (∀ path ∈ paths, ∀ other ∈ paths, path ≠ other → files.LeadTogether path other →
      ∃ pattern ∈ setting.options.includes,
        Discovery.TakesDetour (.ofText project) pattern path ∨
          Discovery.TakesDetour (.ofText project) pattern other) ∧
    (files.LeadApart paths → ∀ left results,
      Schedule setting (.start files paths) (.ended left results) →
      ∀ location, left.find? location ≠ files.find? location →
        ∃! result, result ∈ results ∧ files.locate result.path = .ok location) := by
  have candidate (path : Path) (member : path ∈ paths) :=
    ((Discovery.lists_candidates tree listed).complete path).mp member
  have leads (path : Path) (member : path ∈ paths) : files.LeadsToFile path :=
    (candidate path member).leadsToFile (Path.isTidy_ofText project)
  have together {path other : Path} (member : path ∈ paths) (member' : other ∈ paths) :=
    FileSystem.leadTogether_iff tree.toIsSound (leads path member) (leads other member')
  refine ⟨?absolute, ?detour, fun apart left results schedule location changed =>
    existsUnique_result_of_change listed schedule apart changed⟩
  case absolute =>
    rw [List.Nodup, List.pairwise_map]
    exact List.Pairwise.iff_of_mem fun member member' => not_congr (together member member')
  case detour =>
    -- Two paths of names below the project would be the same path.
    intro path member other member' differ led
    rcases (candidate path member).direct_or_detour with ⟨parts, rfl, down⟩ | detour
    · rcases (candidate other member').direct_or_detour with ⟨parts', rfl, down'⟩ | detour'
      · have same := (together member member').mp led
        rw [Path.absolute_descend down, Path.absolute_descend down'] at same
        have equal := List.append_cancel_left (Path.mk.inj same).2
        exact absurd (equal ▸ rfl) differ
      · obtain ⟨pattern, among, takes⟩ := detour'
        exact ⟨pattern, among, .inr takes⟩
    · obtain ⟨pattern, among, takes⟩ := detour
      exact ⟨pattern, among, .inl takes⟩

/-- A component is included by its name, with a dot in front, and through the other directory. -/
def roundaboutSetting : Setting :=
  ⟨{ includes := ["a.ts", "./a.ts", "s/../a.ts"] }, [], .common .ok⟩

theorem isTree_detourProject : detourProject.IsTree :=
  FileSystem.isTree_of_entries (by decide) (by decide) (by decide +kernel)

theorem candidates_detourProject :
    roundaboutSetting.candidates detourProject (.ofText "p") =
      .ok [.ofText "p/a.ts", .ofText "p/s/../a.ts"] := by
  decide +kernel

theorem leadTogether_detourProject :
    detourProject.LeadTogether (.ofText "p/a.ts") (.ofText "p/s/../a.ts") := by
  decide +kernel

theorem file_has_one_candidate_in_detourProject :
    detourProject.IsTree ∧
      roundaboutSetting.candidates detourProject (.ofText "p") =
        .ok [.ofText "p/a.ts", .ofText "p/s/../a.ts"] ∧
      ¬ detourProject.LeadApart [.ofText "p/a.ts", .ofText "p/s/../a.ts"] ∧
      ∃ pattern ∈ roundaboutSetting.options.includes,
        Discovery.TakesDetour (.ofText "p") pattern (.ofText "p/a.ts") ∨
          Discovery.TakesDetour (.ofText "p") pattern (.ofText "p/s/../a.ts") := by
  obtain ⟨absolute, detour, -⟩ :=
    file_has_one_candidate_iff isTree_detourProject "p" candidates_detourProject
  refine ⟨isTree_detourProject, candidates_detourProject, fun apart => ?_, ?_⟩
  · have distinct := absolute.mp apart
    revert distinct
    decide +kernel
  · exact detour _ (.head _) _ (.tail _ (.head _)) (by decide +kernel) leadTogether_detourProject

/-- A file may be worked on twice in one run. -/
theorem file_may_have_two_candidates :
    ¬ ∀ (setting : Setting) (files : FileSystem) (project : Text) (paths : List Path),
      files.IsTree → setting.candidates files (.ofText project) = .ok paths →
      files.LeadApart paths := by
  intro apart
  have distinct := apart _ _ _ _ isTree_detourProject candidates_detourProject
  exact (List.pairwise_cons.mp distinct).1 _ (.head _) leadTogether_detourProject

end Component

end Inlay

import Inlay.Proofs.Discovery.Matching
import Inlay.Proofs.Files.Trees
import Inlay.Proofs.Outcomes

/-!
# What globs lead to

The steps of a glob stand for the parts of a path (`Covers`). In a directory tree a search returns
exactly those files below its start whose parts the glob covers (`mem_paths_iff`): the induction is
on the steps, and a directory from which steps are left is never a file itself.
-/

set_option autoImplicit false

namespace Inlay

/-- The parts that one step of a glob stands for. A pattern stands for the names of entries only. -/
inductive GlobStep.StandsFor : GlobStep → Text → Prop where
  | named (name : Text) : StandsFor (.named name) name
  | matching {pattern : Wildcard} {part : Text} : IsStep part → part ≠ parentPart →
      pattern.Matches part → StandsFor (.matching pattern) part

namespace Glob

/-- The parts that the steps of a glob stand for, one after another. Two stars stand for any names
in front of others. A glob that ends with them, or with a slash, leads to directories, and covers
no parts. -/
inductive Covers : Glob → List Text → Prop where
  | nil : Covers [] []
  | step {step : GlobStep} {steps : Glob} {part : Text} {parts : List Text} :
      step.StandsFor part → Covers steps parts → Covers (step :: steps) (part :: parts)
  | anyDepth {steps : Glob} {front parts : List Text} :
      steps ≠ [] → IsSettled front → Covers steps parts →
      Covers (.anyDepth :: steps) (front ++ parts)

/-- The path leads on to the other one by parts that the glob covers. -/
def Reaches (glob : Glob) (path target : Path) : Prop :=
  ∃ parts, target = path.descend parts ∧ Covers glob parts

variable {files : FileSystem} {steps glob : Glob} {pattern : Wildcard} {name : Text}
  {parts : List Text} {path target directory : Path} {found : List Path} {limit levels : Nat}

/-! ## Covered parts, step by step -/

theorem Covers.ne_nil (covers : Covers glob parts) (further : glob ≠ []) : parts ≠ [] := by
  induction covers with
  | nil => exact absurd rfl further
  | step stands covers ih => exact List.cons_ne_nil _ _
  | anyDepth more settled covers ih => exact List.append_ne_nil_of_right_ne_nil _ (ih more)

theorem reaches_nil_iff : Reaches [] path target ↔ target = path := by
  constructor
  · intro ⟨parts, same, covers⟩
    cases covers
    rw [same, Path.descend_nil]
  · intro same
    exact ⟨[], by rw [same, Path.descend_nil], .nil⟩

theorem reaches_named_iff :
    Reaches (.named name :: steps) path target ↔ Reaches steps (path.child name) target := by
  constructor
  · intro ⟨parts, same, covers⟩
    cases covers with
    | step stands covers =>
        cases stands
        exact ⟨_, by rw [same, Path.descend_child], covers⟩
  · intro ⟨parts, same, covers⟩
    exact ⟨name :: parts, by rw [same, Path.descend_child], .step (.named name) covers⟩

theorem reaches_matching_iff :
    Reaches (.matching pattern :: steps) path target ↔ ∃ name, (IsStep name ∧ name ≠ parentPart ∧
      pattern.Matches name) ∧ Reaches steps (path.child name) target := by
  constructor
  · intro ⟨parts, same, covers⟩
    cases covers with
    | step stands covers =>
        cases stands with
        | matching step down matched =>
            exact ⟨_, ⟨step, down, matched⟩, _, by rw [same, Path.descend_child], covers⟩
  · intro ⟨name, ⟨step, down, matched⟩, parts, same, covers⟩
    exact ⟨name :: parts, by rw [same, Path.descend_child],
      .step (.matching step down matched) covers⟩

theorem reaches_anyDepth_iff :
    Reaches (.anyDepth :: steps) path target ↔
      steps ≠ [] ∧ ∃ front, IsSettled front ∧ Reaches steps (path.descend front) target := by
  constructor
  · intro ⟨parts, same, covers⟩
    cases covers with
    | step stands covers => cases stands
    | anyDepth further settled covers =>
        exact ⟨further, _, settled, _, by rw [same, Path.descend_descend], covers⟩
  · intro ⟨further, front, settled, parts, same, covers⟩
    exact ⟨front ++ parts, by rw [same, Path.descend_descend], .anyDepth further settled covers⟩

theorem not_reaches_inside : ¬ Reaches (.inside :: steps) path target := by
  intro ⟨parts, same, covers⟩
  cases covers with
  | step stands covers => cases stands

/-- Where steps are left before a file there is a directory. -/
theorem lookup_of_reaches (reaches : Reaches glob path target) (further : glob ≠ [])
    (file : files.isFile target = true) : files.lookup path = .ok .directory := by
  obtain ⟨parts, rfl, covers⟩ := reaches
  exact FileSystem.lookup_above_file file (covers.ne_nil further)

/-! ## Globs as they are written -/

theorem ofParts_ne_nil {texts : List Text} (nonempty : texts ≠ [])
    (read : GlobStep.ofParts limit texts = .ok glob) : glob ≠ [] := by
  cases texts with
  | nil => exact absurd rfl nonempty
  | cons text texts =>
      cases limit with
      | zero => cases read
      | succ limit =>
          simp only [GlobStep.ofParts] at read
          split at read
          · cases read
            exact List.cons_ne_nil _ _
          · cases read
          · cases read

theorem partsOf_ne_nil {text : Text} (filled : (Path.ofText text).parts ≠ []) :
    partsOf text ≠ [] := by
  unfold partsOf
  dsimp only
  split
  · exact List.append_ne_nil_of_right_ne_nil _ (List.cons_ne_nil _ _)
  · exact filled

theorem ofText_ne_nil {text : Text} (read : ofText limit text = .ok glob) : glob ≠ [] := by
  unfold ofText at read
  dsimp only at read
  repeat' split at read
  all_goals try cases read
  next filled => exact ofParts_ne_nil (partsOf_ne_nil filled) read

theorem ofParts_unique {other : Glob} {otherLimit : Nat} {texts : List Text}
    (read : GlobStep.ofParts limit texts = .ok glob)
    (again : GlobStep.ofParts otherLimit texts = .ok other) : glob = other := by
  induction texts generalizing limit otherLimit glob other with
  | nil =>
      cases limit <;> cases otherLimit <;> cases read <;> cases again <;> rfl
  | cons text texts ih =>
      cases limit with
      | zero => cases read
      | succ limit =>
          cases otherLimit with
          | zero => cases again
          | succ otherLimit =>
              simp only [GlobStep.ofParts] at read again
              cases own : GlobStep.ofPart text with
              | error cause =>
                  rw [own] at read
                  cases read
              | ok step =>
                  rw [own] at read again
                  cases first : GlobStep.ofParts limit texts with
                  | error cause =>
                      rw [first] at read
                      cases read
                  | ok steps =>
                      cases second : GlobStep.ofParts otherLimit texts with
                      | error cause =>
                          rw [second] at again
                          cases again
                      | ok others =>
                          rw [first] at read
                          rw [second] at again
                          cases read
                          cases again
                          rw [ih first second]

/-- The limit does not decide which glob a pattern is. -/
theorem ofText_unique {other : Glob} {otherLimit : Nat} {text : Text}
    (read : ofText limit text = .ok glob) (again : ofText otherLimit text = .ok other) :
    glob = other := by
  unfold ofText at read again
  dsimp only at read again
  split at read
  · cases read
  · next filled =>
      rw [if_neg filled] at again
      split at read
      · cases read
      · next relative =>
          rw [if_neg relative] at again
          split at read
          · split at read <;> cases read
          · next parted =>
              rw [if_neg parted] at again
              exact ofParts_unique read again

/-- Behind two stars and a slash, one part with wildcards stands for names at any depth. -/
theorem ofText_anyDirectory {text : Text} (flat : .char '/' ∉ text)
    (wild : GlobStep.hasWildcards text = true) (single : text ≠ "**")
    (read : ofText limit (Discovery.anyDirectory ++ text) = .ok glob) :
    glob = [.anyDepth, .matching (.ofText text)] := by
  have filled : text ≠ [] := by
    rintro rfl
    cases wild
  have step : text ≠ "." := by
    rintro rfl
    revert wild
    decide
  have cut : Text.splitOn '/' (Discovery.anyDirectory ++ text) =
      Text.ofString "**" :: Text.splitOn '/' text := rfl
  have parts : (Path.ofText (Discovery.anyDirectory ++ text)).parts = [Text.ofString "**", text] := by
    have stars : Text.ofString "**" ≠ "." := by decide
    rw [Path.ofText, cut, Text.splitOn_eq, List.splitOn_eq_singleton flat]
    simp [filled, step, stars]
  have last : (Discovery.anyDirectory ++ text).getLast? ≠ some (.char '/') := by
    rw [List.getLast?_append_of_ne_nil _ filled]
    exact fun ends => flat (List.mem_of_getLast? ends)
  have relative : (Path.ofText (Discovery.anyDirectory ++ text)).isAnchored = false := rfl
  have written : Discovery.anyDirectory ++ text ≠ [] :=
    List.append_ne_nil_of_right_ne_nil _ filled
  have both : partsOf (Discovery.anyDirectory ++ text) = [Text.ofString "**", text] := by
    unfold partsOf
    dsimp only
    rw [if_neg last, parts]
  unfold ofText at read
  dsimp only at read
  rw [if_neg written, relative, if_neg Bool.false_ne_true, parts,
    if_neg (List.cons_ne_nil _ _), both] at read
  match limit with
  | 0 => cases read
  | 1 => cases read
  | limit + 2 =>
      simp only [GlobStep.ofParts, GlobStep.ofPart, if_neg filled, if_neg single,
        if_pos wild] at read
      by_cases joined : Text.hasPart "**" text = true
      · simp only [if_pos joined] at read
        cases read
      · simp only [if_neg joined] at read
        exact (Except.ok.inj read).symm

/-- Two stars in front of a pattern cover the names that it matches, behind any names. -/
theorem covers_anyDepth_matching_iff :
    Covers [.anyDepth, .matching pattern] parts ↔ ∃ front name, parts = front ++ [name] ∧
      IsSettled (front ++ [name]) ∧ pattern.Matches name := by
  constructor
  · intro covers
    cases covers with
    | step stands covers => cases stands
    | anyDepth further settled covers =>
        cases covers with
        | step stands covers =>
            cases covers
            cases stands with
            | matching step down matched =>
                refine ⟨_, _, rfl, List.forall_mem_append.mpr ⟨settled, ?_⟩, matched⟩
                exact List.forall_mem_singleton.mpr ⟨step, down⟩
  · intro ⟨front, name, split, settled, matched⟩
    obtain ⟨above, last⟩ := List.forall_mem_append.mp settled
    obtain ⟨step, down⟩ := List.forall_mem_singleton.mp last
    exact split ▸ .anyDepth (List.cons_ne_nil _ _) above (.step (.matching step down matched) .nil)

/-! ## Steps of a search -/

theorem list_eq_ok {listed : List (Text × Entry)} {place : Location}
    (located : files.locate path = .ok place) (read : files.list path = .ok listed) :
    listed = files.listing place := by
  rw [FileSystem.list, located] at read
  exact (Except.ok.inj read).symm

theorem exists_listed_of_isFile {listed : List (Text × Entry)} (read : files.list path = .ok listed)
    (step : IsStep name) (down : name ≠ parentPart)
    (file : files.isFile (path.descend (name :: parts)) = true) :
    ∃ entry, (name, entry) ∈ listed ∧ (parts ≠ [] → entry = .directory) := by
  obtain ⟨location, target, bytes, located, -, walked, stands⟩ :=
    FileSystem.directory_above_file file (List.cons_ne_nil _ _)
  rw [list_eq_ok located read]
  exact FileSystem.exists_listed_of_walk step down walked stands

theorem isSettled_of_mem_list (tree : files.IsTree) {listed : List (Text × Entry)} {entry : Entry}
    (read : files.list path = .ok listed) (member : (name, entry) ∈ listed) :
    IsStep name ∧ name ≠ parentPart := by
  unfold FileSystem.list at read
  split at read
  · cases read
    exact tree.isSettled_of_mem_listing member
  · cases read
  · cases read
    cases member

/-- What is listed as a directory is no file. -/
theorem isFile_of_listed (tree : files.IsTree) {listed : List (Text × Entry)}
    (read : files.list path = .ok listed) (member : (name, .directory) ∈ listed) :
    files.isFile (path.child name) = false := by
  rw [← Bool.not_eq_true]
  intro file
  have below : files.isFile (path.descend [name]) = true := file
  obtain ⟨step, down⟩ := isSettled_of_mem_list tree read member
  obtain ⟨location, target, bytes, located, -, walked, stands⟩ :=
    FileSystem.directory_above_file below (List.cons_ne_nil _ _)
  rw [list_eq_ok located read] at member
  rw [FileSystem.walk_of_isSettled (List.forall_mem_singleton.mpr ⟨step, down⟩) walked,
    tree.single (FileSystem.mem_listing_iff.mp member)] at stands
  cases stands

theorem mem_directoriesFrom_self : path ∈ directoriesFrom files path := by
  unfold directoriesFrom
  split
  · exact .head _
  · exact .head _

/-- The directories below a path are those that names lead to. -/
theorem exists_of_mem_directoriesFrom (tree : files.IsTree)
    (member : directory ∈ directoriesFrom files path) : directory = path ∨
      ∃ location below, files.locate path = .ok location ∧ IsSettled below ∧
        directory = path.descend below ∧ files.find? (location ++ below) = some .directory := by
  unfold directoriesFrom at member
  split at member
  · exact .inl (List.mem_singleton.mp member)
  · next location located =>
      rcases List.mem_cons.mp member with here | later
      · exact .inl here
      · obtain ⟨⟨other, entry⟩, among, kept⟩ := List.mem_filterMap.mp later
        dsimp only at kept
        split at kept
        · next inside =>
            obtain ⟨rfl, leads, -⟩ := inside
            obtain ⟨below, rfl⟩ := List.isPrefixOf_iff_prefix.mp leads
            rw [List.drop_left, Option.some.injEq] at kept
            have settled : IsSettled below := fun part among' =>
              tree.isSettled among part (List.mem_append_right _ among')
            exact .inr ⟨location, below, located, settled, kept.symm, tree.single among⟩
        · cases kept

theorem isFile_of_mem_directoriesFrom (tree : files.IsTree) (apart : files.isFile path = false)
    (member : directory ∈ directoriesFrom files path) : files.isFile directory = false := by
  rcases exists_of_mem_directoriesFrom tree member with
    rfl | ⟨location, below, located, settled, rfl, stands⟩
  · exact apart
  · rw [← Bool.not_eq_true]
    intro file
    by_cases inside : below = []
    · rw [inside, Path.descend_nil, apart] at file
      cases file
    · obtain ⟨place, target, bytes, located', -, walked, found⟩ :=
        FileSystem.directory_above_file file inside
      rw [located] at located'
      cases located'
      rw [FileSystem.walk_of_isSettled settled walked, stands] at found
      cases found

theorem mem_directoriesFrom_of_isFile {front behind : List Text} (settled : IsSettled front)
    (inside : behind ≠ []) (file : files.isFile (path.descend (front ++ behind)) = true) :
    path.descend front ∈ directoriesFrom files path := by
  by_cases here : front = []
  · rw [here, Path.descend_nil]
    exact mem_directoriesFrom_self
  · obtain ⟨location, target, bytes, located, -, walked, found⟩ :=
      FileSystem.directory_above_file file (List.append_ne_nil_of_left_ne_nil here _)
    obtain ⟨place, reached, onward⟩ := FileSystem.walk_append_eq_ok_iff.mp walked
    obtain ⟨part, others, rfl⟩ := List.exists_cons_of_ne_nil inside
    have directory := (FileSystem.walk_cons_eq_ok onward).1
    rw [FileSystem.walk_of_isSettled settled reached] at directory
    have filled := List.length_pos_iff.mpr here
    rcases FileSystem.find?_eq_some_cases directory with ⟨root, -⟩ | member
    · exact absurd (List.append_eq_nil_iff.mp root).2 here
    · rw [directoriesFrom, located]
      refine .tail _ (List.mem_filterMap.mpr ⟨_, member, ?_⟩)
      simp [Path.descend, filled]

/-- A name is followed where something stands, and only to a directory if steps are left. -/
theorem select_named_cases
    (selected : select files (.named name :: steps) (levels + 1) path = .ok found) :
    (select files steps levels (path.child name) = .ok found ∧
        (steps ≠ [] → files.lookup (path.child name) = .ok .directory)) ∨
      (found = [] ∧ (steps = [] → ∀ entry, files.lookup (path.child name) ≠ .ok entry) ∧
        (steps ≠ [] → files.lookup (path.child name) ≠ .ok .directory)) := by
  simp only [select] at selected
  cases looked : files.look (path.child name) with
  | error fault =>
      rw [looked] at selected
      cases selected
  | ok entry =>
      rw [looked] at selected
      dsimp only at selected
      generalize held : (if steps.isEmpty = true then entry.isSome
        else entry == some .directory) = isThere at selected
      cases isThere with
      | true =>
          refine .inl ⟨selected, fun further => ?_⟩
          rw [if_neg (by simpa using further), beq_iff_eq] at held
          exact FileSystem.look_eq_some_iff.mp (held ▸ looked)
      | false =>
          cases selected
          refine .inr ⟨rfl, fun last other stands => ?_, fun further stands => ?_⟩
          · rw [FileSystem.look_eq_some_iff.mpr stands] at looked
            cases looked
            rw [last] at held
            cases held
          · rw [FileSystem.look_eq_some_iff.mpr stands] at looked
            cases looked
            rw [if_neg (by simpa using further)] at held
            cases held

theorem not_reaches_of_missing (file : files.isFile target = true)
    (nothing : steps = [] → ∀ entry, files.lookup path ≠ .ok entry)
    (elsewhere : steps ≠ [] → files.lookup path ≠ .ok .directory) :
    ¬ Reaches steps path target := by
  intro reaches
  by_cases last : steps = []
  · obtain ⟨bytes, stands⟩ := FileSystem.lookup_of_isFile file
    rw [last] at reaches
    rw [reaches_nil_iff.mp reaches] at stands
    exact nothing last _ stands
  · exact elsewhere last (lookup_of_reaches reaches last file)

/-- What leads on to a file is followed exactly if the pattern matches its name. -/
theorem exists_followed_iff (tree : files.IsTree) {listed : List (Text × Entry)}
    (read : files.list path = .ok listed) (file : files.isFile target = true) :
    (∃ next ∈ listed.filter fun (name, entry) =>
        pattern.accepts name && (steps.isEmpty || entry == .directory),
      Reaches steps (path.child next.1) target) ↔
      Reaches (.matching pattern :: steps) path target := by
  rw [reaches_matching_iff]
  simp only [List.mem_filter, Prod.exists, Bool.and_eq_true, Bool.or_eq_true, List.isEmpty_iff,
    Wildcard.accepts_iff_matches, beq_iff_eq]
  constructor
  · intro followed
    obtain ⟨name, entry, ⟨member, matched, _⟩, reaches⟩ := followed
    obtain ⟨step, down⟩ := isSettled_of_mem_list tree read member
    exact ⟨name, ⟨step, down, matched⟩, reaches⟩
  · intro leads
    obtain ⟨name, ⟨step, down, matched⟩, parts, same, covers⟩ := leads
    rw [same, Path.descend_child] at file
    obtain ⟨entry, member, onward⟩ := exists_listed_of_isFile read step down file
    have followed : steps = [] ∨ entry = .directory :=
      or_iff_not_imp_left.mpr fun further => onward (covers.ne_nil further)
    exact ⟨name, entry, ⟨member, matched, followed⟩, parts, same, covers⟩

theorem exists_mem_directoriesFrom_iff (tree : files.IsTree) (apart : files.isFile path = false)
    (file : files.isFile target = true) :
    (∃ start ∈ directoriesFrom files path, Reaches steps start target) ↔
      Reaches (.anyDepth :: steps) path target := by
  rw [reaches_anyDepth_iff]
  constructor
  · intro ⟨start, member, reaches⟩
    have further : steps ≠ [] := by
      rintro rfl
      have outside := isFile_of_mem_directoriesFrom tree apart member
      rw [← reaches_nil_iff.mp reaches, file] at outside
      cases outside
    rcases exists_of_mem_directoriesFrom tree member with
      rfl | ⟨location, below, -, settled, rfl, -⟩
    · exact ⟨further, [], nofun, by rwa [Path.descend_nil]⟩
    · exact ⟨further, below, settled, reaches⟩
  · intro ⟨further, front, settled, parts, same, covers⟩
    rw [same, Path.descend_descend] at file
    have member := mem_directoriesFrom_of_isFile settled (covers.ne_nil further) file
    exact ⟨_, member, parts, same, covers⟩

/-! ## Searches -/

theorem eq_of_onTheWay {depth : Nat} {outcome : Except Fault (List Path)}
    (passed : onTheWay files levels depth directory outcome = .ok found) : outcome = .ok found := by
  unfold onTheWay at passed
  split at passed
  · cases passed
  · split at passed
    · cases passed
    · cases passed
    · cases passed
      rfl

/-- The files that a glob leads to are those that it reaches. -/
theorem mem_select_iff (tree : files.IsTree) (selected : select files glob levels path = .ok found)
    (apart : glob ≠ [] → files.isFile path = false) (file : files.isFile target = true) :
    target ∈ found ↔ Reaches glob path target := by
  -- Where steps are left the search stands at no file: the hypothesis `apart` is carried along.
  induction glob generalizing path found levels with
  | nil =>
      cases levels <;> cases selected
      rw [List.mem_singleton, reaches_nil_iff]
  | cons step steps ih =>
      have blocked := apart (List.cons_ne_nil _ _)
      cases levels with
      | zero => cases step <;> cases selected
      | succ levels =>
          cases step with
          | inside =>
              cases selected
              have other : target ≠ path := by
                rintro rfl
                rw [file] at blocked
                cases blocked
              simp [other, not_reaches_inside]
          | named name =>
              rw [reaches_named_iff]
              rcases select_named_cases selected with ⟨onward, leads⟩ | ⟨rfl, nothing, elsewhere⟩
              · exact ih onward fun further => FileSystem.isFile_eq_false_of_lookup (leads further)
              · exact iff_of_false List.not_mem_nil (not_reaches_of_missing file nothing elsewhere)
          | matching pattern =>
              simp only [select] at selected
              split at selected
              · cases selected
              · next listed read =>
                  rw [← exists_followed_iff tree read file]
                  refine mem_iff_of_allOf_flatten selected fun next kept own returned =>
                    ih returned fun further => ?_
                  obtain ⟨member, inside⟩ := List.mem_filter.mp kept
                  simp only [Bool.and_eq_true, Bool.or_eq_true, List.isEmpty_iff,
                    beq_iff_eq] at inside
                  exact isFile_of_listed tree read (inside.2.resolve_left further ▸ member)
          | anyDepth =>
              simp only [select] at selected
              rw [← exists_mem_directoriesFrom_iff tree blocked file]
              exact mem_iff_of_allOf_flatten selected fun start member own returned =>
                ih (eq_of_onTheWay returned)
                  fun _ => isFile_of_mem_directoriesFrom tree blocked member

/-- The files below a directory that a search finds are those that its glob reaches from there. -/
theorem mem_paths_iff (tree : files.IsTree) (further : glob ≠ [])
    (searched : paths files glob levels directory = .ok found) (file : files.isFile target = true) :
    target ∈ found ↔ Reaches glob directory target := by
  unfold paths at searched
  split at searched
  · cases searched
  · next looked =>
      have stands := FileSystem.look_eq_some_iff.mp looked
      exact mem_select_iff tree searched
        (fun _ => FileSystem.isFile_eq_false_of_lookup stands) file
  · next other looked =>
      cases searched
      refine iff_of_false List.not_mem_nil fun reaches => ?_
      rw [FileSystem.look_eq_some_iff.mpr (lookup_of_reaches reaches further file)] at looked
      exact other (Except.ok.inj looked).symm

end Glob

end Inlay

import Inlay.Proofs.Discovery.Coverage
import Inlay.Proofs.Discovery.Order
import Inlay.Proofs.Discovery.Searching
import Mathlib.Data.List.Lex
import Mathlib.Data.List.Sort

/-!
# The set of candidate files

In a directory tree the candidate files are listed in the order of their parts, and they are those
files below the project directory whose parts some pattern covers and whose relative path no
pattern excludes (`lists_candidates`). So neither the order of the patterns matters nor their
repetition, and more patterns unite or intersect what fewer of them give.
-/

set_option autoImplicit false

namespace Inlay

instance : Std.Trichotomous (· < · : CodePoint → CodePoint → Prop) := by
  refine ⟨fun c d notBelow notAbove => ?_⟩
  have same : c.toNat = d.toNat := Nat.le_antisymm (Nat.not_lt.mp notAbove) (Nat.not_lt.mp notBelow)
  rw [← c.ofNat_toNat, same, d.ofNat_toNat]

instance : Std.Trichotomous (· < · : Text → Text → Prop) :=
  inferInstanceAs (Std.Trichotomous (List.Lex (· < · : CodePoint → CodePoint → Prop)))

instance : Std.Trichotomous (· < · : List Text → List Text → Prop) :=
  inferInstanceAs (Std.Trichotomous (List.Lex (· < · : Text → Text → Prop)))

namespace Discovery

variable {limits : Text → SearchLimits} {files : FileSystem} {root path other : Path}
  {paths found : List Path}
  {pattern : Text} {parts : List Text} {includes excludes : List Text}

/-! ## Lists of paths in order -/

theorem mem_insertPath_of_mem (member : other ∈ paths) : other ∈ insertPath path paths := by
  induction paths with
  | nil => cases member
  | cons next paths ih =>
      unfold insertPath
      split
      · exact .tail _ member
      · split
        · rcases List.mem_cons.mp member with rfl | later
          · exact .head _
          · exact .tail _ (ih later)
        · exact member

/-- A path is left out only for one with the same parts. -/
theorem mem_insertPath_self (alike : ∀ next ∈ paths, next.anchor = path.anchor) :
    path ∈ insertPath path paths := by
  induction paths with
  | nil => exact .head _
  | cons next paths ih =>
      obtain ⟨first, others⟩ := List.forall_mem_cons.mp alike
      unfold insertPath
      split
      · exact .head _
      · next notBefore =>
          split
          · exact .tail _ (ih others)
          · next notBehind =>
              have same : path.parts = next.parts :=
                Std.Trichotomous.trichotomous _ _ notBefore notBehind
              have equal : path = next := by
                cases path
                cases next
                cases same
                cases first
                rfl
              exact equal ▸ .head _

theorem mem_inOrder_iff (anchor : Anchor) (alike : ∀ path ∈ paths, path.anchor = anchor) :
    path ∈ inOrder paths ↔ path ∈ paths := by
  refine ⟨mem_inOrder, fun member => ?_⟩
  induction paths with
  | nil => cases member
  | cons first paths ih =>
      obtain ⟨here, later⟩ := List.forall_mem_cons.mp alike
      rcases List.mem_cons.mp member with rfl | among
      · exact mem_insertPath_self fun next listed =>
          (later next (mem_inOrder listed)).trans here.symm
      · exact mem_insertPath_of_mem (ih later among)

/-- The list has the paths with a property, each once, in the order of their parts. -/
structure Lists (found : List Path) (holds : Path → Prop) : Prop where
  ordered : found.Pairwise Precedes
  complete : ∀ path, path ∈ found ↔ holds path

theorem Lists.congr {holds same : Path → Prop} (lists : Lists found holds)
    (alike : ∀ path, holds path ↔ same path) : Lists found same :=
  ⟨lists.ordered, fun path => (lists.complete path).trans (alike path)⟩

/-- There is one list of the paths with a property. -/
theorem Lists.eq {holds : Path → Prop} (lists : Lists found holds) (others : Lists paths holds) :
    found = paths := by
  have irreflexive : Std.Irrefl Precedes := ⟨fun path => List.lt_irrefl path.parts⟩
  have antisymmetric : Std.Antisymm Precedes :=
    ⟨fun path _ before behind => absurd (List.lt_trans before behind) (List.lt_irrefl path.parts)⟩
  exact lists.ordered.eq_of_mem_iff others.ordered fun path =>
    (lists.complete path).trans (others.complete path).symm

/-! ## Candidates as a set -/

/-- A pattern includes a path by the parts that lead to it. -/
def Includes (pattern : Text) (parts : List Text) : Prop :=
  ∃ limit glob, Glob.ofText limit pattern = .ok glob ∧ Glob.Covers glob parts

/-- A file below a directory that some pattern includes and none excludes. -/
structure IsCandidate (files : FileSystem) (root : Path) (includes excludes : List Text)
    (path : Path) : Prop where
  file : files.isFile path = true
  chosen : ∃ parts, path = root.descend parts ∧ (∃ pattern ∈ includes, Includes pattern parts) ∧
    ∀ pattern ∈ excludes, ¬ Excludes pattern (Text.joinWith ['/'] parts)

theorem Includes.ne_nil (included : Includes pattern parts) : parts ≠ [] := by
  obtain ⟨limit, glob, read, covers⟩ := included
  exact covers.ne_nil (Glob.ofText_ne_nil read)

theorem relativeText_descend (nonempty : parts ≠ []) :
    relativeText root (root.descend parts) = Text.joinWith ['/'] parts := by
  simp [relativeText, Path.descend, Path.text, nonempty, Anchor.text]

theorem candidates_eq_ok_iff :
    candidates limits files root includes excludes = .ok found ↔
      ∃ paths, included limits files root includes = .ok paths ∧
        found = inOrder (paths.filter fun path =>
          !isExcluded excludes (relativeText root path)) := by
  unfold candidates
  cases included limits files root includes with
  | error fault => simp
  | ok paths => simp [eq_comm]

theorem mem_included_iff (tree : files.IsTree)
    (listed : included limits files root includes = .ok paths) :
    path ∈ paths ↔ files.isFile path = true ∧ ∃ parts, path = root.descend parts ∧
      ∃ pattern ∈ includes, Includes pattern parts := by
  have each (pattern : Text) (_ : pattern ∈ includes) (own : List Path)
      (returned : searched limits files root pattern = .ok own) :
      path ∈ own ↔ files.isFile path = true ∧
        ∃ parts, path = root.descend parts ∧ Includes pattern parts := by
    obtain ⟨glob, all, read, followed, kept⟩ := searched_eq_ok_iff.mp returned
    rw [mem_filesAmong_iff kept, and_comm]
    refine and_congr_right fun file => ?_
    rw [Glob.mem_paths_iff tree (Glob.ofText_ne_nil read) followed file]
    constructor
    · intro ⟨parts, same, covers⟩
      exact ⟨parts, same, _, glob, read, covers⟩
    · intro ⟨parts, same, limit, other, again, covers⟩
      cases Glob.ofText_unique read again
      exact ⟨parts, same, covers⟩
  rw [included_eq] at listed
  rw [mem_iff_of_allOf_flatten listed each]
  constructor
  · intro ⟨pattern, member, file, parts, same, included⟩
    exact ⟨file, parts, same, pattern, member, included⟩
  · intro ⟨file, parts, same, pattern, member, included⟩
    exact ⟨pattern, member, file, parts, same, included⟩

/-- The candidate files are listed as the files that the patterns choose. -/
theorem lists_candidates (tree : files.IsTree)
    (listed : candidates limits files root includes excludes = .ok found) :
    Lists found (IsCandidate files root includes excludes) := by
  obtain ⟨paths, all, rfl⟩ := candidates_eq_ok_iff.mp listed
  refine ⟨pairwise_inOrder _, fun path => ?_⟩
  have alike : ∀ other ∈ paths.filter fun path =>
      !isExcluded excludes (relativeText root path), other.anchor = root.anchor := by
    intro other member
    obtain ⟨-, parts, rfl, -⟩ := (mem_included_iff tree all).mp (List.mem_filter.mp member).1
    rfl
  rw [mem_inOrder_iff root.anchor alike, List.mem_filter, Bool.not_eq_true',
    mem_included_iff tree all]
  constructor
  · intro ⟨⟨file, parts, same, pattern, listed, includes⟩, kept⟩
    rw [same, relativeText_descend includes.ne_nil, isExcluded_eq_false_iff] at kept
    exact ⟨file, parts, same, ⟨pattern, listed, includes⟩, kept⟩
  · intro ⟨file, parts, same, ⟨pattern, listed, includes⟩, kept⟩
    refine ⟨⟨file, parts, same, pattern, listed, includes⟩, ?_⟩
    rw [same, relativeText_descend includes.ne_nil]
    exact isExcluded_eq_false_iff.mpr kept

theorem exists_candidates_iff :
    (∃ found, candidates limits files root includes excludes = .ok found) ↔
      ∀ pattern ∈ includes, ∃ found, searched limits files root pattern = .ok found := by
  rw [← exists_included_iff]
  constructor
  · intro ⟨found, listed⟩
    obtain ⟨paths, all, -⟩ := candidates_eq_ok_iff.mp listed
    exact ⟨paths, all⟩
  · intro ⟨paths, all⟩
    exact ⟨_, candidates_eq_ok_iff.mpr ⟨paths, all, rfl⟩⟩

theorem candidates_eq_ok_iff_lists (tree : files.IsTree) :
    candidates limits files root includes excludes = .ok found ↔
      (∀ pattern ∈ includes, ∃ found, searched limits files root pattern = .ok found) ∧
        Lists found (IsCandidate files root includes excludes) := by
  constructor
  · intro listed
    exact ⟨exists_candidates_iff.mp ⟨found, listed⟩, lists_candidates tree listed⟩
  · intro ⟨returns, lists⟩
    obtain ⟨others, listed⟩ := exists_candidates_iff.mpr returns
    rw [listed, (lists_candidates tree listed).eq lists]

/-! ## Changed patterns -/

theorem IsCandidate.of_subset {fewer more : List Text}
    (candidate : IsCandidate files root includes excludes path) (among : includes ⊆ more)
    (within : fewer ⊆ excludes) : IsCandidate files root more fewer path := by
  obtain ⟨file, parts, same, ⟨pattern, member, included⟩, kept⟩ := candidate
  exact ⟨file, parts, same, ⟨pattern, among member, included⟩,
    fun excluding listed => kept excluding (within listed)⟩

theorem isCandidate_append_includes_iff {others : List Text} :
    IsCandidate files root (includes ++ others) excludes path ↔
      IsCandidate files root includes excludes path ∨
        IsCandidate files root others excludes path := by
  constructor
  · intro ⟨file, parts, same, ⟨pattern, member, included⟩, kept⟩
    rcases List.mem_append.mp member with first | second
    · exact .inl ⟨file, parts, same, ⟨pattern, first, included⟩, kept⟩
    · exact .inr ⟨file, parts, same, ⟨pattern, second, included⟩, kept⟩
  · intro candidate
    rcases candidate with first | second
    · exact first.of_subset (List.subset_append_left _ _) (List.Subset.refl _)
    · exact second.of_subset (List.subset_append_right _ _) (List.Subset.refl _)

theorem isCandidate_append_excludes_iff {others : List Text} :
    IsCandidate files root includes (excludes ++ others) path ↔
      IsCandidate files root includes excludes path ∧
        IsCandidate files root includes others path := by
  constructor
  · intro candidate
    exact ⟨candidate.of_subset (List.Subset.refl _) (List.subset_append_left _ _),
      candidate.of_subset (List.Subset.refl _) (List.subset_append_right _ _)⟩
  · intro ⟨⟨file, parts, same, included, kept⟩, ⟨_, again, same', _, kept'⟩⟩
    obtain rfl := root.descend_injective (same.symm.trans same')
    exact ⟨file, parts, same, included, List.forall_mem_append.mpr ⟨kept, kept'⟩⟩

theorem candidates_append_includes_iff (tree : files.IsTree) {others : List Text} :
    candidates limits files root (includes ++ others) excludes = .ok found ↔ ∃ first second,
      candidates limits files root includes excludes = .ok first ∧
      candidates limits files root others excludes = .ok second ∧
      Lists found fun path => path ∈ first ∨ path ∈ second := by
  have united {first second : List Path}
      (one : candidates limits files root includes excludes = .ok first)
      (two : candidates limits files root others excludes = .ok second) (path : Path) :
      IsCandidate files root (includes ++ others) excludes path ↔ path ∈ first ∨ path ∈ second := by
    rw [isCandidate_append_includes_iff, (lists_candidates tree one).complete,
      (lists_candidates tree two).complete]
  rw [candidates_eq_ok_iff_lists tree, List.forall_mem_append]
  constructor
  · intro ⟨⟨front, back⟩, lists⟩
    obtain ⟨first, one⟩ := exists_candidates_iff.mpr front
    obtain ⟨second, two⟩ := exists_candidates_iff.mpr back
    exact ⟨first, second, one, two, lists.congr (united one two)⟩
  · intro ⟨first, second, one, two, lists⟩
    exact ⟨⟨exists_candidates_iff.mp ⟨first, one⟩, exists_candidates_iff.mp ⟨second, two⟩⟩,
      lists.congr fun path => (united one two path).symm⟩

theorem candidates_append_excludes_iff (tree : files.IsTree) {others : List Text} :
    candidates limits files root includes (excludes ++ others) = .ok found ↔ ∃ first second,
      candidates limits files root includes excludes = .ok first ∧
      candidates limits files root includes others = .ok second ∧
      Lists found fun path => path ∈ first ∧ path ∈ second := by
  have intersected {first second : List Path}
      (one : candidates limits files root includes excludes = .ok first)
      (two : candidates limits files root includes others = .ok second) (path : Path) :
      IsCandidate files root includes (excludes ++ others) path ↔ path ∈ first ∧ path ∈ second := by
    rw [isCandidate_append_excludes_iff, (lists_candidates tree one).complete,
      (lists_candidates tree two).complete]
  rw [candidates_eq_ok_iff_lists tree]
  constructor
  · intro ⟨returns, lists⟩
    obtain ⟨first, one⟩ := exists_candidates_iff.mpr returns
    obtain ⟨second, two⟩ := exists_candidates_iff.mpr returns
    exact ⟨first, second, one, two, lists.congr (intersected one two)⟩
  · intro ⟨first, second, one, two, lists⟩
    exact ⟨exists_candidates_iff.mp ⟨first, one⟩,
      lists.congr fun path => (intersected one two path).symm⟩

/-- A file at any depth below a directory whose name a pattern matches, unless it is excluded. -/
structure IsNamedFile (files : FileSystem) (root : Path) (pattern : Text) (excludes : List Text)
    (path : Path) : Prop where
  file : files.isFile path = true
  named : ∃ front name, path = root.descend (front ++ [name]) ∧ IsSettled (front ++ [name]) ∧
    (Wildcard.ofText pattern).Matches name ∧
    ∀ excluding ∈ excludes, ¬ Excludes excluding (Text.joinWith ['/'] (front ++ [name]))

theorem isCandidate_anyDepth_iff {limit : Nat} (read : Glob.ofText limit (anyDirectory ++ pattern) =
      .ok [.anyDepth, .matching (.ofText pattern)]) :
    IsCandidate files root [anyDirectory ++ pattern] excludes path ↔
      IsNamedFile files root pattern excludes path := by
  constructor
  · intro ⟨file, parts, same, ⟨other, member, limit, glob, again, covers⟩, kept⟩
    rw [List.mem_singleton.mp member] at again
    cases Glob.ofText_unique read again
    obtain ⟨front, name, rfl, settled, matched⟩ := Glob.covers_anyDepth_matching_iff.mp covers
    exact ⟨file, front, name, same, settled, matched, kept⟩
  · intro ⟨file, front, name, same, settled, matched, kept⟩
    have covers := Glob.covers_anyDepth_matching_iff.mpr ⟨front, name, rfl, settled, matched⟩
    exact ⟨file, _, same, ⟨_, .head _, _, _, read, covers⟩, kept⟩

/-- The candidate files of a directory tree are a set in the order of the parts: the files that the
patterns choose, all of them and each once. Two stars and a slash in front of a pattern choose by
the name. The set depends on the sets of patterns only, and joined lists of patterns unite or
intersect what each of them gives. -/
theorem candidates_form_set (limits : Text → SearchLimits) (tree : files.IsTree) (root : Path) :
    (∀ includes excludes found, candidates limits files root includes excludes = .ok found →
      found.Nodup ∧ Lists found (IsCandidate files root includes excludes)) ∧
    (∀ pattern excludes found, .char '/' ∉ pattern → GlobStep.hasWildcards pattern = true →
      pattern ≠ "**" → candidates limits files root [anyDirectory ++ pattern] excludes = .ok found →
      Lists found (IsNamedFile files root pattern excludes)) ∧
    (∀ includes excludes others more found, (∀ pattern, pattern ∈ others ↔ pattern ∈ includes) →
      (∀ pattern, pattern ∈ more ↔ pattern ∈ excludes) →
      candidates limits files root includes excludes = .ok found →
      candidates limits files root others more = .ok found) ∧
    (∀ includes others excludes found,
      candidates limits files root (includes ++ others) excludes = .ok found ↔ ∃ first second,
        candidates limits files root includes excludes = .ok first ∧
        candidates limits files root others excludes = .ok second ∧
        Lists found fun path => path ∈ first ∨ path ∈ second) ∧
    ∀ includes excludes others found,
      candidates limits files root includes (excludes ++ others) = .ok found ↔ ∃ first second,
        candidates limits files root includes excludes = .ok first ∧
        candidates limits files root includes others = .ok second ∧
        Lists found fun path => path ∈ first ∧ path ∈ second := by
  refine ⟨?listed, ?named, ?sets, fun _ _ _ _ => candidates_append_includes_iff tree,
    fun _ _ _ _ => candidates_append_excludes_iff tree⟩
  case listed =>
    intro includes excludes found listed
    have lists := lists_candidates tree listed
    exact ⟨nodup_of_pairwise lists.ordered, lists⟩
  case named =>
    intro pattern excludes found flat wild single listed
    obtain ⟨own, searched⟩ := exists_candidates_iff.mp ⟨found, listed⟩ _ (.head _)
    obtain ⟨glob, paths, read, -, -⟩ := searched_eq_ok_iff.mp searched
    rw [Glob.ofText_anyDirectory flat wild single read] at read
    exact (lists_candidates tree listed).congr fun path => isCandidate_anyDepth_iff read
  case sets =>
    intro includes excludes others more found sameIncludes sameExcludes listed
    rw [candidates_eq_ok_iff_lists tree] at listed ⊢
    refine ⟨fun pattern member => listed.1 pattern ((sameIncludes pattern).mp member),
      listed.2.congr fun path => ⟨fun candidate => ?_, fun candidate => ?_⟩⟩
    · exact candidate.of_subset (fun _ => (sameIncludes _).mpr) (fun _ => (sameExcludes _).mp)
    · exact candidate.of_subset (fun _ => (sameIncludes _).mp) (fun _ => (sameExcludes _).mpr)

/-- Components and their resources, with type declarations. -/
def typedProject : FileSystem where
  entries :=
    [(["p"], .directory), (["p", "typings"], .directory),
     (["p", "typings", "a.d.ts"], .file []), (["p", "main.ts"], .file []),
     (["p", "app"], .directory), (["p", "app", "card.ts"], .file []),
     (["p", "app", "card.html"], .file [])]
  workingDirectory := []

theorem candidates_form_set_of_declarations :
    typedProject.IsTree ∧
    Lists [⟨.root, ["p", "app", "card.ts"]⟩, ⟨.root, ["p", "main.ts"]⟩]
      (IsCandidate typedProject ⟨.root, ["p"]⟩ ["main.ts", "**/*.ts"] ["**/*.d.ts"]) ∧
    Lists [⟨.root, ["p", "app", "card.ts"]⟩, ⟨.root, ["p", "main.ts"]⟩]
      (IsNamedFile typedProject ⟨.root, ["p"]⟩ "*.ts" ["**/*.d.ts"]) ∧
    candidates (fun _ => .common) typedProject ⟨.root, ["p"]⟩
        ["**/*.ts", "main.ts", "**/*.ts"] ["**/*.d.ts"] =
      .ok [⟨.root, ["p", "app", "card.ts"]⟩, ⟨.root, ["p", "main.ts"]⟩] := by
  have tree : typedProject.IsTree :=
    FileSystem.isTree_of_entries (by decide) (by decide) (by decide)
  obtain ⟨listed, named, sets, -, -⟩ := candidates_form_set (fun _ => .common) tree ⟨.root, ["p"]⟩
  have both :
      candidates (fun _ => .common) typedProject ⟨.root, ["p"]⟩ ["main.ts", "**/*.ts"]
          ["**/*.d.ts"] =
        .ok [⟨.root, ["p", "app", "card.ts"]⟩, ⟨.root, ["p", "main.ts"]⟩] := by decide +kernel
  have single :
      candidates (fun _ => .common) typedProject ⟨.root, ["p"]⟩ ["**/*.ts"] ["**/*.d.ts"] =
        .ok [⟨.root, ["p", "app", "card.ts"]⟩, ⟨.root, ["p", "main.ts"]⟩] := by decide +kernel
  refine ⟨tree, (listed _ _ _ both).2, named "*.ts" _ _ ?_ ?_ ?_ single, sets _ _ _ _ _ ?_ ?_ both⟩
  · decide
  · decide
  · decide
  · intro pattern
    simp [or_comm]
  · exact fun _ => Iff.rfl

end Discovery

end Inlay

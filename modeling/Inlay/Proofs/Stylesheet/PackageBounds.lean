import Inlay.Proofs.Files.Linked
import Inlay.Proofs.Stylesheet.PackageSearch

/-!
# Bounds of packages

A reference into a package is joined to each package directory as it is written. If it names
something, starts at no root and never climbs above the directory that it is joined to, then what
it leads to lies below this directory, unless it passes a symbolic link there
(`staysInPackages_of_isInward`). Other references may lead anywhere, and so may links
(`references_may_leave_packages`).
-/

set_option autoImplicit false

namespace Inlay

/-! ## Parts that never climb -/

/-- Whether parts never lead above a directory, when one already is so many levels below it. -/
def neverClimbs : Nat → List Text → Bool
  | _, [] => true
  | depth, part :: parts =>
      if part = parentPart then
        match depth with
        | 0 => false
        | above + 1 => neverClimbs above parts
      else neverClimbs (depth + 1) parts

/-- A part of a path that never climbs goes down, or up from below. -/
theorem neverClimbs_cons_cases {stack parts : List Text} {part : Text}
    (level : neverClimbs stack.length (part :: parts) = true) :
    (part ≠ parentPart ∧ neverClimbs (part :: stack).length parts = true) ∨
      ∃ top below, part = parentPart ∧ stack = top :: below ∧
        neverClimbs below.length parts = true := by
  unfold neverClimbs at level
  split at level
  · next up =>
      cases stack with
      | nil => cases level
      | cons top below => exact .inr ⟨top, below, up, rfl, level⟩
  · next down => exact .inl ⟨down, level⟩

theorem neverClimbs_append {depth : Nat} {front behind : List Text}
    (level : neverClimbs depth (front ++ behind) = true) : neverClimbs depth front = true := by
  induction front generalizing depth with
  | nil => rfl
  | cons part front ih =>
      rw [List.cons_append] at level
      unfold neverClimbs at level ⊢
      split at level
      · next up =>
          rw [if_pos up]
          cases depth with
          | zero => cases level
          | succ above => exact ih level
      · next down =>
          rw [if_neg down]
          exact ih level

theorem neverClimbs_concat {depth : Nat} {front : List Text} {part : Text}
    (level : neverClimbs depth front = true) (down : part ≠ parentPart) :
    neverClimbs depth (front ++ [part]) = true := by
  induction front generalizing depth with
  | nil => simp [neverClimbs, down]
  | cons first front ih =>
      rw [List.cons_append]
      unfold neverClimbs at level ⊢
      split at level
      · next up =>
          rw [if_pos up]
          cases depth with
          | zero => cases level
          | succ above => exact ih level
      · next down =>
          rw [if_neg down]
          exact ih level

/-- A step of a path that never climbs leads from below a place to below it. -/
theorem neverClimbs_step {stack parts : List Text} {part : Text} (place : Location)
    (down : parentPart ∉ stack) (step : IsStep part)
    (level : neverClimbs stack.length (part :: parts) = true) :
    parentPart ∉ pushPart true stack part ∧
      neverClimbs (pushPart true stack part).length parts = true ∧
      nextPlace (place ++ stack.reverse) part = place ++ (pushPart true stack part).reverse := by
  rw [nextPlace_of_step step]
  rcases neverClimbs_cons_cases level with ⟨forward, later⟩ | ⟨top, below, rfl, rfl, later⟩
  · rw [if_neg forward, pushPart_of_ne forward, List.reverse_cons, ← List.append_assoc]
    exact ⟨List.not_mem_cons_of_ne_of_not_mem (Ne.symm forward) down, later, rfl⟩
  · rw [if_pos rfl, pushPart_parentPart (List.ne_of_not_mem_cons down), List.reverse_cons,
      ← List.append_assoc, List.dropLast_concat]
    exact ⟨List.not_mem_of_not_mem_cons down, later, rfl⟩

/-- Parts that never climb lead below the place where they begin, if they pass no link. -/
theorem LinkedTree.Leads.eq_of_neverClimbs {tree : LinkedTree} {place target : Location}
    {stack parts : List Text} (down : parentPart ∉ stack) (steps : ∀ part ∈ parts, IsStep part)
    (level : neverClimbs stack.length parts = true)
    (unlinked : ∀ way, way <+: parts →
      tree.linkAt? (place ++ (way.foldl (pushPart true) stack).reverse) = none)
    (leads : tree.Leads (place ++ stack.reverse) parts target) :
    target = place ++ (parts.foldl (pushPart true) stack).reverse := by
  induction parts generalizing stack with
  | nil =>
      cases leads
      rfl
  | cons part parts ih =>
      obtain ⟨step, others⟩ := List.forall_mem_cons.mp steps
      obtain ⟨below, later, next⟩ := neverClimbs_step place down step level
      have free : tree.linkAt? (nextPlace (place ++ stack.reverse) part) = none := by
        rw [next]
        exact unlinked [part] (List.prefix_append [part] parts)
      refine ih below others later (fun way front => ?_) (next ▸ leads.next free)
      exact unlinked (part :: way) ((List.prefix_cons_inj part).mpr front)

/-! ## Paths below a directory -/

namespace Path

/-- The path is that of something inside of the directory. -/
def LiesBelow (path directory : Path) : Prop :=
  ∃ below, below ≠ [] ∧ path = ⟨directory.anchor, directory.parts ++ below⟩

end Path

namespace Stylesheet

variable {reference : Text} {start : Path} {roots : List Path}

/-! ## References into packages -/

/-- A reference that names something below the directory that it is joined to. -/
structure IsInward (reference : Text) : Prop where
  relative : Anchor.ofText reference = .relative
  named : (Path.ofText reference).parts ≠ []
  level : neverClimbs 0 (Path.ofText reference).parts = true

/-- No link stands below the directory where the reference leads, with the extension of sources or
without, or where it passes on its way there. -/
def PassesNoLink (files : LinkedFiles) (reference : Text) (directory : Path) : Prop :=
  ∀ tried ∈ withLess (Path.ofText reference), ∀ way, way <+: tried.parts →
    files.linkAt? ((files.resolve directory).parts ++ normalParts true way) = none

/-- Whatever the reference leads to lies below the package directory of the start or of a directory
above it, or below one of the roots. -/
def StaysInPackages (files : LinkedFiles) (reference : Text) (start : Path) (roots : List Path) :
    Prop :=
  ∀ found : Path,
    (resolvePackage files.resolve reference start roots).resultBy files.answers =
      .ok (some found) →
    (∃ above, above <+: (files.resolve start).parts ∧
      found.LiesBelow (files.resolve ⟨.root, above ++ [packageDirectory]⟩)) ∨
    ∃ root ∈ roots, found.LiesBelow (files.resolve root)

/-- What is tried for an inward reference is inward, too. -/
theorem IsInward.tried {tried : Path} (inward : IsInward reference)
    (member : tried ∈ withLess (Path.ofText reference)) :
    tried.anchor = .relative ∧ tried.parts ≠ [] ∧ tried.IsTidy ∧
      neverClimbs 0 tried.parts = true := by
  obtain ⟨relative, named, level⟩ := inward
  have tidy : (Path.ofText reference).IsTidy := Path.isTidy_ofText reference
  unfold withLess at member
  split at member
  · rcases List.mem_cons.mp member with rfl | neighbour
    · exact ⟨relative, named, tidy, level⟩
    · -- The neighbour has another last part, which goes down as any name does.
      have written := List.dropLast_append_getLast named
      have climbs : neverClimbs 0 (Path.ofText reference).parts.dropLast = true :=
        neverClimbs_append (by rwa [written])
      obtain ⟨step, down⟩ := isStep_lessName (Path.ofText reference).name
      rw [List.mem_singleton.mp neighbour]
      exact ⟨relative, List.append_ne_nil_of_right_ne_nil _ (List.cons_ne_nil _ []),
        tidy.parent.child step, neverClimbs_concat climbs down⟩
  · rw [List.mem_singleton.mp member]
    exact ⟨relative, named, tidy, level⟩

/-- What is tried for a reference below a directory is tried for the reference itself, and joined to
the directory. -/
theorem withLess_join {base path : Path} (relative : path.anchor = .relative)
    (named : path.parts ≠ []) : withLess (base.join path) = (withLess path).map base.join := by
  have joined (parts : List Text) :
      base.join ⟨.relative, parts⟩ = ⟨base.anchor, base.parts ++ parts⟩ := if_pos rfl
  obtain ⟨anchor, parts⟩ := path
  obtain rfl : anchor = .relative := relative
  rw [joined]
  have name : Path.name ⟨base.anchor, base.parts ++ parts⟩ = Path.name ⟨.relative, parts⟩ :=
    congrArg (·.getD []) (List.getLast?_append_of_ne_nil base.parts named)
  have suffix : Path.suffix ⟨base.anchor, base.parts ++ parts⟩ =
      Path.suffix ⟨.relative, parts⟩ := by
    unfold Path.suffix
    rw [name]
  unfold withLess
  rw [suffix, name]
  split
  · unfold Path.parent Path.child
    rw [List.map_cons, List.map_singleton, joined, joined]
    dsimp only
    rw [List.dropLast_append_of_ne_nil named, List.append_assoc]
  · rw [List.map_singleton, joined]

theorem IsInward.liesBelow {files : LinkedFiles} {directory tried : Path}
    (inward : IsInward reference) (tidy : directory.IsTidy)
    (unlinked : PassesNoLink files reference directory)
    (member : tried ∈ withLess (directory.join (Path.ofText reference)))
    (file : files.answers.probe tried = .ok true) :
    (files.resolve tried).LiesBelow (files.resolve directory) := by
  rw [withLess_join inward.relative inward.named] at member
  obtain ⟨own, among, rfl⟩ := List.mem_map.mp member
  obtain ⟨relative, named, steps, level⟩ := inward.tried among
  rw [Path.join, if_pos relative] at file ⊢
  obtain ⟨location, bytes, leads, found⟩ := files.leadsToFile _ file
  obtain ⟨place, above, below⟩ := LinkedTree.Leads.split leads
  have resolved : files.resolve directory = ⟨.root, place⟩ :=
    files.resolve_eq directory place tidy above
  have free := unlinked own among
  rw [resolved] at free ⊢
  have reached : location = place ++ normalParts true own.parts :=
    LinkedTree.Leads.eq_of_neverClimbs List.not_mem_nil steps level free
      (by rwa [List.reverse_nil, List.append_nil])
  have inside : normalParts true own.parts ≠ [] := by
    -- Led back, the file would be the directory from which the first step was taken.
    intro back
    obtain ⟨part, others, written⟩ := List.exists_cons_of_ne_nil named
    rw [reached, back, List.append_nil] at found
    rw [written] at below
    cases below.directory.symm.trans found
  have tidyTried : Path.IsTidy ⟨directory.anchor, directory.parts ++ own.parts⟩ :=
    List.forall_mem_append.mpr ⟨tidy, steps⟩
  rw [files.resolve_eq _ location tidyTried leads]
  exact ⟨_, inside, congrArg (Path.mk .root) reached⟩

theorem resultBy_resolvePackage_some {resolve : Path → Path} {answers : Answers} {found : Path}
    (leads : (resolvePackage resolve reference start roots).resultBy answers = .ok (some found)) :
    ∃ directory tried, directory ∈ packageDirectories resolve start roots ∧
      tried ∈ withLess (directory.join (Path.ofText reference)) ∧
      answers.probe tried = .ok true ∧ found = resolve tried := by
  unfold resolvePackage at leads
  split at leads
  · cases leads
  · obtain ⟨tried, among, file, resolved⟩ := resultBy_searchIn_some leads
    obtain ⟨directory, listed, below⟩ := List.mem_flatMap.mp among
    cases candidates : candidates? (directory.join (Path.ofText reference)) with
    | none =>
        rw [candidates] at below
        cases below
    | some paths =>
        rw [candidates, Option.getD_some, eq_withLess_of_candidates? candidates] at below
        exact ⟨directory, tried, listed, below, file, resolved⟩

theorem mem_packageDirectories {resolve : Path → Path} {directory : Path}
    (rooted : (resolve start).anchor = .root)
    (listed : directory ∈ packageDirectories resolve start roots) :
    (∃ above, above <+: (resolve start).parts ∧
        directory = ⟨.root, above ++ [packageDirectory]⟩) ∨ directory ∈ roots := by
  rcases List.mem_append.mp listed with package | root
  · obtain ⟨parent, member, rfl⟩ := List.mem_map.mp package
    rw [selfAndAncestors_eq] at member
    obtain ⟨above, among, rfl⟩ := List.mem_map.mp member
    rw [rooted]
    exact .inl ⟨above, (List.mem_inits above _).mp (List.mem_reverse.mp among), rfl⟩
  · exact .inr root

/-- A reference that names something, starts at no root and never climbs above the directory that
it is joined to leads to nothing but files of the packages, if it passes no link below their
directories. -/
theorem staysInPackages_of_isInward {files : LinkedFiles} (inward : IsInward reference)
    (tidy : start.IsTidy) (tidyRoots : ∀ root ∈ roots, root.IsTidy)
    (unlinked : ∀ directory ∈ packageDirectories files.resolve start roots,
      PassesNoLink files reference directory) :
    StaysInPackages files reference start roots := by
  intro found leads
  obtain ⟨directory, tried, listed, among, file, rfl⟩ := resultBy_resolvePackage_some leads
  have free := unlinked directory listed
  rcases mem_packageDirectories (files.anchor_resolve start) listed with ⟨above, front, rfl⟩ | root
  · have tidyAbove : Path.IsTidy ⟨.root, above ++ [packageDirectory]⟩ := by
      refine List.forall_mem_append.mpr ⟨fun part member => ?_, ?_⟩
      · exact files.isTidy_resolve start tidy part (front.subset member)
      · exact List.forall_mem_singleton.mpr ⟨by decide, by decide⟩
    exact .inl ⟨above, front, inward.liesBelow tidyAbove free among file⟩
  · exact .inr ⟨directory, root, inward.liesBelow (tidyRoots directory root) free among file⟩

/-! ## Package directories with files beside them -/

/-- A package directory with files beside it. -/
def besidePackages : FileSystem where
  entries :=
    [(["p"], .directory), (["p", "node_modules"], .directory),
     (["p", "node_modules", "deep"], .directory), (["p", "node_modules", "kit.less"], .file []),
     (["p", "node_modules.less"], .file []), (["p", "x.less"], .file []), (["x.less"], .file [])]
  workingDirectory := []

def besideFiles : LinkedFiles := besidePackages.linked nofun

theorem staysInPackages_of_besideFiles :
    (resolvePackage (Path.absolute []) "deep/../kit" (Path.ofText "p") []).result besidePackages =
        .ok (some (Path.ofText "/p/node_modules/kit.less")) ∧
      ∃ above, above <+: (Path.absolute [] (Path.ofText "p")).parts ∧
        (Path.ofText "/p/node_modules/kit.less").LiesBelow
          (Path.absolute [] ⟨.root, above ++ [packageDirectory]⟩) := by
  have inward : IsInward "deep/../kit" := ⟨by decide, by decide, by decide⟩
  have leads : (resolvePackage (Path.absolute []) "deep/../kit" (Path.ofText "p") []).result
      besidePackages = .ok (some (Path.ofText "/p/node_modules/kit.less")) := by
    decide +kernel
  have stays : StaysInPackages besideFiles "deep/../kit" (Path.ofText "p") [] :=
    staysInPackages_of_isInward inward (Path.isTidy_ofText _) nofun
      fun directory _ tried _ way _ => besidePackages.linkAt?_tree _
  rcases stays _ ((Inquiry.resultBy_answers _ _).trans leads) with package | ⟨root, none, -⟩
  · exact ⟨leads, package⟩
  · cases none

/-- A package directory in which a package is a link to its sources. -/
def linkedPackages : LinkedTree where
  find? location :=
    (([([], .entry .directory), (["p"], .entry .directory),
      (["p", "node_modules"], .entry .directory),
      (["p", "node_modules", "kit"], .link "../../packages/kit"),
      (["packages"], .entry .directory), (["packages", "kit"], .entry .directory),
      (["packages", "kit", "x.less"], .entry (.file []))] : List (Location × LinkedEntry)).find?
        (·.1 = location)).map (·.2)
  workingDirectory := []

noncomputable def linkedFiles : LinkedFiles := linkedPackages.answered nofun

theorem linkedPackages_leadsTo_sheet :
    linkedPackages.LeadsTo (Path.ofText "/p/node_modules/kit/x.less")
      ["packages", "kit", "x.less"] := by
  have behind : linkedPackages.Leads ["p", "node_modules"]
      ["..", "..", "packages", "kit", "x.less"] ["packages", "kit", "x.less"] := by
    refine .onward ?_ ?_ (.onward ?_ ?_ (.onward ?_ ?_ (.onward ?_ ?_ (.onward ?_ ?_ .here))))
    all_goals decide
  have link : linkedPackages.Leads ["p", "node_modules"] ["kit", "x.less"]
      ["packages", "kit", "x.less"] := by
    refine @LinkedTree.Leads.along _ _ _ _ "../../packages/kit" _ ?_ ?_ behind
    all_goals decide
  have front : linkedPackages.Leads [] ["p", "node_modules", "kit", "x.less"]
      ["packages", "kit", "x.less"] := by
    refine .onward ?_ ?_ (.onward ?_ ?_ link)
    all_goals decide
  exact front

/-- A search ends at once where the first path that is tried is that of a file. -/
theorem resultBy_searchIn_of_first {resolve : Path → Path} {answers : Answers}
    {directory tried : Path} {directories behind : List Path}
    (candidates : candidates? (directory.join (Path.ofText reference)) = some (tried :: behind))
    (file : answers.probe tried = .ok true) :
    (searchIn resolve reference (directory :: directories)).resultBy answers =
      .ok (some (resolve tried)) := by
  simp only [searchIn, candidates, Inquiry.resultBy_bind, firstFile?, Inquiry.resultBy, file]
  rfl

theorem resolve_linkedFiles_start : linkedFiles.resolve (Path.ofText "/p") = ⟨.root, ["p"]⟩ :=
  linkedFiles.resolve_eq _ _ (Path.isTidy_ofText _) (.onward (by decide) (by decide) .here)

theorem resultBy_resolvePackage_linkedFiles :
    (resolvePackage linkedFiles.resolve "kit/x.less" (Path.ofText "/p") []).resultBy
      linkedFiles.answers = .ok (some (Path.ofText "/packages/kit/x.less")) := by
  have file : linkedFiles.answers.probe (Path.ofText "/p/node_modules/kit/x.less") = .ok true :=
    LinkedTree.probe_answers_iff.mpr ⟨_, [], linkedPackages_leadsTo_sheet, by decide⟩
  have resolved : linkedFiles.resolve (Path.ofText "/p/node_modules/kit/x.less") =
      Path.ofText "/packages/kit/x.less" :=
    linkedFiles.resolve_eq _ _ (Path.isTidy_ofText _) linkedPackages_leadsTo_sheet
  have followed : (Path.ofText "/p").refusal? = none := by decide
  have only : candidates? (Path.join ⟨.root, ["p", "node_modules"]⟩ (Path.ofText "kit/x.less")) =
      some [Path.ofText "/p/node_modules/kit/x.less"] := by decide
  unfold resolvePackage packageDirectories
  rw [followed, resolve_linkedFiles_start, ← resolved]
  exact resultBy_searchIn_of_first only file

theorem not_staysInPackages_of_found {files : LinkedFiles} {found : Path}
    (started : files.resolve start = ⟨.root, ["p"]⟩)
    (upper : files.resolve ⟨.root, [packageDirectory]⟩ = ⟨.root, [packageDirectory]⟩)
    (lower : files.resolve ⟨.root, ["p", packageDirectory]⟩ = ⟨.root, ["p", packageDirectory]⟩)
    (leads : (resolvePackage files.resolve reference start []).resultBy files.answers =
      .ok (some found)) (outside : packageDirectory ∉ found.parts) :
    ¬ StaysInPackages files reference start [] := by
  intro stays
  rcases stays found leads with ⟨above, front, below, -, rfl⟩ | ⟨root, none, -⟩
  · rw [started] at front
    rcases List.prefix_cons_iff.mp front with rfl | ⟨more, rfl, rest⟩
    · rw [List.nil_append, upper] at outside
      exact outside (List.mem_append_left _ (.head _))
    · cases List.prefix_nil.mp rest
      rw [List.singleton_append, lower] at outside
      exact outside (List.mem_append_left _ (.tail _ (.head _)))
  · cases none

theorem not_staysInPackages_besideFiles (found : Path)
    (leads : (resolvePackage (Path.absolute []) reference (Path.ofText "p") []).result
      besidePackages = .ok (some found)) (outside : packageDirectory ∉ found.parts) :
    ¬ StaysInPackages besideFiles reference (Path.ofText "p") [] :=
  not_staysInPackages_of_found (by decide) (by decide) (by decide)
    ((Inquiry.resultBy_answers _ _).trans leads) outside

/-- References that climb, that start at the root and that name nothing lead out of packages, and
so does a link in the place of a package. -/
theorem references_may_leave_packages :
    ¬ StaysInPackages besideFiles "../x.less" (Path.ofText "p") [] ∧
      ¬ StaysInPackages besideFiles "/x.less" (Path.ofText "p") [] ∧
      ¬ StaysInPackages besideFiles "" (Path.ofText "p") [] ∧
      IsInward "kit/x.less" ∧ ¬ StaysInPackages linkedFiles "kit/x.less" (Path.ofText "/p") [] := by
  refine ⟨?_, ?_, ?_, ⟨by decide, by decide, by decide⟩, ?_⟩
  · exact not_staysInPackages_besideFiles (Path.ofText "/p/x.less") (by decide +kernel) (by decide)
  · exact not_staysInPackages_besideFiles (Path.ofText "/x.less") (by decide +kernel) (by decide)
  · exact not_staysInPackages_besideFiles (Path.ofText "/p/node_modules.less") (by decide +kernel)
      (by decide)
  · refine not_staysInPackages_of_found resolve_linkedFiles_start ?_ ?_
      resultBy_resolvePackage_linkedFiles (by decide)
    · exact linkedFiles.resolve_eq _ _ (Path.isTidy_ofText "/node_modules")
        (.onward (by decide) (by decide) .here)
    · exact linkedFiles.resolve_eq _ _ (Path.isTidy_ofText "/p/node_modules")
        (.onward (by decide) (by decide) (.onward (by decide) (by decide) .here))

end Stylesheet

end Inlay

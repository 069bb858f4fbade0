import Inlay.Proofs.Files.Answers
import Inlay.Proofs.Inquiry.Answers

/-!
# File systems with symbolic links

A path is followed part by part, and where a link stands it is followed to where the text of the
link leads. How such a file system answers is left open, apart from what its links demand: a path
that is told to be that of a regular file leads to one, and a path that leads anywhere is resolved
to the location it leads to. A file system without links answers so (`FileSystem.linked`), and so
can one with any links (`LinkedTree.answered`).
-/

set_option autoImplicit false

namespace Inlay

/-- The place from which a path is followed that is written down in a directory. -/
def Path.startIn (path : Path) (directory : Location) : Location :=
  if path.isAnchored then [] else directory

theorem steps_startIn {path : Path} {directory : Location}
    (above : ∀ name ∈ directory, IsStep name) : ∀ name ∈ path.startIn directory, IsStep name := by
  unfold Path.startIn
  split
  · exact nofun
  · exact above

theorem steps_nextPlace {place : Location} {part : Text} (above : ∀ name ∈ place, IsStep name)
    (step : IsStep part) : ∀ name ∈ nextPlace place part, IsStep name := by
  rw [nextPlace_of_step step]
  split
  · exact fun name member => above name (List.dropLast_subset _ member)
  · exact List.forall_mem_append.mpr ⟨above, List.forall_mem_singleton.mpr step⟩

/-- What stands at a location among links: an entry of its own, or a link with its text. -/
inductive LinkedEntry where
  | entry (entry : Entry)
  | link (text : Text)
deriving Repr, DecidableEq

structure LinkedTree where
  find? : Location → Option LinkedEntry
  workingDirectory : Location

namespace LinkedTree

variable {tree : LinkedTree} {place target : Location} {front behind parts : List Text}

/-- The text of the link that stands at a location, if one does. -/
def linkAt? (tree : LinkedTree) (location : Location) : Option Text :=
  match tree.find? location with
  | some (.link text) => some text
  | _ => none

/-! ## Following paths -/

/-- Where parts lead from a place. A link is followed from the directory that it stands in, before
the parts behind it. -/
inductive Leads (tree : LinkedTree) : Location → List Text → Location → Prop where
  | here {place : Location} : Leads tree place [] place
  | onward {place target : Location} {part : Text} {parts : List Text} :
      tree.find? place = some (.entry .directory) →
      tree.linkAt? (nextPlace place part) = none →
      Leads tree (nextPlace place part) parts target →
      Leads tree place (part :: parts) target
  | along {place target : Location} {part text : Text} {parts : List Text} :
      tree.find? place = some (.entry .directory) →
      tree.linkAt? (nextPlace place part) = some text →
      Leads tree ((Path.ofText text).startIn (nextPlace place part).dropLast)
        ((Path.ofText text).parts ++ parts) target →
      Leads tree place (part :: parts) target

def LeadsTo (tree : LinkedTree) (path : Path) (location : Location) : Prop :=
  tree.Leads (path.startIn tree.workingDirectory) path.parts location

def LeadsToFile (tree : LinkedTree) (path : Path) : Prop :=
  ∃ location bytes, tree.LeadsTo path location ∧
    tree.find? location = some (.entry (.file bytes))

theorem Leads.unique {other : Location} (leads : tree.Leads place parts target)
    (again : tree.Leads place parts other) : other = target := by
  induction leads with
  | here =>
      cases again
      rfl
  | onward _ unlinked _ ih =>
      cases again with
      | onward _ _ later => exact ih later
      | along _ linked _ => cases unlinked.symm.trans linked
  | along _ linked _ ih =>
      cases again with
      | onward _ unlinked _ => cases unlinked.symm.trans linked
      | along _ same later =>
          cases linked.symm.trans same
          exact ih later

/-- What leads somewhere leads there by way of each of the places in between. -/
theorem Leads.split (leads : tree.Leads place (front ++ behind) target) :
    ∃ middle, tree.Leads place front middle ∧ tree.Leads middle behind target := by
  generalize whole : front ++ behind = parts at leads
  induction leads generalizing front with
  | here =>
      obtain ⟨rfl, rfl⟩ := List.append_eq_nil_iff.mp whole
      exact ⟨_, .here, .here⟩
  | onward directory unlinked later ih =>
      cases front with
      | nil =>
          cases whole
          exact ⟨_, .here, .onward directory unlinked later⟩
      | cons part front =>
          cases whole
          obtain ⟨middle, first, second⟩ := ih rfl
          exact ⟨middle, .onward directory unlinked first, second⟩
  | along directory linked later ih =>
      cases front with
      | nil =>
          cases whole
          exact ⟨_, .here, .along directory linked later⟩
      | cons part front =>
          cases whole
          obtain ⟨middle, first, second⟩ := ih (List.append_assoc _ _ _)
          exact ⟨middle, .along directory linked first, second⟩

theorem Leads.directory {part : Text} (leads : tree.Leads place (part :: parts) target) :
    tree.find? place = some (.entry .directory) := by
  cases leads with
  | onward directory _ _ => exact directory
  | along directory _ _ => exact directory

theorem Leads.next {part : Text} (leads : tree.Leads place (part :: parts) target)
    (unlinked : tree.linkAt? (nextPlace place part) = none) :
    tree.Leads (nextPlace place part) parts target := by
  cases leads with
  | onward _ _ later => exact later
  | along _ linked _ => cases unlinked.symm.trans linked

theorem Leads.steps (leads : tree.Leads place parts target) (above : ∀ name ∈ place, IsStep name)
    (steps : ∀ part ∈ parts, IsStep part) : ∀ name ∈ target, IsStep name := by
  induction leads with
  | here => exact above
  | onward _ _ _ ih =>
      obtain ⟨step, others⟩ := List.forall_mem_cons.mp steps
      exact ih (steps_nextPlace above step) others
  | @along place _ part text _ _ _ _ ih =>
      obtain ⟨step, others⟩ := List.forall_mem_cons.mp steps
      refine ih (steps_startIn fun name member => ?_)
        (List.forall_mem_append.mpr ⟨Path.isTidy_ofText text, others⟩)
      exact steps_nextPlace above step name (List.dropLast_subset _ member)

/-- Where no link stands at all, parts lead to where they do once double dots are taken away. -/
theorem Leads.eq_foldl (leads : tree.Leads place parts target)
    (unlinked : ∀ location, tree.linkAt? location = none)
    (settled : parentPart ∉ place) (steps : ∀ part ∈ parts, IsStep part) :
    (parts.foldl (pushPart true) place.reverse).reverse = target := by
  induction leads with
  | here => exact List.reverse_reverse _
  | @onward place _ part _ _ _ _ ih =>
      obtain ⟨step, others⟩ := List.forall_mem_cons.mp steps
      rw [List.foldl_cons, pushPart_reverse settled step]
      exact ih (parentPart_not_mem_nextPlace settled part) others
  | along _ linked _ _ => cases (unlinked _).symm.trans linked

end LinkedTree

/-! ## Answers that links allow -/

/-- A file system with links. What else there is to an answer, as the limits of the system, is
left to it, and so is what a path is resolved to that leads nowhere. -/
structure LinkedFiles extends LinkedTree where
  answers : Answers
  resolve : Path → Path
  leadsToFile : ∀ path, answers.probe path = .ok true → toLinkedTree.LeadsToFile path
  resolve_eq : ∀ path location, path.IsTidy → toLinkedTree.LeadsTo path location →
    resolve path = ⟨.root, location⟩
  anchor_resolve : ∀ path, (resolve path).anchor = .root
  isTidy_resolve : ∀ path, path.IsTidy → (resolve path).IsTidy

namespace FileSystem

variable {files : FileSystem} {place target : Location} {parts : List Text}

def tree (files : FileSystem) : LinkedTree where
  find? location := (files.find? location).map .entry
  workingDirectory := files.workingDirectory

theorem find?_tree {location : Location} {entry : Entry}
    (found : files.find? location = some entry) :
    files.tree.find? location = some (.entry entry) :=
  congrArg (Option.map LinkedEntry.entry) found

theorem linkAt?_tree (files : FileSystem) (location : Location) :
    files.tree.linkAt? location = none := by
  unfold LinkedTree.linkAt? tree
  dsimp only
  cases files.find? location <;> rfl

theorem leads_of_walk (walked : files.walk place parts = .ok target) :
    files.tree.Leads place parts target := by
  induction parts generalizing place with
  | nil =>
      cases walked
      exact .here
  | cons part parts ih =>
      obtain ⟨directory, later⟩ := walk_cons_eq_ok walked
      exact .onward (find?_tree directory) (files.linkAt?_tree _) (ih later)

theorem leadsToFile_of_isFile {path : Path} (file : files.isFile path = true) :
    files.tree.LeadsToFile path := by
  obtain ⟨location, bytes, located, found⟩ := isFile_iff.mp file
  rw [locate_of_askable (isAskable_of_locate located)] at located
  exact ⟨location, bytes, leads_of_walk located, find?_tree found⟩

/-- The file systems of the programs are those without links. -/
def linked (files : FileSystem) (settled : IsSettled files.workingDirectory) : LinkedFiles where
  toLinkedTree := files.tree
  answers := files.answers
  resolve := Path.absolute files.workingDirectory
  leadsToFile _ probed := leadsToFile_of_isFile (isFile_of_probeFile probed)
  resolve_eq path location tidy leads := by
    have start : path.isAnchored = true ∨ parentPart ∉ files.workingDirectory :=
      .inr fun member => (settled _ member).2 rfl
    rw [Path.absolute_eq_foldl start]
    exact congrArg (Path.mk .root) (LinkedTree.Leads.eq_foldl leads files.linkAt?_tree
      (Path.parentPart_not_mem_start start) tidy)
  anchor_resolve _ := rfl
  isTidy_resolve _ tidy := Path.isTidy_absolute settled tidy

end FileSystem

namespace LinkedTree

variable {tree : LinkedTree} {path : Path} {location : Location}

open Classical in
noncomputable def place? (tree : LinkedTree) (path : Path) : Option Location :=
  if leads : ∃ location, tree.LeadsTo path location then some leads.choose else none

theorem place?_eq_some_iff : tree.place? path = some location ↔ tree.LeadsTo path location := by
  unfold place?
  split
  · next somewhere =>
      rw [Option.some.injEq]
      constructor
      · intro same
        exact same ▸ somewhere.choose_spec
      · exact fun leads => Leads.unique leads somewhere.choose_spec
  · next nowhere => exact iff_of_false nofun fun leads => nowhere ⟨location, leads⟩

noncomputable def entry? (tree : LinkedTree) (path : Path) : Option Entry :=
  match (tree.place? path).bind tree.find? with
  | some (.entry entry) => some entry
  | _ => none

theorem entry?_eq_some_iff {entry : Entry} :
    tree.entry? path = some entry ↔
      ∃ location, tree.LeadsTo path location ∧ tree.find? location = some (.entry entry) := by
  unfold entry?
  constructor
  · intro found
    split at found
    · next there =>
        cases found
        obtain ⟨location, led, stands⟩ := Option.bind_eq_some_iff.mp there
        exact ⟨location, place?_eq_some_iff.mp led, stands⟩
    · cases found
  · intro ⟨location, leads, stands⟩
    rw [place?_eq_some_iff.mpr leads, Option.bind_some, stands]

noncomputable def answers (tree : LinkedTree) : Answers where
  probe path := .ok (tree.entry? path matches some (.file _))
  read path := (tree.entry? path).elim (.error .notFound) FileSystem.contentOf

theorem probe_answers_iff : tree.answers.probe path = .ok true ↔ tree.LeadsToFile path := by
  have probe : tree.answers.probe path = .ok (tree.entry? path matches some (.file _)) := rfl
  rw [probe]
  constructor
  · intro probed
    split at probed
    · next bytes found =>
        obtain ⟨location, leads, stands⟩ := entry?_eq_some_iff.mp found
        exact ⟨location, bytes, leads, stands⟩
    · cases probed
  · intro ⟨location, bytes, leads, stands⟩
    rw [entry?_eq_some_iff.mpr ⟨location, leads, stands⟩]

/-- A file system with the links of a tree, on which every path has its answer. -/
noncomputable def answered (tree : LinkedTree) (settled : IsSettled tree.workingDirectory) :
    LinkedFiles where
  toLinkedTree := tree
  answers := tree.answers
  resolve path :=
    ((tree.place? path).map (Path.mk .root)).getD (path.absolute tree.workingDirectory)
  leadsToFile _ probed := probe_answers_iff.mp probed
  resolve_eq path location _ leads := by
    rw [place?_eq_some_iff.mpr leads]
    rfl
  anchor_resolve path := by
    cases tree.place? path with
    | none => rfl
    | some location => rfl
  isTidy_resolve path tidy := by
    cases led : tree.place? path with
    | none => exact Path.isTidy_absolute settled tidy
    | some location =>
        have leads : tree.LeadsTo path location := place?_eq_some_iff.mp led
        exact Leads.steps leads (steps_startIn fun name member => (settled name member).1) tidy

end LinkedTree

end Inlay

import Inlay.Proofs.Files.Walks

/-!
# Absolute paths and locations

A path that leads somewhere has the location as the parts of its absolute form
(`absolute_of_locate`), so two spellings of one location have the same absolute form.
-/

set_option autoImplicit false

namespace Inlay

def IsStep (part : Text) : Prop := part ≠ [] ∧ part ≠ "."

/-- All parts of a path take a step, as those of written paths do. -/
def Path.IsTidy (path : Path) : Prop := ∀ part ∈ path.parts, IsStep part

/-- All parts of a path are names, none is a double dot. -/
structure Path.IsPlain (path : Path) : Prop where
  tidy : path.IsTidy
  down : parentPart ∉ path.parts

def IsSettled (location : Location) : Prop := ∀ part ∈ location, IsStep part ∧ part ≠ parentPart

namespace Path

variable {base path : Path}

theorem isTidy_ofText (text : Text) : (ofText text).IsTidy := by
  intro part member
  have kept := (List.mem_filter.mp member).2
  simp only [Bool.not_or, Bool.and_eq_true, Bool.not_eq_true', List.isEmpty_eq_false_iff,
    beq_eq_false_iff_ne, ne_eq] at kept
  exact ⟨kept.1, kept.2⟩

theorem IsTidy.join (baseTidy : base.IsTidy) (pathTidy : path.IsTidy) :
    (base.join path).IsTidy := by
  intro part member
  unfold Path.join at member
  split at member
  · rcases List.mem_append.mp member with front | back
    · exact baseTidy part front
    · exact pathTidy part back
  · exact pathTidy part member

theorem IsTidy.child {part : Text} (tidy : path.IsTidy) (step : IsStep part) :
    (path.child part).IsTidy := by
  intro other member
  rcases List.mem_append.mp member with front | back
  · exact tidy other front
  · rw [List.mem_singleton.mp back]
    exact step

theorem IsTidy.parent (tidy : path.IsTidy) : path.parent.IsTidy :=
  fun part member => tidy part (List.dropLast_subset _ member)

theorem IsPlain.join (basePlain : base.IsPlain) (pathPlain : path.IsPlain) :
    (base.join path).IsPlain := by
  refine ⟨basePlain.tidy.join pathPlain.tidy, fun member => ?_⟩
  unfold Path.join at member
  split at member
  · exact (List.mem_append.mp member).elim basePlain.down pathPlain.down
  · exact pathPlain.down member

theorem IsPlain.child {part : Text} (plain : path.IsPlain) (step : IsStep part)
    (down : part ≠ parentPart) : (path.child part).IsPlain := by
  refine ⟨plain.tidy.child step, fun member => ?_⟩
  rcases List.mem_append.mp member with front | last
  · exact plain.down front
  · exact down (List.mem_singleton.mp last).symm

theorem IsPlain.parent (plain : path.IsPlain) : path.parent.IsPlain :=
  ⟨plain.tidy.parent, fun member => plain.down (List.dropLast_subset _ member)⟩

end Path

theorem pushPart_of_ne {isAnchored : Bool} {part : Text} (forward : part ≠ parentPart)
    (stack : List Text) : pushPart isAnchored stack part = part :: stack := by
  unfold pushPart
  exact if_neg forward

theorem pushPart_parentPart {isAnchored : Bool} {top : Text} (down : parentPart ≠ top)
    (below : List Text) : pushPart isAnchored (top :: below) parentPart = below := by
  unfold pushPart
  rw [if_pos rfl]
  exact if_neg (Ne.symm down)

theorem mem_pushPart {isAnchored : Bool} {stack : List Text} {part other : Text}
    (member : other ∈ pushPart isAnchored stack part) : other ∈ stack ∨ other = part := by
  unfold pushPart at member
  split at member
  · next up =>
      subst up
      split at member
      · split at member
        · cases member
        · exact .inr (List.mem_singleton.mp member)
      · split at member
        · exact (List.mem_cons.mp member).symm
        · exact .inl (.tail _ member)
  · exact (List.mem_cons.mp member).symm

theorem mem_foldl_pushPart {isAnchored : Bool} {part : Text} {stack parts : List Text}
    (member : part ∈ parts.foldl (pushPart isAnchored) stack) : part ∈ stack ∨ part ∈ parts := by
  induction parts generalizing stack with
  | nil => exact .inl member
  | cons first parts ih =>
      rcases ih member with pushed | later
      · rcases mem_pushPart pushed with old | rfl
        · exact .inl old
        · exact .inr (.head _)
      · exact .inr (.tail _ later)

theorem foldl_pushPart_down {stack parts : List Text} (down : parentPart ∉ stack) :
    parentPart ∉ parts.foldl (pushPart true) stack := by
  induction parts generalizing stack with
  | nil => exact down
  | cons part parts ih =>
      refine ih ?_
      by_cases up : part = parentPart
      · rw [up]
        cases stack with
        | nil => decide
        | cons top below =>
            rw [pushPart_parentPart (List.ne_of_not_mem_cons down)]
            exact List.not_mem_of_not_mem_cons down
      · rw [pushPart_of_ne up]
        exact List.not_mem_cons_of_ne_of_not_mem (Ne.symm up) down

theorem foldl_pushPart_of_settled {isAnchored : Bool} {location : Location}
    (settled : parentPart ∉ location) (stack : List Text) :
    location.foldl (pushPart isAnchored) stack = location.reverse ++ stack := by
  induction location generalizing stack with
  | nil => rfl
  | cons part location ih =>
      rw [List.foldl_cons, pushPart_of_ne (List.ne_of_not_mem_cons settled).symm,
        ih (List.not_mem_of_not_mem_cons settled), List.reverse_cons, List.append_assoc]
      rfl

/-! ## Steps to the next place -/

theorem nextPlace_of_step {place : Location} {part : Text} (step : IsStep part) :
    nextPlace place part = if part = parentPart then place.dropLast else place ++ [part] := by
  rw [nextPlace, if_neg (not_or.mpr step)]

theorem parentPart_not_mem_nextPlace {place : Location} (settled : parentPart ∉ place)
    (part : Text) : parentPart ∉ nextPlace place part := by
  unfold nextPlace
  split
  · exact settled
  · split
    · exact fun member => settled (List.dropLast_subset _ member)
    · next forward =>
        intro member
        rcases List.mem_append.mp member with above | last
        · exact settled above
        · exact forward (List.mem_singleton.mp last).symm

/-- No part of a settled place is a double dot, so one that is pushed takes its last part. -/
theorem pushPart_reverse {place : Location} {part : Text} (settled : parentPart ∉ place)
    (step : IsStep part) : pushPart true place.reverse part = (nextPlace place part).reverse := by
  rw [nextPlace_of_step step]
  by_cases up : part = parentPart
  · rw [if_pos up, up, ← List.tail_reverse]
    rw [← List.mem_reverse] at settled
    cases reversed : place.reverse with
    | nil => rfl
    | cons top below =>
        rw [reversed] at settled
        exact pushPart_parentPart (List.ne_of_not_mem_cons settled) below
  · rw [if_neg up, pushPart_of_ne up, ← List.reverse_concat]

namespace Path

variable {path : Path} {workingDirectory location : Location}

theorem parentPart_not_mem_absolute :
    parentPart ∉ (path.absolute workingDirectory).parts := fun member =>
  foldl_pushPart_down List.not_mem_nil (List.mem_reverse.mp member)

/-- What parts add to all parts in front of them they add to the absolute form of a directory. -/
theorem absolute_append_of {directory : Path} {parts added : List Text}
    (adds : ∀ front, normalParts true (front ++ parts) = normalParts true front ++ added) :
    absolute workingDirectory ⟨directory.anchor, directory.parts ++ parts⟩ =
      ⟨.root, (directory.absolute workingDirectory).parts ++ added⟩ := by
  unfold absolute isAnchored
  dsimp only
  split
  · rw [adds]
  · rw [← List.append_assoc, adds]

theorem parentPart_not_mem_start (start : path.isAnchored = true ∨ parentPart ∉ workingDirectory) :
    parentPart ∉ if path.isAnchored then [] else workingDirectory := by
  split
  · exact List.not_mem_nil
  · next relative => exact start.resolve_left relative

theorem absolute_eq_foldl (start : path.isAnchored = true ∨ parentPart ∉ workingDirectory) :
    path.absolute workingDirectory =
      ⟨.root, (path.parts.foldl (pushPart true)
        (if path.isAnchored then [] else workingDirectory).reverse).reverse⟩ := by
  unfold absolute normalParts
  dsimp only
  split
  · rfl
  · next relative =>
      rw [List.foldl_append, foldl_pushPart_of_settled (start.resolve_left relative),
        List.append_nil]

end Path

namespace FileSystem

variable {files : FileSystem} {path : Path}

/-- A walk ends where the parts lead once double dots are taken away. -/
theorem foldl_pushPart_of_walk {location target : Location} {parts : List Text}
    (settled : parentPart ∉ location) (steps : ∀ part ∈ parts, IsStep part)
    (walked : files.walk location parts = .ok target) :
    (parts.foldl (pushPart true) location.reverse).reverse = target := by
  induction parts generalizing location with
  | nil =>
      cases walked
      exact List.reverse_reverse _
  | cons part parts ih =>
      obtain ⟨step, others⟩ := List.forall_mem_cons.mp steps
      obtain ⟨-, later⟩ := walk_cons_eq_ok walked
      rw [List.foldl_cons, pushPart_reverse settled step]
      exact ih (parentPart_not_mem_nextPlace settled part) others later

/-- The absolute form of a path that leads to a location is the location from the root. The working
directory only matters to a path that starts there. -/
theorem absolute_of_locate_from {location : Location}
    (start : path.isAnchored = true ∨ parentPart ∉ files.workingDirectory)
    (tidy : path.IsTidy) (located : files.locate path = .ok location) :
    path.absolute files.workingDirectory = ⟨.root, location⟩ := by
  unfold locate at located
  split at located
  · cases located
  · split at located
    · cases located
    · rw [Path.absolute_eq_foldl start,
        foldl_pushPart_of_walk (Path.parentPart_not_mem_start start) tidy located]

theorem absolute_of_locate {location : Location} (settled : IsSettled files.workingDirectory)
    (tidy : path.IsTidy) (located : files.locate path = .ok location) :
    path.absolute files.workingDirectory = ⟨.root, location⟩ :=
  absolute_of_locate_from (.inr fun member => (settled _ member).2 rfl) tidy located

end FileSystem

namespace Path

variable {path : Path} {workingDirectory : Location}

theorem isTidy_absolute (settled : IsSettled workingDirectory) (tidy : path.IsTidy) :
    (path.absolute workingDirectory).IsTidy := by
  intro part member
  unfold absolute normalParts at member
  rcases mem_foldl_pushPart (List.mem_reverse.mp member) with stacked | among
  · cases stacked
  · split at among
    · exact tidy part among
    · rcases List.mem_append.mp among with above | below
      · exact (settled part above).1
      · exact tidy part below

theorem isPlain_absolute (settled : IsSettled workingDirectory) (tidy : path.IsTidy) :
    (path.absolute workingDirectory).IsPlain :=
  ⟨isTidy_absolute settled tidy, parentPart_not_mem_absolute⟩

end Path

end Inlay

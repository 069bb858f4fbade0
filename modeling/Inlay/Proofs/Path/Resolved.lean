import Inlay.Proofs.Files.Canonical
import Inlay.Proofs.Text.SplitOn

/-!
# Resolved references

Parts are pushed onto a stack whose double dots lie below all names (`IsStack`). What a stack has
kept of some parts does to another stack what the parts do (`foldl_pushPart_foldl`), so parts can be
made normal before others follow them. Hence references compose (`references_compose`).
-/

set_option autoImplicit false

namespace Inlay

variable {isAnchored : Bool} {part : Text} {stack : List Text}

/-! ## Stacks of parts -/

/-- The double dots on a stack are those that have led out of its start, and there are none if
that is a root. -/
def IsStack (isAnchored : Bool) (stack : List Text) : Prop :=
  ∃ names climbs, stack = names ++ List.replicate climbs parentPart ∧ parentPart ∉ names ∧
    (isAnchored = true → climbs = 0)

theorem isStack_nil : IsStack isAnchored [] := ⟨[], 0, rfl, List.not_mem_nil, fun _ => rfl⟩

theorem pushPart_climb (below : List Text) :
    pushPart isAnchored (parentPart :: below) parentPart = parentPart :: parentPart :: below := rfl

theorem IsStack.push (built : IsStack isAnchored stack) (part : Text) :
    IsStack isAnchored (pushPart isAnchored stack part) := by
  obtain ⟨names, climbs, rfl, down, rooted⟩ := built
  by_cases up : part = parentPart
  · subst up
    cases names with
    | cons top below =>
        rw [List.cons_append, pushPart_parentPart (List.ne_of_not_mem_cons down)]
        exact ⟨below, climbs, rfl, List.not_mem_of_not_mem_cons down, rooted⟩
    | nil =>
        cases climbs with
        | zero =>
            cases isAnchored with
            | true => exact isStack_nil
            | false => exact ⟨[], 1, rfl, List.not_mem_nil, nofun⟩
        | succ climbs =>
            -- What has climbed before is relative, and climbs on.
            exact ⟨[], climbs + 2, rfl, List.not_mem_nil, fun root => nomatch rooted root⟩
  · rw [pushPart_of_ne up]
    exact ⟨part :: names, climbs, rfl, List.not_mem_cons_of_ne_of_not_mem (Ne.symm up) down, rooted⟩

theorem IsStack.foldl (built : IsStack isAnchored stack) (parts : List Text) :
    IsStack isAnchored (parts.foldl (pushPart isAnchored) stack) := by
  induction parts generalizing stack with
  | nil => exact built
  | cons part parts ih => exact ih (built.push part)

/-- A part does to the stack that others were pushed onto what it does to their own stack. Parts that
start at a root may only be pushed onto what no double dot leads out of. -/
theorem foldl_pushPart_push {outer : Bool} {base : List Text}
    (bottom : isAnchored = true → pushPart outer base parentPart = base) (stack : List Text)
    (part : Text) :
    (pushPart isAnchored stack part).reverse.foldl (pushPart outer) base =
      pushPart outer (stack.reverse.foldl (pushPart outer) base) part := by
  have pushed (stack : List Text) : (part :: stack).reverse.foldl (pushPart outer) base =
      pushPart outer (stack.reverse.foldl (pushPart outer) base) part := by
    rw [List.reverse_cons, List.foldl_append]
    rfl
  by_cases up : part = parentPart
  · subst up
    cases stack with
    | nil =>
        cases isAnchored with
        | true => exact (bottom rfl).symm
        | false => exact pushed []
    | cons top below =>
        by_cases climbs : top = parentPart
        · rw [climbs, pushPart_climb]
          exact pushed (parentPart :: below)
        · rw [pushPart_parentPart (Ne.symm climbs), List.reverse_cons, List.foldl_append,
            List.foldl_cons, List.foldl_nil, pushPart_of_ne climbs,
            pushPart_parentPart (Ne.symm climbs)]
  · rw [pushPart_of_ne up]
    exact pushed stack

theorem foldl_pushPart_foldl {outer : Bool} {base : List Text}
    (bottom : isAnchored = true → pushPart outer base parentPart = base) (stack : List Text)
    (parts : List Text) :
    (parts.foldl (pushPart isAnchored) stack).reverse.foldl (pushPart outer) base =
      parts.foldl (pushPart outer) (stack.reverse.foldl (pushPart outer) base) := by
  induction parts generalizing stack with
  | nil => rfl
  | cons part parts ih =>
      rw [List.foldl_cons, List.foldl_cons, ih, foldl_pushPart_push bottom]

/-- Parts may be made normal before others follow them. -/
theorem normalParts_append (front behind : List Text) :
    normalParts isAnchored (normalParts isAnchored front ++ behind) =
      normalParts isAnchored (front ++ behind) := by
  have bottom : isAnchored = true → pushPart isAnchored [] parentPart = [] := by
    intro root
    rw [root]
    rfl
  unfold normalParts
  rw [List.foldl_append, foldl_pushPart_foldl bottom, List.foldl_append]
  rfl

/-- Relative parts may be made normal before they follow others. -/
theorem normalParts_append_relative (front behind : List Text) :
    normalParts true (front ++ normalParts false behind) = normalParts true (front ++ behind) := by
  have followed : (behind.foldl (pushPart false) []).reverse.foldl (pushPart true)
      (front.foldl (pushPart true) []) =
        behind.foldl (pushPart true) (front.foldl (pushPart true) []) :=
    foldl_pushPart_foldl (fun root : false = true => nomatch root) [] behind
  unfold normalParts
  rw [List.foldl_append, List.foldl_append, followed]

/-! ## Written paths -/

namespace Path

variable {path base : Path}

/-- No part of a path holds a slash. -/
def IsFlat (path : Path) : Prop := ∀ part ∈ path.parts, .char '/' ∉ part

theorem isFlat_ofText (text : Text) : (ofText text).IsFlat := fun _ member =>
  Text.not_mem_of_mem_splitOn (List.mem_filter.mp member).1

theorem IsFlat.join (baseFlat : base.IsFlat) (pathFlat : path.IsFlat) :
    (base.join path).IsFlat := by
  intro part member
  unfold Path.join at member
  split at member
  · exact (List.mem_append.mp member).elim (baseFlat part) (pathFlat part)
  · exact pathFlat part member

theorem mem_parts_normal (member : part ∈ path.normal.parts) : part ∈ path.parts :=
  (mem_foldl_pushPart (List.mem_reverse.mp member)).resolve_left List.not_mem_nil

theorem ofText_anchor_text (anchor : Anchor) {c : CodePoint} (further : c ≠ '/') (text : Text) :
    Anchor.ofText (anchor.text ++ c :: text) = anchor := by
  cases anchor <;> simp [Anchor.text, Anchor.ofText, further]

theorem splitOn_text (flat : path.IsFlat) (nonempty : path.parts ≠ []) :
    Text.splitOn '/' path.text = List.replicate path.anchor.text.length [] ++ path.parts := by
  have cut := Text.splitOn_joinWith nonempty flat
  unfold Path.text
  rw [if_neg fun empty => nonempty empty.2]
  cases path.anchor with
  | relative => exact cut
  | root => exact congrArg _ cut
  | doubleRoot => exact congrArg (fun pieces => [] :: [] :: pieces) cut

theorem anchor_ofText_text (tidy : path.IsTidy) (flat : path.IsFlat) :
    Anchor.ofText path.text = path.anchor := by
  obtain ⟨anchor, parts⟩ := path
  cases parts with
  | nil => cases anchor <;> rfl
  | cons part parts =>
      obtain ⟨c, rest, rfl⟩ := List.exists_cons_of_ne_nil (tidy part (.head _)).1
      have further : c ≠ '/' := (List.ne_of_not_mem_cons (flat _ (.head _))).symm
      cases parts with
      | nil => simpa [Path.text, Text.joinWith] using ofText_anchor_text anchor further rest
      | cons next parts =>
          have read := ofText_anchor_text anchor further
            (rest ++ .char '/' :: Text.joinWith ['/'] (next :: parts))
          simpa [Path.text, Text.joinWith] using read

theorem parts_ofText_text (tidy : path.IsTidy) (flat : path.IsFlat) :
    (ofText path.text).parts = path.parts := by
  have kept : ∀ part ∈ path.parts, (!(part.isEmpty || part == ".")) = true := by
    intro part member
    obtain ⟨filled, step⟩ := tidy part member
    simp [filled, step]
  by_cases empty : path.parts = []
  · obtain ⟨anchor, parts⟩ := path
    subst empty
    cases anchor <;> rfl
  · unfold ofText
    rw [splitOn_text flat empty, List.filter_append, List.filter_eq_self.mpr kept]
    simp

/-- A tidy path is read back from its text. -/
theorem ofText_text (tidy : path.IsTidy) (flat : path.IsFlat) : ofText path.text = path := by
  have anchor : (ofText path.text).anchor = path.anchor := anchor_ofText_text tidy flat
  have parts := parts_ofText_text tidy flat
  cases path
  exact (Path.mk.injEq ..).mpr ⟨anchor, parts⟩

/-! ## Normal paths -/

/-- A path as its text has it: names behind the double dots that lead out of a relative start, with
one slash between two parts. -/
structure IsNormal (path : Path) : Prop where
  parts : ∃ climbs names, path.parts = List.replicate climbs parentPart ++ names ∧
    IsSettled names ∧ (climbs ≠ 0 → path.anchor = .relative)
  pieces : path.parts ≠ [] →
    Text.splitOn '/' path.text = List.replicate path.anchor.text.length [] ++ path.parts
  read : ofText path.text = path

theorem isNormal_normal (tidy : path.IsTidy) (flat : path.IsFlat) : path.normal.IsNormal := by
  have normalFlat : path.normal.IsFlat := fun part member => flat part (mem_parts_normal member)
  have normalTidy : path.normal.IsTidy := fun part member => tidy part (mem_parts_normal member)
  refine ⟨?parts, splitOn_text normalFlat, ofText_text normalTidy normalFlat⟩
  obtain ⟨names, climbs, stacked, down, rooted⟩ := isStack_nil.foldl path.parts
  have listed : path.normal.parts = List.replicate climbs parentPart ++ names.reverse := by
    rw [normal, normalParts, stacked, List.reverse_append, List.reverse_replicate]
  refine ⟨climbs, names.reverse, listed, fun part member => ⟨normalTidy part ?_, ?_⟩, ?_⟩
  · rw [listed]
    exact List.mem_append_right _ member
  · rintro rfl
    exact down (List.mem_reverse.mp member)
  · exact fun climbing => Decidable.byContradiction fun anchored =>
      climbing (rooted (bne_iff_ne.mpr anchored))

theorem join_assoc (first second third : Path) :
    (first.join second).join third = first.join (second.join third) := by
  unfold Path.join
  by_cases inner : second.anchor = .relative <;> by_cases outer : third.anchor = .relative <;>
    simp [inner, outer]

theorem join_ofText_nil (path : Path) : path.join (ofText []) = path :=
  congrArg (Path.mk path.anchor) (List.append_nil path.parts)

/-- What is joined to a path may be joined to its normal form instead. -/
theorem normal_join (base path : Path) : (base.normal.join path).normal = (base.join path).normal := by
  unfold Path.join
  split
  · exact congrArg (Path.mk base.anchor) (normalParts_append base.parts path.parts)
  · rfl

/-- The normal form of a path leads where the path leads. -/
theorem absolute_normal (workingDirectory : Location) (path : Path) :
    path.normal.absolute workingDirectory = path.absolute workingDirectory := by
  obtain ⟨anchor, parts⟩ := path
  cases anchor with
  | relative => exact congrArg (Path.mk .root) (normalParts_append_relative workingDirectory parts)
  | root | doubleRoot =>
      have again : normalParts true (normalParts true parts ++ []) = normalParts true (parts ++ []) :=
        normalParts_append parts []
      rw [List.append_nil, List.append_nil] at again
      exact congrArg (Path.mk .root) again

/-- The anchor of a text is settled once something other than a slash has come. -/
theorem anchor_ofText_append {text : Text} (filled : text ≠ [])
    (ends : text.getLast? ≠ some (.char '/')) (behind : Text) :
    Anchor.ofText (text ++ behind) = Anchor.ofText text := by
  match text with
  | [] => exact absurd rfl filled
  | [c] =>
      have further : c ≠ '/' := fun same => ends (congrArg some same)
      simp [Anchor.ofText, further]
  | [c, d] =>
      have further : d ≠ '/' := fun same => ends (congrArg some same)
      by_cases first : c = '/' <;> simp [Anchor.ofText, first, further]
  | c :: d :: e :: text =>
      by_cases first : c = '/' <;> by_cases second : d = '/' <;> by_cases third : e = '/' <;>
        simp [Anchor.ofText, first, second, third]

theorem ofText_append {text behind : Text} (filled : text ≠ [])
    (ends : text.getLast? ≠ some (.char '/')) (starts : behind.head? ≠ some (.char '/')) :
    ofText (text ++ .char '/' :: behind) = (ofText text).join (ofText behind) := by
  have relative : Anchor.ofText behind = .relative := by
    cases behind with
    | nil => rfl
    | cons c behind => exact ofText_anchor_text .relative (fun same => starts (congrArg some same)) _
  unfold Path.join ofText
  rw [relative, if_pos rfl, anchor_ofText_append filled ends, Text.splitOn_append_cons,
    List.filter_append]

end Path

/-! ## References -/

/-- References from every directory lead to normal paths, which the empty reference leaves alone and
which are the same place as what is joined to the directory. A reference is followed like its two
parts in front of a slash and behind it, one after the other. -/
theorem references_compose (base : Text) :
    (∀ reference : Text, (resolveReference (.ofText base) reference).IsNormal ∧
      resolveReference (resolveReference (.ofText base) reference) [] =
        resolveReference (.ofText base) reference ∧
      ∀ workingDirectory, (resolveReference (.ofText base) reference).absolute workingDirectory =
        ((Path.ofText base).join (.ofText reference)).absolute workingDirectory) ∧
    ∀ reference further : Text, reference ≠ [] → reference.getLast? ≠ some (.char '/') →
      further.head? ≠ some (.char '/') →
      resolveReference (resolveReference (.ofText base) reference) further =
        resolveReference (.ofText base) (reference ++ .char '/' :: further) := by
  constructor
  · intro reference
    refine ⟨Path.isNormal_normal ?tidy ?flat, ?empty, fun workingDirectory => ?place⟩
    case tidy => exact (Path.isTidy_ofText base).join (Path.isTidy_ofText reference)
    case flat => exact (Path.isFlat_ofText base).join (Path.isFlat_ofText reference)
    case empty =>
      unfold resolveReference
      rw [Path.normal_join, Path.join_ofText_nil]
    case place => exact Path.absolute_normal workingDirectory _
  · intro reference further filled ends starts
    unfold resolveReference
    rw [Path.normal_join, Path.join_assoc, ← Path.ofText_append filled ends starts]

theorem references_compose_outside_app :
    resolveReference (.ofText "app/x") "../../../lib/./a" = .ofText "../lib/a" ∧
      resolveReference (.ofText "../lib/a") "../../b.css" =
        resolveReference (.ofText "app/x") (Text.ofString "../../../lib/./a" ++
          .char '/' :: Text.ofString "../../b.css") ∧
      (resolveReference (.ofText "../lib/a") "../../b.css").text = "../b.css" := by
  have leads : resolveReference (.ofText "app/x") "../../../lib/./a" = .ofText "../lib/a" := by
    decide +kernel
  have composed := (references_compose "app/x").2 "../../../lib/./a" "../../b.css"
    (by decide) (by decide) (by decide)
  rw [leads] at composed
  exact ⟨leads, composed, by decide +kernel⟩

end Inlay

import Inlay.Proofs.Stylesheet.KeptStatements

/-!
# Splitting into statements

The statements of a text are stretches of it, one behind the other, so that nothing is lost
(`flatten_statementsFrom_prefix`). Where braces pair up, each statement is one statement on its
own as well, and what remains behind the last one has no mark of structure (`exists_parts`).
-/

set_option autoImplicit false

namespace Inlay.Stylesheet

variable {text : Text} {pieces front : List StructurePiece} {piece : StructurePiece}
  {depth next : Nat}

/-! ## Nothing is lost -/

theorem flatten_statementsFrom_prefix (depth : Int) (sofar : Text)
    (pieces : List StructurePiece) :
    (statementsFrom depth sofar pieces).flatten <+: sofar.reverse ++ spellingOf pieces := by
  induction pieces generalizing depth sofar with
  | nil => exact List.nil_prefix
  | cons piece pieces ih =>
      have spelled : sofar.reverse ++ spellingOf (piece :: pieces) =
          ((piece.render spelling).reverse ++ sofar).reverse ++ spellingOf pieces := by
        simp [spellingOf]
      have goesOn : ∀ next : Int,
          (statementsFrom next ((piece.render spelling).reverse ++ sofar) pieces).flatten <+:
            sofar.reverse ++ spellingOf (piece :: pieces) := by
        intro next
        rw [spelled]
        exact ih next _
      have endsHere :
          (((piece.render spelling).reverse ++ sofar).reverse ::
            statementsFrom 0 [] pieces).flatten <+:
              sofar.reverse ++ spellingOf (piece :: pieces) := by
        rw [spelled, List.flatten_cons]
        exact (List.prefix_append_right_inj _).mpr (ih 0 [])
      rcases piece with c | (inert | - | - | -)
      · exact goesOn depth
      · exact goesOn depth
      · exact goesOn (depth + 1)
      · rw [statementsFrom]
        split
        · exact endsHere
        · exact goesOn (depth - 1)
      · rw [statementsFrom]
        split
        · exact endsHere
        · exact goesOn depth

/-! ## Steps -/

/-- A brace or a semicolon outside all inert tokens. -/
def isMark : StructurePiece → Bool
  | .token .opening => true
  | .token .closing => true
  | .token .semicolon => true
  | _ => false

/-- Whether a piece ends the statement in which it stands at a depth. -/
def endsStatement (depth : Nat) : StructurePiece → Bool
  | .token .closing => depth == 1
  | .token .semicolon => depth == 0
  | _ => false

theorem statementsFrom_cons (step : nextDepth depth piece = some next) :
    statementsFrom depth (spellingOf front).reverse (piece :: pieces) =
      if endsStatement depth piece then
        spellingOf (front ++ [piece]) :: statementsFrom 0 [] pieces
      else statementsFrom next (spellingOf (front ++ [piece])).reverse pieces := by
  rcases piece with c | (inert | - | - | -)
  · cases step
    simp only [statementsFrom, sofar_eq, endsStatement, Bool.false_eq_true, if_false]
  · cases step
    simp only [statementsFrom, sofar_eq, endsStatement, Bool.false_eq_true, if_false]
  · cases step
    simp only [statementsFrom, sofar_eq, endsStatement, Bool.false_eq_true, if_false,
      Int.natCast_add, Int.natCast_one]
  · cases depth with
    | zero => cases step
    | succ depth =>
        cases step
        have outermost : ((depth + 1 : Nat) : Int) = 1 ↔ depth + 1 = 1 := by omega
        have less : ((depth + 1 : Nat) : Int) - 1 = (depth : Nat) := by omega
        simp only [statementsFrom, sofar_eq, List.reverse_reverse, endsStatement, beq_iff_eq,
          outermost, less, Nat.add_sub_cancel]
  · cases step
    simp only [statementsFrom, sofar_eq, List.reverse_reverse, endsStatement, beq_iff_eq,
      Int.natCast_eq_zero]

theorem nextDepth_of_endsStatement (ends : endsStatement depth piece = true) :
    nextDepth depth piece = some 0 := by
  rcases piece with c | (inert | - | - | -)
  · cases ends
  · cases ends
  · cases ends
  · obtain rfl := beq_iff_eq.mp ends
    rfl
  · obtain rfl := beq_iff_eq.mp ends
    rfl

/-- A statement that goes on has a mark only within braces. -/
theorem isMark_eq_false_of_goesOn (unended : endsStatement depth piece = false)
    (step : nextDepth depth piece = some 0) : depth = 0 ∧ isMark piece = false := by
  rcases piece with c | (inert | - | - | -)
  · cases step
    exact ⟨rfl, rfl⟩
  · cases step
    exact ⟨rfl, rfl⟩
  · cases step
  · cases depth with
    | zero => cases step
    | succ depth =>
        have outermost : depth = 0 := by simpa [nextDepth] using step
        simp [endsStatement, outermost] at unended
  · cases step
    cases unended

/-! ## Runs -/

/-- Pieces of a statement that goes on behind them, with the depth that they reach. Outside all
braces they have no mark. -/
structure GoesOn (depth : Nat) (front : List StructurePiece) : Prop where
  reached : depthAfter 0 front = some depth
  unended : ∀ pieces, statementsFrom 0 [] (front ++ pieces) =
    statementsFrom depth (spellingOf front).reverse pieces
  unmarked : depth = 0 → ∀ piece ∈ front, isMark piece = false

theorem goesOn_nil : GoesOn 0 [] := by
  constructor
  · rfl
  · intro pieces
    rfl
  · intro _ piece member
    cases member

theorem GoesOn.step (begun : GoesOn depth front) (step : nextDepth depth piece = some next)
    (unended : endsStatement depth piece = false) : GoesOn next (front ++ [piece]) := by
  constructor
  case reached =>
    rw [depthAfter_append, begun.reached]
    simp [depthAfter_cons, step]
  case unended =>
    intro pieces
    rw [List.append_assoc, begun.unended, List.singleton_append, statementsFrom_cons step,
      unended]
    rfl
  case unmarked =>
    intro outside other member
    subst outside
    obtain ⟨rfl, plain⟩ := isMark_eq_false_of_goesOn unended step
    rcases List.mem_append.mp member with before | here
    · exact begun.unmarked rfl other before
    · rwa [List.mem_singleton.mp here]

/-- Pieces that are one statement on their own, with braces that pair up. -/
structure IsStatement (part : List StructurePiece) : Prop where
  paired : depthAfter 0 part = some 0
  alone : statementsFrom 0 [] part = [spellingOf part]

theorem GoesOn.ended (begun : GoesOn depth front) (ends : endsStatement depth piece = true) :
    IsStatement (front ++ [piece]) := by
  have step := nextDepth_of_endsStatement ends
  constructor
  case paired =>
    rw [depthAfter_append, begun.reached]
    simp [depthAfter_cons, step]
  case alone =>
    rw [begun.unended, statementsFrom_cons step, ends]
    rfl

/-- Pieces whose braces pair up are statements, and behind them pieces without any mark. -/
theorem exists_parts (begun : GoesOn depth front) (pairs : depthAfter depth pieces = some 0) :
    ∃ (parts : List (List StructurePiece)) (rest : List StructurePiece),
      front ++ pieces = parts.flatten ++ rest ∧
      statementsFrom 0 [] (front ++ pieces) = parts.map spellingOf ∧
      (∀ part ∈ parts, IsStatement part) ∧ ∀ piece ∈ rest, isMark piece = false := by
  induction pieces generalizing front depth with
  | nil =>
      obtain rfl : depth = 0 := Option.some.inj pairs
      refine ⟨[], front, by simp, begun.unended [], ?_, begun.unmarked rfl⟩
      intro part member
      cases member
  | cons piece pieces ih =>
      rw [depthAfter_cons, Option.bind_eq_some_iff] at pairs
      obtain ⟨next, step, later⟩ := pairs
      cases ends : endsStatement depth piece with
      | false =>
          have further := ih (begun.step step ends) later
          simpa using further
      | true =>
          obtain rfl : next = 0 :=
            Option.some.inj (step.symm.trans (nextDepth_of_endsStatement ends))
          obtain ⟨parts, rest, split, written, statements, unmarked⟩ := ih goesOn_nil later
          rw [List.nil_append] at split written
          refine ⟨(front ++ [piece]) :: parts, rest, ?_, ?_, ?_, unmarked⟩
          · simp [split]
          · rw [begun.unended, statementsFrom_cons step, ends, written]
            rfl
          · intro part member
            rcases List.mem_cons.mp member with rfl | behind
            · exact begun.ended ends
            · exact statements part behind

/-! ## Texts -/

/-- The statements of a text make up its beginning. Where its braces pair up, those of each
statement do, which is the one statement of itself; and what remains of the text has no brace and
no semicolon outside comments, strings and addresses. -/
theorem statements_split (text : Text) :
    (statements text).flatten <+: text ∧
      (checkBalanced text = .ok () →
        (∀ statement ∈ statements text,
          checkBalanced statement = .ok () ∧ statements statement = [statement]) ∧
        ∃ front rest, structureOf text = front ++ rest ∧
          spellingOf front = (statements text).flatten ∧
          ∀ piece ∈ rest, isMark piece = false) := by
  constructor
  · have beginning := flatten_statementsFrom_prefix 0 [] (structureOf text)
    rwa [spellingOf_structureOf] at beginning
  · intro balanced
    obtain ⟨parts, rest, split, written, parted, unmarked⟩ :=
      exists_parts goesOn_nil (checkBalanced_iff.mp balanced)
    rw [List.nil_append] at split written
    have listed : statements text = parts.map spellingOf := written
    constructor
    · intro statement member
      rw [listed] at member
      obtain ⟨part, among, rfl⟩ := List.mem_map.mp member
      obtain ⟨before, behind, rfl⟩ := List.append_of_mem among
      -- A statement is read on its own as it is read in the text.
      have slice : structureOf text =
          before.flatten ++ (part ++ (behind.flatten ++ rest)) := by simpa using split
      have own := structureOf_slice slice
      have statement := parted part among
      constructor
      · rw [checkBalanced_iff, own]
        exact statement.paired
      · exact (congrArg (statementsFrom 0 []) own).trans statement.alone
    · refine ⟨parts.flatten, rest, split, ?_, unmarked⟩
      rw [listed, spellingOf, List.flatMap_def, List.map_flatten, List.flatten_flatten,
        List.map_map]
      rfl

theorem statements_split_of_sheet :
    checkBalanced "@a: 1; .b \x7b /* \x7d */ c: ';'; \x7d // ;" = .ok () ∧
      statements "@a: 1; .b \x7b /* \x7d */ c: ';'; \x7d // ;" =
        ["@a: 1;", " .b \x7b /* \x7d */ c: ';'; \x7d"] ∧
      statements " .b \x7b /* \x7d */ c: ';'; \x7d" = [" .b \x7b /* \x7d */ c: ';'; \x7d"] := by
  have balanced : checkBalanced "@a: 1; .b \x7b /* \x7d */ c: ';'; \x7d // ;" = .ok () := by
    decide +kernel
  have written : statements "@a: 1; .b \x7b /* \x7d */ c: ';'; \x7d // ;" =
      ["@a: 1;", " .b \x7b /* \x7d */ c: ';'; \x7d"] := by
    decide +kernel
  have split := (statements_split "@a: 1; .b \x7b /* \x7d */ c: ';'; \x7d // ;").2 balanced
  refine ⟨balanced, written, (split.1 _ ?_).2⟩
  rw [written]
  exact .tail _ (.head _)

end Inlay.Stylesheet

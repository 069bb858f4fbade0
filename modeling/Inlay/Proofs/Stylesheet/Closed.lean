import Inlay.Proofs.Text.Occurrences
import Inlay.Stylesheet.Structure

/-!
# Texts that are closed at their end

The structure of a text may change with what is written behind it: a comment that runs to the
end of the line goes on, and a quote that had no partner finds one. Where pieces are closed
(`IsClosed`) this cannot happen: whatever follows is read as if it stood alone. The depth of
braces is counted along pieces, so that it can be followed from one part of a text to the next.
-/

set_option autoImplicit false

namespace Inlay.Stylesheet

variable {text more rest : Text} {pieces front back : List StructurePiece}

abbrev structureOf (text : Text) : List StructurePiece := StructureToken.scan.pieces text

@[simp]
theorem spellingOf_structureOf (text : Text) : spellingOf (structureOf text) = text :=
  Recognizer.spelling_pieces text

theorem spellingOf_append {α : Type} [Spelled α] (front back : List (Piece α)) :
    spellingOf (front ++ back) = spellingOf front ++ spellingOf back := List.flatMap_append

/-- What is written behind the pieces is read as if it stood alone. -/
def IsClosed (pieces : List StructurePiece) : Prop :=
  ∀ rest, structureOf (spellingOf pieces ++ rest) = pieces ++ structureOf rest

theorem isClosed_nil : IsClosed [] := fun _ => rfl

/-! ## What is known to follow -/

/-- What is known of the text behind a place: how it begins, and whether it ends there. -/
structure Sequel where
  beginning : Text
  isWhole : Bool
deriving DecidableEq

namespace Sequel

def nothing : Sequel := ⟨[], true⟩

def anything : Sequel := ⟨[], false⟩

def lineEnd : Sequel := ⟨['\n'], false⟩

def prepend (text : Text) (sequel : Sequel) : Sequel :=
  ⟨text ++ sequel.beginning, sequel.isWhole⟩

def Allows (sequel : Sequel) (rest : Text) : Prop :=
  ∃ more, rest = sequel.beginning ++ more ∧ (sequel.isWhole = true → more = [])

theorem anything_allows (rest : Text) : anything.Allows rest :=
  ⟨rest, rfl, fun whole => nomatch whole⟩

theorem Allows.prepend {sequel : Sequel} (allowed : sequel.Allows rest) (text : Text) :
    (sequel.prepend text).Allows (text ++ rest) := by
  obtain ⟨more, rfl, whole⟩ := allowed
  exact ⟨more, (List.append_assoc _ _ _).symm, whole⟩

end Sequel

variable {sequel : Sequel}

/-- What is written behind the pieces is read as if it stood alone, if it is what may follow. -/
def IsClosedBefore (sequel : Sequel) (pieces : List StructurePiece) : Prop :=
  ∀ rest, sequel.Allows rest →
    structureOf (spellingOf pieces ++ rest) = pieces ++ structureOf rest

theorem IsClosed.before (closed : IsClosed pieces) (sequel : Sequel) :
    IsClosedBefore sequel pieces := fun rest _ => closed rest

namespace IsClosedBefore

theorem isClosed (closed : IsClosedBefore .anything pieces) : IsClosed pieces :=
  fun rest => closed rest (Sequel.anything_allows rest)

theorem structureOf_eq (closed : IsClosedBefore .nothing pieces) :
    structureOf (spellingOf pieces) = pieces := by
  have alone := closed [] ⟨[], rfl, fun _ => rfl⟩
  rw [List.append_nil] at alone
  exact alone.trans (List.append_nil pieces)

theorem suffix (closed : IsClosedBefore sequel (front ++ back)) : IsClosedBefore sequel back := by
  intro rest allowed
  have whole := closed rest allowed
  rw [List.append_assoc] at whole
  have behind := Recognizer.pieces_spellingOf whole
  rwa [spellingOf_append, spellingOf_structureOf] at behind

end IsClosedBefore

namespace IsClosed

theorem structureOf_eq (closed : IsClosed pieces) : structureOf (spellingOf pieces) = pieces := by
  simpa using closed []

theorem append (first : IsClosed front) (second : IsClosed back) : IsClosed (front ++ back) := by
  intro rest
  rw [spellingOf_append, List.append_assoc, first, second, List.append_assoc]

theorem append_before (first : IsClosed front) (second : IsClosedBefore sequel back) :
    IsClosedBefore sequel (front ++ back) := by
  intro rest allowed
  rw [spellingOf_append, List.append_assoc, first, second rest allowed, List.append_assoc]

/-- What the pieces at the end are read as does not depend on those in front of them. -/
theorem suffix (closed : IsClosed (front ++ back)) : IsClosed back :=
  (closed.before .anything).suffix.isClosed

theorem tail {piece : StructurePiece} (closed : IsClosed (piece :: pieces)) : IsClosed pieces := by
  have whole : IsClosed ([piece] ++ pieces) := closed
  exact whole.suffix

theorem structureOf_append (closed : IsClosed (structureOf text)) (rest : Text) :
    structureOf (text ++ rest) = structureOf text ++ structureOf rest := by
  simpa using closed rest

end IsClosed

theorem isClosedBefore_nothing (text : Text) : IsClosedBefore .nothing (structureOf text) := by
  rintro rest ⟨more, rfl, whole⟩
  rw [whole rfl, spellingOf_structureOf]
  exact (congrArg structureOf (List.append_nil text)).trans (List.append_nil _).symm

/-- Where what follows is closed as well, it does not matter what comes behind that. -/
theorem isClosedBefore_of_append
    (closed : IsClosed (pieces ++ structureOf sequel.beginning)) :
    IsClosedBefore sequel pieces := by
  rintro rest ⟨more, rfl, -⟩
  have whole := closed more
  rw [spellingOf_append, spellingOf_structureOf, List.append_assoc, List.append_assoc] at whole
  rw [whole, closed.suffix.structureOf_append]

/-! ## The depth of braces -/

/-- The depth behind a piece. There is none behind a brace that closes nothing. -/
def nextDepth (depth : Nat) : StructurePiece → Option Nat
  | .token .opening => some (depth + 1)
  | .token .closing => if depth = 0 then none else some (depth - 1)
  | _ => some depth

def depthAfter (depth : Nat) (pieces : List StructurePiece) : Option Nat :=
  pieces.foldlM nextDepth depth

@[simp]
theorem depthAfter_nil (depth : Nat) : depthAfter depth [] = some depth := rfl

theorem depthAfter_cons (depth : Nat) (piece : StructurePiece) (pieces : List StructurePiece) :
    depthAfter depth (piece :: pieces) =
      (nextDepth depth piece).bind fun depth => depthAfter depth pieces := by
  simp [depthAfter]

theorem depthAfter_append (depth : Nat) (front back : List StructurePiece) :
    depthAfter depth (front ++ back) =
      (depthAfter depth front).bind fun depth => depthAfter depth back := by
  simp [depthAfter]

theorem nextDepth_add {depth reached : Nat} {piece : StructurePiece}
    (next : nextDepth depth piece = some reached) (outside : Nat) :
    nextDepth (depth + outside) piece = some (reached + outside) := by
  unfold nextDepth at next ⊢
  split at next
  · cases next
    exact congrArg some (by omega)
  · split at next
    · cases next
    · cases next
      rw [if_neg (by omega)]
      exact congrArg some (by omega)
  · cases next
    rfl

theorem depthAfter_add {depth reached : Nat} (outside : Nat)
    (after : depthAfter depth pieces = some reached) :
    depthAfter (depth + outside) pieces = some (reached + outside) := by
  induction pieces generalizing depth with
  | nil =>
      cases after
      rfl
  | cons piece pieces ih =>
      rw [depthAfter_cons, Option.bind_eq_some_iff] at after
      obtain ⟨between, next, later⟩ := after
      rw [depthAfter_cons, nextDepth_add next]
      exact ih later

theorem depthAfter_of_balanced (balanced : depthAfter 0 pieces = some 0) (depth : Nat) :
    depthAfter depth pieces = some depth := by
  simpa using depthAfter_add depth balanced

theorem balanceFrom_eq_ok_iff {depth line : Nat} :
    balanceFrom depth line pieces = .ok () ↔ depthAfter depth pieces = some 0 := by
  induction pieces generalizing depth line with
  | nil =>
      simp only [balanceFrom, depthAfter_nil, Option.some.injEq]
      split <;> simp_all
  | cons piece pieces ih =>
      rw [depthAfter_cons]
      rcases piece with c | (inert | - | - | -)
      · exact ih
      · exact ih
      · exact ih
      · cases depth with
        | zero => simp [balanceFrom, nextDepth]
        | succ depth => exact ih
      · exact ih

theorem checkBalanced_iff :
    checkBalanced text = .ok () ↔ depthAfter 0 (structureOf text) = some 0 :=
  balanceFrom_eq_ok_iff

end Inlay.Stylesheet

namespace Inlay

/-! ## Deciding whether a text is closed -/

namespace Text

variable {lead text rest before : Text} {mark : CodePoint}

theorem after?_append (found : after? lead text = some rest) (more : Text) :
    after? lead (text ++ more) = some (rest ++ more) := by
  rw [after?_eq_some_iff] at found ⊢
  rw [found, List.append_assoc]

theorem after?_append_eq_none (absent : ¬ lead <+: text) (longer : ¬ text <+: lead)
    (more : Text) : after? lead (text ++ more) = none := by
  cases found : after? lead (text ++ more) with
  | none => rfl
  | some rest =>
      have begun : lead <+: text ++ more := ⟨rest, (after?_eq_some_iff.mp found).symm⟩
      rcases List.prefix_or_prefix_of_prefix begun (List.prefix_append text more) with here | here
      · exact absurd here absent
      · exact absurd here longer

theorem cut?_append (found : cut? mark text = some (before, rest)) (more : Text) :
    cut? mark (text ++ more) = some (before, rest ++ more) := by
  rw [cut?_eq_some_iff] at found ⊢
  exact ⟨by rw [found.1]; simp, found.2⟩

end Text

namespace Inert

variable {text taken rest : Text} {quote : CodePoint} {token : Inert}

/-- How the inert tokens begin. -/
def openings : List Text := ["//", "/*", "\"", "'", "url("]

/-- Whether no inert token begins with the text, whatever is written behind it. -/
def cannotOpen (text : Text) : Bool :=
  openings.all fun opening => !opening.isPrefixOf text && !text.isPrefixOf opening

/-- Whether a token ends with its own last character, and not where the line ends. -/
def endsItself : Inert → Bool
  | .comment text => !("//" : Text).isPrefixOf text
  | _ => true

theorem read?_append_eq_none (cannot : cannotOpen text = true) (more : Text) :
    read? (text ++ more) = none := by
  have none : ∀ opening ∈ openings, Text.after? opening (text ++ more) = none := by
    intro opening member
    have apart := List.all_eq_true.mp cannot opening member
    simp only [Bool.and_eq_true, Bool.not_eq_true', ← Bool.not_eq_true,
      List.isPrefixOf_iff_prefix] at apart
    exact Text.after?_append_eq_none apart.1 apart.2 more
  have lineNone := none "//" (by simp [openings])
  have blockNone := none "/*" (by simp [openings])
  have doubleNone := none ['"'] (by decide)
  have singleNone := none ['\''] (by decide)
  have addressNone := none "url(" (by simp [openings])
  simp [read?, commentOrString?, comment?, string?, lineComment?, blockComment?, quotedBy?,
    address?, lineNone, blockNone, doubleNone, singleNone, addressNone]

theorem throughCommentEnd?_append (found : throughCommentEnd? text = some (taken, rest))
    (more : Text) : throughCommentEnd? (text ++ more) = some (taken, rest ++ more) := by
  fun_induction throughCommentEnd? text generalizing taken with
  | case1 => cases found
  | case2 text =>
      cases found
      rfl
  | case3 c text apart ih =>
      simp only [Option.map_eq_some_iff, Prod.exists, Prod.mk.injEq] at found
      obtain ⟨inner, after, inside, rfl, rfl⟩ := found
      -- A star at the very end might be completed by what follows, but the comment goes on.
      cases text with
      | nil => cases inside
      | cons d text =>
          rw [List.cons_append, throughCommentEnd?, ih inside]
          · rfl
          · rintro _ rfl same
            cases same
            exact apart _ rfl rfl

theorem throughQuote?_append (found : throughQuote? quote text = some (taken, rest))
    (more : Text) : throughQuote? quote (text ++ more) = some (taken, rest ++ more) := by
  fun_induction throughQuote? quote text generalizing taken with
  | case1 => cases found
  | case2 text =>
      cases found
      simp [throughQuote?.eq_def]
  | case3 => cases found
  | case4 => cases found
  | case5 differs feed d text ih =>
      simp only [Option.map_eq_some_iff, Prod.exists, Prod.mk.injEq] at found
      obtain ⟨inner, after, inside, rfl, rfl⟩ := found
      rw [List.cons_append, List.cons_append, throughQuote?.eq_def]
      simp [*]
  | case6 c text differs feed backslash ih =>
      simp only [Option.map_eq_some_iff, Prod.exists, Prod.mk.injEq] at found
      obtain ⟨inner, after, inside, rfl, rfl⟩ := found
      rw [List.cons_append, throughQuote?.eq_def]
      simp [*]

theorem lineComment?_append (found : lineComment? text = some (taken, rest))
    (stays : rest ≠ []) (more : Text) :
    lineComment? (text ++ more) = some (taken, rest ++ more) := by
  simp only [lineComment?, Option.map_eq_some_iff, Prod.mk.injEq] at found
  obtain ⟨body, after, rfl, rfl⟩ := found
  -- Something of the text is left, so that the line has ended in it.
  have ended : (body.takeWhile (· != CodePoint.char '\n')).length ≠ body.length := by
    intro same
    have lengths := congrArg List.length
      (List.takeWhile_append_dropWhile (p := (· != CodePoint.char '\n')) (l := body))
    rw [List.length_append, same] at lengths
    exact stays (List.eq_nil_of_length_eq_zero (by omega))
  simp only [lineComment?, Text.after?_append after, Option.map_some, Option.some.injEq,
    Prod.mk.injEq, List.append_cancel_left_eq]
  constructor
  · rw [List.takeWhile_append, if_neg ended]
  · rw [List.dropWhile_append]
    simp [stays]

theorem blockComment?_append (found : blockComment? text = some (taken, rest)) (more : Text) :
    blockComment? (text ++ more) = some (taken, rest ++ more) := by
  unfold blockComment? at found ⊢
  split at found
  · cases found
  · next body after =>
      simp only [Option.map_eq_some_iff, Prod.exists, Prod.mk.injEq] at found
      obtain ⟨inner, tail, inside, rfl, rfl⟩ := found
      rw [Text.after?_append after]
      simp [throughCommentEnd?_append inside]

theorem quotedBy?_append (found : quotedBy? quote text = some (taken, rest)) (more : Text) :
    quotedBy? quote (text ++ more) = some (taken, rest ++ more) := by
  unfold quotedBy? at found ⊢
  split at found
  · cases found
  · next body after =>
      simp only [Option.map_eq_some_iff, Prod.exists, Prod.mk.injEq] at found
      obtain ⟨inner, tail, inside, rfl, rfl⟩ := found
      rw [Text.after?_append after]
      simp [throughQuote?_append inside]

theorem address?_append (found : address? text = some (taken, rest)) (more : Text) :
    address? (text ++ more) = some (taken, rest ++ more) := by
  unfold address? at found ⊢
  split at found
  · cases found
  · next body after =>
      simp only [Option.map_eq_some_iff, Prod.exists, Prod.mk.injEq] at found
      obtain ⟨inner, tail, inside, rfl, rfl⟩ := found
      rw [Text.after?_append after]
      simp [Text.cut?_append inside]

theorem comment?_append (found : comment? text = some (taken, rest))
    (complete : endsItself (.comment taken) = true ∨ rest ≠ []) (more : Text) :
    comment? (text ++ more) = some (taken, rest ++ more) := by
  unfold comment? at found
  cases line : lineComment? text with
  | some result =>
      rw [line] at found
      cases found
      have stays : rest ≠ [] := by
        refine complete.resolve_left ?_
        simp only [lineComment?, Option.map_eq_some_iff, Prod.mk.injEq] at line
        obtain ⟨body, -, rfl, -⟩ := line
        simp [endsItself, Text.ofString]
      rw [comment?, lineComment?_append line stays]
  | none =>
      simp only [line] at found
      have lineNone : lineComment? (text ++ more) = none := by
        unfold blockComment? at found
        split at found
        · cases found
        · next body after =>
            rw [Text.after?_eq_some_iff.mp after]
            rfl
      rw [comment?, lineNone]
      exact blockComment?_append found more

theorem exists_of_quotedBy? (found : quotedBy? quote text = some (taken, rest)) :
    ∃ body, text = quote :: body := by
  unfold quotedBy? at found
  split at found
  · cases found
  · next body after => exact ⟨body, Text.after?_eq_some_iff.mp after⟩

theorem string?_append (found : string? text = some (taken, rest)) (more : Text) :
    string? (text ++ more) = some (taken, rest ++ more) := by
  unfold string? at found
  cases double : quotedBy? '"' text with
  | some result =>
      rw [double] at found
      cases found
      rw [string?, quotedBy?_append double]
  | none =>
      rw [double] at found
      obtain ⟨body, rfl⟩ := exists_of_quotedBy? found
      have doubleNone : quotedBy? '"' (.char '\'' :: body ++ more) = none := rfl
      rw [string?, doubleNone]
      exact quotedBy?_append found more

theorem comment?_append_eq_none_of_string? (found : string? text = some (taken, rest))
    (more : Text) : comment? (text ++ more) = none := by
  unfold string? at found
  split at found
  · next double =>
      cases found
      obtain ⟨body, rfl⟩ := exists_of_quotedBy? double
      rfl
  · obtain ⟨body, rfl⟩ := exists_of_quotedBy? found
    rfl

theorem commentOrString?_append (found : commentOrString? text = some (token, rest))
    (complete : token.endsItself = true ∨ rest ≠ []) (more : Text) :
    commentOrString? (text ++ more) = some (token, rest ++ more) := by
  unfold commentOrString? at found
  cases comment : comment? text with
  | some result =>
      rw [comment] at found
      cases found
      rw [commentOrString?, comment?_append comment complete]
  | none =>
      rw [comment] at found
      simp only [Option.map_eq_some_iff, Prod.exists, Prod.mk.injEq] at found
      obtain ⟨taken, behind, string, rfl, rfl⟩ := found
      rw [commentOrString?, comment?_append_eq_none_of_string? string, string?_append string]
      rfl

/-- A token that was read is read whatever follows, unless it is a comment to the end of the line
and the line has not ended. -/
theorem read?_append (found : read? text = some (token, rest))
    (complete : token.endsItself = true ∨ rest ≠ []) (more : Text) :
    read? (text ++ more) = some (token, rest ++ more) := by
  unfold read? at found
  cases other : commentOrString? text with
  | some result =>
      rw [other] at found
      cases found
      rw [read?, commentOrString?_append other complete]
  | none =>
      rw [other] at found
      simp only [Option.map_eq_some_iff, Prod.exists, Prod.mk.injEq] at found
      obtain ⟨taken, behind, address, rfl, rfl⟩ := found
      have otherNone : commentOrString? (text ++ more) = none := by
        unfold address? at address
        split at address
        · cases address
        · next body after =>
            rw [Text.after?_eq_some_iff.mp after]
            rfl
      rw [read?, otherNone, address?_append address]
      rfl

end Inert

namespace StructureToken

variable {text rest : Text} {c : CodePoint}

theorem read?_of_inert {token : Inert} (found : Inert.read? text = some (token, rest)) :
    read? text = some (.inert token, rest) := by
  simp [read?, found]

theorem inert_of_read? {token : Inert} (found : read? text = some (.inert token, rest)) :
    Inert.read? text = some (token, rest) := by
  unfold read? at found
  split at found
  · next inert =>
      cases found
      exact inert
  · split at found <;> cases found

def marks : Text := ['\x7b', '\x7d', ';']

theorem read?_cons_eq_none_iff :
    read? (c :: text) = none ↔ Inert.read? (c :: text) = none ∧ c ∉ marks := by
  unfold read?
  cases Inert.read? (c :: text) with
  | some result => simp
  | none =>
      simp only [true_and, marks, List.mem_cons, List.not_mem_nil, or_false, not_or]
      constructor
      · intro unread
        refine ⟨?_, ?_, ?_⟩ <;> rintro rfl <;> cases unread
      · rintro ⟨open_, close_, semicolon⟩
        split <;> simp_all

/-- What is made in front of a text is made in front of another one, if that holds of the inert
tokens: braces and semicolons do not depend on what follows. -/
theorem readsBefore_transfer {piece : StructurePiece} {other : Text}
    (reads : scan.ReadsBefore rest piece)
    (unread : ∀ c, piece = .char c → Inert.read? (c :: rest) = none →
      Inert.read? (c :: other) = none)
    (taken : ∀ token, piece = .token (.inert token) →
      Inert.read? (spelling token ++ rest) = some (token, rest) →
      Inert.read? (spelling token ++ other) = some (token, other)) :
    scan.ReadsBefore other piece := by
  rcases piece with c | (token | - | - | -)
  · obtain ⟨alone, unmarked⟩ := read?_cons_eq_none_iff.mp reads
    exact read?_cons_eq_none_iff.mpr ⟨unread c rfl alone, unmarked⟩
  · exact read?_of_inert (taken token rfl (inert_of_read? reads))
  · rfl
  · rfl
  · rfl

end StructureToken

namespace Stylesheet

/-- Whether each of the pieces stays what it is, whatever is written behind the last one. -/
def isShut : List StructurePiece → Bool
  | [] => true
  | .char c :: pieces => Inert.cannotOpen (c :: spellingOf pieces) && isShut pieces
  | .token (.inert token) :: pieces =>
      (token.endsItself || !(spellingOf pieces).isEmpty) && isShut pieces
  | .token _ :: pieces => isShut pieces

theorem isClosed_cons {piece : StructurePiece} {pieces : List StructurePiece}
    (reads : ∀ rest, StructureToken.scan.ReadsBefore (spellingOf pieces ++ rest) piece)
    (closed : IsClosed pieces) : IsClosed (piece :: pieces) := by
  intro rest
  have spelled : spellingOf (piece :: pieces) ++ rest =
      piece.render spelling ++ (spellingOf pieces ++ rest) := List.append_assoc _ _ _
  rw [spelled, structureOf, (reads rest).pieces_eq]
  exact congrArg _ (closed rest)

/-- The pieces of a text are closed if each of them stays what it is, whatever is written behind
the text. -/
theorem isClosed_of_each {text : Text}
    (unread : ∀ front c back, structureOf text = front ++ .char c :: back →
      ∀ rest, Inert.read? (c :: spellingOf back ++ rest) = none)
    (complete : ∀ front token back, structureOf text = front ++ .token (.inert token) :: back →
      token.endsItself = true ∨ spellingOf back ≠ []) : IsClosed (structureOf text) := by
  suffices along : ∀ pieces ahead, structureOf text = ahead ++ pieces → IsClosed pieces from
    along _ [] rfl
  intro pieces
  induction pieces with
  | nil =>
      intro _ _
      exact isClosed_nil
  | cons piece pieces ih =>
      intro ahead split
      refine isClosed_cons (fun rest => ?_) (ih (ahead ++ [piece]) (by simpa using split))
      refine StructureToken.readsBefore_transfer (Recognizer.readsBefore_of_split split) ?_ ?_
      · rintro c rfl -
        exact unread ahead c pieces split rest
      · rintro token rfl found
        rw [← List.append_assoc]
        exact Inert.read?_append found (complete ahead token pieces split) rest

theorem isShut_of_append {front back : List StructurePiece} (shut : isShut (front ++ back) = true) :
    isShut back = true := by
  induction front with
  | nil => exact shut
  | cons piece front ih =>
      rcases piece with c | (token | - | - | -)
      · simp only [List.cons_append, isShut, Bool.and_eq_true] at shut
        exact ih shut.2
      · simp only [List.cons_append, isShut, Bool.and_eq_true] at shut
        exact ih shut.2
      · exact ih shut
      · exact ih shut
      · exact ih shut

theorem isClosed_of_isShut {text : Text} (shut : isShut (structureOf text) = true) :
    IsClosed (structureOf text) := by
  refine isClosed_of_each ?_ ?_
  · intro front c back split rest
    rw [split] at shut
    have here := isShut_of_append shut
    simp only [isShut, Bool.and_eq_true] at here
    exact Inert.read?_append_eq_none here.1 rest
  · intro front token back split
    rw [split] at shut
    have here := isShut_of_append shut
    simp only [isShut, Bool.and_eq_true, Bool.or_eq_true, Bool.not_eq_true',
      List.isEmpty_eq_false_iff] at here
    exact here.1

/-- Whether each of the pieces of a text stays what it is, whatever is written behind what is
known to follow. -/
def isShutBefore (sequel : Sequel) (text : Text) : Bool :=
  isShut (structureOf text) ||
    structureOf (text ++ sequel.beginning) == structureOf text ++ structureOf sequel.beginning &&
      (sequel.isWhole || isShut (structureOf (text ++ sequel.beginning)))

theorem isClosedBefore_of_isShutBefore {sequel : Sequel} {text : Text}
    (shut : isShutBefore sequel text = true) : IsClosedBefore sequel (structureOf text) := by
  simp only [isShutBefore, Bool.or_eq_true, Bool.and_eq_true, beq_iff_eq] at shut
  rcases shut with alone | ⟨joined, whole | further⟩
  · exact (isClosed_of_isShut alone).before sequel
  · rintro rest ⟨more, rfl, ended⟩
    rw [ended whole, List.append_nil, spellingOf_structureOf, joined]
  · refine isClosedBefore_of_append ?_
    rw [← joined]
    exact isClosed_of_isShut further

end Stylesheet

end Inlay

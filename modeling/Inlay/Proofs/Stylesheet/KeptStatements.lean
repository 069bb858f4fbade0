import Inlay.Proofs.Stylesheet.Settled
import Inlay.Proofs.Stylesheet.TokenSpelling

/-!
# The structure of what an import for reference keeps

A statement that is cut out of a text has the pieces that it has there (`structureOf_slice`). Those
that are kept are written without their comments. The structure of what is written is that of the
statements, unless comments are looked for inside an address, or what is left around a comment
begins a token that was none.
-/

set_option autoImplicit false

namespace Inlay.Stylesheet

variable {text : Text} {pieces front back ahead behind : List StructurePiece}
  {piece : StructurePiece}

/-! ## Slices -/

/-- The pieces of a slice of a text are the slice of its pieces. -/
theorem structureOf_slice {middle : List StructurePiece}
    (split : structureOf text = ahead ++ (middle ++ behind)) :
    structureOf (spellingOf middle) = middle := by
  induction middle generalizing ahead with
  | nil => rfl
  | cons piece middle ih =>
      have here : structureOf text = ahead ++ piece :: (middle ++ behind) := split
      have reads := Recognizer.readsBefore_of_split here
      rw [spellingOf_append] at reads
      have alone : StructureToken.scan.ReadsBefore (spellingOf middle) piece := by
        refine StructureToken.readsBefore_transfer reads ?_ ?_
        · intro c _ unread
          exact Inert.read?_eq_none_of_append unread
        · intro token _ found
          have may := Inert.mayPrecede_of_read? found
          refine Inert.read?_spelling found (may.imp id fun ends => ?_)
          cases own : spellingOf middle with
          | nil => exact .inl rfl
          | cons d rest => simpa [own] using ends
      have further : structureOf text = (ahead ++ [piece]) ++ (middle ++ behind) := by
        simpa using split
      exact alone.pieces_eq.trans (congrArg _ (ih further))

/-- A statement of a text whose braces pair up has the pieces that it has there: it ends with its
last one, and its own braces pair up. -/
theorem structureOf_statement {statement : Text}
    (balanced : depthAfter 0 (structureOf text) = some 0) (member : statement ∈ statements text) :
    ∃ ahead own piece behind, structureOf text = ahead ++ ((own ++ [piece]) ++ behind) ∧
      Ends piece ∧ structureOf statement = own ++ [piece] ∧
      depthAfter 0 (own ++ [piece]) = some 0 := by
  have cut : IsCutFrom ([] ++ structureOf text) statement :=
    isCutFrom_of_mem_statementsFrom member rfl (by rw [balanced]; rfl)
  obtain ⟨ahead, own, piece, behind, split, ends, rfl, pairs⟩ := cut
  exact ⟨ahead, own, piece, behind, split, ends, structureOf_slice split, pairs⟩

/-! ## Pieces that were read elsewhere -/

/-- A piece that was read somewhere and is no comment. -/
def IsOwn (piece : StructurePiece) : Prop :=
  isComment piece = false ∧ ∃ rest, StructureToken.scan.ReadsBefore rest piece

/-- No comment, string or address begins at a character. -/
def BeginsNothing (pieces : List StructurePiece) : Prop :=
  ∀ front c back, pieces = front ++ .char c :: back →
    Inert.read? (c :: spellingOf back) = none

theorem isOwn_of_mem (member : piece ∈ structureOf text) (kept : isComment piece = false) :
    IsOwn piece := by
  obtain ⟨front, back, split⟩ := List.append_of_mem member
  exact ⟨kept, _, Recognizer.readsBefore_of_split split⟩

theorem structureOf_eq_iff (own : ∀ piece ∈ pieces, IsOwn piece) :
    structureOf (spellingOf pieces) = pieces ↔ BeginsNothing pieces := by
  constructor
  case mp =>
    rintro read front c back rfl
    exact (StructureToken.read?_cons_eq_none_iff.mp (Recognizer.read?_eq_none_of_char read)).1
  case mpr =>
    intro nothing
    induction pieces with
    | nil => rfl
    | cons piece pieces ih =>
        obtain ⟨kept, elsewhere, reads⟩ := own piece (.head _)
        have here : StructureToken.scan.ReadsBefore (spellingOf pieces) piece := by
          refine StructureToken.readsBefore_transfer reads ?_ ?_
          · rintro c rfl -
            exact nothing [] c pieces rfl
          · rintro token rfl found
            have ended : token.endsItself = true := by
              cases token with
              | comment comment => cases kept
              | string string => rfl
              | address address => rfl
            exact Inert.read?_spelling found (.inl ended)
        have later : structureOf (spellingOf pieces) = pieces := by
          refine ih (fun piece member => own piece (.tail _ member)) ?_
          rintro front c back rfl
          exact nothing (piece :: front) c back rfl
        exact here.pieces_eq.trans (congrArg _ later)

/-! ## What is kept -/

def keptStatements (text : Text) : List Text :=
  (statements text).filter fun statement => isReferable (statementBody statement)

theorem referableBodies_eq (text : Text) :
    referableBodies text = (keptStatements text).map statementBody := List.filter_map

/-- The pieces of the kept statements, one below the other. -/
def contributedPieces (text : Text) : List StructurePiece :=
  [.char '\n'].intercalate ((keptStatements text).map strippedPieces)

theorem intercalate_induction {α : Type} (P : List α → Prop) {separator : List α}
    {parts : List (List α)} (nil : P [])
    (append : ∀ front back, P front → P back → P (front ++ back)) (between : P separator)
    (each : ∀ part ∈ parts, P part) : P (separator.intercalate parts) := by
  induction parts with
  | nil => exact nil
  | cons part parts ih =>
      have first := each part (.head _)
      have others := ih fun part member => each part (.tail _ member)
      cases parts with
      | nil => rwa [List.intercalate_singleton]
      | cons next parts =>
          rw [List.intercalate_cons_cons]
          exact append _ _ (append _ _ first between) others

theorem spellingOf_intercalate (parts : List (List StructurePiece)) :
    spellingOf ([.char '\n'].intercalate parts) = Text.joinWith ['\n'] (parts.map spellingOf) := by
  induction parts with
  | nil => rfl
  | cons part parts ih =>
      cases parts with
      | nil => rw [List.intercalate_singleton]; rfl
      | cons next parts =>
          rw [List.intercalate_cons_cons, spellingOf_append, spellingOf_append, ih]
          rfl

theorem mem_of_mem_strippedPieces {statement : Text}
    (member : piece ∈ strippedPieces statement) :
    piece ∈ structureOf statement ∧ isComment piece = false := by
  obtain ⟨among, kept⟩ := List.mem_filter.mp ((List.dropWhile_sublist _).subset member)
  exact ⟨among, by simpa using kept⟩

theorem isOwn_contributedPieces (text : Text) : ∀ piece ∈ contributedPieces text, IsOwn piece := by
  refine intercalate_induction (∀ piece ∈ ·, IsOwn piece) ?_ ?_ ?_ ?_
  · intro piece member
    cases member
  · intro front back first second piece member
    exact (List.mem_append.mp member).elim (first piece) (second piece)
  · intro piece member
    obtain rfl := List.mem_singleton.mp member
    exact ⟨rfl, [], rfl⟩
  · intro part among piece inPart
    obtain ⟨statement, -, rfl⟩ := List.mem_map.mp among
    obtain ⟨read, kept⟩ := mem_of_mem_strippedPieces inPart
    exact isOwn_of_mem read kept

theorem depthAfter_contributedPieces (balanced : depthAfter 0 (structureOf text) = some 0) :
    depthAfter 0 (contributedPieces text) = some 0 := by
  refine intercalate_induction (depthAfter 0 · = some 0) rfl ?_ rfl ?_
  · intro front back first second
    rw [depthAfter_append, first]
    exact second
  · intro part among
    obtain ⟨statement, kept, rfl⟩ := List.mem_map.mp among
    obtain ⟨-, own, piece, -, -, -, read, pairs⟩ :=
      structureOf_statement balanced (List.mem_filter.mp kept).1
    rw [strippedPieces, depthAfter_dropWhile_blank, depthAfter_withoutComments, read, pairs]

/-! ## Statements that are stripped cleanly -/

/-- A statement whose comments can be cut out: in no address one is looked for, in front of each
one the pieces are closed, and the whole is closed in front of the end of the line. -/
structure StripsCleanly (statement : Text) : Prop where
  addresses : ∀ address, .token (.inert (.address address)) ∈ structureOf statement →
    ∀ rest, withoutComments (address ++ rest) = address ++ withoutComments rest
  comments : ∀ front comment back,
    structureOf statement = front ++ .token (.inert (.comment comment)) :: back → IsClosed front
  ended : IsClosedBefore .lineEnd (structureOf statement)

theorem StripsCleanly.cut {statement : Text} (clean : StripsCleanly statement) :
    withoutComments statement = spellingOf ((structureOf statement).filter (!isComment ·)) := by
  have alone : structureOf statement = [] ++ structureOf statement := rfl
  have cut := withoutComments_eq alone clean.addresses
  rwa [spellingOf_structureOf] at cut

theorem StripsCleanly.isClosedBefore {statement : Text} (clean : StripsCleanly statement) :
    IsClosedBefore .lineEnd (strippedPieces statement) := by
  have closed : IsClosedBefore .lineEnd ([] ++ (structureOf statement).filter (!isComment ·)) :=
    isClosedBefore_withoutComments [] clean.ended clean.comments
  rw [List.nil_append, ← List.takeWhile_append_dropWhile (p := isBlankPiece)
    (l := (structureOf statement).filter (!isComment ·))] at closed
  exact closed.suffix

def isPlainAddress : StructurePiece → Bool
  | .token (.inert (.address address)) =>
      address.all fun c => c != '/' && c != '"' && c != '\''
  | _ => true

/-- Whether the addresses are plain, the pieces in front of each comment are shut, and the whole is
shut in front of the end of the line. -/
def stripsPlainly (statement : Text) : Bool :=
  let pieces := structureOf statement
  pieces.all isPlainAddress &&
    (List.range pieces.length).all (fun place =>
      !(pieces[place]?.any isComment) || isShut (pieces.take place)) &&
    isShutBefore .lineEnd statement

theorem withoutComments_plain {address : Text}
    (plain : ∀ c ∈ address, c ≠ '/' ∧ c ≠ '"' ∧ c ≠ '\'') (rest : Text) :
    withoutComments (address ++ rest) = address ++ withoutComments rest := by
  induction address with
  | nil => rfl
  | cons c address ih =>
      obtain ⟨slash, double, single⟩ := plain c (.head _)
      have unread : Inert.commentScan.read? (c :: (address ++ rest)) = none := by
        have noLine : Inert.lineComment? (c :: (address ++ rest)) = none := by
          simp [Inert.lineComment?, Text.after?, Text.ofString, Ne.symm slash]
        have noBlock : Inert.blockComment? (c :: (address ++ rest)) = none := by
          simp [Inert.blockComment?, Text.after?, Text.ofString, Ne.symm slash]
        have noDouble : Inert.quotedBy? '"' (c :: (address ++ rest)) = none := by
          simp [Inert.quotedBy?, Text.after?, Ne.symm double]
        have noSingle : Inert.quotedBy? '\'' (c :: (address ++ rest)) = none := by
          simp [Inert.quotedBy?, Text.after?, Ne.symm single]
        simp [Inert.commentScan, Inert.commentOrString?, Inert.comment?, Inert.string?, noLine,
          noBlock, noDouble, noSingle]
      have later := ih fun c member => plain c (.tail _ member)
      unfold withoutComments Recognizer.replace at later ⊢
      rw [List.cons_append, Recognizer.pieces_cons_of_none unread]
      exact congrArg (c :: ·) later

theorem stripsCleanly_of_stripsPlainly {statement : Text}
    (plainly : stripsPlainly statement = true) : StripsCleanly statement := by
  simp only [stripsPlainly, Bool.and_eq_true, List.all_eq_true, List.mem_range] at plainly
  obtain ⟨⟨plain, comments⟩, shut⟩ := plainly
  refine ⟨fun address member => ?_, fun front comment back split => ?_,
    isClosedBefore_of_isShutBefore shut⟩
  · have marks := List.all_eq_true.mp (plain _ member)
    refine withoutComments_plain fun c among => ?_
    simpa [and_assoc] using marks c among
  · have place : front.length < (structureOf statement).length := by simp [split]
    have here := comments front.length place
    rw [split] at here
    have slice : structureOf statement =
        [] ++ (front ++ .token (.inert (.comment comment)) :: back) := split
    have own := structureOf_slice slice
    have frontShut : isShut (structureOf (spellingOf front)) = true := by
      rw [own]
      simpa [isComment] using here
    exact own ▸ isClosed_of_isShut frontShut

theorem structureOf_intercalate {parts : List (List StructurePiece)}
    (closed : ∀ part ∈ parts, IsClosedBefore .lineEnd part) :
    structureOf (spellingOf ([.char '\n'].intercalate parts)) = [.char '\n'].intercalate parts := by
  induction parts with
  | nil => rfl
  | cons part parts ih =>
      have later := ih fun part member => closed part (.tail _ member)
      have here : ∀ more : Text, structureOf (spellingOf part ++ (.char '\n' :: more)) =
          part ++ structureOf (.char '\n' :: more) :=
        fun more => closed part (.head _) _ ⟨more, rfl, fun ends => nomatch ends⟩
      cases parts with
      | nil =>
          have whole : structureOf _ = [] ++ (part ++ _) := here []
          rw [List.intercalate_singleton]
          exact structureOf_slice whole
      | cons next parts =>
          have feed : ∀ more,
              structureOf (.char '\n' :: more) = .char '\n' :: structureOf more := by
            intro more
            have blank : isBlank '\n' = true := by decide
            exact Recognizer.pieces_cons_of_none (read?_of_isBlank blank more)
          rw [List.intercalate_cons_cons, List.append_assoc, spellingOf_append]
          exact (here _).trans (congrArg (part ++ ·) ((feed _).trans (congrArg _ later)))

/-- The statements that an import for reference keeps of a text whose braces pair up have the pieces
that they have there. They are written with this structure, without their comments and one below
the other, exactly if what is cut out is what is read as a comment and nothing begins at a character
of what is left. This is so where each kept statement is stripped cleanly. The braces of what is
written pair up then. -/
theorem referenceOnly_keeps_structure {text : Text} (balanced : checkBalanced text = .ok ()) :
    (∀ statement ∈ keptStatements text,
      ∃ ahead behind, structureOf text = ahead ++ (structureOf statement ++ behind)) ∧
    (checkBalanced (referenceOnly text) = .ok () ∧
        structureOf (referenceOnly text) = contributedPieces text ↔
      referenceOnly text = spellingOf (contributedPieces text) ∧
        BeginsNothing (contributedPieces text)) ∧
    ((∀ statement ∈ keptStatements text, StripsCleanly statement) →
      checkBalanced (referenceOnly text) = .ok () ∧
        structureOf (referenceOnly text) = contributedPieces text) := by
  have pairs := depthAfter_contributedPieces (checkBalanced_iff.mp balanced)
  have paired : structureOf (referenceOnly text) = contributedPieces text →
      checkBalanced (referenceOnly text) = .ok () := by
    intro read
    rwa [checkBalanced_iff, read]
  have own := isOwn_contributedPieces text
  refine ⟨fun statement kept => ?_, ⟨?_, ?_⟩, fun clean => ?_⟩
  · obtain ⟨ahead, own, piece, behind, split, -, read, -⟩ :=
      structureOf_statement (checkBalanced_iff.mp balanced) (List.mem_filter.mp kept).1
    exact ⟨ahead, behind, read ▸ split⟩
  · rintro ⟨-, read⟩
    have written : referenceOnly text = spellingOf (contributedPieces text) := by
      rw [← read, spellingOf_structureOf]
    rw [written] at read
    exact ⟨written, (structureOf_eq_iff own).mp read⟩
  · rintro ⟨written, nothing⟩
    have read : structureOf (referenceOnly text) = contributedPieces text := by
      rw [written]
      exact (structureOf_eq_iff own).mpr nothing
    exact ⟨paired read, read⟩
  · have written : referenceOnly text = spellingOf (contributedPieces text) := by
      have bodies : ∀ statement ∈ keptStatements text,
          statementBody statement = spellingOf (strippedPieces statement) := by
        intro statement kept
        obtain ⟨-, own, piece, -, -, ends, read, -⟩ :=
          structureOf_statement (checkBalanced_iff.mp balanced) (List.mem_filter.mp kept).1
        exact statementBody_eq read ends (clean statement kept).cut
      rw [referenceOnly, referableBodies_eq, contributedPieces, spellingOf_intercalate,
        List.map_map]
      exact congrArg _ (List.map_congr_left bodies)
    have read : structureOf (referenceOnly text) = contributedPieces text := by
      rw [written]
      refine structureOf_intercalate fun part among => ?_
      obtain ⟨statement, kept, rfl⟩ := List.mem_map.mp among
      exact (clean statement kept).isClosedBefore
    exact ⟨paired read, read⟩

/-- A variable, a rule and a mixin with an address and a comment in it. -/
def commentedMixin : Text :=
  "@w: 3px; .big \x7b \x7d .pad(@p) \x7b background: url(a.png); /* \x7b */ \x7d // x"

theorem referenceOnly_keeps_structure_of_commentedMixin :
    checkBalanced commentedMixin = .ok () ∧
      (∀ statement ∈ keptStatements commentedMixin, StripsCleanly statement) ∧
      checkBalanced (referenceOnly commentedMixin) = .ok () ∧
      structureOf (referenceOnly commentedMixin) = contributedPieces commentedMixin := by
  have balanced : checkBalanced commentedMixin = .ok () := by decide +kernel
  have plainly : ∀ statement ∈ keptStatements commentedMixin, stripsPlainly statement = true := by
    decide +kernel
  have clean : ∀ statement ∈ keptStatements commentedMixin, StripsCleanly statement :=
    fun statement kept => stripsCleanly_of_stripsPlainly (plainly statement kept)
  exact ⟨balanced, clean, (referenceOnly_keeps_structure balanced).2.2 clean⟩

/-- In the address of a mixin a comment is looked for, and the mixin's brace is lost with it. -/
theorem comment_in_address_loses_brace :
    ¬∀ text, checkBalanced text = .ok () → checkBalanced (referenceOnly text) = .ok () := by
  intro claimed
  have kept := claimed ".m(@p) \x7b background: url(http://x/a.png); \x7d" (by decide +kernel)
  have lost : checkBalanced (referenceOnly ".m(@p) \x7b background: url(http://x/a.png); \x7d") ≠
      .ok () := by decide +kernel
  exact lost kept

end Inlay.Stylesheet

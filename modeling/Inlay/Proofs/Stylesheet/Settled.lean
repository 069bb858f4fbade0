import Inlay.Proofs.Stylesheet.Closed
import Inlay.Stylesheet.ReferenceOnly

/-!
# Statements that can be taken out of their text

An import for reference takes statements out of a text, leaves their comments away, and writes
them one below the other. In a text that is settled (`IsSettled`) nothing that stands elsewhere
decides how a statement is read, so that what is taken out of it stands by itself (`Stands`).
-/

set_option autoImplicit false

namespace Inlay.Stylesheet

variable {text rest : Text} {pieces front back : List StructurePiece} {piece : StructurePiece}

/-- A piece that may end a statement. -/
def Ends : StructurePiece → Prop
  | .token .closing => True
  | .token .semicolon => True
  | _ => False

/-- Behind every end of a statement, and in front of every comment, the pieces are closed; and no
address holds what looks like a comment. -/
structure IsSettled (pieces : List StructurePiece) : Prop where
  ends : ∀ front piece back, pieces = front ++ piece :: back → Ends piece →
    IsClosed (front ++ [piece])
  comments : ∀ front comment back,
    pieces = front ++ .token (.inert (.comment comment)) :: back → IsClosed front
  addresses : ∀ address, .token (.inert (.address address)) ∈ pieces →
    ∀ rest, withoutComments (address ++ rest) = address ++ withoutComments rest

/-- Pieces that can be put anywhere: they are closed, their braces pair up, and if they are to be
taken for reference they are settled. -/
structure Stands (referred : Bool) (pieces : List StructurePiece) : Prop where
  closed : IsClosed pieces
  balanced : depthAfter 0 pieces = some 0
  settled : referred = true → IsSettled pieces

theorem split_of_append {behind : List StructurePiece}
    (split : front ++ back = pieces ++ piece :: behind) :
    (∃ rest, front = pieces ++ piece :: rest ∧ behind = rest ++ back) ∨
      ∃ more, pieces = front ++ more ∧ back = more ++ piece :: behind := by
  rcases List.append_eq_append_iff.mp split with ⟨more, whole, later⟩ | ⟨rest, whole, later⟩
  · exact .inr ⟨more, whole, later⟩
  · cases rest with
    | nil => exact .inr ⟨[], by simpa using whole.symm, by simpa using later.symm⟩
    | cons first rest =>
        obtain ⟨rfl, rfl⟩ := List.cons.inj later
        exact .inl ⟨rest, whole, rfl⟩

namespace IsSettled

theorem append (closed : IsClosed front) (first : IsSettled front) (second : IsSettled back) :
    IsSettled (front ++ back) := by
  constructor
  case ends =>
    intro before piece behind split ends
    rcases split_of_append split with ⟨rest, whole, -⟩ | ⟨more, rfl, later⟩
    · exact first.ends before piece rest whole ends
    · rw [List.append_assoc]
      exact closed.append (second.ends more piece behind later ends)
  case comments =>
    intro before comment behind split
    rcases split_of_append split with ⟨rest, whole, -⟩ | ⟨more, rfl, later⟩
    · exact first.comments before comment rest whole
    · exact closed.append (second.comments more comment behind later)
  case addresses =>
    intro address member
    rcases List.mem_append.mp member with here | there
    · exact first.addresses address here
    · exact second.addresses address there

theorem before (settled : IsSettled (front ++ back)) : IsSettled front := by
  constructor
  case ends =>
    rintro before piece behind rfl ends
    exact settled.ends before piece (behind ++ back) (by simp) ends
  case comments =>
    rintro before comment behind rfl
    exact settled.comments before comment (behind ++ back) (by simp)
  case addresses =>
    intro address member
    exact settled.addresses address (List.mem_append_left _ member)

theorem behind (settled : IsSettled (front ++ back)) : IsSettled back := by
  constructor
  case ends =>
    rintro before piece behind rfl ends
    have closed := settled.ends (front ++ before) piece behind (by simp) ends
    rw [List.append_assoc] at closed
    exact closed.suffix
  case comments =>
    rintro before comment behind rfl
    exact (settled.comments (front ++ before) comment behind (by simp)).suffix
  case addresses =>
    intro address member
    exact settled.addresses address (List.mem_append_right _ member)

end IsSettled

theorem Stands.append {referred : Bool} (first : Stands referred front)
    (second : Stands referred back) : Stands referred (front ++ back) where
  closed := first.closed.append second.closed
  balanced := by
    rw [depthAfter_append, first.balanced]
    exact second.balanced
  settled asked := .append first.closed (first.settled asked) (second.settled asked)

theorem Stands.nil (referred : Bool) : Stands referred [] where
  closed := isClosed_nil
  balanced := rfl
  settled _ := by
    constructor
    · intro front piece back split
      cases front <;> cases split
    · intro front comment back split
      cases front <;> cases split
    · intro address member
      cases member

/-! ## Comments -/

def isComment : StructurePiece → Bool
  | .token (.inert (.comment _)) => true
  | _ => false

theorem commentOrString?_of_unread (unread : Inert.read? text = none) :
    Inert.commentOrString? text = none := by
  unfold Inert.read? at unread
  split at unread
  · cases unread
  · assumption

theorem withoutComments_cons {c : CodePoint} (unread : Inert.read? (c :: text) = none) :
    withoutComments (c :: text) = c :: withoutComments text := by
  unfold withoutComments Recognizer.replace
  rw [Recognizer.pieces_cons_of_none (commentOrString?_of_unread unread)]
  rfl

theorem withoutComments_append {token : Inert}
    (reads : Inert.commentOrString? text = some (token, rest)) :
    withoutComments text =
      (if isComment (.token (.inert token)) then [] else spelling token) ++
        withoutComments rest := by
  have scanned : Inert.commentScan.read? text = some (token, rest) := reads
  unfold withoutComments Recognizer.replace
  rw [Recognizer.pieces_of_read? scanned]
  cases token <;> rfl

theorem commentOrString?_of_read? {token : Inert}
    (reads : Inert.read? text = some (token, rest)) :
    Inert.commentOrString? text = some (token, rest) ∨ ∃ address, token = .address address := by
  unfold Inert.read? at reads
  split at reads
  · next found => exact .inl (found.trans reads)
  · simp only [Option.map_eq_some_iff, Prod.exists, Prod.mk.injEq] at reads
    obtain ⟨address, -, -, rfl, -⟩ := reads
    exact .inr ⟨address, rfl⟩

/-- Without its comments a text has the pieces that it had without them, if no address is
touched. -/
theorem withoutComments_eq {ahead : List StructurePiece}
    (split : structureOf text = ahead ++ pieces)
    (addresses : ∀ address, .token (.inert (.address address)) ∈ pieces →
      ∀ rest, withoutComments (address ++ rest) = address ++ withoutComments rest) :
    withoutComments (spellingOf pieces) = spellingOf (pieces.filter (!isComment ·)) := by
  induction pieces generalizing ahead with
  | nil => rfl
  | cons piece pieces ih =>
      have tail : structureOf text = (ahead ++ [piece]) ++ pieces := by simpa using split
      have later := ih tail fun address member => addresses address (.tail _ member)
      rcases piece with c | (token | - | - | -)
      · obtain ⟨unread, -⟩ := StructureToken.read?_cons_eq_none_iff.mp
          (Recognizer.read?_eq_none_of_char split)
        exact (withoutComments_cons unread).trans (congrArg _ later)
      · have reads := StructureToken.inert_of_read? (Recognizer.read?_of_token split)
        rcases commentOrString?_of_read? reads with scanned | ⟨address, rfl⟩
        · refine (withoutComments_append scanned).trans ?_
          rw [later, List.filter_cons]
          cases token <;> rfl
        · exact (addresses address (.head _) _).trans (congrArg _ later)
      · exact (withoutComments_cons rfl).trans (congrArg _ later)
      · exact (withoutComments_cons rfl).trans (congrArg _ later)
      · exact (withoutComments_cons rfl).trans (congrArg _ later)

theorem depthAfter_withoutComments (depth : Nat) :
    depthAfter depth (pieces.filter (!isComment ·)) = depthAfter depth pieces := by
  induction pieces generalizing depth with
  | nil => rfl
  | cons piece pieces ih =>
      rw [List.filter_cons, depthAfter_cons]
      cases commenting : isComment piece with
      | true =>
          have same : nextDepth depth piece = some depth := by
            rcases piece with c | ((comment | string | address) | - | - | -) <;>
              first | rfl | cases commenting
          simpa [same] using ih depth
      | false => simp [depthAfter_cons, ih]

/-- Comments in front of which the pieces are closed can be left away. -/
theorem isClosedBefore_withoutComments {sequel : Sequel} (lead : List StructurePiece)
    (closed : IsClosedBefore sequel (lead ++ pieces))
    (comments : ∀ front comment back,
      pieces = front ++ .token (.inert (.comment comment)) :: back → IsClosed (lead ++ front)) :
    IsClosedBefore sequel (lead ++ pieces.filter (!isComment ·)) := by
  induction pieces generalizing lead with
  | nil => exact closed
  | cons piece pieces ih =>
      cases commenting : isComment piece with
      | false =>
          have longer : IsClosedBefore sequel
              ((lead ++ [piece]) ++ pieces.filter (!isComment ·)) := by
            refine ih (lead ++ [piece]) (by simpa using closed) ?_
            rintro front comment back rfl
            simpa using comments (piece :: front) comment back rfl
          simpa [List.filter_cons, commenting] using longer
      | true =>
          obtain ⟨comment, rfl⟩ : ∃ comment, piece = .token (.inert (.comment comment)) := by
            rcases piece with c | ((comment | string | address) | - | - | -) <;>
              first | exact ⟨_, rfl⟩ | cases commenting
          -- What stands behind the comment is closed by itself, and so is what stands before it.
          have before := comments [] comment pieces rfl
          have whole : lead ++ .token (.inert (.comment comment)) :: pieces =
              (lead ++ [.token (.inert (.comment comment))]) ++ pieces := by simp
          rw [whole] at closed
          have behind : IsClosedBefore sequel ([] ++ pieces.filter (!isComment ·)) := by
            refine ih [] closed.suffix ?_
            rintro front comment back rfl
            exact (comments (_ :: front) comment back rfl).suffix.tail
          rw [List.append_nil] at before
          simpa [List.filter_cons, commenting] using before.append_before behind

theorem isClosed_withoutComments (lead : List StructurePiece) (closed : IsClosed (lead ++ pieces))
    (comments : ∀ front comment back,
      pieces = front ++ .token (.inert (.comment comment)) :: back → IsClosed (lead ++ front)) :
    IsClosed (lead ++ pieces.filter (!isComment ·)) :=
  (isClosedBefore_withoutComments lead (closed.before .anything) comments).isClosed

theorem IsSettled.withoutComments (settled : IsSettled pieces) :
    IsSettled (pieces.filter (!isComment ·)) := by
  constructor
  case ends =>
    intro front piece back split ends
    obtain ⟨before, behind, rfl, rfl, rest⟩ := List.filter_eq_append_iff.mp split
    obtain ⟨skipped, later, rfl, comments, kept, -⟩ := List.filter_eq_cons_iff.mp rest
    have closed : IsClosed ([] ++ (before ++ skipped ++ [piece]).filter (!isComment ·)) := by
      refine isClosed_withoutComments [] ?_ fun ahead comment back whole => ?_
      · exact settled.ends (before ++ skipped) piece later (by simp) ends
      · refine settled.comments ahead comment (back ++ later) ?_
        simpa using congrArg (· ++ later) whole
    have none : skipped.filter (!isComment ·) = [] := List.filter_eq_nil_iff.mpr comments
    simpa [none, kept] using closed
  case comments =>
    intro front comment back split
    have member : .token (.inert (.comment comment)) ∈ pieces.filter (!isComment ·) := by
      rw [split]
      simp
    simp [isComment] at member
  case addresses =>
    intro address member
    exact settled.addresses address (List.mem_filter.mp member).1

/-! ## Blanks at the ends -/

theorem isBlank_false_of_ends (ends : Ends piece) :
    ∃ c, piece.render spelling = [c] ∧ isBlank c = false := by
  rcases piece with c | (inert | - | - | -)
  · cases ends
  · cases ends
  · cases ends
  · exact ⟨_, rfl, by decide⟩
  · exact ⟨_, rfl, by decide⟩

theorem trimEnd_of_ends (ends : Ends piece) :
    Text.trimEnd (spellingOf (pieces ++ [piece])) = spellingOf (pieces ++ [piece]) := by
  obtain ⟨c, written, dark⟩ := isBlank_false_of_ends ends
  have spelled : spellingOf (pieces ++ [piece]) = spellingOf pieces ++ [c] := by
    rw [spellingOf_append]
    simp [spellingOf, written]
  simp [spelled, Text.trimEnd, dark]

theorem read?_of_isBlank {c : CodePoint} (blank : isBlank c = true) (text : Text) :
    StructureToken.read? (c :: text) = none := by
  have apart : c ∉ (['/', '"', '\'', 'u', '\x7b', '\x7d', ';'] : Text) := by
    intro member
    have none : ∀ starter ∈ (['/', '"', '\'', 'u', '\x7b', '\x7d', ';'] : Text),
        isBlank starter = false := by decide
    rw [none c member] at blank
    cases blank
  simp only [List.mem_cons, List.not_mem_nil, or_false, not_or] at apart
  obtain ⟨slash, double, single, letter, opening, closing, semicolon⟩ := apart
  rw [StructureToken.read?_cons_eq_none_iff]
  constructor
  · have cannot : Inert.cannotOpen [c] = true := by
      simp [Inert.cannotOpen, Inert.openings, Text.ofString, List.isPrefixOf, slash, double, single,
        letter, Ne.symm double, Ne.symm single]
    exact Inert.read?_append_eq_none cannot text
  · simp [StructureToken.marks, opening, closing, semicolon]

def isBlankPiece : StructurePiece → Bool
  | .char c => isBlank c
  | .token _ => false

/-- The pieces of a statement without its comments and the blanks in front of it. -/
def strippedPieces (statement : Text) : List StructurePiece :=
  ((structureOf statement).filter (!isComment ·)).dropWhile isBlankPiece

theorem depthAfter_dropWhile_blank (depth : Nat) (pieces : List StructurePiece) :
    depthAfter depth (pieces.dropWhile isBlankPiece) = depthAfter depth pieces := by
  induction pieces with
  | nil => rfl
  | cons piece pieces ih =>
      cases blank : isBlankPiece piece with
      | false => rw [List.dropWhile_cons_of_neg (by simp [blank])]
      | true =>
          rw [List.dropWhile_cons_of_pos blank, ih]
          cases piece with
          | char c => rfl
          | token token => cases blank

theorem trimStart_spellingOf
    (dark : ∀ token, .token token ∈ pieces → ∃ c rest, spelling token = c :: rest ∧
      isBlank c = false) :
    Text.trimStart (spellingOf pieces) = spellingOf (pieces.dropWhile isBlankPiece) := by
  induction pieces with
  | nil => rfl
  | cons piece pieces ih =>
      have later := ih fun token member => dark token (.tail _ member)
      cases piece with
      | char c =>
          have spelled : spellingOf (.char c :: pieces) = c :: spellingOf pieces := rfl
          rw [spelled, Text.trimStart, List.dropWhile_cons, List.dropWhile_cons]
          split
          · next blank =>
              rw [if_pos (show isBlankPiece (.char c) = true from blank)]
              exact later
          · next blank =>
              rw [if_neg (show ¬ isBlankPiece (.char c) = true from blank)]
              exact spelled.symm
      | token token =>
          obtain ⟨c, rest, spelled, blank⟩ := dark token (.head _)
          have whole : spellingOf (.token token :: pieces) = c :: (rest ++ spellingOf pieces) := by
            rw [← List.cons_append, ← spelled]
            rfl
          have kept : (.token token :: pieces).dropWhile isBlankPiece =
              .token token :: pieces := rfl
          rw [kept, whole, Text.trimStart, List.dropWhile_cons_of_neg (by simp [blank])]

theorem dark_of_mem {token : StructureToken} (member : .token token ∈ structureOf text) :
    ∃ c rest, spelling token = c :: rest ∧ isBlank c = false := by
  obtain ⟨front, back, split⟩ := List.append_of_mem member
  have reads := Recognizer.read?_of_token split
  cases spelled : spelling token with
  | nil => exact absurd spelled (StructureToken.split_of_read? reads).2
  | cons c rest =>
      refine ⟨c, rest, rfl, ?_⟩
      rw [← Bool.not_eq_true]
      intro blank
      have unread := read?_of_isBlank blank (rest ++ spellingOf back)
      rw [← List.cons_append, ← spelled] at unread
      exact nomatch reads.symm.trans unread

/-- The body of a statement whose comments are cut out as they are read. -/
theorem statementBody_eq {statement : Text} {own : List StructurePiece}
    (read : structureOf statement = own ++ [piece]) (ends : Ends piece)
    (cut : withoutComments statement =
      spellingOf ((structureOf statement).filter (!isComment ·))) :
    statementBody statement = spellingOf (strippedPieces statement) := by
  have last : isComment piece = false ∧ isBlankPiece piece = false := by
    rcases piece with c | (inert | - | - | -) <;> first | exact ⟨rfl, rfl⟩ | cases ends
  have trimmed : Text.trimStart (withoutComments statement) =
      spellingOf (strippedPieces statement) := by
    rw [cut]
    refine trimStart_spellingOf fun token member => ?_
    exact dark_of_mem (List.mem_filter.mp member).1
  have stripped : ∃ front, strippedPieces statement = front ++ [piece] := by
    rw [strippedPieces, read, List.filter_append, List.dropWhile_append]
    split
    · exact ⟨[], by simp [last]⟩
    · exact ⟨(own.filter (!isComment ·)).dropWhile isBlankPiece, by simp [last]⟩
  obtain ⟨front, whole⟩ := stripped
  rw [statementBody, Text.trim, trimmed, whole, trimEnd_of_ends ends]

/-- A statement stands by itself without its comments and without the blanks at its ends. -/
theorem stands_statementBody (referred : Bool) (ends : Ends piece)
    (settled : IsSettled (pieces ++ [piece])) (closed : IsClosed (pieces ++ [piece]))
    (balanced : depthAfter 0 (pieces ++ [piece]) = some 0) :
    Stands referred (structureOf (statementBody (spellingOf (pieces ++ [piece])))) := by
  have read := closed.structureOf_eq
  have cut : withoutComments (spellingOf (pieces ++ [piece])) =
      spellingOf ((structureOf (spellingOf (pieces ++ [piece]))).filter (!isComment ·)) := by
    have alone : structureOf (spellingOf (pieces ++ [piece])) = [] ++ (pieces ++ [piece]) := read
    rw [withoutComments_eq alone settled.addresses, read]
  have keptClosed : IsClosed ([] ++ (pieces ++ [piece]).filter (!isComment ·)) :=
    isClosed_withoutComments [] closed settled.comments
  have keptSettled := settled.withoutComments
  have keptBalanced := (depthAfter_withoutComments 0).trans balanced
  rw [statementBody_eq read ends cut, strippedPieces, read]
  generalize (pieces ++ [piece]).filter (!isComment ·) = kept at keptClosed keptSettled keptBalanced
  rw [← depthAfter_dropWhile_blank] at keptBalanced
  rw [List.nil_append, ← List.takeWhile_append_dropWhile (p := isBlankPiece) (l := kept)]
    at keptClosed
  rw [← List.takeWhile_append_dropWhile (p := isBlankPiece) (l := kept)] at keptSettled
  rw [keptClosed.suffix.structureOf_eq]
  exact ⟨keptClosed.suffix, keptBalanced, fun _ => keptSettled.behind⟩

/-! ## Statements -/

theorem sofar_eq : (piece.render spelling).reverse ++ (spellingOf front).reverse =
    (spellingOf (front ++ [piece])).reverse := by
  rw [spellingOf_append, List.reverse_append]
  simp [spellingOf]

/-- A statement consists of pieces whose braces pair up, the last of which ends it. -/
structure IsCutFrom (pieces : List StructurePiece) (statement : Text) : Prop where
  cut : ∃ ahead own piece behind, pieces = ahead ++ ((own ++ [piece]) ++ behind) ∧
    Ends piece ∧ statement = spellingOf (own ++ [piece]) ∧
    depthAfter 0 (own ++ [piece]) = some 0

theorem IsCutFrom.behind {statement : Text} (cut : IsCutFrom back statement)
    (front : List StructurePiece) : IsCutFrom (front ++ back) statement := by
  obtain ⟨ahead, own, piece, behind, rfl, ends, written, balanced⟩ := cut
  exact ⟨front ++ ahead, own, piece, behind, by simp, ends, written, balanced⟩

/-- The statements that begin with some pieces at a depth are cut from these pieces and those
behind them. -/
theorem isCutFrom_of_mem_statementsFrom {depth : Nat} {statement : Text}
    (member : statement ∈ statementsFrom depth (spellingOf front).reverse pieces)
    (reached : depthAfter 0 front = some depth) (pairs : (depthAfter depth pieces).isSome) :
    IsCutFrom (front ++ pieces) statement := by
  induction pieces generalizing front depth with
  | nil => cases member
  | cons piece pieces ih =>
      have goesOn : ∀ next, nextDepth depth piece = some next →
          statement ∈ statementsFrom next (spellingOf (front ++ [piece])).reverse pieces →
          IsCutFrom (front ++ piece :: pieces) statement := by
        intro next step later
        have reachedNext : depthAfter 0 (front ++ [piece]) = some next := by
          rw [depthAfter_append, reached]
          simp [depthAfter_cons, step]
        have pairsNext : (depthAfter next pieces).isSome := by
          rw [depthAfter_cons, step] at pairs
          exact pairs
        simpa using ih later reachedNext pairsNext
      have endsHere : Ends piece → nextDepth depth piece = some 0 →
          statement ∈ (spellingOf (front ++ [piece])) :: statementsFrom 0 [] pieces →
          IsCutFrom (front ++ piece :: pieces) statement := by
        intro ends step found
        have reachedNext : depthAfter 0 (front ++ [piece]) = some 0 := by
          rw [depthAfter_append, reached]
          simp [depthAfter_cons, step]
        rcases List.mem_cons.mp found with rfl | later
        · exact ⟨[], front, piece, pieces, by simp, ends, rfl, reachedNext⟩
        · have pairsNext : (depthAfter 0 pieces).isSome := by
            rw [depthAfter_cons, step] at pairs
            exact pairs
          have cut : IsCutFrom ([] ++ pieces) statement := ih later rfl pairsNext
          simpa using cut.behind (front ++ [piece])
      rcases piece with c | (inert | - | - | -)
      · exact goesOn depth rfl (by simpa only [statementsFrom, sofar_eq] using member)
      · exact goesOn depth rfl (by simpa only [statementsFrom, sofar_eq] using member)
      · refine goesOn (depth + 1) rfl ?_
        simpa only [statementsFrom, sofar_eq, Int.natCast_add, Int.natCast_one] using member
      · simp only [statementsFrom, sofar_eq, List.reverse_reverse] at member
        split at member
        · next outermost =>
            obtain rfl : depth = 1 := by omega
            exact endsHere trivial rfl member
        · next inside =>
            cases depth with
            | zero => cases pairs
            | succ depth =>
                have less : ((depth + 1 : Nat) : Int) - 1 = (depth : Nat) := by omega
                rw [less] at member
                exact goesOn depth rfl member
      · simp only [statementsFrom, sofar_eq, List.reverse_reverse] at member
        split at member
        · next outside =>
            obtain rfl : depth = 0 := by omega
            exact endsHere trivial rfl member
        · exact goesOn depth rfl member

theorem stands_of_mem_referableBodies (referred : Bool) {body : Text}
    (settled : IsSettled (structureOf text)) (balanced : depthAfter 0 (structureOf text) = some 0)
    (member : body ∈ referableBodies text) : Stands referred (structureOf body) := by
  obtain ⟨statement, among, rfl⟩ := List.mem_map.mp (List.mem_filter.mp member).1
  have cut : IsCutFrom ([] ++ structureOf text) statement :=
    isCutFrom_of_mem_statementsFrom among rfl (by rw [balanced]; rfl)
  obtain ⟨ahead, own, piece, behind, split, ends, rfl, pairs⟩ := cut
  rw [List.nil_append] at split
  rw [split] at settled
  have closed : IsClosed (own ++ [piece]) := by
    have whole := settled.ends (ahead ++ own) piece behind (by simp) ends
    rw [List.append_assoc] at whole
    exact whole.suffix
  exact stands_statementBody referred ends settled.behind.before closed pairs

/-! ## Texts that stand by themselves -/

theorem isSettled_singleton (closed : IsClosed [piece])
    (bare : ∀ token, piece ≠ .token (.inert token)) : IsSettled [piece] := by
  have alone : ∀ {front back : List StructurePiece} {other : StructurePiece},
      [piece] = front ++ other :: back → front = [] ∧ other = piece := by
    intro front back other split
    cases front with
    | nil =>
        cases split
        exact ⟨rfl, rfl⟩
    | cons first front => simp at split
  constructor
  case ends =>
    intro front other back split _
    obtain ⟨rfl, rfl⟩ := alone split
    exact closed
  case comments =>
    intro front comment back split
    exact absurd (alone split).2.symm (bare _)
  case addresses =>
    intro address member
    exact absurd (List.mem_singleton.mp member).symm (bare _)

theorem isSettled_chars (text : Text) : IsSettled (text.map .char) := by
  constructor
  case ends =>
    intro front piece back split ends
    have member : piece ∈ (text.map .char : List StructurePiece) := by
      rw [split]
      simp
    obtain ⟨c, -, rfl⟩ := List.mem_map.mp member
    cases ends
  case comments =>
    intro front comment back split
    have member : (.token (.inert (.comment comment)) : StructurePiece) ∈ text.map .char := by
      rw [split]
      simp
    simp at member
  case addresses =>
    intro address member
    simp at member

theorem Stands.text_append {referred : Bool} {more : Text}
    (first : Stands referred (structureOf text)) (second : Stands referred (structureOf more)) :
    Stands referred (structureOf (text ++ more)) := by
  rw [first.closed.structureOf_append]
  exact first.append second

theorem stands_feed (referred : Bool) : Stands referred (structureOf ['\n']) := by
  have pieces : structureOf ['\n'] = [.char '\n'] := rfl
  have blank : isBlank '\n' = true := by decide
  have closed : IsClosed [.char '\n'] :=
    isClosed_cons (fun rest => read?_of_isBlank blank rest) isClosed_nil
  rw [pieces]
  exact ⟨closed, rfl, fun _ => isSettled_singleton closed fun _ => by simp⟩

theorem IsSettled.append_char (settled : IsSettled pieces) (c : CodePoint) :
    IsSettled (pieces ++ [.char c]) := by
  constructor
  case ends =>
    intro front piece back split ends
    rcases split_of_append split with ⟨rest, whole, -⟩ | ⟨more, -, later⟩
    · exact settled.ends front piece rest whole ends
    · cases more with
      | nil =>
          cases later
          cases ends
      | cons first more => simp at later
  case comments =>
    intro front comment back split
    rcases split_of_append split with ⟨rest, whole, -⟩ | ⟨more, -, later⟩
    · exact settled.comments front comment rest whole
    · cases more with
      | nil => cases later
      | cons first more => simp at later
  case addresses =>
    intro address member
    exact settled.addresses address (by simpa using member)

/-- Pieces that can be put in front of what is known to follow. -/
structure StandsBefore (sequel : Sequel) (referred : Bool) (pieces : List StructurePiece) :
    Prop where
  closed : IsClosedBefore sequel pieces
  balanced : depthAfter 0 pieces = some 0
  settled : referred = true → IsSettled pieces

theorem Stands.before {referred : Bool} (stands : Stands referred pieces) (sequel : Sequel) :
    StandsBefore sequel referred pieces :=
  ⟨stands.closed.before sequel, stands.balanced, stands.settled⟩

/-- With the end of the line, pieces that can be put in front of it can be put anywhere. -/
theorem StandsBefore.text_feed {referred : Bool} (stands : StandsBefore .lineEnd referred pieces) :
    Stands referred (structureOf (spellingOf pieces ++ (['\n'] : Text))) := by
  have feed := stands_feed referred
  have whole : structureOf (spellingOf pieces ++ (['\n'] : Text)) = pieces ++ [.char '\n'] :=
    stands.closed ['\n'] ⟨[], rfl, fun _ => rfl⟩
  constructor
  case closed =>
    intro rest
    have joined := stands.closed ((['\n'] : Text) ++ rest) ⟨rest, rfl, fun ends => nomatch ends⟩
    rw [spellingOf_structureOf, List.append_assoc, joined, feed.closed.structureOf_append, whole,
      List.append_assoc]
    rfl
  case balanced =>
    rw [whole, depthAfter_append, stands.balanced]
    rfl
  case settled =>
    intro asked
    rw [whole]
    exact (stands.settled asked).append_char '\n'

theorem Stands.braced {referred : Bool} (stands : Stands referred pieces) :
    Stands referred (.token .opening :: (pieces ++ [.token .closing])) := by
  have opening : IsClosed [.token .opening] :=
    isClosed_cons (fun _ => rfl) isClosed_nil
  have closing : IsClosed [.token .closing] :=
    isClosed_cons (fun _ => rfl) isClosed_nil
  constructor
  case closed => exact opening.append (stands.closed.append closing)
  case balanced =>
    calc depthAfter 0 (.token .opening :: (pieces ++ [.token .closing]))
        = depthAfter 1 (pieces ++ [.token .closing]) := by simp [depthAfter_cons, nextDepth]
      _ = depthAfter 1 [.token .closing] := by
        rw [depthAfter_append, depthAfter_of_balanced stands.balanced]
        rfl
      _ = some 0 := rfl
  case settled =>
    intro asked
    have first := isSettled_singleton opening fun _ => by simp
    have last := isSettled_singleton closing fun _ => by simp
    exact first.append opening ((stands.settled asked).append stands.closed last)

theorem Stands.text_braced {referred : Bool} (stands : Stands referred (structureOf text)) :
    Stands referred (structureOf ('\x7b' :: (text ++ (['\x7d'] : Text)))) := by
  have reads : StructureToken.scan.read? ('\x7b' :: (text ++ (['\x7d'] : Text))) =
      some (.opening, text ++ (['\x7d'] : Text)) := rfl
  have behind : structureOf (text ++ (['\x7d'] : Text)) = structureOf text ++ [.token .closing] :=
    stands.closed.structureOf_append ['\x7d']
  have whole : structureOf ('\x7b' :: (text ++ (['\x7d'] : Text))) =
      .token .opening :: structureOf (text ++ (['\x7d'] : Text)) :=
    Recognizer.pieces_of_read? reads
  rw [whole, behind]
  exact stands.braced

theorem stands_joinWith (referred : Bool) {texts : List Text}
    (stands : ∀ text ∈ texts, Stands referred (structureOf text)) :
    Stands referred (structureOf (Text.joinWith ['\n'] texts)) := by
  induction texts with
  | nil => exact .nil referred
  | cons text texts ih =>
      have first := stands text (.head _)
      have others := ih fun other member => stands other (.tail _ member)
      cases texts with
      | nil => exact first
      | cons next texts =>
          exact (first.text_append (stands_feed referred)).text_append others

theorem stands_referenceOnly (referred : Bool) (settled : IsSettled (structureOf text))
    (balanced : depthAfter 0 (structureOf text) = some 0) :
    Stands referred (structureOf (referenceOnly text)) :=
  stands_joinWith referred fun _ member =>
    stands_of_mem_referableBodies referred settled balanced member

end Inlay.Stylesheet

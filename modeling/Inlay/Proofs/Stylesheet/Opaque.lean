import Inlay.Proofs.Inquiry.Parallel
import Inlay.Proofs.Stylesheet.Nesting
import Inlay.Proofs.Stylesheet.TokenSpelling

/-!
# Comments and strings are opaque

Where a scan meets a comment or a string, another one may be put in its place. If that is met
there as well, the rest of the text is read as before: the check of braces comes to the same
verdict, and the expansion of imports asks for the same files and writes the same text around it.
-/

set_option autoImplicit false

namespace Inlay

variable {α : Type} [Spelled α] {recognizer : Recognizer α} {before behind : Text}

/-- A scan of a text reaches the end of `before` between two pieces, and reads the token there. -/
def Recognizer.MeetsBehind (recognizer : Recognizer α) (before : Text) (token : α)
    (text : Text) : Prop :=
  ∃ front back, recognizer.pieces text = front ++ .token token :: back ∧ spellingOf front = before

theorem Recognizer.MeetsBehind.breaks {token : α}
    (meets : recognizer.MeetsBehind before token (before ++ (spelling token ++ behind))) :
    ∃ front, spellingOf front = before ∧
      recognizer.pieces (before ++ (spelling token ++ behind)) =
        front ++ .token token :: recognizer.pieces behind ∧
      recognizer.BreaksBehind front (spelling token ++ behind) := by
  obtain ⟨front, back, split, place⟩ := meets
  obtain ⟨whole, breaks⟩ := Recognizer.breaksBehind_of_split split
  rw [place] at whole
  have rest : spelling token ++ behind = spelling token ++ spellingOf back :=
    List.append_cancel_left whole
  have own : recognizer.pieces behind = back := by
    rw [List.append_cancel_left rest]
    have later : recognizer.pieces (before ++ (spelling token ++ behind)) =
        (front ++ [.token token]) ++ back := by rw [split, List.append_assoc]; rfl
    exact Recognizer.pieces_spellingOf later
  refine ⟨front, place, by rw [split, own], ?_⟩
  rw [rest]
  exact breaks

/-- Two texts that differ in a token have the other pieces in common. -/
theorem Recognizer.pieces_of_meetsBehind {first second : α}
    (forth : recognizer.ReadsAlike (spelling first ++ behind) (spelling second ++ behind))
    (back : recognizer.ReadsAlike (spelling second ++ behind) (spelling first ++ behind))
    (left : recognizer.MeetsBehind before first (before ++ (spelling first ++ behind)))
    (right : recognizer.MeetsBehind before second (before ++ (spelling second ++ behind))) :
    ∃ front rest, recognizer.pieces (before ++ (spelling first ++ behind)) =
        front ++ .token first :: rest ∧
      recognizer.pieces (before ++ (spelling second ++ behind)) =
        front ++ .token second :: rest := by
  obtain ⟨front, place, split, breaks⟩ := left.breaks
  obtain ⟨ahead, otherPlace, otherSplit, otherBreaks⟩ := right.breaks
  have same : front = ahead :=
    Recognizer.eq_of_breaksBehind forth back breaks otherBreaks (place.trans otherPlace.symm)
  exact ⟨front, recognizer.pieces behind, split, same ▸ otherSplit⟩

namespace Stylesheet

/-! ## The verdict on the braces -/

/-- How the braces of some pieces come out. A brace that closes nothing is told by the number of
pieces in front of it. -/
inductive BraceVerdict where
  | paired
  | unclosed (count : Nat)
  | unexpected (place : Nat)
deriving Repr, DecidableEq

def verdictFrom (depth place : Nat) : List StructurePiece → BraceVerdict
  | [] => if depth = 0 then .paired else .unclosed depth
  | piece :: pieces =>
      match nextDepth depth piece with
      | some depth => verdictFrom depth (place + 1) pieces
      | none => .unexpected place

def verdict (text : Text) : BraceVerdict := verdictFrom 0 0 (structureOf text)

/-- What the check of braces says of pieces that have this verdict. -/
def BraceVerdict.outcome (pieces : List StructurePiece) : BraceVerdict → Except CompileCause Unit
  | .paired => .ok ()
  | .unclosed count => .error (.unclosedBraces count)
  | .unexpected place =>
      .error (.unexpectedBrace (1 + lineFeeds (spellingOf (pieces.take place))))

theorem lineFeeds_append (first second : Text) :
    lineFeeds (first ++ second) = lineFeeds first + lineFeeds second := List.count_append

theorem balanceFrom_eq_outcome (depth : Nat) (front pieces : List StructurePiece) :
    balanceFrom depth (1 + lineFeeds (spellingOf front)) pieces =
      (verdictFrom depth front.length pieces).outcome (front ++ pieces) := by
  induction pieces generalizing depth front with
  | nil =>
      unfold balanceFrom verdictFrom
      split <;> rfl
  | cons piece pieces ih =>
      have further : 1 + lineFeeds (spellingOf front) + lineFeeds (piece.render spelling) =
          1 + lineFeeds (spellingOf (front ++ [piece])) := by
        rw [spellingOf_append, lineFeeds_append, Nat.add_assoc]
        simp [spellingOf]
      have later : ∀ depth, balanceFrom depth
          (1 + lineFeeds (spellingOf front) + lineFeeds (piece.render spelling)) pieces =
          (verdictFrom depth (front.length + 1) pieces).outcome (front ++ piece :: pieces) := by
        intro depth
        rw [further, ih]
        simp
      rcases piece with c | (inert | - | - | -)
      · exact later depth
      · exact later depth
      · exact later (depth + 1)
      · cases depth with
        | zero => simp [balanceFrom, verdictFrom, nextDepth, BraceVerdict.outcome]
        | succ depth => exact later depth
      · exact later depth

/-- The check of braces says of a text what its verdict says of its pieces. -/
theorem checkBalanced_eq_outcome (text : Text) :
    checkBalanced text = (verdict text).outcome (structureOf text) :=
  balanceFrom_eq_outcome 0 [] (structureOf text)

theorem verdictFrom_inert (first second : Inert) (front back : List StructurePiece)
    (depth place : Nat) :
    verdictFrom depth place (front ++ .token (.inert first) :: back) =
      verdictFrom depth place (front ++ .token (.inert second) :: back) := by
  induction front generalizing depth place with
  | nil => rfl
  | cons piece front ih =>
      simp only [List.cons_append, verdictFrom]
      cases nextDepth depth piece with
      | none => rfl
      | some next => exact ih next (place + 1)

/-! ## The expansion of imports -/

/-- Two expansions that differ in one stretch of their text. -/
def DiffersIn (first second : Text) (expansion other : Expansion) : Prop :=
  ∃ before behind progress, expansion = (before ++ (first ++ behind), progress) ∧
    other = (before ++ (second ++ behind), progress)

theorem parallel_expandTokens (context : StyleContext) (visit : Visit) (placement : Placement)
    (file : Text) (first second : Inert) (front back : List SheetToken) (progress : Progress) :
    Inquiry.Parallel
      (fun images others => ∃ ahead rest progress, ahead.length = front.length ∧
        images = (ahead ++ spelling first :: rest, progress) ∧
        others = (ahead ++ spelling second :: rest, progress))
      (expandTokens context visit placement file (front ++ .inert first :: back) progress)
      (expandTokens context visit placement file (front ++ .inert second :: back) progress) := by
  induction front generalizing progress with
  | nil =>
      refine .bind_same (expandTokens context visit placement file back progress) ?_
      rintro ⟨images, progress⟩
      exact .done ⟨[], images, progress, rfl, rfl, rfl⟩
  | cons token front ih =>
      cases token with
      | inert token =>
          refine (ih progress).bind ?_
          rintro _ _ ⟨ahead, rest, progress, length, rfl, rfl⟩
          exact .done ⟨spelling token :: ahead, rest, progress, by simp [length], rfl, rfl⟩
      | importing statement =>
          refine .bind_same
            (expandStatement context visit placement file statement progress) ?_
          rintro ⟨image, progress⟩
          refine (ih progress).bind ?_
          rintro _ _ ⟨ahead, rest, progress, length, rfl, rfl⟩
          exact .done ⟨image :: ahead, rest, progress, by simp [length], rfl, rfl⟩

theorem fill_append {β : Type} {front back : List (Piece β)} {ahead rest : List Text}
    (length : ahead.length = (tokensOf front).length) :
    fill (front ++ back) (ahead ++ rest) = fill front ahead ++ fill back rest := by
  induction front generalizing ahead with
  | nil =>
      rw [List.eq_nil_of_length_eq_zero length]
      rfl
  | cons piece front ih =>
      cases piece with
      | char c => exact congrArg (c :: ·) (ih length)
      | token token =>
          cases ahead with
          | nil => cases length
          | cons image ahead =>
              have later := ih (Nat.succ.inj length)
              simp [fill, later]

theorem parallel_expandText (context : StyleContext) (visit : Visit) (placement : Placement)
    (file : Text) {text other : Text} {first second : Inert}
    {front back : List (Piece SheetToken)} (progress : Progress)
    (split : SheetToken.scan.pieces text = front ++ .token (.inert first) :: back)
    (otherSplit : SheetToken.scan.pieces other = front ++ .token (.inert second) :: back) :
    Inquiry.Parallel (DiffersIn (spelling first) (spelling second))
      (expandText context visit placement file text progress)
      (expandText context visit placement file other progress) := by
  have tokens : ∀ inert : Inert, tokensOf (front ++ .token (.inert inert) :: back) =
      tokensOf front ++ .inert inert :: tokensOf back := by
    intro inert
    simp [tokensOf]
  unfold expandText
  dsimp only
  rw [split, otherSplit, tokens, tokens]
  refine (parallel_expandTokens context visit placement file first second _ _ progress).bind ?_
  rintro _ _ ⟨ahead, rest, progress, length, rfl, rfl⟩
  refine .done ⟨fill front ahead, fill back rest, progress, ?_, ?_⟩
  · exact congrArg (·, progress) (fill_append length)
  · exact congrArg (·, progress) (fill_append length)

theorem parallel_expand (context : StyleContext) (placement : Placement) (file : Text)
    {text other : Text} {first second : Inert} {front back : List (Piece SheetToken)}
    (split : SheetToken.scan.pieces text = front ++ .token (.inert first) :: back)
    (otherSplit : SheetToken.scan.pieces other = front ++ .token (.inert second) :: back) :
    Inquiry.Parallel (DiffersIn (spelling first) (spelling second))
      (expand context placement file text) (expand context placement file other) := by
  unfold expand
  dsimp only
  split
  · exact .fail _
  · exact parallel_expandText context _ placement file _ split otherSplit

/-! ## Another token in the place of one -/

/-- The text goes on behind the place where a scan meets an inert token. -/
theorem goesOn_of_meets {token : Inert}
    (reads : ∃ rest, Inert.read? (spelling token ++ rest) = some (token, rest)) (behind : Text) :
    (spelling token ++ behind).GoesOn := by
  obtain ⟨rest, reads⟩ := reads
  obtain ⟨c, more, whole, apart⟩ := Inert.goesOn_of_read? (Inert.read?_taken reads)
  exact ⟨c, more ++ behind, by rw [whole, List.cons_append], apart⟩

/-- Where a scan meets a comment, a string or an address, and would meet another one that is put
in its place, the check of braces comes to the same verdict, and the expansion of imports asks for
the same files, reports the same, includes the same, takes the same imports out of the text, and
fails alike or writes the same text around the token. -/
theorem inert_tokens_are_opaque (before behind : Text) (first second : Inert) :
    (StructureToken.scan.MeetsBehind before (.inert first)
        (before ++ (spelling first ++ behind)) →
      StructureToken.scan.MeetsBehind before (.inert second)
        (before ++ (spelling second ++ behind)) →
      let text := before ++ (spelling first ++ behind)
      let other := before ++ (spelling second ++ behind)
      (∃ front back, structureOf text = front ++ .token (.inert first) :: back ∧
        structureOf other = front ++ .token (.inert second) :: back) ∧
      verdict text = verdict other ∧
      checkBalanced text = (verdict text).outcome (structureOf text) ∧
      checkBalanced other = (verdict other).outcome (structureOf other)) ∧
    (SheetToken.scan.MeetsBehind before (.inert first) (before ++ (spelling first ++ behind)) →
      SheetToken.scan.MeetsBehind before (.inert second) (before ++ (spelling second ++ behind)) →
      ∀ (context : StyleContext) (placement : Placement) (file : Text) (files : FileSystem),
        let expansion := expand context placement file (before ++ (spelling first ++ behind))
        let other := expand context placement file (before ++ (spelling second ++ behind))
        expansion.footprint files = other.footprint files ∧
          expansion.reports files = other.reports files ∧
          Inquiry.EndsAlike (DiffersIn (spelling first) (spelling second))
            (expansion.result files) (other.result files)) := by
  constructor
  case left =>
    intro left right text other
    have reads : ∀ {token : Inert} {text : Text},
        StructureToken.scan.MeetsBehind before (.inert token) text →
        ∃ rest, Inert.read? (spelling token ++ rest) = some (token, rest) := by
      rintro token text ⟨front, back, split, -⟩
      exact ⟨_, StructureToken.inert_of_read? (Recognizer.read?_of_token split)⟩
    have goesOn := goesOn_of_meets (reads left) behind
    have otherGoesOn := goesOn_of_meets (reads right) behind
    obtain ⟨front, back, split, otherSplit⟩ := Recognizer.pieces_of_meetsBehind
      (StructureToken.readsAlike goesOn _) (StructureToken.readsAlike otherGoesOn _) left right
    refine ⟨⟨front, back, split, otherSplit⟩, ?_, checkBalanced_eq_outcome _,
      checkBalanced_eq_outcome _⟩
    have same := verdictFrom_inert first second front back 0 0
    rwa [← split, ← otherSplit] at same
  case right =>
    intro left right context placement file files
    have reads : ∀ {token : Inert} {text : Text},
        SheetToken.scan.MeetsBehind before (.inert token) text →
        ∃ rest, Inert.read? (spelling token ++ rest) = some (token, rest) := by
      rintro token text ⟨front, back, split, -⟩
      exact ⟨_, SheetToken.inert_of_read? (Recognizer.read?_of_token split)⟩
    have goesOn := goesOn_of_meets (reads left) behind
    have otherGoesOn := goesOn_of_meets (reads right) behind
    obtain ⟨front, back, split, otherSplit⟩ := Recognizer.pieces_of_meetsBehind
      (SheetToken.readsAlike goesOn _) (SheetToken.readsAlike otherGoesOn _) left right
    have parallel := parallel_expand context placement file split otherSplit
    exact ⟨parallel.footprint_eq files, parallel.reports_eq files, parallel.endsAlike files⟩

/-- What stands in front of a comment and behind it, with an import of a file. -/
def commentedFront : Text := "@import 'b.less';\n.a \x7b "

def commentedBack : Text := " \x7d @import 'b.less' screen; '/*'"

def importComment : Inert := .comment "/* @import 'gone'; \x7b */"

def braceComment : Inert := .comment "/* \x7d\n \" url( */"

def commentedFiles : FileSystem where
  entries := [(["b.less"], .file (Utf8.encode ".b \x7b \x7d"))]
  workingDirectory := []

theorem comments_are_opaque_of_commentedFront :
    let text := commentedFront ++ (spelling importComment ++ commentedBack)
    let other := commentedFront ++ (spelling braceComment ++ commentedBack)
    StructureToken.scan.MeetsBehind commentedFront (.inert importComment) text ∧
      StructureToken.scan.MeetsBehind commentedFront (.inert braceComment) other ∧
      SheetToken.scan.MeetsBehind commentedFront (.inert importComment) text ∧
      SheetToken.scan.MeetsBehind commentedFront (.inert braceComment) other ∧
      verdict text = verdict other ∧
      Inquiry.EndsAlike (DiffersIn (spelling importComment) (spelling braceComment))
        ((expand plainContext .hoisted "entry" text).result commentedFiles)
        ((expand plainContext .hoisted "entry" other).result commentedFiles) := by
  intro text other
  have first : StructureToken.scan.MeetsBehind commentedFront (.inert importComment) text :=
    ⟨(structureOf text).take 16, (structureOf text).drop 17, by decide +kernel, by decide +kernel⟩
  have second : StructureToken.scan.MeetsBehind commentedFront (.inert braceComment) other :=
    ⟨(structureOf other).take 16, (structureOf other).drop 17, by decide +kernel,
      by decide +kernel⟩
  have third : SheetToken.scan.MeetsBehind commentedFront (.inert importComment) text :=
    ⟨(SheetToken.scan.pieces text).take 7, (SheetToken.scan.pieces text).drop 8,
      by decide +kernel, by decide +kernel⟩
  have fourth : SheetToken.scan.MeetsBehind commentedFront (.inert braceComment) other :=
    ⟨(SheetToken.scan.pieces other).take 7, (SheetToken.scan.pieces other).drop 8,
      by decide +kernel, by decide +kernel⟩
  obtain ⟨braces, imports⟩ :=
    inert_tokens_are_opaque commentedFront commentedBack importComment braceComment
  exact ⟨first, second, third, fourth, (braces first second).2.1,
    (imports third fourth plainContext .hoisted "entry" commentedFiles).2.2⟩

end Stylesheet

end Inlay

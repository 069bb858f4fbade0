import Inlay.Proofs.Stylesheet.Opaque

/-!
# Quoted addresses

An address ends at its first closing parenthesis, even where it is quoted and the parenthesis
stands between the quotes. What is left of it is read like any other text. It does no harm exactly
if it is shut and its braces pair up; without a parenthesis between the quotes this is the case.
-/

set_option autoImplicit false

namespace Inlay

namespace Inert

variable {text rest : Text} {quote : CodePoint}

/-! ## Tokens that are begun and not ended -/

/-- Whether a string goes on at the end of a text, as no quote ended it and no line feed is in its
way. -/
def runsOut (quote : CodePoint) : Text → Bool
  | [] => true
  | c :: text =>
      if c = quote then false
      else if c = '\n' then false
      else if c = '\\' then
        match text with
        | [] => true
        | _ :: text => runsOut quote text
      else runsOut quote text

/-- A comment, a string or an address that a text begins with and does not end. -/
inductive LeftOpen : Text → Prop where
  | comment {body : Text} : throughCommentEnd? body = none → LeftOpen ("/*" ++ body)
  | string {quote : CodePoint} {body : Text} : quote = '"' ∨ quote = '\'' →
      runsOut quote body = true → LeftOpen (quote :: body)
  | address {body : Text} : CodePoint.char ')' ∉ body → LeftOpen ("url(" ++ body)

theorem throughQuote?_append_eq_none (unended : throughQuote? quote text = none)
    (stops : runsOut quote text = false) (more : Text) :
    throughQuote? quote (text ++ more) = none := by
  fun_induction throughQuote? quote text with
  | case1 => cases stops
  | case2 => cases unended
  | case3 text differs =>
      rw [List.cons_append, throughQuote?.eq_def]
      simp [differs]
  | case4 differs feed => simp [runsOut, differs] at stops
  | case5 d text differs feed ih =>
      rw [Option.map_eq_none_iff] at unended
      have later := ih unended (by simpa [runsOut, differs] using stops)
      rw [List.cons_append, List.cons_append, throughQuote?.eq_def]
      simp [differs, later]
  | case6 c text differs feed backslash ih =>
      rw [Option.map_eq_none_iff] at unended
      rw [runsOut.eq_def] at stops
      have later := ih unended (by simpa [differs, feed, backslash] using stops)
      rw [List.cons_append, throughQuote?.eq_def]
      simp [differs, feed, backslash, later]

theorem feed_not_mem_of_not_endsItself {token : Inert} (found : read? text = some (token, rest))
    (goesOn : token.endsItself = false) : CodePoint.char '\n' ∉ spelling token := by
  obtain ⟨taken, rfl, line⟩ := lineComment?_of_not_endsItself found goesOn
  simp only [lineComment?, Option.map_eq_some_iff, Prod.mk.injEq] at line
  obtain ⟨body, -, rfl, -⟩ := line
  intro member
  rcases List.mem_append.mp member with slashes | inside
  · exact absurd slashes (by decide)
  · simpa using List.mem_takeWhile_imp inside

section

variable {line lead : Text} (ended : text = line ++ (['\n'] : Text))
include ended

theorem after?_append_of_feed (feedless : CodePoint.char '\n' ∉ lead)
    (absent : Text.after? lead text = none) (more : Text) :
    Text.after? lead (text ++ more) = none := by
  refine Text.after?_append_eq_none ?_ ?_ more
  · rintro ⟨rest, whole⟩
    rw [Text.after?_eq_some_iff.mpr whole.symm] at absent
    cases absent
  · intro inside
    refine feedless (inside.subset ?_)
    rw [ended]
    simp

theorem quotedBy?_append_eq_none (isQuote : quote = '"' ∨ quote = '\'')
    (unread : quotedBy? quote text = none) (nothingOpen : ¬LeftOpen text) (more : Text) :
    quotedBy? quote (text ++ more) = none := by
  have feedless : CodePoint.char '\n' ∉ ([quote] : Text) := by
    rcases isQuote with rfl | rfl <;> decide
  unfold quotedBy? at unread ⊢
  cases begun : Text.after? [quote] text with
  | none => rw [after?_append_of_feed ended feedless begun]
  | some body =>
      simp only [begun, Option.map_eq_none_iff] at unread
      have stops : runsOut quote body = false := by
        rw [← Bool.not_eq_true]
        intro goesOn
        rw [Text.after?_eq_some_iff.mp begun] at nothingOpen
        exact nothingOpen (.string isQuote goesOn)
      simp [Text.after?_append begun, throughQuote?_append_eq_none unread stops]

/-- Where no token begins at the end of a line and none is left open, none begins with more written
behind the line. -/
theorem read?_append_eq_none_of_not_leftOpen (unread : read? text = none)
    (nothingOpen : ¬LeftOpen text) (more : Text) : read? (text ++ more) = none := by
  obtain ⟨noLine, noBlock, noDouble, noSingle, noAddress⟩ := read?_eq_none_iff.mp unread
  refine read?_eq_none_iff.mpr ⟨?_, ?_, ?_, ?_, ?_⟩
  · rw [lineComment?, Option.map_eq_none_iff] at noLine ⊢
    exact after?_append_of_feed ended (by decide) noLine more
  · unfold blockComment? at noBlock ⊢
    cases begun : Text.after? "/*" text with
    | none => rw [after?_append_of_feed ended (by decide) begun]
    | some body =>
        simp only [begun, Option.map_eq_none_iff] at noBlock
        rw [Text.after?_eq_some_iff.mp begun] at nothingOpen
        exact absurd (.comment noBlock) nothingOpen
  · exact quotedBy?_append_eq_none ended (.inl rfl) noDouble nothingOpen more
  · exact quotedBy?_append_eq_none ended (.inr rfl) noSingle nothingOpen more
  · unfold address? at noAddress ⊢
    cases begun : Text.after? "url(" text with
    | none => rw [after?_append_of_feed ended (by decide) begun]
    | some body =>
        simp only [begun, Option.map_eq_none_iff] at noAddress
        rw [Text.after?_eq_some_iff.mp begun] at nothingOpen
        exact absurd (.address (Text.cut?_eq_none_iff.mp noAddress)) nothingOpen

end

end Inert

namespace Stylesheet

variable {text : Text} {pieces : List StructurePiece}

/-- A text that is empty or ends with its last line, and leaves no comment, string or address
open. -/
structure LeavesNothingOpen (text : Text) : Prop where
  ended : text = [] ∨ ∃ line, text = line ++ (['\n'] : Text)
  nothingOpen : ∀ front c back, structureOf text = front ++ .char c :: back →
    ¬Inert.LeftOpen (c :: spellingOf back)

theorem exists_of_append_eq {line front back : Text} {c : CodePoint}
    (whole : line ++ ([c] : Text) = front ++ back) (nonempty : back ≠ []) :
    ∃ more, back = more ++ ([c] : Text) := by
  have last := congrArg List.getLast? whole
  rw [List.getLast?_append_of_ne_nil _ nonempty, List.getLast?_concat] at last
  exact List.getLast?_eq_some_iff.mp last.symm

theorem LeavesNothingOpen.isClosed (nothingOpen : LeavesNothingOpen text) :
    IsClosed (structureOf text) := by
  rcases nothingOpen.ended with rfl | ⟨line, ended⟩
  · exact isClosed_nil
  refine isClosed_of_each ?_ ?_
  · intro front c back split rest
    obtain ⟨unread, -⟩ := StructureToken.read?_cons_eq_none_iff.mp
      (Recognizer.read?_eq_none_of_char split)
    have whole := (Recognizer.breaksBehind_of_split split).1
    rw [ended] at whole
    obtain ⟨more, ends⟩ := exists_of_append_eq whole (List.cons_ne_nil _ _)
    exact Inert.read?_append_eq_none_of_not_leftOpen ends unread
      (nothingOpen.nothingOpen front c back split) rest
  · intro front token back split
    have reads := StructureToken.inert_of_read? (Recognizer.read?_of_token split)
    cases goesOn : token.endsItself with
    | true => exact .inl rfl
    | false =>
        -- A comment to the end of the line does not reach over the line feed at the end.
        refine .inr fun last => ?_
        have whole := (Recognizer.breaksBehind_of_split split).1
        have spelled : spellingOf (.token (.inert token) :: back) = spelling token := by
          exact (congrArg (spelling token ++ ·) last).trans (List.append_nil _)
        rw [ended, spelled] at whole
        obtain ⟨more, ends⟩ := exists_of_append_eq whole (Inert.split_of_read? reads).2
        refine Inert.feed_not_mem_of_not_endsItself reads goesOn ?_
        rw [ends]
        simp

/-! ## Texts that hide a brace behind them -/

/-- What may end a token that a text has begun. -/
def closers : List Text := ["\n", "*/", "\"", "'"]

/-- A brace behind the text is not counted if something follows that ends what the text has
begun. -/
def HidesBrace (text : Text) : Prop :=
  ∃ closer ∈ closers, ∀ depth,
    depthAfter depth (structureOf (text ++ (.char '\x7b' :: closer))) =
      depthAfter depth (structureOf (text ++ closer))

theorem balance_of_closer {closer : Text} (member : closer ∈ closers) :
    checkBalanced closer = .ok () ∧ checkBalanced ('\x7b' :: closer) ≠ .ok () := by
  have both : ∀ closer ∈ closers,
      checkBalanced closer = .ok () ∧ checkBalanced ('\x7b' :: closer) ≠ .ok () := by decide +kernel
  exact both closer member

theorem throughCommentEnd?_close {body middle : Text}
    (unended : Inert.throughCommentEnd? body = none) (short : middle = [] ∨ middle = ['\x7b']) :
    Inert.throughCommentEnd? (body ++ (middle ++ "*/")) = some (body ++ (middle ++ "*/"), []) := by
  fun_induction Inert.throughCommentEnd? body with
  | case1 => rcases short with rfl | rfl <;> rfl
  | case2 => cases unended
  | case3 c text apart ih =>
      rw [Option.map_eq_none_iff] at unended
      rw [List.cons_append, Inert.throughCommentEnd?, ih unended]
      · rfl
      · intro rest star same
        cases text with
        | nil => rcases short with rfl | rfl <;> cases same
        | cons d text =>
            cases same
            exact apart _ star rfl

theorem throughQuote?_close {quote : CodePoint} {body : Text}
    (plain : ∀ c ∈ body, c ≠ quote ∧ c ≠ '\n' ∧ c ≠ '\\') (rest : Text) :
    Inert.throughQuote? quote (body ++ quote :: rest) = some (body ++ ([quote] : Text), rest) := by
  induction body with
  | nil => simp [Inert.throughQuote?.eq_def]
  | cons c body ih =>
      obtain ⟨differs, feed, backslash⟩ := plain c (.head _)
      have later := ih fun c member => plain c (.tail _ member)
      rw [List.cons_append, Inert.throughQuote?.eq_def]
      simp [differs, feed, backslash, later]

theorem hidesBrace_of_reads (closer : Text) (member : closer ∈ closers)
    (reads : ∀ middle : Text, middle = [] ∨ middle = ['\x7b'] →
      ∃ token rest, Inert.read? (text ++ (middle ++ closer)) = some (token, rest) ∧
        (rest = [] ∨ rest = ['\n'])) : HidesBrace text := by
  -- With a brace or without one, the text and its closer are one token.
  have same : ∀ middle : Text, middle = [] ∨ middle = ['\x7b'] → ∀ depth,
      depthAfter depth (structureOf (text ++ (middle ++ closer))) = some depth := by
    intro middle short depth
    obtain ⟨token, rest, read, left⟩ := reads middle short
    have scanned : StructureToken.scan.read? (text ++ (middle ++ closer)) =
        some (.inert token, rest) := StructureToken.read?_of_inert read
    rw [structureOf, Recognizer.pieces_of_read? scanned]
    rcases left with rfl | rfl <;> rfl
  refine ⟨closer, member, fun depth => ?_⟩
  exact (same ['\x7b'] (.inr rfl) depth).trans (same [] (.inl rfl) depth).symm

theorem read?_of_quotedBy? {quote : CodePoint} {taken rest : Text}
    (isQuote : quote = '"' ∨ quote = '\'')
    (found : Inert.quotedBy? quote text = some (taken, rest)) :
    Inert.read? text = some (.string taken, rest) := by
  obtain ⟨body, rfl⟩ := Inert.exists_of_quotedBy? found
  have noComment : Inert.comment? (quote :: body) = none := by rcases isQuote with rfl | rfl <;> rfl
  have string : Inert.string? (quote :: body) = some (taken, rest) := by
    rcases isQuote with rfl | rfl
    · rw [Inert.string?, found]
    · have noDouble : Inert.quotedBy? '"' (.char '\'' :: body) = none := rfl
      rw [Inert.string?, noDouble]
      exact found
  rw [Inert.read?, Inert.commentOrString?, noComment, string]
  rfl

theorem hidesBrace_of_quote {quote : CodePoint} {inside : Text}
    (isQuote : quote = '"' ∨ quote = '\'') (unread : Inert.quotedBy? quote (quote :: inside) = none)
    (plain : ∀ c ∈ inside, c ≠ '\n' ∧ c ≠ '\\') : HidesBrace (quote :: inside) := by
  have unquoted : quote ∉ inside := by
    intro member
    obtain ⟨front, back, rfl, absent⟩ := List.eq_append_cons_of_mem member
    have closed := throughQuote?_close
      (fun c member => ⟨ne_of_mem_of_not_mem member absent,
        plain c (List.mem_append_left _ member)⟩) back
    simp [Inert.quotedBy?, Text.after?, closed] at unread
  refine hidesBrace_of_reads [quote] ?_ fun middle short => ?_
  · rcases isQuote with rfl | rfl <;> decide
  · have plainly : ∀ c ∈ inside ++ middle, c ≠ quote ∧ c ≠ '\n' ∧ c ≠ '\\' := by
      intro c member
      rcases List.mem_append.mp member with here | brace
      · exact ⟨ne_of_mem_of_not_mem here unquoted, plain c here⟩
      · rcases short with rfl | rfl
        · cases brace
        · obtain rfl := List.mem_singleton.mp brace
          rcases isQuote with rfl | rfl <;> decide
    have closed := throughQuote?_close plainly []
    have found : Inert.quotedBy? quote (quote :: inside ++ (middle ++ [quote])) =
        some (quote :: (inside ++ middle ++ ([quote] : Text)), []) := by
      simp [Inert.quotedBy?, Text.after?, ← List.append_assoc, closed]
    exact ⟨_, [], read?_of_quotedBy? isQuote found, .inl rfl⟩

theorem hidesBrace_of_blockComment {inside : Text}
    (unended : Inert.throughCommentEnd? inside = none) : HidesBrace ("/*" ++ inside) := by
  refine hidesBrace_of_reads "*/" (by decide) fun middle short => ?_
  have closed := throughCommentEnd?_close unended short
  have found : Inert.blockComment? ("/*" ++ (inside ++ (middle ++ "*/"))) =
      some ("/*" ++ (inside ++ (middle ++ "*/")), []) := by
    rw [Inert.blockComment?, Text.after?_eq_some_iff.mpr rfl]
    simp only [closed, Option.map_some]
  have noLine : Inert.lineComment? ("/*" ++ (inside ++ (middle ++ "*/"))) = none := rfl
  refine ⟨.comment ("/*" ++ (inside ++ (middle ++ "*/"))), [], ?_, .inl rfl⟩
  rw [List.append_assoc, Inert.read?, Inert.commentOrString?, Inert.comment?, noLine, found]

/-- A text that ends with a closing parenthesis and begins with no token, though one might begin
with it, has begun a comment or a string. -/
theorem hidesBrace_of_unread {body : Text} (unread : Inert.read? text = none)
    (plain : ∀ c ∈ text, c ≠ '\n' ∧ c ≠ '\\') (ends : text = body ++ ([')'] : Text))
    (opens : Inert.cannotOpen text = false) : HidesBrace text := by
  obtain ⟨noLine, noBlock, noDouble, noSingle, noAddress⟩ := Inert.read?_eq_none_iff.mp unread
  have parenthesis : CodePoint.char ')' ∈ text := by
    rw [ends]
    simp
  have begun : ∃ opening ∈ Inert.openings, opening <+: text := by
    obtain ⟨opening, among, begins⟩ := List.all_eq_false.mp opens
    refine ⟨opening, among, ?_⟩
    have longer : ¬ text <+: opening := by
      have none : ∀ opening ∈ Inert.openings, CodePoint.char ')' ∉ opening := by decide
      exact fun inside => none opening among (inside.subset parenthesis)
    simpa [longer] using begins
  obtain ⟨opening, among, inside, rfl⟩ := begun
  simp only [Inert.openings, List.mem_cons, List.not_mem_nil, or_false] at among
  have within : ∀ c ∈ inside, c ≠ '\n' ∧ c ≠ '\\' :=
    fun c member => plain c (List.mem_append_right _ member)
  rcases among with rfl | rfl | rfl | rfl | rfl
  · rw [Inert.lineComment?, Text.after?_eq_some_iff.mpr rfl] at noLine
    cases noLine
  · rw [Inert.blockComment?, Text.after?_eq_some_iff.mpr rfl] at noBlock
    exact hidesBrace_of_blockComment (Option.map_eq_none_iff.mp noBlock)
  · exact hidesBrace_of_quote (.inl rfl) noDouble within
  · exact hidesBrace_of_quote (.inr rfl) noSingle within
  · rw [Inert.address?, Text.after?_eq_some_iff.mpr rfl, Option.map_eq_none_iff] at noAddress
    rcases List.mem_append.mp parenthesis with here | later
    · exact absurd here (by decide)
    · exact absurd later (Text.cut?_eq_none_iff.mp noAddress)

theorem hidesBrace_of_lineComment {token : Inert} (reads : Inert.read? text = some (token, []))
    (goesOn : token.endsItself = false) : HidesBrace text := by
  have feedless := Inert.feed_not_mem_of_not_endsItself reads goesOn
  obtain ⟨taken, rfl, line⟩ := Inert.lineComment?_of_not_endsItself reads goesOn
  have whole : text = taken := (Inert.split_of_read? reads).1.trans (List.append_nil _)
  simp only [Inert.lineComment?, Option.map_eq_some_iff, Prod.mk.injEq] at line
  obtain ⟨body, begins, -, -⟩ := line
  refine hidesBrace_of_reads "\n" (by decide) fun middle short => ?_
  have inLine : ∀ c ∈ body ++ middle, (c != CodePoint.char '\n') = true := by
    intro c member
    rw [bne_iff_ne]
    rintro rfl
    rcases List.mem_append.mp member with here | brace
    · refine feedless ?_
      have own : spelling (Inert.comment taken) = "//" ++ body :=
        whole.symm.trans (Text.after?_eq_some_iff.mp begins)
      rw [own]
      exact List.mem_append_right _ here
    · rcases short with rfl | rfl <;> simp at brace
  have found : Inert.lineComment? (text ++ (middle ++ "\n")) =
      some ("//" ++ (body ++ middle), ("\n" : Text)) := by
    rw [Inert.lineComment?, Text.after?_append begins, Option.map_some, ← List.append_assoc,
      List.takeWhile_append_of_pos inLine, List.dropWhile_append_of_pos inLine]
    simp [Text.ofString]
  refine ⟨.comment ("//" ++ (body ++ middle)), "\n", ?_, .inr rfl⟩
  rw [Inert.read?, Inert.commentOrString?, Inert.comment?, found]

theorem HidesBrace.behind {piece : StructurePiece}
    (reads : ∀ rest, StructureToken.scan.ReadsBefore (spellingOf pieces ++ rest) piece)
    (hides : HidesBrace (spellingOf pieces)) : HidesBrace (spellingOf (piece :: pieces)) := by
  obtain ⟨closer, member, same⟩ := hides
  refine ⟨closer, member, fun depth => ?_⟩
  have whole : ∀ rest, structureOf (spellingOf (piece :: pieces) ++ rest) =
      piece :: structureOf (spellingOf pieces ++ rest) := by
    intro rest
    rw [← (reads rest).pieces_eq, ← List.append_assoc]
    rfl
  rw [whole, whole, depthAfter_cons, depthAfter_cons]
  simp only [same]

/-- A text in one line that ends with a closing parenthesis and has no backslash is shut, or hides a
brace behind it. -/
theorem isShut_or_hidesBrace (own : structureOf (spellingOf pieces) = pieces)
    (plain : ∀ c ∈ spellingOf pieces, c ≠ '\n' ∧ c ≠ '\\')
    (ends : ∀ c, (spellingOf pieces).getLast? = some c → c = ')') :
    isShut pieces = true ∨ HidesBrace (spellingOf pieces) := by
  induction pieces with
  | nil => exact .inl rfl
  | cons piece pieces ih =>
      have spelled : spellingOf (piece :: pieces) =
          piece.render spelling ++ spellingOf pieces := rfl
      have split : structureOf (spellingOf (piece :: pieces)) = [] ++ piece :: pieces := own
      have reads := Recognizer.readsBefore_of_split split
      have later : isShut pieces = true ∨ HidesBrace (spellingOf pieces) := by
        refine ih ?_ ?_ ?_
        · have behind : structureOf (spellingOf (piece :: pieces)) = [piece] ++ pieces := own
          exact Recognizer.pieces_spellingOf behind
        · exact fun c member => plain c (spelled ▸ List.mem_append_right _ member)
        · intro c last
          refine ends c ?_
          rw [spelled, List.getLast?_append, last]
          rfl
      rcases piece with c | (token | - | - | -)
      · obtain ⟨unread, unmarked⟩ := StructureToken.read?_cons_eq_none_iff.mp reads
        cases opens : Inert.cannotOpen (c :: spellingOf pieces) with
        | false =>
            have last := List.getLast?_eq_some_getLast (List.cons_ne_nil c (spellingOf pieces))
            rw [ends _ last] at last
            obtain ⟨body, whole⟩ := List.getLast?_eq_some_iff.mp last
            exact .inr (hidesBrace_of_unread unread plain whole opens)
        | true =>
            refine later.imp (fun shut => ?_) (HidesBrace.behind fun rest => ?_)
            · simp [isShut, opens, shut]
            · exact StructureToken.read?_cons_eq_none_iff.mpr
                ⟨Inert.read?_append_eq_none opens rest, unmarked⟩
      · have found := StructureToken.inert_of_read? reads
        by_cases complete : token.endsItself = true ∨ spellingOf pieces ≠ []
        · refine later.imp (fun shut => ?_) (HidesBrace.behind fun rest => ?_)
          · simpa [isShut, shut] using complete
          · have further := Inert.read?_append found complete rest
            rw [List.append_assoc] at further
            exact StructureToken.read?_of_inert further
        · simp only [not_or, Bool.not_eq_true, not_not] at complete
          obtain ⟨goesOn, last⟩ := complete
          have whole : spellingOf (.token (.inert token) :: pieces) = spelling token := by
            rw [spelled, last]
            exact List.append_nil _
          rw [last, List.append_nil] at found
          rw [whole]
          exact .inr (hidesBrace_of_lineComment found goesOn)
      · exact later.imp id (HidesBrace.behind fun _ => rfl)
      · exact later.imp id (HidesBrace.behind fun _ => rfl)
      · exact later.imp id (HidesBrace.behind fun _ => rfl)

/-! ## Quoted addresses in any context -/

def quotedAddress (inside : Text) : Text := "url(\"" ++ (inside ++ "\")")

/-- Wherever nothing is left open, the check of braces takes the quoted address for an empty one. -/
def IsOpaqueAddress (inside : Text) : Prop :=
  ∀ before behind, LeavesNothingOpen before →
    checkBalanced (before ++ (quotedAddress inside ++ behind)) =
      checkBalanced (before ++ (quotedAddress [] ++ behind))

theorem balanceFrom_append (depth line : Nat) (front back : List StructurePiece) :
    balanceFrom depth line (front ++ back) =
      match depthAfter depth front with
      | some reached => balanceFrom reached (line + lineFeeds (spellingOf front)) back
      | none => balanceFrom depth line front := by
  induction front generalizing depth line with
  | nil => rfl
  | cons piece front ih =>
      have feeds : line + lineFeeds (spellingOf (piece :: front)) =
          line + lineFeeds (piece.render spelling) + lineFeeds (spellingOf front) := by
        rw [Nat.add_assoc, ← lineFeeds_append]
        rfl
      rw [feeds, depthAfter_cons]
      rcases piece with c | (inert | - | - | -)
      · exact ih _ _
      · exact ih _ _
      · exact ih _ _
      · cases depth with
        | zero => rfl
        | succ depth => exact ih _ _
      · exact ih _ _

theorem checkBalanced_skip {before middle : Text} (first : IsClosed (structureOf before))
    (closed : IsClosed (structureOf middle)) (balanced : depthAfter 0 (structureOf middle) = some 0)
    (feedless : lineFeeds middle = 0) (behind : Text) :
    checkBalanced (before ++ (middle ++ behind)) = checkBalanced (before ++ behind) := by
  have skip : ∀ depth line, balanceFrom depth line (structureOf middle ++ structureOf behind) =
      balanceFrom depth line (structureOf behind) := by
    intro depth line
    rw [balanceFrom_append, depthAfter_of_balanced balanced]
    simp only [spellingOf_structureOf, feedless, Nat.add_zero]
  have read : structureOf (before ++ (middle ++ behind)) =
      structureOf before ++ (structureOf middle ++ structureOf behind) := by
    rw [first.structureOf_append, closed.structureOf_append]
  calc checkBalanced (before ++ (middle ++ behind))
      = balanceFrom 0 1 (structureOf before ++ (structureOf middle ++ structureOf behind)) :=
        congrArg (balanceFrom 0 1) read
    _ = balanceFrom 0 1 (structureOf before ++ structureOf behind) := by
        rw [balanceFrom_append, balanceFrom_append]
        simp only [skip]
    _ = checkBalanced (before ++ behind) :=
        congrArg (balanceFrom 0 1) (first.structureOf_append behind).symm

/-- A text in one line that ends with a closing parenthesis, has no backslash and can be left away
in front of any text is shut, and its braces pair up. -/
theorem isShut_of_skip {body : Text} (plain : ∀ c ∈ text, c ≠ '\n' ∧ c ≠ '\\')
    (ends : text = body ++ ([')'] : Text))
    (skip : ∀ behind, checkBalanced (text ++ behind) = checkBalanced behind) :
    isShut (structureOf text) = true ∧ checkBalanced text = .ok () := by
  have alone := skip []
  rw [List.append_nil] at alone
  refine ⟨?_, alone⟩
  have either : isShut (structureOf text) = true ∨
      HidesBrace (spellingOf (structureOf text)) := by
    refine isShut_or_hidesBrace (by rw [spellingOf_structureOf]) ?_ fun c last => ?_
    · rwa [spellingOf_structureOf]
    · rw [spellingOf_structureOf, ends, List.getLast?_concat] at last
      exact (Option.some.inj last).symm
  rcases either with shut | ⟨closer, member, hidden⟩
  · exact shut
  · -- The text would be balanced with the closer, but not with a brace in front of it.
    obtain ⟨pairs, excess⟩ := balance_of_closer member
    rw [← skip, checkBalanced_iff] at pairs
    rw [← skip, ne_eq, checkBalanced_iff] at excess
    rw [spellingOf_structureOf] at hidden
    exact absurd ((hidden 0).trans pairs) excess

theorem isShut_quotedAddress_of_whole {inside : Text} (whole : CodePoint.char ')' ∉ inside) :
    isShut (structureOf (quotedAddress inside)) = true ∧
      checkBalanced (quotedAddress inside) = .ok () := by
  let between : Text := '"' :: (inside ++ (['"'] : Text))
  have cut : Text.cut? ')' (between ++ ([')'] : Text)) = some (between, []) :=
    Text.cut?_eq_some_iff.mpr ⟨rfl, by simp [between, whole]⟩
  have written : quotedAddress inside = "url(" ++ (between ++ ([')'] : Text)) := by
    simp [quotedAddress, between, Text.ofString]
  have found : Inert.address? (quotedAddress inside) = some ("url(" ++ between ++ ")", []) := by
    rw [Inert.address?, Text.after?_eq_some_iff.mpr written]
    simp only [cut, Option.map_some]
  have noOther : Inert.commentOrString? (quotedAddress inside) = none := rfl
  have read : Inert.read? (quotedAddress inside) =
      some (.address ("url(" ++ between ++ ")"), []) := by
    rw [Inert.read?, noOther, found]
    rfl
  have scanned : StructureToken.scan.read? (quotedAddress inside) = some (_, []) :=
    StructureToken.read?_of_inert read
  have taken : structureOf (quotedAddress inside) = _ := Recognizer.pieces_of_read? scanned
  rw [checkBalanced_iff, taken]
  exact ⟨rfl, rfl⟩

theorem lineFeeds_eq_zero {text : Text} (plain : ∀ c ∈ text, c ≠ '\n' ∧ c ≠ '\\') :
    lineFeeds text = 0 :=
  List.count_eq_zero.mpr fun member => (plain _ member).1 rfl

theorem leavesNothingOpen_nil : LeavesNothingOpen [] where
  ended := .inl rfl
  nothingOpen front c back split := by cases front <;> cases split

theorem inLine_quotedAddress {inside : Text}
    (plain : ∀ c ∈ inside, c ≠ '"' ∧ c ≠ '\\' ∧ c ≠ '\n') :
    ∀ c ∈ quotedAddress inside, c ≠ '\n' ∧ c ≠ '\\' := by
  intro c member
  have around : ∀ c ∈ ("url(\"" ++ "\")" : Text), c ≠ '\n' ∧ c ≠ '\\' := by decide
  simp only [quotedAddress, List.mem_append] at member around
  rcases member with front | here | back
  · exact around c (.inl front)
  · exact ⟨(plain c here).2.2, (plain c here).2.1⟩
  · exact around c (.inr back)

/-- A quoted address is opaque exactly if it is shut and its braces pair up, as they do where no
parenthesis closes it between its quotes. -/
theorem isOpaqueAddress_iff {inside : Text}
    (plain : ∀ c ∈ inside, c ≠ '"' ∧ c ≠ '\\' ∧ c ≠ '\n') :
    (IsOpaqueAddress inside ↔ isShut (structureOf (quotedAddress inside)) = true ∧
      checkBalanced (quotedAddress inside) = .ok ()) ∧
    (CodePoint.char ')' ∉ inside → IsOpaqueAddress inside) := by
  have inLine := inLine_quotedAddress plain
  have empty : ∀ before behind, LeavesNothingOpen before →
      checkBalanced (before ++ (quotedAddress [] ++ behind)) = checkBalanced (before ++ behind) :=
    fun before behind nothingOpen =>
      checkBalanced_skip nothingOpen.isClosed (isClosed_of_isShut (by decide)) (by decide)
        (by decide) behind
  have condition : IsOpaqueAddress inside ↔ isShut (structureOf (quotedAddress inside)) = true ∧
      checkBalanced (quotedAddress inside) = .ok () := by
    constructor
    case mp =>
      intro same
      have ends : quotedAddress inside = ("url(\"" ++ (inside ++ "\"")) ++ ([')'] : Text) := by
        simp [quotedAddress, Text.ofString]
      refine isShut_of_skip inLine ends fun behind => ?_
      calc checkBalanced (quotedAddress inside ++ behind)
          = checkBalanced (quotedAddress [] ++ behind) := same [] behind leavesNothingOpen_nil
        _ = checkBalanced behind := empty [] behind leavesNothingOpen_nil
    case mpr =>
      rintro ⟨shut, balanced⟩ before behind nothingOpen
      rw [empty before behind nothingOpen]
      exact checkBalanced_skip nothingOpen.isClosed (isClosed_of_isShut shut)
        (checkBalanced_iff.mp balanced) (lineFeeds_eq_zero inLine) behind
  exact ⟨condition, fun whole => condition.mpr (isShut_quotedAddress_of_whole whole)⟩

/-- A picture in the address, with a brace, a comment's beginning and an address in it. -/
def pictureAddress : Text := "data:image/svg+xml,<svg style='fill: url(#a'>//\x7b</svg>"

theorem isOpaqueAddress_pictureAddress :
    (∀ c ∈ pictureAddress, c ≠ '"' ∧ c ≠ '\\' ∧ c ≠ '\n') ∧ IsOpaqueAddress pictureAddress := by
  have plain : ∀ c ∈ pictureAddress, c ≠ '"' ∧ c ≠ '\\' ∧ c ≠ '\n' := by decide
  exact ⟨plain, (isOpaqueAddress_iff plain).2 (by decide)⟩

/-- A parenthesis between the quotes closes the address, and a brace behind it is counted. -/
theorem parenthesis_may_close_address :
    ¬∀ inside : Text, (∀ c ∈ inside, c ≠ '"' ∧ c ≠ '\\' ∧ c ≠ '\n') →
      IsOpaqueAddress inside := by
  intro claimed
  have same := claimed ")\x7b" (by decide) [] [] leavesNothingOpen_nil
  have differs : checkBalanced ([] ++ (quotedAddress ")\x7b" ++ [])) ≠
      checkBalanced ([] ++ (quotedAddress [] ++ [])) := by decide +kernel
  exact differs same

end Stylesheet

end Inlay

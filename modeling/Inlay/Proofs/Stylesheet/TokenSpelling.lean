import Inlay.Proofs.Stylesheet.Closed
import Inlay.Proofs.Text.Locality
import Inlay.Stylesheet.Import
import Mathlib.Data.List.TakeWhile

/-!
# Tokens that are read back from their spelling

A token of a stylesheet is read from its own characters: it is read again from its spelling,
whatever is written behind it (`Inert.read?_spelling`, `ImportStatement.read?_spelling`). Only a
comment that runs to the end of the line depends on what follows, which must not go on in that
line.
-/

set_option autoImplicit false

namespace Inlay

namespace Inert

variable {text taken rest other : Text} {quote : CodePoint} {token : Inert}

theorem throughCommentEnd?_taken (found : throughCommentEnd? text = some (taken, rest)) :
    throughCommentEnd? taken = some (taken, []) := by
  fun_induction throughCommentEnd? text generalizing taken with
  | case1 => cases found
  | case2 text =>
      cases found
      rfl
  | case3 c text apart ih =>
      simp only [Option.map_eq_some_iff, Prod.exists, Prod.mk.injEq] at found
      obtain ⟨inner, after, inside, rfl, rfl⟩ := found
      have alone := ih inside
      cases inner with
      | nil => cases alone
      | cons d inner =>
          have split := append_of_throughCommentEnd? inside
          rw [throughCommentEnd?, alone]
          · rfl
          · rintro _ rfl same
            cases same
            exact apart _ rfl split

theorem throughQuote?_taken (found : throughQuote? quote text = some (taken, rest)) :
    throughQuote? quote taken = some (taken, []) := by
  fun_induction throughQuote? quote text generalizing taken with
  | case1 => cases found
  | case2 text =>
      cases found
      simp [throughQuote?.eq_def]
  | case3 => cases found
  | case4 => cases found
  | case5 differs feed d text ih =>
      simp only [Option.map_eq_some_iff, Prod.exists, Prod.mk.injEq] at found
      obtain ⟨inner, after, inside, rfl, rfl⟩ := found
      rw [throughQuote?.eq_def]
      simp [*]
  | case6 c text differs feed backslash ih =>
      simp only [Option.map_eq_some_iff, Prod.exists, Prod.mk.injEq] at found
      obtain ⟨inner, after, inside, rfl, rfl⟩ := found
      rw [throughQuote?.eq_def]
      simp [*]

theorem blockComment?_taken (found : blockComment? text = some (taken, rest)) :
    blockComment? taken = some (taken, []) := by
  unfold blockComment? at found
  split at found
  · cases found
  · next body after =>
      simp only [Option.map_eq_some_iff, Prod.exists, Prod.mk.injEq] at found
      obtain ⟨inner, tail, inside, rfl, rfl⟩ := found
      have again : Text.after? "/*" ("/*" ++ inner) = some inner := Text.after?_eq_some_iff.mpr rfl
      simp [blockComment?, again, throughCommentEnd?_taken inside]

theorem quotedBy?_taken (found : quotedBy? quote text = some (taken, rest)) :
    quotedBy? quote taken = some (taken, []) := by
  unfold quotedBy? at found
  split at found
  · cases found
  · next body after =>
      simp only [Option.map_eq_some_iff, Prod.exists, Prod.mk.injEq] at found
      obtain ⟨inner, tail, inside, rfl, rfl⟩ := found
      have again : Text.after? [quote] (quote :: inner) = some inner :=
        Text.after?_eq_some_iff.mpr rfl
      simp [quotedBy?, again, throughQuote?_taken inside]

theorem address?_taken (found : address? text = some (taken, rest)) :
    address? taken = some (taken, []) := by
  unfold address? at found
  split at found
  · cases found
  · next body after =>
      simp only [Option.map_eq_some_iff, Prod.exists, Prod.mk.injEq] at found
      obtain ⟨inner, tail, inside, rfl, rfl⟩ := found
      have absent := (Text.cut?_eq_some_iff.mp inside).2
      have again : Text.after? "url(" ("url(" ++ inner ++ ")") = some (inner ++ ")") :=
        Text.after?_eq_some_iff.mpr (List.append_assoc _ _ _)
      have cut : Text.cut? ')' (inner ++ ")") = some (inner, []) :=
        Text.cut?_eq_some_iff.mpr ⟨rfl, absent⟩
      rw [address?, again]
      simp only [cut, Option.map_some]

theorem lineComment?_taken (found : lineComment? text = some (taken, rest)) :
    lineComment? taken = some (taken, []) := by
  simp only [lineComment?, Option.map_eq_some_iff, Prod.mk.injEq] at found ⊢
  obtain ⟨body, -, rfl, rfl⟩ := found
  refine ⟨body.takeWhile (· != CodePoint.char '\n'), Text.after?_eq_some_iff.mpr rfl, ?_, ?_⟩
  · rw [List.takeWhile_idem]
  · exact List.dropWhile_eq_nil_iff.mpr fun c member =>
      List.mem_takeWhile_imp (p := (· != CodePoint.char '\n')) member

/-- What may stand behind a token: behind a comment to the end of the line, only that end. -/
def MayPrecede (token : Inert) (rest : Text) : Prop :=
  token.endsItself = true ∨ rest.head? = none ∨ rest.head? = some '\n'

theorem exists_of_blockComment? (found : blockComment? text = some (taken, rest)) :
    ∃ inner, taken = "/*" ++ inner := by
  unfold blockComment? at found
  split at found
  · cases found
  · simp only [Option.map_eq_some_iff, Prod.exists, Prod.mk.injEq] at found
    obtain ⟨inner, -, -, rfl, -⟩ := found
    exact ⟨inner, rfl⟩

theorem comment?_taken (found : comment? text = some (taken, rest)) :
    comment? taken = some (taken, []) := by
  unfold comment? at found
  cases line : lineComment? text with
  | some result =>
      rw [line] at found
      cases found
      rw [comment?, lineComment?_taken line]
  | none =>
      have block : blockComment? text = some (taken, rest) := by simpa [line] using found
      have alone := blockComment?_taken block
      have lineNone : lineComment? taken = none := by
        obtain ⟨inner, rfl⟩ := exists_of_blockComment? block
        rfl
      rw [comment?, lineNone]
      exact alone

theorem string?_taken (found : string? text = some (taken, rest)) :
    string? taken = some (taken, []) := by
  unfold string? at found
  cases double : quotedBy? '"' text with
  | some result =>
      rw [double] at found
      cases found
      rw [string?, quotedBy?_taken double]
  | none =>
      rw [double] at found
      have alone := quotedBy?_taken found
      obtain ⟨body, rfl⟩ := exists_of_quotedBy? alone
      have doubleNone : quotedBy? '"' (.char '\'' :: body) = none := rfl
      rw [string?, doubleNone]
      exact alone

theorem commentOrString?_taken (found : commentOrString? text = some (token, rest)) :
    commentOrString? (spelling token) = some (token, []) := by
  unfold commentOrString? at found
  cases comment : comment? text with
  | some result =>
      rw [comment] at found
      cases found
      simp [commentOrString?, spelling, comment?_taken comment]
  | none =>
      rw [comment] at found
      simp only [Option.map_eq_some_iff, Prod.exists, Prod.mk.injEq] at found
      obtain ⟨taken, behind, string, rfl, rfl⟩ := found
      have alone := string?_taken string
      have commentNone : comment? taken = none := by
        simpa using comment?_append_eq_none_of_string? alone []
      simp [commentOrString?, spelling, commentNone, alone]

/-- A token is read from its spelling alone. -/
theorem read?_taken (found : read? text = some (token, rest)) :
    read? (spelling token) = some (token, []) := by
  unfold read? at found
  cases other : commentOrString? text with
  | some result =>
      rw [other] at found
      cases found
      rw [read?, commentOrString?_taken other]
  | none =>
      rw [other] at found
      simp only [Option.map_eq_some_iff, Prod.exists, Prod.mk.injEq] at found
      obtain ⟨taken, behind, address, rfl, rfl⟩ := found
      have alone := address?_taken address
      have otherNone : commentOrString? taken = none := by
        unfold address? at alone
        split at alone
        · cases alone
        · next body after =>
            rw [Text.after?_eq_some_iff.mp after]
            rfl
      simp [read?, spelling, otherNone, alone]

theorem lineComment?_of_not_endsItself (found : read? text = some (token, rest))
    (goesOn : token.endsItself = false) :
    ∃ taken, token = .comment taken ∧ lineComment? text = some (taken, rest) := by
  unfold read? commentOrString? at found
  cases comment : comment? text with
  | some result =>
      rw [comment] at found
      cases found
      unfold comment? at comment
      cases line : lineComment? text with
      | some result =>
          rw [line] at comment
          cases comment
          exact ⟨_, rfl, rfl⟩
      | none =>
          have block : blockComment? text = some result := by simpa [line] using comment
          obtain ⟨inner, written⟩ := exists_of_blockComment? block
          rw [written] at goesOn
          cases goesOn
  | none =>
      rw [comment] at found
      cases string : string? text with
      | some result =>
          rw [string] at found
          cases found
          cases goesOn
      | none =>
          simp only [string, Option.map_none, Option.map_eq_some_iff, Prod.exists,
            Prod.mk.injEq] at found
          obtain ⟨taken, -, -, rfl, -⟩ := found
          cases goesOn

theorem mayPrecede_of_read? (found : read? text = some (token, rest)) : token.MayPrecede rest := by
  cases ended : token.endsItself with
  | true => exact .inl ended
  | false =>
      obtain ⟨taken, rfl, line⟩ := lineComment?_of_not_endsItself found ended
      simp only [lineComment?, Option.map_eq_some_iff, Prod.mk.injEq] at line
      obtain ⟨body, -, -, rfl⟩ := line
      refine .inr ?_
      cases behind : body.dropWhile (· != CodePoint.char '\n') with
      | nil => exact .inl rfl
      | cons c behind =>
          have stops := List.head?_dropWhile_not (· != CodePoint.char '\n') body
          rw [behind] at stops
          exact .inr (by simpa using stops)

theorem read?_spelling (found : read? text = some (token, rest)) (may : token.MayPrecede other) :
    read? (spelling token ++ other) = some (token, other) := by
  have alone := read?_taken found
  cases ended : token.endsItself with
  | true => exact read?_append alone (.inl ended) other
  | false =>
      obtain ⟨taken, rfl, line⟩ := lineComment?_of_not_endsItself alone ended
      have stops := may.resolve_left (by simp [ended])
      simp only [lineComment?, Option.map_eq_some_iff, Prod.mk.injEq] at line
      obtain ⟨body, after, written, dropped⟩ := line
      have within : ∀ c ∈ body, (c != CodePoint.char '\n') = true :=
        List.dropWhile_eq_nil_iff.mp dropped
      have again : lineComment? (taken ++ other) = some (taken, other) := by
        simp only [lineComment?, Option.map_eq_some_iff, Prod.mk.injEq]
        refine ⟨body ++ other, Text.after?_append after other, ?_, ?_⟩
        · rw [List.takeWhile_append_of_pos within, ← written, List.takeWhile_eq_self_iff.mpr within]
          rcases stops with none | feed
          · rw [List.head?_eq_none_iff.mp none]
            simp
          · obtain ⟨more, rfl⟩ := List.head?_eq_some_iff.mp feed
            simp
        · rw [List.dropWhile_append_of_pos within]
          rcases stops with none | feed
          · rw [List.head?_eq_none_iff.mp none]
            rfl
          · obtain ⟨more, rfl⟩ := List.head?_eq_some_iff.mp feed
            rfl
      simp [read?, commentOrString?, comment?, spelling, again]

theorem read?_eq_none_iff : read? text = none ↔
    lineComment? text = none ∧ blockComment? text = none ∧ quotedBy? '"' text = none ∧
      quotedBy? '\'' text = none ∧ address? text = none := by
  unfold read? commentOrString? comment? string?
  cases lineComment? text <;> cases blockComment? text <;> cases quotedBy? '"' text <;>
    cases quotedBy? '\'' text <;> simp

theorem read?_eq_none_of_append {more : Text} (unread : read? (text ++ more) = none) :
    read? text = none := by
  cases found : read? text with
  | none => rfl
  | some result =>
      obtain ⟨token, rest⟩ := result
      by_cases complete : token.endsItself = true ∨ rest ≠ []
      · rw [read?_append found complete] at unread
        cases unread
      · -- A comment to the end of the line goes on over what is written behind it.
        have goesOn : token.endsItself = false := by
          rw [← Bool.not_eq_true]
          exact fun ended => complete (.inl ended)
        obtain ⟨taken, -, line⟩ := lineComment?_of_not_endsItself found goesOn
        simp only [lineComment?, Option.map_eq_some_iff, Prod.mk.injEq] at line
        obtain ⟨body, begins, -, -⟩ := line
        have noLine := (read?_eq_none_iff.mp unread).1
        rw [lineComment?, Text.after?_append begins] at noLine
        cases noLine

/-- Every inert token begins with one of the openings. -/
theorem exists_opening_of_read? (found : read? text = some (token, rest)) :
    ∃ opening ∈ openings, opening <+: text := by
  have starts : ∀ {lead body : Text}, Text.after? lead text = some body → lead <+: text :=
    fun after => ⟨_, (Text.after?_eq_some_iff.mp after).symm⟩
  by_contra none
  push Not at none
  have absent : ∀ opening ∈ openings, Text.after? opening text = Option.none := by
    intro opening member
    cases after : Text.after? opening text with
    | none => rfl
    | some body => exact absurd (starts after) (none opening member)
  have lineNone := absent "//" (by simp [openings])
  have blockNone := absent "/*" (by simp [openings])
  have doubleNone := absent ['"'] (by decide)
  have singleNone := absent ['\''] (by decide)
  have addressNone := absent "url(" (by simp [openings])
  simp [read?, commentOrString?, comment?, string?, lineComment?, blockComment?, quotedBy?,
    address?, lineNone, blockNone, doubleNone, singleNone, addressNone] at found

end Inert

namespace ImportStatement

variable {text target rest other behind : Text} {quote : CodePoint} {statement : ImportStatement}
  {listed : Option (Text × Text)}

theorem quotedTarget?_append (found : quotedTarget? quote text = some (target, rest))
    (other : Text) : quotedTarget? quote (target ++ other) = some (target, other) := by
  unfold quotedTarget? at found
  split at found
  · cases found
  · next body after =>
      simp only [Option.map_eq_some_iff, Prod.exists, Prod.mk.injEq] at found
      obtain ⟨inner, tail, inside, rfl, rfl⟩ := found
      have absent := (Text.cut?_eq_some_iff.mp inside).2
      have again : Text.after? [quote] (quote :: inner ++ [quote] ++ other) =
          some (inner ++ quote :: other) := Text.after?_eq_some_iff.mpr (by simp)
      have cut : Text.cut? quote (inner ++ quote :: other) = some (inner, other) :=
        Text.cut?_eq_some_iff.mpr ⟨rfl, absent⟩
      rw [quotedTarget?, again]
      simp only [cut, Option.map_some]

theorem exists_of_quotedTarget? (found : quotedTarget? quote text = some (target, rest)) :
    ∃ inner, target = quote :: inner := by
  unfold quotedTarget? at found
  split at found
  · cases found
  · simp only [Option.map_eq_some_iff, Prod.exists, Prod.mk.injEq] at found
    obtain ⟨inner, -, -, rfl, -⟩ := found
    exact ⟨_, rfl⟩

theorem exists_of_address? (found : Inert.address? text = some (target, rest)) :
    ∃ inner, target = "url(" ++ inner := by
  unfold Inert.address? at found
  split at found
  · cases found
  · simp only [Option.map_eq_some_iff, Prod.exists, Prod.mk.injEq] at found
    obtain ⟨inner, -, -, rfl, -⟩ := found
    exact ⟨_, List.append_assoc _ _ _⟩

/-- A target is read back, and begins neither with a blank nor with an option list. -/
theorem target?_append (found : target? text = some (target, rest)) (other : Text) :
    target? (target ++ other) = some (target, other) ∧
      ∃ c inner, target = c :: inner ∧ isBlank c = false ∧ c ≠ '(' := by
  unfold target? at found
  cases address : Inert.address? text with
  | some result =>
      rw [address] at found
      cases found
      have again := Inert.address?_append (Inert.address?_taken address) other
      obtain ⟨inner, rfl⟩ := exists_of_address? address
      refine ⟨by rw [target?, again, List.nil_append], _, _, rfl, by decide, by decide⟩
  | none =>
      rw [address] at found
      cases double : quotedTarget? '"' text with
      | some result =>
          simp only [double] at found
          cases found
          have again := quotedTarget?_append double other
          obtain ⟨inner, rfl⟩ := exists_of_quotedTarget? double
          have addressNone : Inert.address? (.char '"' :: inner ++ other) = none := rfl
          exact ⟨by rw [target?, addressNone, again], _, _, rfl, by decide, by decide⟩
      | none =>
          simp only [double] at found
          have again := quotedTarget?_append found other
          obtain ⟨inner, rfl⟩ := exists_of_quotedTarget? found
          have addressNone : Inert.address? (.char '\'' :: inner ++ other) = none := rfl
          have doubleNone : quotedTarget? '"' (.char '\'' :: inner ++ other) = none := rfl
          exact ⟨by rw [target?, addressNone, doubleNone, again], _, _, rfl, by decide, by decide⟩

theorem leadingBlanks_append {gap : Text} (blank : ∀ c ∈ gap, isBlank c = true) {c : CodePoint}
    (mark : isBlank c = false) (text : Text) :
    Text.leadingBlanks (gap ++ c :: text) = gap ∧
      Text.trimStart (gap ++ c :: text) = c :: text := by
  constructor
  · rw [Text.leadingBlanks, List.takeWhile_append_of_pos blank,
      List.takeWhile_cons_of_neg (by simp [mark]), List.append_nil]
  · rw [Text.trimStart, List.dropWhile_append_of_pos blank,
      List.dropWhile_cons_of_neg (by simp [mark])]

theorem isBlank_of_mem_leadingBlanks {c : CodePoint} (member : c ∈ Text.leadingBlanks text) :
    isBlank c = true := List.mem_takeWhile_imp member

/-- An option list as it may be written: without a parenthesis in its names, with blanks behind
it. -/
def IsOptionList (listed : Option (Text × Text)) : Prop :=
  ∀ names gap, listed = some (names, gap) → .char ')' ∉ names ∧ ∀ c ∈ gap, isBlank c = true

theorem isOptionList_optionList? (text : Text) : IsOptionList (optionList? text).1 := by
  intro names gap same
  unfold optionList? at same
  split at same
  · split at same
    · next cut =>
        cases same
        exact ⟨(Text.cut?_eq_some_iff.mp cut).2, fun c => isBlank_of_mem_leadingBlanks⟩
    · cases same
  · cases same

/-- An option list is read back in front of what begins neither with a blank nor with another
list. -/
theorem optionList?_append (isList : IsOptionList listed) {c : CodePoint}
    (mark : isBlank c = false) (apart : c ≠ '(') (other : Text) :
    optionList? (optionListSpelling listed ++ c :: other) = (listed, c :: other) := by
  cases listed with
  | none =>
      unfold optionList?
      simp only [optionListSpelling, List.nil_append]
      split
      · next same => exact absurd (List.cons.inj same).1 apart
      · rfl
  | some list =>
      obtain ⟨names, gap⟩ := list
      obtain ⟨absent, blank⟩ := isList names gap rfl
      obtain ⟨lead, trimmed⟩ := leadingBlanks_append blank mark other
      have again : Text.cut? ')' (names ++ .char ')' :: (gap ++ c :: other)) =
          some (names, gap ++ c :: other) := Text.cut?_eq_some_iff.mpr ⟨rfl, absent⟩
      have written : optionListSpelling (some (names, gap)) ++ c :: other =
          .char '(' :: (names ++ .char ')' :: (gap ++ c :: other)) := by
        simp [optionListSpelling, Text.ofString]
      rw [written, optionList?]
      simp only [again, lead, trimmed]

/-- An import statement is read from its spelling, whatever is written behind it. -/
theorem read?_spelling (found : read? text = some (statement, rest)) (other : Text) :
    read? (spelling statement ++ other) = some (statement, other) := by
  unfold read? at found
  split at found
  · cases found
  · next behind after =>
      dsimp only at found
      split at found
      · cases found
      · next target tail reads =>
          simp only [Option.map_eq_some_iff, Prod.exists, Prod.mk.injEq] at found
          obtain ⟨condition, last, cut, rfl, rfl⟩ := found
          have absent := (Text.cut?_eq_some_iff.mp cut).2
          let ending : Text := condition ++ .char ';' :: other
          obtain ⟨target?_eq, c, inner, rfl, mark, apart⟩ := target?_append reads ending
          let option := (optionList? (Text.trimStart behind)).1
          have listed : optionList? (optionListSpelling option ++ (c :: inner ++ ending)) =
              (option, c :: inner ++ ending) :=
            optionList?_append (isOptionList_optionList? _) mark apart _
          have first : ∃ d more, optionListSpelling option ++ (c :: inner ++ ending) = d :: more ∧
              isBlank d = false := by
            cases option with
            | none => exact ⟨c, _, rfl, mark⟩
            | some list => exact ⟨'(', _, rfl, by decide⟩
          obtain ⟨d, more, starts, dark⟩ := first
          have blank : ∀ c ∈ Text.leadingBlanks behind, isBlank c = true :=
            fun c => isBlank_of_mem_leadingBlanks
          obtain ⟨lead, trimmed⟩ := leadingBlanks_append blank dark more
          have again : Text.after? keyword (keyword ++ (Text.leadingBlanks behind ++ d :: more)) =
              some (Text.leadingBlanks behind ++ d :: more) := Text.after?_eq_some_iff.mpr rfl
          have written : spelling (⟨Text.leadingBlanks behind, option, c :: inner, condition⟩ :
              ImportStatement) ++ other = keyword ++ (Text.leadingBlanks behind ++ d :: more) := by
            rw [← starts]
            simp [spelling, ending, Text.ofString]
          have cutAgain : Text.cut? ';' ending = some (condition, other) :=
            Text.cut?_eq_some_iff.mpr ⟨rfl, absent⟩
          rw [written, read?, again]
          simp only [lead, trimmed]
          rw [← starts, listed]
          simp only [target?_eq, cutAgain, Option.map_some]
          rfl

end ImportStatement

/-! ## Tokens in front of a place -/

/-- A text that begins, but not with the end of a line. -/
def Text.GoesOn (text : Text) : Prop := ∃ c rest, text = c :: rest ∧ c ≠ '\n'

theorem Inert.goesOn_of_read? {text rest : Text} {token : Inert}
    (found : read? text = some (token, rest)) : text.GoesOn := by
  obtain ⟨opening, member, starts⟩ := exists_opening_of_read? found
  obtain ⟨more, rfl⟩ := starts
  have began : ∀ opening ∈ openings, ∃ c ∈ opening.head?, c ≠ '\n' := by decide
  obtain ⟨c, first, apart⟩ := began opening member
  obtain ⟨own, rfl⟩ := List.head?_eq_some_iff.mp first
  exact ⟨c, own ++ more, rfl, apart⟩

theorem Inert.read?_alike {first front rest : Text} {token : Inert} (goesOn : first.GoesOn)
    (found : read? (front ++ first) = some (token, rest ++ first)) (second : Text) :
    read? (front ++ second) = some (token, rest ++ second) := by
  have split : front = spelling token ++ rest := by
    have whole := (split_of_read? found).1
    rw [← List.append_assoc] at whole
    exact List.append_cancel_right whole
  rw [split, List.append_assoc]
  refine read?_spelling found ?_
  rcases mayPrecede_of_read? found with ended | stops
  · exact .inl ended
  · obtain ⟨c, more, rfl, apart⟩ := goesOn
    -- A comment to the end of the line has met this end in front of the first text.
    refine .inr ?_
    cases rest with
    | nil => simp [apart] at stops
    | cons d rest => exact stops

/-- Structure in front of a place is read alike, whatever stands behind the place, unless that
ends a line. -/
theorem StructureToken.readsAlike {first : Text} (goesOn : first.GoesOn) (second : Text) :
    scan.ReadsAlike first second := by
  intro front rest token found
  have split : front = spelling token ++ rest := by
    have whole := (split_of_read? found).1
    rw [← List.append_assoc] at whole
    exact List.append_cancel_right whole
  rcases token with inert | - | - | -
  · exact read?_of_inert (Inert.read?_alike goesOn (inert_of_read? found) second)
  · rw [split]
    rfl
  · rw [split]
    rfl
  · rw [split]
    rfl

theorem SheetToken.read?_of_inert {text rest : Text} {token : Inert}
    (found : Inert.read? text = some (token, rest)) : read? text = some (.inert token, rest) := by
  obtain ⟨opening, member, starts⟩ := Inert.exists_opening_of_read? found
  have apart : ImportStatement.read? text = none := by
    cases after : Text.after? ImportStatement.keyword text with
    | none => simp [ImportStatement.read?, after]
    | some behind =>
        -- No opening begins as the keyword does.
        rw [Text.after?_eq_some_iff.mp after] at starts
        have differ : ∀ opening ∈ Inert.openings,
            ∃ c ∈ opening.head?, c ∉ ImportStatement.keyword.head? := by decide
        obtain ⟨c, first, other⟩ := differ opening member
        obtain ⟨own, rfl⟩ := List.head?_eq_some_iff.mp first
        obtain ⟨more, whole⟩ := starts
        exact absurd (congrArg List.head? whole).symm other
  simp [read?, apart, found]

theorem SheetToken.inert_of_read? {text rest : Text} {token : Inert}
    (found : read? text = some (.inert token, rest)) : Inert.read? text = some (token, rest) := by
  unfold read? at found
  split at found
  · cases found
  · simp only [Option.map_eq_some_iff, Prod.exists, Prod.mk.injEq, SheetToken.inert.injEq] at found
    obtain ⟨own, behind, reads, rfl, rfl⟩ := found
    exact reads

theorem SheetToken.importing_of_read? {text rest : Text} {statement : ImportStatement}
    (found : read? text = some (.importing statement, rest)) :
    ImportStatement.read? text = some (statement, rest) := by
  unfold read? at found
  split at found
  · next reads =>
      cases found
      exact reads
  · simp at found

/-- Imports and inert tokens in front of a place are read alike, whatever stands behind the place,
unless that ends a line. -/
theorem SheetToken.readsAlike {first : Text} (goesOn : first.GoesOn) (second : Text) :
    scan.ReadsAlike first second := by
  intro front rest token found
  cases token with
  | inert inert =>
      exact read?_of_inert (Inert.read?_alike goesOn (inert_of_read? found) second)
  | importing statement =>
      have reads := importing_of_read? found
      have split : front = spelling statement ++ rest := by
        have whole := (ImportStatement.split_of_read? reads).1
        rw [← List.append_assoc] at whole
        exact List.append_cancel_right whole
      have again := ImportStatement.read?_spelling reads (rest ++ second)
      rw [← List.append_assoc, ← split] at again
      change read? _ = _
      simp [read?, again]

end Inlay

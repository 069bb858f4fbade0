import Inlay.Stylesheet.Import
import Inlay.Stylesheet.ReferenceOnly
import Mathlib.Data.List.TakeWhile

/-!
# What an import for reference takes for a definition

Variables, detached rule sets and mixins with parameters define names and write no rule. Which
statements are kept is told from their beginning and from what stands in front of their first brace,
so that other statements may look like definitions. These are described here, apart from the
definitions themselves.
-/

set_option autoImplicit false

namespace Inlay.Stylesheet

variable {text body head rest : Text}

/-! ## Forms of statements -/

def IsName (name : Text) : Prop := name ≠ [] ∧ ∀ c ∈ name, isNameChar c = true

def IsGap (gap : Text) : Prop := ∀ c ∈ gap, isBlank c = true

/-- A statement begins with a variable's name and a colon. -/
def Declares (body rest : Text) : Prop :=
  ∃ name gap, IsName name ∧ IsGap gap ∧ body = .char '@' :: (name ++ (gap ++ .char ':' :: rest))

/-- The first brace of a statement stands behind its head. -/
def OpensBehind (head body rest : Text) : Prop :=
  body = head ++ .char '\x7b' :: rest ∧ CodePoint.char '\x7b' ∉ head

def IsValue (rest : Text) : Prop := ∃ value : Text, rest = value ++ ";"

def IsBlock (rest : Text) : Prop :=
  ∃ gap inside : Text, IsGap gap ∧ rest = gap ++ .char '\x7b' :: (inside ++ (['\x7d'] : Text))

/-- A head begins with the name of a class or an identifier and a parenthesis right behind it. -/
def IsMixinHead (head : Text) : Prop :=
  ∃ mark name parameters, (mark = .char '.' ∨ mark = .char '#') ∧ IsName name ∧
    head = mark :: (name ++ .char '(' :: parameters)

/-- A statement that defines a name and writes no rule. -/
inductive IsDefinition (body : Text) : Prop where
  | assigned {rest : Text} : Declares body rest → IsValue rest → IsDefinition body
  | detached {rest : Text} : Declares body rest → IsBlock rest → IsDefinition body
  | mixin {head inside : Text} : OpensBehind head body (inside ++ "\x7d") → IsMixinHead head →
      IsDefinition body

/-- A statement that is no definition, though it begins like a variable or has a parenthesis in
front of its first brace. -/
inductive IsLookAlike (body : Text) : Prop where
  | declared {rest : Text} : Declares body rest → ¬IsValue rest → ¬IsBlock rest →
      IsLookAlike body
  | selector {head rest : Text} : OpensBehind head body rest → CodePoint.char '(' ∈ head →
      head.head? ≠ some '@' → ¬IsMixinHead head → IsLookAlike body
  | unclosed {head rest : Text} : OpensBehind head body rest → IsMixinHead head →
      (¬∃ inside : Text, rest = inside ++ "\x7d") → IsLookAlike body

/-! ## Reading the forms -/

theorem isNameChar_of_isBlank {c : CodePoint} (blank : isBlank c = true) :
    isNameChar c = false := by
  have ranges : ∀ range ∈ blankRanges, ∀ other ∈ alphanumericRanges,
      range.2 < other.1 ∨ other.2 < range.1 := by decide +kernel
  have others : ∀ c ∈ (['_', '-'] : Text), isBlank c = false := by decide
  rw [← Bool.not_eq_true]
  intro inName
  simp only [isNameChar, isWordChar, isAlphanumeric, inRanges, Bool.or_eq_true, beq_iff_eq,
    List.any_eq_true, Bool.and_eq_true, decide_eq_true_eq] at inName
  rcases inName with (rfl | ⟨other, listed, above, below⟩) | rfl
  · exact absurd blank (by simp [others '_'])
  · simp only [isBlank, inRanges, List.any_eq_true, Bool.and_eq_true, decide_eq_true_eq] at blank
    obtain ⟨range, member, lowest, highest⟩ := blank
    rcases ranges range member other listed with before | behind
    · omega
    · omega
  · exact absurd blank (by simp [others '-'])

theorem takeWhile_name {name gap : Text} (isName : IsName name) (isGap : IsGap gap) :
    (name ++ (gap ++ .char ':' :: rest)).takeWhile isNameChar = name ∧
      (name ++ (gap ++ .char ':' :: rest)).dropWhile isNameChar = gap ++ .char ':' :: rest := by
  have stops : ∀ c, (gap ++ .char ':' :: rest).head? = some c → isNameChar c = false := by
    intro c first
    cases gap with
    | nil =>
        cases first
        decide +kernel
    | cons d gap =>
        cases first
        exact isNameChar_of_isBlank (isGap _ (.head _))
  rw [List.takeWhile_append_of_pos isName.2, List.dropWhile_append_of_pos isName.2]
  generalize gap ++ .char ':' :: rest = behind at stops
  cases behind with
  | nil => simp
  | cons c behind =>
      have first := stops c rfl
      simp [first]

theorem trimStart_gap {gap : Text} (isGap : IsGap gap) :
    Text.trimStart (gap ++ .char ':' :: rest) = .char ':' :: rest := by
  have colon : isBlank ':' = false := by decide
  rw [Text.trimStart, List.dropWhile_append_of_pos isGap,
    List.dropWhile_cons_of_neg (by simp [colon])]

theorem isDeclaration_iff : isDeclaration body = true ↔ ∃ rest, Declares body rest := by
  constructor
  case mp =>
    intro declares
    unfold isDeclaration at declares
    split at declares
    · next text =>
        split at declares
        · next c name rest taken behind =>
            have gap := Text.leadingBlanks_append_trimStart (text.dropWhile isNameChar)
            have whole := List.takeWhile_append_dropWhile (p := isNameChar) (l := text)
            rw [← gap, behind] at whole
            refine ⟨rest, text.takeWhile isNameChar, _, ⟨?_, ?_⟩, ?_, congrArg (_ :: ·) whole.symm⟩
            · simp [taken]
            · exact fun c member => List.mem_takeWhile_imp member
            · exact fun c member => List.mem_takeWhile_imp member
        · cases declares
    · cases declares
  case mpr =>
    rintro ⟨rest, name, gap, isName, isGap, rfl⟩
    obtain ⟨taken, left⟩ := @takeWhile_name rest name gap isName isGap
    obtain ⟨c, more, rfl⟩ := List.exists_cons_of_ne_nil isName.1
    simp only [isDeclaration, taken, left, trimStart_gap isGap]

theorem Declares.rest_eq {other : Text} (first : Declares body rest)
    (second : Declares body other) : rest = other := by
  have behind : ∀ {rest}, Declares body rest →
      Text.trimStart (body.tail.dropWhile isNameChar) = .char ':' :: rest := by
    rintro rest ⟨name, gap, isName, isGap, rfl⟩
    rw [List.tail_cons, (takeWhile_name isName isGap).2, trimStart_gap isGap]
  exact (List.cons.inj ((behind first).symm.trans (behind second))).2

theorem OpensBehind.eq {otherHead other : Text} (first : OpensBehind head body rest)
    (second : OpensBehind otherHead body other) : head = otherHead ∧ rest = other := by
  have one := Text.cut?_eq_some_iff.mpr first
  rw [Text.cut?_eq_some_iff.mpr second] at one
  simp only [Option.some.injEq, Prod.mk.injEq] at one
  exact ⟨one.1.symm, one.2.symm⟩

theorem OpensBehind.head?_eq (opens : OpensBehind head body rest)
    (parenthesis : CodePoint.char '(' ∈ head) : body.head? = head.head? := by
  obtain ⟨rfl, -⟩ := opens
  cases head with
  | nil => cases parenthesis
  | cons c head => rfl

theorem Declares.head?_eq (declares : Declares body rest) : body.head? = some '@' := by
  obtain ⟨name, gap, -, -, rfl⟩ := declares
  rfl

theorem isParametric_iff : isParametric body = true ↔
    ∃ head rest, OpensBehind head body rest ∧ CodePoint.char '(' ∈ head ∧
      head.head? ≠ some '@' := by
  constructor
  case mp =>
    intro parametric
    simp only [isParametric, Bool.and_eq_true, bne_iff_ne] at parametric
    obtain ⟨apart, behind⟩ := parametric
    cases cut : Text.cut? '\x7b' body with
    | none =>
        rw [cut] at behind
        cases behind
    | some parts =>
        obtain ⟨head, rest⟩ := parts
        have opens : OpensBehind head body rest := Text.cut?_eq_some_iff.mp cut
        rw [cut] at behind
        have parenthesis : CodePoint.char '(' ∈ head := by simpa using behind
        rw [opens.head?_eq parenthesis] at apart
        exact ⟨head, rest, opens, parenthesis, apart⟩
  case mpr =>
    rintro ⟨head, rest, opens, parenthesis, apart⟩
    rw [← opens.head?_eq parenthesis] at apart
    simp only [isParametric, Text.cut?_eq_some_iff.mpr opens, Bool.and_eq_true, bne_iff_ne]
    exact ⟨apart, by simpa using parenthesis⟩

theorem IsMixinHead.fits (isHead : IsMixinHead head) :
    CodePoint.char '(' ∈ head ∧ head.head? ≠ some '@' := by
  obtain ⟨mark, name, parameters, isMark, -, rfl⟩ := isHead
  refine ⟨by simp, ?_⟩
  rcases isMark with rfl | rfl <;> simp

theorem IsMixinHead.behind_name (isHead : IsMixinHead head) :
    (head.tail.dropWhile isNameChar).head? = some '(' := by
  obtain ⟨mark, name, parameters, -, isName, rfl⟩ := isHead
  have stops : isNameChar '(' = false := by decide +kernel
  rw [List.tail_cons, List.dropWhile_append_of_pos isName.2,
    List.dropWhile_cons_of_neg (by simp [stops])]
  rfl

/-! ## What is kept -/

theorem isReferable_iff : isReferable body = true ↔ IsDefinition body ∨ IsLookAlike body := by
  rw [isReferable, Bool.or_eq_true, isDeclaration_iff, isParametric_iff]
  constructor
  case mp =>
    rintro (⟨rest, declares⟩ | ⟨head, rest, opens, parenthesis, apart⟩)
    · by_cases value : IsValue rest
      · exact .inl (.assigned declares value)
      · by_cases block : IsBlock rest
        · exact .inl (.detached declares block)
        · exact .inr (.declared declares value block)
    · by_cases isHead : IsMixinHead head
      · by_cases closed : ∃ inside : Text, rest = inside ++ "\x7d"
        · obtain ⟨inside, rfl⟩ := closed
          exact .inl (.mixin opens isHead)
        · exact .inr (.unclosed opens isHead closed)
      · exact .inr (.selector opens parenthesis apart isHead)
  case mpr =>
    rintro ((⟨declares, -⟩ | ⟨declares, -⟩ | ⟨opens, isHead⟩) |
      (⟨declares, -, -⟩ | ⟨opens, parenthesis, apart, -⟩ | ⟨opens, isHead, -⟩))
    · exact .inl ⟨_, declares⟩
    · exact .inl ⟨_, declares⟩
    · exact .inr ⟨_, _, opens, isHead.fits⟩
    · exact .inl ⟨_, declares⟩
    · exact .inr ⟨_, _, opens, parenthesis, apart⟩
    · exact .inr ⟨_, _, opens, isHead.fits⟩

theorem IsDefinition.not_isLookAlike (definition : IsDefinition body) : ¬IsLookAlike body := by
  have apart : ∀ {rest head behind}, Declares body rest → OpensBehind head body behind →
      CodePoint.char '(' ∈ head → head.head? ≠ some '@' → False := by
    intro rest head behind declares opens parenthesis other
    rw [← opens.head?_eq parenthesis] at other
    exact other declares.head?_eq
  intro lookAlike
  rcases definition with ⟨declares, value⟩ | ⟨declares, block⟩ | ⟨opens, isHead⟩
  case assigned =>
    rcases lookAlike with ⟨again, noValue, -⟩ | ⟨opens, parenthesis, other, -⟩ | ⟨opens, isHead, -⟩
    · exact noValue (declares.rest_eq again ▸ value)
    · exact apart declares opens parenthesis other
    · exact apart declares opens isHead.fits.1 isHead.fits.2
  case detached =>
    rcases lookAlike with ⟨again, -, noBlock⟩ | ⟨opens, parenthesis, other, -⟩ | ⟨opens, isHead, -⟩
    · exact noBlock (declares.rest_eq again ▸ block)
    · exact apart declares opens parenthesis other
    · exact apart declares opens isHead.fits.1 isHead.fits.2
  case mixin =>
    rcases lookAlike with ⟨declares, -, -⟩ | ⟨again, -, -, noHead⟩ | ⟨again, -, unclosed⟩
    · exact apart declares opens isHead.fits.1 isHead.fits.2
    · exact noHead ((opens.eq again).1 ▸ isHead)
    · exact unclosed ⟨_, (opens.eq again).2.symm⟩

theorem target?_eq_none {behind gap : Text} (isGap : IsGap gap)
    (left : behind.dropWhile isNameChar = gap ++ .char ':' :: rest) :
    ImportStatement.target? (ImportStatement.optionList? (Text.trimStart behind)).2 = none := by
  have marks : ∀ c ∈ (['(', '"', '\''] : Text), isNameChar c = false ∧ isBlank c = false := by
    decide +kernel
  cases behind with
  | nil => simp at left
  | cons c more =>
      cases inName : isNameChar c with
      | false =>
          rw [List.dropWhile_cons_of_neg (by simp [inName])] at left
          rw [left, trimStart_gap isGap]
          rfl
      | true =>
          have apart : ∀ mark ∈ (['(', '"', '\''] : Text), c ≠ mark := by
            rintro mark member rfl
            exact absurd inName (by simp [marks c member])
          have dark : isBlank c = false := by
            rw [← Bool.not_eq_true]
            intro blank
            exact absurd inName (by simp [isNameChar_of_isBlank blank])
          have noList : ImportStatement.optionList? (c :: more) = (none, c :: more) := by
            unfold ImportStatement.optionList?
            split
            · next same =>
                obtain ⟨rfl, -⟩ := List.cons.inj same
                exact absurd rfl (apart _ (.head _))
            · rfl
          have noAddress : Inert.address? (c :: more) = none := by
            cases begins : Text.after? "url(" (c :: more) with
            | none => rw [Inert.address?, begins]
            | some inside =>
                -- The parenthesis would stand where the gap and the colon do.
                have written : c :: more = "url" ++ .char '(' :: inside :=
                  (Text.after?_eq_some_iff.mp begins).trans rfl
                have letters : ∀ c ∈ ("url" : Text), isNameChar c = true := by decide +kernel
                have opens := marks '(' (.head _)
                rw [written, List.dropWhile_append_of_pos letters,
                  List.dropWhile_cons_of_neg (by simp [opens])] at left
                have trimmed := congrArg Text.trimStart left
                rw [trimStart_gap isGap, Text.trimStart,
                  List.dropWhile_cons_of_neg (by simp [opens])] at trimmed
                cases trimmed
          have noQuote : ∀ quote ∈ (['"', '\''] : Text),
              ImportStatement.quotedTarget? quote (c :: more) = none := by
            intro quote member
            have differs := apart quote (.tail _ member)
            simp [ImportStatement.quotedTarget?, Text.after?, Ne.symm differs]
          rw [Text.trimStart, List.dropWhile_cons_of_neg (by simp [dark]), noList]
          simp only [ImportStatement.target?, noAddress, noQuote _ (.head _),
            noQuote _ (.tail _ (.head _))]

/-- No import begins like a variable: its name is longer than the keyword, or a colon stands where
the target should. -/
theorem Declares.read?_eq_none (declares : Declares body rest) :
    ImportStatement.read? body = none := by
  obtain ⟨name, gap, isName, isGap, rfl⟩ := declares
  cases begins : Text.after? ImportStatement.keyword
      (.char '@' :: (name ++ (gap ++ .char ':' :: rest))) with
  | none => rw [ImportStatement.read?, begins]
  | some behind =>
      have letters : ∀ c ∈ ("import" : Text), isNameChar c = true := by decide +kernel
      have whole := (List.cons.inj (Text.after?_eq_some_iff.mp begins)).2
      have left : behind.dropWhile isNameChar = gap ++ .char ':' :: rest := by
        have dropped := congrArg (List.dropWhile isNameChar) whole
        rw [(takeWhile_name isName isGap).2] at dropped
        exact (dropped.trans (List.dropWhile_append_of_pos letters)).symm
      rw [ImportStatement.read?, begins]
      simp only [target?_eq_none isGap left]

theorem read?_eq_none_of_isReferable (kept : isReferable body = true) :
    ImportStatement.read? body = none := by
  rw [isReferable, Bool.or_eq_true, isDeclaration_iff, isParametric_iff] at kept
  rcases kept with ⟨rest, declares⟩ | ⟨head, rest, opens, parenthesis, apart⟩
  · exact declares.read?_eq_none
  · have noKeyword : Text.after? ImportStatement.keyword body = none := by
      rw [← opens.head?_eq parenthesis] at apart
      cases found : Text.after? ImportStatement.keyword body with
      | none => rfl
      | some behind =>
          rw [Text.after?_eq_some_iff.mp found] at apart
          exact absurd rfl apart
    rw [ImportStatement.read?, noKeyword]

/-- An import for reference keeps the bodies of those statements that are definitions, and of those
that look like one, and no statement is both. Nothing that is kept begins with an import. All that
is kept are definitions exactly if no statement looks like one. -/
theorem mem_referableBodies_iff (text : Text) :
    (∀ body, body ∈ referableBodies text ↔
      (∃ statement ∈ statements text, statementBody statement = body) ∧
        (IsDefinition body ∨ IsLookAlike body)) ∧
    (∀ body ∈ referableBodies text,
      ¬(IsDefinition body ∧ IsLookAlike body) ∧ ImportStatement.read? body = none) ∧
    ((∀ body ∈ referableBodies text, IsDefinition body) ↔
      ∀ statement ∈ statements text, ¬IsLookAlike (statementBody statement)) := by
  have kept : ∀ body, body ∈ referableBodies text ↔
      (∃ statement ∈ statements text, statementBody statement = body) ∧
        (IsDefinition body ∨ IsLookAlike body) := by
    intro body
    rw [referableBodies, List.mem_filter, List.mem_map, isReferable_iff]
  refine ⟨kept, fun body member => ⟨?_, ?_⟩, ?_, ?_⟩
  · rintro ⟨definition, lookAlike⟩
    exact definition.not_isLookAlike lookAlike
  · exact read?_eq_none_of_isReferable (List.mem_filter.mp member).2
  · intro definitions statement among lookAlike
    have member := (kept _).mpr ⟨⟨statement, among, rfl⟩, .inr lookAlike⟩
    exact (definitions _ member).not_isLookAlike lookAlike
  · intro none body member
    obtain ⟨⟨statement, among, rfl⟩, definition | lookAlike⟩ := (kept body).mp member
    · exact definition
    · exact absurd lookAlike (none statement among)

/-- A rule whose selector has a parenthesis in it is kept. -/
theorem selector_looks_like_mixin :
    ¬∀ text, ∀ body ∈ referableBodies text, IsDefinition body := by
  intro claimed
  let rule : Text := ".a:not(.b) \x7b color: red; \x7d"
  have member : rule ∈ referableBodies rule := by decide +kernel
  have opens : OpensBehind ".a:not(.b) " rule " color: red; \x7d" := ⟨rfl, by decide⟩
  refine (claimed rule rule member).not_isLookAlike (.selector opens (by decide) (by decide) ?_)
  intro isHead
  exact absurd isHead.behind_name (by decide +kernel)

end Inlay.Stylesheet

import Inlay.Proofs.Stylesheet.Nesting
import Inlay.Proofs.Stylesheet.Settled

/-!
# Balanced expansions

An expansion puts texts in the places of import statements. Where every text that is put
somewhere is closed before what follows there, and what is written in front of each import
statement is closed, the expanded text is read as the text it was made of, apart from these
places (`ReadAs`).
-/

set_option autoImplicit false

namespace Inlay.Stylesheet

/-! ## Texts that imports lead to -/

def mediaHead (condition : Text) : Text := "@media " ++ condition ++ " "

/-- A statement whose braces do not matter to the text around it, neither as it is written nor
in what the expansion writes of it. -/
structure IsRegular (referred : Bool) (statement : ImportStatement) : Prop where
  written : Stands referred (structureOf (spelling statement))
  plain : ImportStatement.staysImport statement.target statement.options = true →
    Stands referred (structureOf
      (ImportStatement.plainImport statement.target (Text.trimEnd statement.condition)))
  wrapped : statement.wrapping ≠ [] → Stands referred (structureOf (mediaHead statement.wrapping))

/-- What is written in front of each import statement is closed, so that the statement begins
outside of comments and strings whatever is put in the places of those before it. -/
def ImportsApart (referred : Bool) (pieces : List (Piece SheetToken)) : Prop :=
  ∀ front statement back, pieces = front ++ .token (.importing statement) :: back →
    IsClosed (structureOf (spellingOf front)) ∧ IsRegular referred statement

/-- What is known to follow in front of pieces: they go on as they are until the next import. -/
def sequelOf (outer : Sequel) : List (Piece SheetToken) → Sequel
  | [] => outer
  | .token (.importing _) :: _ => .anything
  | piece :: pieces => (sequelOf outer pieces).prepend (piece.render spelling)

/-- A way from an entry to a file, by the imports that lead there: whether one of them takes a
file for reference, whether the last one has the imports of its file followed, and what follows
the content of the file where it is put. -/
structure Way where
  referred : Bool
  followed : Bool
  sequel : Sequel
deriving DecidableEq

namespace Way

def entry : Way := ⟨false, true, .nothing⟩

/-- What is known to follow what replaces an import in front of pieces. Statements that are taken
out of a text are put elsewhere. -/
def sequelBefore (way : Way) (back : List (Piece SheetToken)) : Sequel :=
  if way.referred && !back.isEmpty then .anything else sequelOf way.sequel back

def through (way : Way) (statement : ImportStatement) (back : List (Piece SheetToken)) : Way where
  referred := statement.options.contains "reference" || way.referred
  followed := statement.isFollowed
  sequel :=
    -- The statements of a file that is taken for reference are read from its text alone.
    if statement.options.contains "reference" then .nothing
    else if statement.wrapping = [] then way.sequelBefore back
    else .lineEnd

end Way

/-- The ways by which the expansion of a file's text may reach another file, and the text of that
file. -/
inductive ReachedBy (context : StyleContext) (files : FileSystem) (file text : Text) :
    Way → Path → Text → Prop where
  | direct {statement : ImportStatement} {back : List (Piece SheetToken)} {found : Path}
      {content : Text} :
      .token (.importing statement) :: back <:+ SheetToken.scan.pieces text →
      importTarget context files file statement = .ok (.file found) →
      (Inquiry.readUnified .utf8 found).result files = .ok content →
      ReachedBy context files file text (Way.entry.through statement back) found content
  | onward {way : Way} {between found : Path} {inner content : Text}
      {statement : ImportStatement} {back : List (Piece SheetToken)} :
      ReachedBy context files file text way between inner →
      way.followed = true →
      .token (.importing statement) :: back <:+ SheetToken.scan.pieces inner →
      importTarget context files between.text statement = .ok (.file found) →
      (Inquiry.readUnified .utf8 found).result files = .ok content →
      ReachedBy context files file text (way.through statement back) found content

/-- The text of a file that can be put where a way leads. -/
structure Suits (way : Way) (content : Text) : Prop where
  balanced : checkBalanced content = .ok ()
  closed : IsClosedBefore way.sequel (structureOf content)
  settled : way.referred = true → IsSettled (structureOf content)
  apart : way.followed = true → ImportsApart way.referred (SheetToken.scan.pieces content)

/-! ## Deciding what a text needs -/

def standsAlone (text : Text) : Bool :=
  isShut (structureOf text) && depthAfter 0 (structureOf text) == some 0

theorem stands_of_standsAlone {text : Text} (alone : standsAlone text = true) :
    Stands false (structureOf text) := by
  rw [standsAlone, Bool.and_eq_true, beq_iff_eq] at alone
  exact ⟨isClosed_of_isShut alone.1, alone.2, fun asked => nomatch asked⟩

def isRegular (statement : ImportStatement) : Bool :=
  standsAlone (spelling statement) &&
    standsAlone
      (ImportStatement.plainImport statement.target (Text.trimEnd statement.condition)) &&
    standsAlone (mediaHead statement.wrapping)

theorem isRegular_sound {statement : ImportStatement} (regular : isRegular statement = true) :
    IsRegular false statement := by
  simp only [isRegular, Bool.and_eq_true] at regular
  obtain ⟨⟨written, plain⟩, wrapped⟩ := regular
  exact ⟨stands_of_standsAlone written, fun _ => stands_of_standsAlone plain,
    fun _ => stands_of_standsAlone wrapped⟩

/-- Whether the imports among pieces stand apart behind what is written in front of them. -/
def importsApart (lead : Text) : List (Piece SheetToken) → Bool
  | [] => true
  | .token (.importing statement) :: pieces =>
      isShut (structureOf lead) && isRegular statement &&
        importsApart (lead ++ spelling statement) pieces
  | .token (.inert token) :: pieces => importsApart (lead ++ spelling token) pieces
  | .char c :: pieces => importsApart (lead ++ [c]) pieces

theorem importsApart_cons {lead : List (Piece SheetToken)} {piece : Piece SheetToken}
    {pieces : List (Piece SheetToken)}
    (checked : importsApart (spellingOf lead) (piece :: pieces) = true) :
    importsApart (spellingOf (lead ++ [piece])) pieces = true ∧
      ∀ statement, piece = .token (.importing statement) →
        IsClosed (structureOf (spellingOf lead)) ∧ IsRegular false statement := by
  have longer : spellingOf (lead ++ [piece]) = spellingOf lead ++ piece.render spelling := by
    rw [spellingOf_append]
    simp [spellingOf]
  rw [longer]
  rcases piece with c | (statement | token)
  · exact ⟨checked, by simp⟩
  · simp only [importsApart, Bool.and_eq_true] at checked
    refine ⟨checked.2, fun own same => ?_⟩
    cases same
    exact ⟨isClosed_of_isShut checked.1.1, isRegular_sound checked.1.2⟩
  · exact ⟨checked, by simp⟩

theorem importsApart_sound {pieces : List (Piece SheetToken)}
    (checked : importsApart [] pieces = true) : ImportsApart false pieces := by
  suffices along : ∀ (pieces lead : List (Piece SheetToken)),
      importsApart (spellingOf lead) pieces = true → ∀ front statement back,
      pieces = front ++ .token (.importing statement) :: back →
        IsClosed (structureOf (spellingOf (lead ++ front))) ∧ IsRegular false statement from
    along pieces [] checked
  intro pieces
  induction pieces with
  | nil =>
      intro lead _ front statement back split
      cases front <;> cases split
  | cons piece pieces ih =>
      intro lead checked front statement back split
      obtain ⟨later, here⟩ := importsApart_cons checked
      cases front with
      | nil =>
          cases split
          rw [List.append_nil]
          exact here statement rfl
      | cons first front =>
          obtain ⟨rfl, rfl⟩ := List.cons.inj split
          simpa using ih (lead ++ [piece]) later front statement back rfl

/-! ## Listing the ways -/

section Ways

variable {context : StyleContext} {files : FileSystem} {text content : Text} {found : Path}
  {way : Way}

def waysFrom (context : StyleContext) (files : FileSystem) (importer : Text) (way : Way)
    (text : Text) : List (Way × Path × Text) :=
  (SheetToken.scan.pieces text).tails.filterMap fun
    | .token (.importing statement) :: back =>
        match importTarget context files importer statement with
        | .ok (.file found) =>
            ((Inquiry.readUnified .utf8 found).result files).toOption.map fun content =>
              (way.through statement back, found, content)
        | _ => none
    | _ => none

theorem mem_waysFrom {importer : Text} {statement : ImportStatement}
    {back : List (Piece SheetToken)}
    (stands : .token (.importing statement) :: back <:+ SheetToken.scan.pieces text)
    (leads : importTarget context files importer statement = .ok (.file found))
    (read : (Inquiry.readUnified .utf8 found).result files = .ok content) :
    (way.through statement back, found, content) ∈ waysFrom context files importer way text := by
  refine List.mem_filterMap.mpr ⟨_, (List.mem_tails _ _).mpr stands, ?_⟩
  simp [leads, read, Except.toOption]

/-- A list that holds the ways from an entry, and those that lead on from one of its own, holds
every way. -/
theorem ReachedBy.mem {file : Text}
    (reached : ReachedBy context files file text way found content)
    (among : List (Way × Path × Text))
    (direct : waysFrom context files file .entry text ⊆ among)
    (onward : ∀ reached ∈ among,
      waysFrom context files reached.2.1.text reached.1 reached.2.2 ⊆ among) :
    (way, found, content) ∈ among := by
  induction reached with
  | direct stands leads read => exact direct (mem_waysFrom stands leads read)
  | onward _ _ stands leads read ih => exact onward _ ih (mem_waysFrom stands leads read)

/-- Whether a text suits that is not taken for reference. -/
def suitsPlainly (way : Way) (content : Text) : Bool :=
  !way.referred && isShutBefore way.sequel content &&
    depthAfter 0 (structureOf content) == some 0 &&
    importsApart [] (SheetToken.scan.pieces content)

theorem suits_of_suitsPlainly (suits : suitsPlainly way content = true) : Suits way content := by
  simp only [suitsPlainly, Bool.and_eq_true, Bool.not_eq_true', beq_iff_eq] at suits
  obtain ⟨⟨⟨plain, shut⟩, balanced⟩, apart⟩ := suits
  refine ⟨checkBalanced_iff.mpr balanced, isClosedBefore_of_isShutBefore shut, ?_, fun _ => ?_⟩
  · rw [plain]
    exact fun asked => nomatch asked
  · rw [plain]
    exact importsApart_sound apart

theorem importsApart_of_none {referred : Bool} (none : importsOf text = []) :
    ImportsApart referred (SheetToken.scan.pieces text) := by
  intro front statement back split
  have stands : HasImport text statement := by
    rw [HasImport, split]
    simp
  have member := hasImport_iff.mp stands
  rw [none] at member
  cases member

end Ways

/-! ## How an expanded text is read -/

/-- What pieces with imports among them are read as, and what they are read as when something
else is put in the places of the imports: the stretches between the imports are read alike. -/
inductive ReadAs (way : Way) :
    List (Piece SheetToken) → List StructurePiece → List StructurePiece → Prop where
  | rest {stretch : List (Piece SheetToken)} :
      (∀ statement, .token (.importing statement) ∉ stretch) →
      ReadAs way stretch (structureOf (spellingOf stretch)) (structureOf (spellingOf stretch))
  | next {stretch back : List (Piece SheetToken)} {statement : ImportStatement}
      {image pieces expanded : List StructurePiece} :
      (∀ statement, .token (.importing statement) ∉ stretch) →
      IsClosed (structureOf (spellingOf stretch)) →
      Stands way.referred (structureOf (spelling statement)) →
      StandsBefore (way.sequelBefore back) way.referred image →
      ReadAs way back pieces expanded →
      ReadAs way (stretch ++ .token (.importing statement) :: back)
        (structureOf (spellingOf stretch) ++ (structureOf (spelling statement) ++ pieces))
        (structureOf (spellingOf stretch) ++ (image ++ expanded))

variable {way : Way} {sheet : List (Piece SheetToken)} {pieces expanded : List StructurePiece}

theorem ReadAs.depthAfter_eq (read : ReadAs way sheet pieces expanded) (depth : Nat) :
    depthAfter depth expanded = depthAfter depth pieces := by
  induction read generalizing depth with
  | rest => rfl
  | next _ _ written image _ ih =>
      rw [depthAfter_append, depthAfter_append]
      congr 1
      funext between
      rw [depthAfter_append, depthAfter_append, depthAfter_of_balanced image.balanced,
        depthAfter_of_balanced written.balanced]
      exact ih between

theorem allows_sequelOf_append {outer : Sequel} {stretch back : List (Piece SheetToken)}
    {rest : Text} (bare : ∀ statement, .token (.importing statement) ∉ stretch)
    (allowed : (sequelOf outer back).Allows rest) :
    (sequelOf outer (stretch ++ back)).Allows (spellingOf stretch ++ rest) := by
  induction stretch with
  | nil => exact allowed
  | cons piece stretch ih =>
      have later := ih fun statement member => bare statement (.tail _ member)
      have whole := later.prepend (piece.render spelling)
      rw [← List.append_assoc] at whole
      rcases piece with c | (statement | token)
      · exact whole
      · exact absurd (.head _) (bare statement)
      · exact whole

theorem ReadAs.allows {outer : Sequel} {rest : Text} (read : ReadAs way sheet pieces expanded)
    (allowed : outer.Allows rest) :
    (sequelOf outer sheet).Allows (spellingOf expanded ++ rest) := by
  cases read with
  | @rest stretch bare =>
      have nothing : (sequelOf outer []).Allows rest := allowed
      rw [spellingOf_structureOf]
      simpa using allows_sequelOf_append bare nothing
  | next bare =>
      rw [spellingOf_append, spellingOf_structureOf, List.append_assoc]
      exact allows_sequelOf_append bare (Sequel.anything_allows _)

theorem ReadAs.isClosedBefore (read : ReadAs way sheet pieces expanded)
    (closed : IsClosedBefore way.sequel pieces) : IsClosedBefore way.sequel expanded := by
  induction read with
  | rest => exact closed
  | @next stretch back statement image pieces expanded _ stretchClosed _ stands read ih =>
      intro rest allowed
      have behind : (way.sequelBefore back).Allows (spellingOf expanded ++ rest) := by
        unfold Way.sequelBefore
        split
        · exact Sequel.anything_allows _
        · exact read.allows allowed
      have later := ih closed.suffix.suffix rest allowed
      rw [spellingOf_append, spellingOf_append, List.append_assoc, List.append_assoc,
        stretchClosed, stands.closed _ behind, later, List.append_assoc, List.append_assoc]

theorem ReadAs.isSettled (referred : way.referred = true)
    (read : ReadAs way sheet pieces expanded) (settled : IsSettled pieces) :
    IsSettled expanded := by
  induction read with
  | rest => exact settled
  | @next stretch back statement image pieces expanded _ stretchClosed _ stands read ih =>
      have imageSettled := stands.settled referred
      refine settled.before.append stretchClosed ?_
      cases back with
      | nil =>
          -- Nothing of the text stands behind the image, so that its end does not matter.
          have none : expanded = [] := by
            generalize nothing : [] = sheet at read
            cases read with
            | rest =>
                cases nothing
                rfl
            | @next stretch => cases stretch <;> cases nothing
          rw [none, List.append_nil]
          exact imageSettled
      | cons piece back =>
          have closed := stands.closed
          rw [Way.sequelBefore, referred] at closed
          exact imageSettled.append closed.isClosed (ih settled.behind.behind)

/-- What replaces the imports of a text that can be put somewhere leaves it so. -/
theorem ReadAs.stands (read : ReadAs way sheet pieces expanded)
    (stands : StandsBefore way.sequel way.referred pieces) :
    StandsBefore way.sequel way.referred expanded where
  closed := read.isClosedBefore stands.closed
  balanced := (read.depthAfter_eq 0).trans stands.balanced
  settled asked := read.isSettled asked (stands.settled asked)

/-! ## What replaces an import statement -/

/-- A text that can be put in front of what is known to follow. Where something else follows, it
may be read otherwise. -/
def CanStand (sequel : Sequel) (referred : Bool) (text : Text) : Prop :=
  ∃ pieces, spellingOf pieces = text ∧ StandsBefore sequel referred pieces

theorem Stands.canStand {referred : Bool} {text : Text}
    (stands : Stands referred (structureOf text)) (sequel : Sequel) :
    CanStand sequel referred text :=
  ⟨structureOf text, spellingOf_structureOf text, stands.before sequel⟩

theorem canStand_underCondition {sequel : Sequel} {referred : Bool} {condition content : Text}
    (head : condition ≠ [] → Stands referred (structureOf (mediaHead condition)))
    (inner : CanStand (if condition = [] then sequel else .lineEnd) referred content) :
    CanStand sequel referred (underCondition condition content) := by
  unfold underCondition
  by_cases bare : condition = []
  · rw [if_pos bare] at inner ⊢
    exact inner
  · rw [if_neg bare] at inner ⊢
    obtain ⟨pieces, rfl, stands⟩ := inner
    have block := ((stands_feed referred).text_append stands.text_feed).text_braced
    have whole := ((head bare).text_append block).canStand sequel
    convert whole using 1
    simp [mediaHead, Text.ofString]

theorem plain_of_importTarget {context : StyleContext} {files : FileSystem} {file image : Text}
    {statement : ImportStatement}
    (leads : importTarget context files file statement = .ok (.plain image)) :
    ImportStatement.staysImport statement.target statement.options = true ∧
      image =
        ImportStatement.plainImport statement.target (Text.trimEnd statement.condition) := by
  unfold importTarget at leads
  split at leads
  · next stays =>
      cases leads
      exact ⟨stays, rfl⟩
  · dsimp only at leads
    split at leads
    · cases leads
    · cases leads
    · split at leads <;> cases leads

theorem Suits.stands {content : Text} (suits : Suits way content) :
    StandsBefore way.sequel way.referred (structureOf content) where
  closed := suits.closed
  balanced := checkBalanced_iff.mp suits.balanced
  settled := suits.settled

/-- The content of a file that suits can be put where its import stands, if it can be put there
when its own imports are replaced. -/
theorem canStand_of_contentComposes {nested : Placement → Path → Text → Composition}
    {placement : Placement} {statement : ImportStatement} {back : List (Piece SheetToken)}
    {found : Path} {content inner : Text} {events : List ImportEvent}
    (composed : ContentComposes nested placement statement.options found content events
      (.ok inner))
    (suits : Suits (way.through statement back) content)
    (nestedStands : statement.isFollowed = true → ∀ placement whole,
      nested placement found content events (.ok whole) →
        CanStand (way.through statement back).sequel (way.through statement back).referred
          whole) :
    CanStand (if statement.wrapping = [] then way.sequelBefore back else .lineEnd)
      way.referred inner := by
  unfold ContentComposes at composed
  have stands := suits.stands
  simp only [Way.through] at stands nestedStands
  -- A file that is taken for reference is followed even if it is inline as well.
  by_cases referring : statement.options.contains "reference" = true
  · rw [if_pos referring] at composed nestedStands
    obtain ⟨outcome, composed, same⟩ := composed
    have followed : statement.isFollowed = true := by
      rw [ImportStatement.isFollowed, referring]
      rfl
    cases outcome with
    | error fault => cases same
    | ok whole =>
        cases same
        obtain ⟨pieces, rfl, inside⟩ := nestedStands followed .inPlace whole composed
        rw [referring, Bool.true_or] at inside
        rw [← inside.closed.structureOf_eq] at inside
        exact (stands_referenceOnly _ (inside.settled rfl) inside.balanced).canStand _
  · rw [if_neg referring] at composed
    rw [if_neg referring, Bool.eq_false_iff.mpr referring, Bool.false_or] at stands nestedStands
    by_cases verbatim : statement.options.contains "inline" = true
    · rw [if_pos verbatim] at composed
      cases composed.2
      exact ⟨structureOf content, spellingOf_structureOf content, stands⟩
    · rw [if_neg verbatim] at composed
      have followed : statement.isFollowed = true := by
        rw [ImportStatement.isFollowed, Bool.eq_false_iff.mpr verbatim]
        exact Bool.or_true _
      exact nestedStands followed placement inner composed

/-! ## Expanding the imports of a text -/

theorem ImportsApart.behind {referred : Bool} {lead back : List (Piece SheetToken)}
    {statement : ImportStatement}
    (apart : ImportsApart referred (lead ++ .token (.importing statement) :: back)) :
    ImportsApart referred back := by
  rintro front other behind rfl
  obtain ⟨leadClosed, regular⟩ := apart lead statement _ rfl
  obtain ⟨closed, otherRegular⟩ :=
    apart (lead ++ .token (.importing statement) :: front) other behind (by simp)
  have spelled : spellingOf (lead ++ .token (.importing statement) :: front) =
      spellingOf lead ++ (spelling statement ++ spellingOf front) := spellingOf_append _ _
  rw [spelled, leadClosed.structureOf_append, regular.written.closed.structureOf_append] at closed
  exact ⟨closed.suffix.suffix, otherRegular⟩

theorem readAs_of_piecesCompose {replaced : ImportStatement → Composition}
    {included : Path → Prop} {outcome : Except Fault Text} {whole : Text}
    {events : List ImportEvent} (composed : PiecesCompose replaced sheet events outcome)
    (images : ∀ statement back own image, .token (.importing statement) :: back <:+ sheet →
      IsRegular way.referred statement → (∀ found ∈ contributions own, included found) →
      replaced statement own (.ok image) → CanStand (way.sequelBefore back) way.referred image)
    (lead : List (Piece SheetToken)) (bare : ∀ statement, .token (.importing statement) ∉ lead)
    (apart : ImportsApart way.referred (lead ++ sheet))
    (held : ∀ found ∈ contributions events, included found) (done : outcome = .ok whole) :
    ∃ expanded, spellingOf expanded = spellingOf lead ++ whole ∧
      ReadAs way (lead ++ sheet) (structureOf (spellingOf (lead ++ sheet))) expanded := by
  -- The stretch in front of the pieces that are left grows until the next import.
  induction composed generalizing lead whole with
  | nil =>
      cases done
      rw [List.append_nil, List.append_nil]
      exact ⟨_, spellingOf_structureOf _, .rest bare⟩
  | @char c pieces events outcome _ ih =>
      cases outcome with
      | error fault => cases done
      | ok inner =>
          cases done
          have later := ih (fun s back own image stands =>
              images s back own image (stands.trans (List.suffix_cons _ _)))
            (lead ++ [.char c]) (by simpa using bare) (by simpa using apart) held rfl
          rw [List.append_assoc, spellingOf_append lead [.char c], List.append_assoc] at later
          exact later
  | @inert token pieces events outcome _ ih =>
      cases outcome with
      | error fault => cases done
      | ok inner =>
          cases done
          have later := ih (fun s back own image stands =>
              images s back own image (stands.trans (List.suffix_cons _ _)))
            (lead ++ [.token (.inert token)]) (by simpa using bare) (by simpa using apart) held rfl
          rw [List.append_assoc, spellingOf_append lead [.token (.inert token)],
            List.append_assoc] at later
          have spelled : spellingOf [Piece.token (SheetToken.inert token)] = spelling token :=
            List.append_nil _
          rw [spelled] at later
          exact later
  | failed => cases done
  | @replaced statement pieces own more image outcome ownComposed _ ih =>
      cases outcome with
      | error fault => cases done
      | ok inner =>
          cases done
          obtain ⟨closed, regular⟩ := apart lead statement pieces rfl
          rw [contributions_append] at held
          obtain ⟨written, rfl, stands⟩ := images statement pieces own image
            (List.suffix_refl _) regular
            (fun found member => held found (List.mem_append_left _ member)) ownComposed
          obtain ⟨expanded, spelled, read⟩ := ih (fun s back own image stands =>
              images s back own image (stands.trans (List.suffix_cons _ _)))
            [] (by simp) apart.behind
            (fun found member => held found (List.mem_append_right _ member)) rfl
          refine ⟨structureOf (spellingOf lead) ++ (written ++ expanded), ?_, ?_⟩
          · rw [spellingOf_append, spellingOf_append, spellingOf_structureOf, spelled]
            rfl
          · have whole : spellingOf (lead ++ .token (.importing statement) :: pieces) =
                spellingOf lead ++ (spelling statement ++ spellingOf pieces) :=
              spellingOf_append _ _
            rw [whole, closed.structureOf_append, regular.written.closed.structureOf_append]
            exact .next bare closed regular.written stands read

theorem canStand_of_statementComposes {context : StyleContext} {files : FileSystem}
    {nested : Placement → Path → Text → Composition} {placement : Placement}
    {importer image : Text} {statement : ImportStatement} {own : List ImportEvent}
    {sequel : Sequel} {referred : Bool} (regular : IsRegular referred statement)
    (composed : StatementComposes files nested placement importer statement
      (importTarget context files importer statement) own (.ok image))
    (contents : ∀ found content events inner,
      importTarget context files importer statement = .ok (.file found) →
      (Inquiry.readUnified .utf8 found).result files = .ok content →
      found :: contributions events ⊆ contributions own →
      ContentComposes nested placement statement.options found content events (.ok inner) →
      CanStand (if statement.wrapping = [] then sequel else .lineEnd) referred inner) :
    CanStand sequel referred image := by
  have nothing : CanStand sequel referred [] := ⟨[], rfl, (Stands.nil referred).before sequel⟩
  generalize leads : importTarget context files importer statement = target at composed contents
  generalize done : (.ok image : Except Fault Text) = outcome at composed
  cases composed with
  | fault | unreadable => cases done
  | missing | passed =>
      cases done
      exact nothing
  | plain =>
      cases done
      obtain ⟨stays, rfl⟩ := plain_of_importTarget leads
      cases placement with
      | inPlace => exact (regular.plain stays).canStand sequel
      | hoisted => exact nothing
  | @included found content events outcome read contentComposed =>
      cases outcome with
      | error fault => cases done
      | ok inner =>
          cases done
          have among : found :: contributions events ⊆
              contributions (⟨importer, statement, found, true⟩ :: events) := by
            rw [contributions_cons]
            exact List.Subset.refl _
          exact canStand_underCondition regular.wrapped
            (contents found content events inner rfl read among contentComposed)

/-- A text is expanded so that it is read alike, if what its imports lead to suits. -/
theorem readAs_of_textComposes {context : StyleContext} {files : FileSystem}
    {placement : Placement} {entry entryText importer text whole : Text} {included : Path → Prop}
    {events : List ImportEvent} (levels : Nat)
    (suits : ∀ way found content,
      ReachedBy context files entry entryText way found content → included found →
        Suits way content)
    (onward : ∀ statement back found content,
      .token (.importing statement) :: back <:+ SheetToken.scan.pieces text →
      importTarget context files importer statement = .ok (.file found) →
      (Inquiry.readUnified .utf8 found).result files = .ok content →
      ReachedBy context files entry entryText (way.through statement back) found content)
    (apart : ImportsApart way.referred (SheetToken.scan.pieces text))
    (held : ∀ found ∈ contributions events, included found)
    (composed : TextComposes context files levels placement importer text events (.ok whole)) :
    ∃ expanded, spellingOf expanded = whole ∧
      ReadAs way (SheetToken.scan.pieces text) (structureOf text) expanded := by
  -- By induction on the levels of files that are left: the way to a nested text is longer by one.
  induction levels generalizing placement importer text whole way events with
  | zero => cases composed.2
  | succ levels ih =>
      have images : ∀ statement back own image,
          .token (.importing statement) :: back <:+ SheetToken.scan.pieces text →
          IsRegular way.referred statement → (∀ found ∈ contributions own, included found) →
          StatementComposes files
            (fun placement path => TextComposes context files levels placement path.text)
            placement importer statement (importTarget context files importer statement) own
            (.ok image) →
          CanStand (way.sequelBefore back) way.referred image := by
        intro statement back own image stands regular ownHeld replaced
        refine canStand_of_statementComposes regular replaced ?_
        intro found content inside inner leads read among contentComposed
        have reached := onward statement back found content stands leads read
        have suitable := suits _ _ _ reached (ownHeld found (among (.head _)))
        refine canStand_of_contentComposes contentComposed suitable ?_
        intro followed placement nestedWhole nestedComposed
        have nestedOnward : ∀ next behind target inner,
            .token (.importing next) :: behind <:+ SheetToken.scan.pieces content →
            importTarget context files found.text next = .ok (.file target) →
            (Inquiry.readUnified .utf8 target).result files = .ok inner →
            ReachedBy context files entry entryText
              ((way.through statement back).through next behind) target inner :=
          fun _ _ _ _ => reached.onward followed
        obtain ⟨expanded, spelled, nestedRead⟩ := ih nestedOnward (suitable.apart followed)
          (fun other member => ownHeld other (among (.tail _ member))) nestedComposed
        exact ⟨expanded, spelled, nestedRead.stands suitable.stands⟩
      have read := readAs_of_piecesCompose composed images [] (by simp) apart held rfl
      rw [List.nil_append, Recognizer.spelling_pieces] at read
      exact read

/-- Every file that was included suits, by whatever way it may be reached. -/
def IncludesSuitable (context : StyleContext) (files : FileSystem) (file text : Text)
    (included : List Path) : Prop :=
  ∀ way found content, ReachedBy context files file text way found content →
    found ∈ included → Suits way content

variable {context : StyleContext} {files : FileSystem} {placement : Placement}

theorem readAs_of_expandLevel {levels : Nat} {file text : Text} {progress : Progress}
    {expansion : Expansion} (apart : ImportsApart false (SheetToken.scan.pieces text))
    (done : (expandLevel context levels placement file text progress).result files =
      .ok expansion)
    (suitable : IncludesSuitable context files file text expansion.2.files) :
    ReadAs .entry (SheetToken.scan.pieces text) (structureOf text) (structureOf expansion.1) := by
  have explained : Explained (TextComposes context files levels placement file text) progress
      ((expandLevel context levels placement file text progress).result files) :=
    explained_expandLevel levels file text progress
  rw [done] at explained
  obtain ⟨events, composed, -, follows⟩ := explained
  obtain ⟨-, included⟩ := follows expansion rfl
  have held : ∀ found ∈ contributions events, found ∈ expansion.2.files := by
    intro found member
    rw [included]
    exact List.mem_append_right _ member
  obtain ⟨expanded, spelled, read⟩ := readAs_of_textComposes levels suitable
    (fun _ _ _ _ => .direct) apart held composed
  -- Nothing follows the text of an entry, so that its expansion is read as what it was made of.
  have closed := read.isClosedBefore (isClosedBefore_nothing text)
  rw [← spelled, closed.structureOf_eq]
  exact read

/-- Where the included files suit, an expansion leaves the braces of a text in pairs, and reads
what stands between its imports as it is read in the text itself. This holds of a text that is
expanded and of every file that is expanded in turn, whatever was included before. -/
theorem expand_keeps_structure (context : StyleContext) (files : FileSystem)
    (placement : Placement) (file text : Text) (balanced : checkBalanced text = .ok ())
    (apart : ImportsApart false (SheetToken.scan.pieces text)) :
    (∀ expansion, (expand context placement file text).result files = .ok expansion →
      IncludesSuitable context files file text expansion.2.files →
      checkBalanced expansion.1 = .ok () ∧
        ReadAs .entry (SheetToken.scan.pieces text) (structureOf text)
          (structureOf expansion.1)) ∧
    (∀ levels progress expansion,
      (expandLevel context levels placement file text progress).result files = .ok expansion →
      IncludesSuitable context files file text expansion.2.files →
      checkBalanced expansion.1 = .ok () ∧
        ReadAs .entry (SheetToken.scan.pieces text) (structureOf text)
          (structureOf expansion.1)) := by
  have onLevel : ∀ levels progress expansion,
      (expandLevel context levels placement file text progress).result files = .ok expansion →
      IncludesSuitable context files file text expansion.2.files →
      checkBalanced expansion.1 = .ok () ∧
        ReadAs .entry (SheetToken.scan.pieces text) (structureOf text)
          (structureOf expansion.1) := by
    intro levels progress expansion done suitable
    have read := readAs_of_expandLevel apart done suitable
    rw [checkBalanced_iff] at balanced ⊢
    exact ⟨(read.depthAfter_eq 0).trans balanced, read⟩
  refine ⟨fun expansion done suitable => ?_, onLevel⟩
  rw [result_expand] at done
  split at done
  · cases done
  · exact onLevel _ _ expansion done suitable

/-! ## Comments at the end of a file -/

/-- A file that imports another one verbatim and ends within a comment, and a file to be taken for
reference. -/
def closedFiles : FileSystem where
  entries := [(["b.less"], .file (Utf8.encode "@import (inline) 'd.less'; // b")),
    (["c.less"], .file (Utf8.encode "@c: 1;")), (["d.less"], .file (Utf8.encode ".d \x7b \x7d"))]
  workingDirectory := []

def closedEntry : Text :=
  "@import 'b.less';\n@import (reference) 'c.less' screen;\n.a \x7b \x7d\n"

theorem suits_variable (way : Way) : Suits way "@c: 1;" := by
  have name : IsClosed (structureOf "@c: 1") := isClosed_of_isShut (by decide +kernel)
  have semicolon : IsClosed (structureOf ";") := isClosed_of_isShut (by decide +kernel)
  have whole : IsClosed (structureOf "@c: 1;") := isClosed_of_isShut (by decide +kernel)
  refine ⟨by decide +kernel, whole.before _, fun _ => ?_, fun _ => ?_⟩
  · exact (isSettled_chars "@c: 1").append name (isSettled_singleton semicolon fun _ => by simp)
  · exact importsApart_of_none (by decide +kernel)

theorem expand_keeps_structure_of_closedFiles :
    checkBalanced closedEntry = .ok () ∧
      ImportsApart false (SheetToken.scan.pieces closedEntry) ∧
      ∃ expansion, (expand plainContext .inPlace "entry" closedEntry).result closedFiles =
          .ok expansion ∧
        IncludesSuitable plainContext closedFiles "entry" closedEntry expansion.2.files ∧
        checkBalanced expansion.1 = .ok () ∧
        ReadAs .entry (SheetToken.scan.pieces closedEntry) (structureOf closedEntry)
          (structureOf expansion.1) := by
  have balanced : checkBalanced closedEntry = .ok () := by decide +kernel
  have apart : ImportsApart false (SheetToken.scan.pieces closedEntry) :=
    importsApart_sound (by decide +kernel)
  have suitable : ∀ included,
      IncludesSuitable plainContext closedFiles "entry" closedEntry included := by
    intro included way found content reached _
    let direct := waysFrom plainContext closedFiles "entry" .entry closedEntry
    let among := direct ++ direct.flatMap fun reached =>
      waysFrom plainContext closedFiles reached.2.1.text reached.1 reached.2.2
    have listed := reached.mem among (List.subset_append_left _ _) (by decide +kernel)
    have checked : ∀ reached ∈ among,
        suitsPlainly reached.1 reached.2.2 = true ∨ reached.2.2 = "@c: 1;" := by decide +kernel
    rcases checked _ listed with plain | rfl
    · exact suits_of_suitsPlainly plain
    · exact suits_variable way
  have succeeds : ((expand plainContext .inPlace "entry" closedEntry).result
      closedFiles).isOk := by decide +kernel
  cases done : (expand plainContext .inPlace "entry" closedEntry).result closedFiles with
  | error fault =>
      rw [done] at succeeds
      cases succeeds
  | ok expansion =>
      have kept := (expand_keeps_structure plainContext closedFiles .inPlace "entry" closedEntry
        balanced apart).1 expansion done (suitable _)
      exact ⟨balanced, apart, expansion, rfl, suitable _, kept⟩

/-- A file whose comment is ended by nothing but the end of the file. -/
def openFiles : FileSystem where
  entries := [(["b.less"], .file (Utf8.encode "// b"))]
  workingDirectory := []

/-- Where the comment is put in front of a brace, the brace is lost. -/
theorem comment_may_swallow_brace :
    ¬∀ (context : StyleContext) (files : FileSystem) (placement : Placement) (file text : Text)
        (expansion : Expansion),
      (expand context placement file text).result files = .ok expansion →
      checkBalanced text = .ok () →
      (∀ found ∈ expansion.2.files,
        ∀ content ∈ ((Inquiry.readUnified .utf8 found).result files).toOption,
          checkBalanced content = .ok ()) →
      checkBalanced expansion.1 = .ok () := by
  intro claimed
  let text : Text := ".a \x7b @import 'b.less'; \x7d"
  let progress : Progress := ⟨⟨.root, ["entry"]⟩, [⟨⟨.root, ["b.less"]⟩, false⟩], []⟩
  have expanded : (expand plainContext .inPlace "entry" text).result openFiles =
      .ok (".a \x7b // b \x7d", progress) := by decide +kernel
  have balanced := claimed _ _ _ _ text _ expanded (by decide +kernel) (by decide +kernel)
  have unbalanced : checkBalanced ".a \x7b // b \x7d" ≠ .ok () := by decide +kernel
  exact unbalanced balanced


end Inlay.Stylesheet

import Inlay.Proofs.Component.Rerun
import Inlay.Proofs.Component.Revision
import Inlay.Proofs.Encoding.RoundTrip
import Inlay.Proofs.Literal.Escaping

/-!
# What stays of a source file

A source file in UTF-8 is written anew as its text with the references replaced. Byte by byte
(`Edit`), all stays outside the template references and outside the style reference that is
replaced. That one is found in the templated text; where no template holds the keyword of style
references it begins among the characters of the source.
-/

set_option autoImplicit false

namespace Inlay

/-- A part of a file that is written anew: bytes that stay, or bytes with others in their
place. -/
inductive Edit where
  | kept (bytes : Bytes)
  | replaced (old new : Bytes)
deriving Repr, DecidableEq

namespace Edit

def old : Edit → Bytes
  | .kept bytes => bytes
  | .replaced old _ => old

def new : Edit → Bytes
  | .kept bytes => bytes
  | .replaced _ new => new

/-- The edits of pieces whose tokens are replaced by their images, and nothing else. -/
def ofPieces {α : Type} [Spelled α] (image : α → Text) (pieces : List (Piece α)) : List Edit :=
  pieces.map fun
    | .char c => .kept (Utf8.encodeCodePoint c)
    | .token token => .replaced (Utf8.encode (spelling token)) (Utf8.encode (image token))

variable {α : Type} [Spelled α]

theorem old_ofPieces (image : α → Text) (pieces : List (Piece α)) :
    (ofPieces image pieces).flatMap old = Utf8.encode (spellingOf pieces) := by
  induction pieces with
  | nil => rfl
  | cons piece pieces ih =>
      cases piece with
      | char c => exact congrArg (Utf8.encodeCodePoint c ++ ·) ih
      | token token =>
          exact (congrArg (Utf8.encode (spelling token) ++ ·) ih).trans
            (Utf8.encode_append _ _).symm

theorem new_ofPieces (image : α → Text) (pieces : List (Piece α)) :
    (ofPieces image pieces).flatMap new = Utf8.encode (renderAll image pieces) := by
  induction pieces with
  | nil => rfl
  | cons piece pieces ih =>
      cases piece with
      | char c => exact congrArg (Utf8.encodeCodePoint c ++ ·) ih
      | token token =>
          exact (congrArg (Utf8.encode (image token) ++ ·) ih).trans
            (Utf8.encode_append _ _).symm

end Edit

/-! ## Cuts of a text with images -/

section Cuts

variable {α : Type} {image : α → Text} {pieces : List (Piece α)} {before behind : Text}

theorem renderAll_append (front back : List (Piece α)) :
    renderAll image (front ++ back) = renderAll image front ++ renderAll image back :=
  List.flatMap_append

/-- A text with images is cut between two pieces, or inside an image. -/
theorem exists_cut (split : renderAll image pieces = before ++ behind) :
    ∃ front back lead, pieces = front ++ back ∧ before = renderAll image front ++ lead ∧
      renderAll image back = lead ++ behind ∧
      (lead = [] ∨ ∃ token others, back = .token token :: others ∧
        lead.length < (image token).length) := by
  induction pieces generalizing before with
  | nil =>
      obtain ⟨rfl, rfl⟩ := List.append_eq_nil_iff.mp split.symm
      exact ⟨[], [], [], rfl, rfl, rfl, .inl rfl⟩
  | cons piece pieces ih =>
      cases piece with
      | char c =>
          cases before with
          | nil => exact ⟨[], .char c :: pieces, [], rfl, rfl, split, .inl rfl⟩
          | cons d before =>
              obtain ⟨rfl, later⟩ := List.cons.inj split
              obtain ⟨front, back, lead, rfl, rfl, rendered, inside⟩ := ih later
              exact ⟨.char c :: front, back, lead, rfl, rfl, rendered, inside⟩
      | token token =>
          by_cases short : before.length < (image token).length
          · exact ⟨[], .token token :: pieces, before, rfl, rfl, split,
              .inr ⟨token, pieces, rfl, short⟩⟩
          · have whole : image token ++ renderAll image pieces = before ++ behind := split
            have starts : image token <+: before :=
              List.prefix_of_prefix_length_le ⟨_, whole⟩ (List.prefix_append _ _)
                (Nat.le_of_not_lt short)
            obtain ⟨more, rfl⟩ := starts
            rw [List.append_assoc, List.append_cancel_left_eq] at whole
            obtain ⟨front, back, lead, rfl, rfl, rendered, inside⟩ := ih whole
            refine ⟨.token token :: front, back, lead, rfl, ?_, rendered, inside⟩
            exact (List.append_assoc _ _ _).symm

theorem exists_cut_behind (split : renderAll image pieces = before ++ behind) :
    ∃ front back rest, pieces = front ++ back ∧ renderAll image front = before ++ rest ∧
      behind = rest ++ renderAll image back ∧
      (rest = [] ∨ ∃ others token, front = others ++ [.token token] ∧
        rest.length < (image token).length) := by
  obtain ⟨front, back, lead, rfl, rfl, rendered, inside⟩ := exists_cut split
  by_cases empty : lead = []
  · subst empty
    exact ⟨front, back, [], rfl, by simp, rendered.symm, .inl rfl⟩
  · obtain ⟨token, others, rfl, short⟩ := inside.resolve_left empty
    have whole : image token ++ renderAll image others = lead ++ behind := rendered
    obtain ⟨rest, same⟩ : lead <+: image token :=
      List.prefix_of_prefix_length_le (List.prefix_append _ _) ⟨_, whole⟩ (Nat.le_of_lt short)
    rw [← same, List.append_assoc, List.append_cancel_left_eq] at whole
    refine ⟨front ++ [.token token], others, rest, by simp, ?_, whole.symm,
      .inr ⟨front, token, rfl, ?_⟩⟩
    · simp [renderAll, Piece.render, ← same]
    · have filled := List.length_pos_iff.mpr empty
      rw [← same, List.length_append]
      omega

end Cuts

namespace Component

variable {setting : Setting} {race : Race} {files : FileSystem} {resolve : Text → Path}
  {path : Path} {image : TemplateReference → Text} {source text : Text} {charset : Charset}
  {reference : StyleReference}

/-- The pieces of a source that the first style reference of the templated source covers, wholly
or in part, between those in front of it and those behind it. The first one and the last one may
be templates of which a part stands outside the reference. -/
structure StyleSpan (image : TemplateReference → Text) (source : Text)
    (reference : StyleReference) where
  front : List (Piece TemplateReference)
  covered : List (Piece TemplateReference)
  back : List (Piece TemplateReference)
  lead : Text
  rest : Text
  pieces : TemplateReference.scan.pieces source = front ++ (covered ++ back)
  covers : renderAll image covered = lead ++ (spelling reference ++ rest)
  found : StyleReference.scan.search? (TemplateReference.scan.replace image source) =
    some (renderAll image front ++ lead, reference, rest ++ renderAll image back)
  leadInside : lead = [] ∨ ∃ token others, covered = .token token :: others ∧
    lead.length < (image token).length
  restInside : rest = [] ∨ ∃ others token, covered = others ++ [.token token] ∧
    rest.length < (image token).length

/-- The edits of a source whose covered pieces are written anew with the styles of the reference
in its place. -/
def StyleSpan.edits (span : StyleSpan image source reference) (bodies : List Text) : List Edit :=
  Edit.ofPieces image span.front ++
    .replaced (Utf8.encode (spellingOf span.covered))
      (Utf8.encode (span.lead ++ (stylesProperty bodies ++ span.rest))) ::
    Edit.ofPieces image span.back

/-- The edits that inline the references of a source. -/
inductive InlinesBy (setting : Setting) (files : FileSystem) (resolve : Text → Path)
    (image : TemplateReference → Text) (source : Text) : List Edit → Prop where
  | unstyled :
      StyleReference.scan.search? (TemplateReference.scan.replace image source) = none →
      InlinesBy setting files resolve image source
        (Edit.ofPieces image (TemplateReference.scan.pieces source))
  | styled {reference : StyleReference} {bodies : List Text}
      (span : StyleSpan image source reference) :
      LoadsStyles setting files resolve reference bodies →
      InlinesBy setting files resolve image source (span.edits bodies)

theorem exists_styleSpan {before behind : Text}
    (found : StyleReference.scan.search? (TemplateReference.scan.replace image source) =
      some (before, reference, behind)) :
    ∃ span : StyleSpan image source reference,
      before = renderAll image span.front ++ span.lead ∧
        behind = span.rest ++ renderAll image span.back := by
  have split : renderAll image (TemplateReference.scan.pieces source) =
      before ++ (spelling reference ++ behind) := (Recognizer.search?_split found).1
  obtain ⟨front, later, lead, pieces, rfl, rendered, leadInside⟩ := exists_cut split
  rw [← List.append_assoc] at rendered
  obtain ⟨covered, back, rest, rfl, covers, rfl, restInside⟩ := exists_cut_behind rendered
  rw [List.append_assoc] at covers
  refine ⟨⟨front, covered, back, lead, rest, pieces, covers, found, ?_, restInside⟩, rfl, rfl⟩
  refine leadInside.imp_right ?_
  rintro ⟨token, others, starts, short⟩
  cases covered with
  | nil =>
      have empty := (List.append_eq_nil_iff.mp (List.append_eq_nil_iff.mp covers.symm).2).1
      exact absurd empty reference.spelling_ne_nil
  | cons piece covered =>
      obtain ⟨rfl, -⟩ := List.cons.inj starts
      exact ⟨token, covered, rfl, short⟩

theorem StyleSpan.source_eq (span : StyleSpan image source reference) :
    spellingOf span.front ++ (spellingOf span.covered ++ spellingOf span.back) = source := by
  have whole := TemplateReference.scan.spelling_pieces source
  rw [span.pieces] at whole
  simpa only [spellingOf, List.flatMap_append] using whole

theorem StyleSpan.old_edits (span : StyleSpan image source reference) (bodies : List Text) :
    (span.edits bodies).flatMap Edit.old = Utf8.encode source := by
  rw [edits, List.flatMap_append, List.flatMap_cons, Edit.old_ofPieces, Edit.old_ofPieces,
    Edit.old, ← Utf8.encode_append, ← Utf8.encode_append]
  exact congrArg Utf8.encode span.source_eq

theorem StyleSpan.new_edits (span : StyleSpan image source reference) (bodies : List Text) :
    (span.edits bodies).flatMap Edit.new =
      Utf8.encode (renderAll image span.front ++ span.lead ++ stylesProperty bodies ++
        (span.rest ++ renderAll image span.back)) := by
  rw [edits, List.flatMap_append, List.flatMap_cons, Edit.new_ofPieces, Edit.new_ofPieces]
  simp only [Edit.new, Utf8.encode_append, List.append_assoc]

theorem exists_edits_of_inlineContent
    (done : (inlineContent setting race resolve source).result files = .ok text) :
    ∃ edits, InlinesBy setting files resolve
        (templateImage files resolve setting.charset) source edits ∧
      edits.flatMap Edit.old = Utf8.encode source ∧ edits.flatMap Edit.new = Utf8.encode text := by
  obtain ⟨-, styled⟩ := templated_of_result_inlineContent done
  unfold templated at styled
  cases found : StyleReference.scan.search? (TemplateReference.scan.replace
      (templateImage files resolve setting.charset) source) with
  | none =>
      rw [result_inlineStyles_of_none found] at styled
      cases styled
      refine ⟨_, .unstyled found, ?_, Edit.new_ofPieces _ _⟩
      rw [Edit.old_ofPieces, Recognizer.spelling_pieces]
  | some result =>
      obtain ⟨before, reference, behind⟩ := result
      obtain ⟨bodies, loaded, rfl⟩ := (result_inlineStyles_of_some found).mp styled
      obtain ⟨span, rfl, rfl⟩ := exists_styleSpan found
      exact ⟨_, .styled span loaded, span.old_edits bodies, span.new_edits bodies⟩

/-! ## The characters of the source -/

/-- No template that the source refers to holds the keyword of style references. -/
def TemplatesLackStyles (files : FileSystem) (resolve : Text → Path)
    (charset : Charset) (source : Text) : Prop :=
  ∀ reference ∈ tokensOf (TemplateReference.scan.pieces source),
    ∀ content ∈
        ((Inquiry.readResource charset (resolve reference.path)).result files).toOption,
      ¬ StyleReference.keyword <:+: content

instance (files : FileSystem) (resolve : Text → Path) (charset : Charset) (source : Text) :
    Decidable (TemplatesLackStyles files resolve charset source) :=
  inferInstanceAs (Decidable (∀ reference ∈ _, ∀ content ∈ _, ¬ _))

theorem keepsApart_of_templatesLackStyles
    (lack : TemplatesLackStyles files resolve charset source)
    (read : TemplatesAreRead files resolve charset source) :
    ∀ reference ∈ tokensOf (TemplateReference.scan.pieces source),
      KeepsApart StyleReference.keyword (templateImage files resolve charset reference) := by
  intro reference used
  obtain ⟨content, contentRead⟩ := read reference used
  have clean : ¬ StyleReference.keyword <:+: literalBody content := fun occurs =>
    lack reference used content (by rw [contentRead]; rfl)
      (infix_of_infix_literalBody (by decide) (by decide) (by decide) (by decide) occurs)
  rw [templateImage, contentRead]
  exact keepsApart_templateProperty (.tail _ (.head _)) clean

/-- Where the images keep its keyword apart, the style reference begins among the characters of
the source. -/
theorem StyleSpan.begins_in_source (span : StyleSpan image source reference)
    (nonempty : ∀ token, image token ≠ [])
    (apart : ∀ token ∈ tokensOf (TemplateReference.scan.pieces source),
      KeepsApart StyleReference.keyword (image token)) :
    span.lead = [] ∧ ∃ others, span.covered = StyleReference.keyword.map .char ++ others := by
  have split := (Recognizer.search?_split span.found).1
  rw [spelling_append] at split
  obtain ⟨ahead, others, pieces, rendered, -⟩ :=
    Recognizer.pieces_of_occurrence StyleReference.keyword_ne_nil apart split
  have whole := span.pieces.symm.trans pieces
  have prior : span.front <+: ahead := by
    rcases List.prefix_or_prefix_of_prefix ⟨_, whole⟩ ⟨_, rfl⟩ with first | second
    · exact first
    · have bound : (renderAll image span.front).length ≤ (renderAll image ahead).length := by
        rw [rendered, List.length_append]
        exact Nat.le_add_right _ _
      rw [eq_of_length_renderAll_le nonempty second bound]
  obtain ⟨more, rfl⟩ := prior
  rw [renderAll_append, List.append_cancel_left_eq] at rendered
  rw [List.append_assoc, List.append_cancel_left_eq] at whole
  have empty : span.lead = [] := by
    by_contra filled
    obtain ⟨token, behind, covered, short⟩ := span.leadInside.resolve_left filled
    cases more with
    | nil => exact filled rendered.symm
    | cons piece more =>
        rw [covered] at whole
        obtain ⟨rfl, -⟩ := List.cons.inj whole
        rw [← rendered, renderAll, List.flatMap_cons, List.length_append] at short
        exact absurd short (Nat.not_lt.mpr (Nat.le_add_right _ _))
  have none : more = [] := by
    by_contra filled
    exact renderAll_ne_nil nonempty filled (rendered.trans empty)
  rw [none, List.nil_append] at whole
  refine ⟨empty, ?_⟩
  rcases List.append_eq_append_iff.mp whole with ⟨gap, keyword, -⟩ | ⟨gap, covered, -⟩
  · -- The reference is not shorter than its keyword, so there is no gap.
    have chars : renderAll image (StyleReference.keyword.map .char) = StyleReference.keyword :=
      renderAll_chars _
    rw [keyword, renderAll_append] at chars
    have covers := span.covers
    rw [empty, List.nil_append, spelling_append] at covers
    have length := congrArg List.length chars
    simp only [covers, List.length_append] at length
    have last : renderAll image gap = [] := List.eq_nil_of_length_eq_zero (by omega)
    cases gap with
    | nil => exact ⟨[], by rw [keyword, List.append_nil, List.append_nil]⟩
    | cons piece gap => exact absurd last (renderAll_ne_nil nonempty (List.cons_ne_nil _ _))
  · exact ⟨gap, covered⟩

theorem templateImage_starts (files : FileSystem) (resolve : Text → Path) (charset : Charset)
    (reference : TemplateReference) :
    ∃ more, templateImage files resolve charset reference = .char 't' :: more := by
  unfold templateImage
  split
  · exact ⟨_, rfl⟩
  · exact ⟨_, rfl⟩

/-- No image begins with a blank or a bracket, so that the bracket which opens a list is a
character of the source, and what stands in front of it as well. -/
theorem chars_of_opening {pieces : List (Piece TemplateReference)} {inside : Text}
    (starts : ∀ token, ∃ more, image token = .char 't' :: more)
    (opens : Text.trimStart (renderAll image pieces) = .char '[' :: inside) :
    ∃ (gap : Text) (more : List (Piece TemplateReference)),
      pieces = gap.map .char ++ .char (.char '[') :: more ∧
      ∀ c ∈ gap, isBlank c = true := by
  induction pieces with
  | nil => cases opens
  | cons piece pieces ih =>
      cases piece with
      | char c =>
          have rendered : renderAll image (.char c :: pieces) = c :: renderAll image pieces := rfl
          rw [rendered, Text.trimStart, List.dropWhile_cons] at opens
          split at opens
          · next blank =>
              obtain ⟨gap, more, rfl, blanks⟩ := ih opens
              refine ⟨c :: gap, more, rfl, fun d member => ?_⟩
              rcases List.mem_cons.mp member with rfl | later
              · exact blank
              · exact blanks d later
          · obtain ⟨rfl, -⟩ := List.cons.inj opens
            exact ⟨[], pieces, rfl, fun _ member => absurd member List.not_mem_nil⟩
      | token token =>
          obtain ⟨more, written⟩ := starts token
          have rendered : renderAll image (.token token :: pieces) =
              .char 't' :: (more ++ renderAll image pieces) := by
            rw [renderAll, List.flatMap_cons, Piece.render, written]
            rfl
          rw [rendered] at opens
          cases opens

theorem bracket_mem_spelling {text before behind : Text} {own : StyleReference}
    (found : StyleReference.scan.search? text = some (before, own, behind)) :
    .char ']' ∈ spelling own := by
  have reads : StyleReference.read? (spelling own ++ behind) = some (own, behind) :=
    (Recognizer.search?_split found).2
  unfold StyleReference.read? at reads
  split at reads
  · cases reads
  · split at reads
    · simp only [Option.map_eq_some_iff, Prod.exists, Prod.mk.injEq] at reads
      obtain ⟨items, _, _, rfl, rfl⟩ := reads
      simp [spelling, Text.ofString]
    · cases reads

/-- A style reference that is read among the images would be read in the source as well, if some
bracket of the source closes its list. -/
theorem exists_read?_of_images {pieces : List (Piece TemplateReference)} {behind : Text}
    (starts : ∀ token, ∃ more, image token = .char 't' :: more)
    (reads : StyleReference.read? (StyleReference.keyword ++ renderAll image pieces) =
      some (reference, behind))
    (closed : .char ']' ∈ spellingOf pieces) :
    ∃ own rest, StyleReference.scan.read? (StyleReference.keyword ++ spellingOf pieces) =
      some (own, rest) := by
  rw [StyleReference.read?, Text.after?_eq_some_iff.mpr rfl] at reads
  dsimp only at reads
  split at reads
  · next inside opens =>
      obtain ⟨gap, more, rfl, blanks⟩ := chars_of_opening starts opens
      have spelled : spellingOf (gap.map .char ++ .char (.char '[') :: more) =
          gap ++ .char '[' :: spellingOf more := by
        rw [spellingOf, List.flatMap_append]
        exact congrArg (· ++ .char '[' :: spellingOf more) (renderAll_chars gap)
      have later : .char ']' ∈ spellingOf more := by
        rw [spelled, List.mem_append, List.mem_cons] at closed
        rcases closed with blank | bracket | later
        · exact absurd (blanks _ blank) (by decide)
        · cases bracket
        · exact later
      cases cut : Text.cut? (.char ']') (spellingOf more) with
      | none => exact absurd later (Text.cut?_eq_none_iff.mp cut)
      | some parts =>
          obtain ⟨items, rest⟩ := parts
          obtain ⟨split, absent⟩ := Text.cut?_eq_some_iff.mp cut
          rw [spelled, split]
          exact ⟨_, _, StyleReference.read?_bracketed ⟨gap, blanks⟩ absent rest⟩
  · cases reads

/-- Where no image holds the keyword of style references and the first style reference of the
source shares no character with a template reference, it is the first one of the templated
source too. -/
theorem styleIsApart_of_keepsApart
    (starts : ∀ token, ∃ more, image token = .char 't' :: more)
    (keeps : ∀ token ∈ tokensOf (TemplateReference.scan.pieces source),
      KeepsApart StyleReference.keyword (image token))
    (apart : StyleIsApart spelling source)
    (styled : StyleReference.scan.search? source ≠ none) : StyleIsApart image source := by
  have nonempty : ∀ token, image token ≠ [] := by
    intro token
    obtain ⟨more, written⟩ := starts token
    rw [written]
    exact List.cons_ne_nil _ _
  obtain ⟨⟨before, own, behind⟩, sought⟩ := Option.ne_none_iff_exists'.mp styled
  have readable := StyleReference.isReadable_of_search? sought
  have bracket := bracket_mem_spelling sought
  rw [← replace_spelling source] at sought
  obtain ⟨front, back, between, rfl, rfl⟩ :=
    standsBetween_of_styleIsApart TemplateReference.spelling_ne_nil apart sought
  rw [replace_spelling] at sought
  obtain ⟨_, first, _, found, ahead⟩ := between.search? readable image
  obtain ⟨span, rfl, rfl⟩ := exists_styleSpan found
  obtain ⟨empty, others, covered⟩ := span.begins_in_source nonempty keeps
  rw [empty, List.append_nil] at found ahead
  have pieces := span.pieces
  rw [covered, List.append_assoc] at pieces
  have reads : StyleReference.read? (StyleReference.keyword ++
      renderAll image (others ++ span.back)) =
        some (first, span.rest ++ renderAll image span.back) := by
    have covers := span.covers
    rw [covered, empty, renderAll_append, renderAll_chars, List.nil_append] at covers
    rw [renderAll_append, ← List.append_assoc, covers, List.append_assoc]
    exact (Recognizer.search?_split found).2
  have whole := between.symm.trans pieces
  have same : front = span.front := by
    rcases List.prefix_or_prefix_of_prefix ⟨_, whole⟩ ⟨_, rfl⟩ with prior | prior
    · exact eq_of_length_renderAll_le nonempty prior ahead
    · -- The reference among the images would be an earlier one of the source.
      obtain ⟨gap, rfl⟩ := prior
      rw [List.append_assoc, List.append_cancel_left_eq] at whole
      have closed : .char ']' ∈ spellingOf (others ++ span.back) := by
        have spelled := congrArg (renderAll spelling) whole
        rw [renderAll_append, renderAll_append, renderAll_append, renderAll_chars, renderAll_chars]
          at spelled
        have member : .char ']' ∈
            StyleReference.keyword ++ renderAll spelling (others ++ span.back) := by
          rw [← spelled]
          exact List.mem_append_right _ (List.mem_append_left _ bracket)
        exact (List.mem_append.mp member).resolve_left (by decide)
      obtain ⟨_, _, here⟩ := exists_read?_of_images starts reads closed
      obtain ⟨_, _, _, earlier, bound⟩ := Recognizer.search?_first (spellingOf span.front) here
      have spelled : spellingOf span.front ++
          (StyleReference.keyword ++ spellingOf (others ++ span.back)) = source := by
        have rendered : renderAll spelling (TemplateReference.scan.pieces source) = source :=
          TemplateReference.scan.spelling_pieces source
        rw [pieces, renderAll_append, renderAll_append, renderAll_chars] at rendered
        exact rendered
      rw [spelled, sought] at earlier
      cases earlier
      exact (eq_of_length_renderAll_le TemplateReference.spelling_ne_nil ⟨gap, rfl⟩ bound).symm
  subst same
  obtain ⟨-, rfl, rest⟩ := between.eq_of_length readable found rfl
  rw [rest] at found
  exact styleIsApart_of_standsBetween between found

/-- A source in UTF-8 that was inlined holds the bytes of what inlining makes of its text, with no
line break translated either way. Only template references and the style reference that is
replaced have other bytes in their place. If no template holds the keyword of style references,
that reference begins in the source; and it is the first one of the source, if the source has
one that is no part of a template reference. -/
theorem transformFile_keeps_bytes
    (named : setting.charset.codec = .ok Encoding.utf8.codec)
    (inlined : (transformFile setting files path).result = .ok .inlined) :
    ∃ old new source text,
      files.read path = .ok old ∧
      (transformFile setting files path).files.read path = .ok new ∧
      Encoding.utf8.decode old = .ok source ∧ Encoding.utf8.decode new = .ok text ∧
      (inlineContent setting (setting.host.race path) (resolveFrom path) source).result files =
        .ok text ∧
      (∃ edits,
        InlinesBy setting files (resolveFrom path)
          (templateImage files (resolveFrom path) setting.charset) source edits ∧
        edits.flatMap Edit.old = old ∧ edits.flatMap Edit.new = new) ∧
      (TemplatesLackStyles files (resolveFrom path) setting.charset source →
        (∀ (reference : StyleReference) (span : StyleSpan
            (templateImage files (resolveFrom path) setting.charset) source
            reference),
          span.lead = [] ∧
            ∃ others, span.covered = StyleReference.keyword.map .char ++ others) ∧
        (StyleReference.scan.search? source ≠ none → StyleIsApart spelling source →
          InlinesOwn setting files (resolveFrom path)
            (templateImage files (resolveFrom path) setting.charset) source text)) := by
  rcases transformFile_cases setting files path with
    ⟨fault, -, -, failed⟩ | ⟨-, -, unchanged⟩ | ⟨_, fault, -, -, failed⟩ |
    ⟨revision, bytes, encoded, written, -⟩
  · rw [failed] at inlined
    cases inlined
  · rw [unchanged] at inlined
    cases inlined
  · rw [failed] at inlined
    cases inlined
  · have utf8 : revision.codec = Encoding.utf8.codec :=
      (Except.ok.inj (named.symm.trans revision.named)).symm
    have decoded := revision.decoded
    rw [utf8] at encoded decoded
    have coded := Encoding.encode_of_codec encoded
    obtain ⟨-, rfl⟩ := Utf8.encodeWhole_eq_ok coded
    have bytesRead := FileSystem.read_eq_ok_iff.mpr ⟨_, revision.located, revision.found⟩
    obtain ⟨edits, by_edits, old, new⟩ := exists_edits_of_inlineContent revision.inlined
    rw [Encoding.encode_of_decode decoded] at old
    refine ⟨_, _, _, _, bytesRead, ?_, decoded, Encoding.decode_of_encode coded,
      revision.inlined, ⟨edits, by_edits, old, new⟩, fun lack => ?_⟩
    · rw [written]
      exact FileSystem.read_put revision.located revision.found _
    · obtain ⟨templatesRead, styled⟩ := templated_of_result_inlineContent revision.inlined
      have keeps := keepsApart_of_templatesLackStyles lack templatesRead
      refine ⟨fun reference span => span.begins_in_source templateImage_ne_nil keeps,
        fun present apart => ?_⟩
      have own := styleIsApart_of_keepsApart (templateImage_starts _ _ _) keeps apart present
      exact inlinesOwn_of_styleIsApart templateImage_ne_nil apart own styled

/-- A source with a byte order mark and line breaks of all kinds around its references. -/
def markedSource : Text :=
  "\ufeffx\r\ntemplateUrl: 'a.html',\r\n\rstyleUrls: ['b.css']\r\ny\n"

def markedInlined : Text :=
  "\ufeffx\r\ntemplate: \"<p>\",\r\n\rstyles: ['p']\r\ny\n"

def markedFiles : FileSystem :=
  { cardProject with
    entries := (["card.ts"], .file (Utf8.encode markedSource)) :: cardProject.entries }

theorem transformFile_keeps_bytes_of_markedSource :
    ∃ edits,
      InlinesBy plainSetting markedFiles (resolveFrom (Path.ofText "card.ts"))
        (templateImage markedFiles (resolveFrom (Path.ofText "card.ts")) .utf8)
        markedSource edits ∧
      edits.flatMap Edit.old = Utf8.encode markedSource ∧
      edits.flatMap Edit.new = Utf8.encode markedInlined ∧
      InlinesOwn plainSetting markedFiles (resolveFrom (Path.ofText "card.ts"))
        (templateImage markedFiles (resolveFrom (Path.ofText "card.ts")) .utf8)
        markedSource markedInlined := by
  have named : plainSetting.charset.codec = .ok Encoding.utf8.codec := rfl
  have inlined : (transformFile plainSetting markedFiles (Path.ofText "card.ts")).result =
      .ok .inlined := by decide +kernel
  obtain ⟨old, new, source, text, oldRead, newRead, sourceRead, textRead, -, edits, own⟩ :=
    transformFile_keeps_bytes named inlined
  have oldBytes : markedFiles.read (Path.ofText "card.ts") = .ok (Utf8.encode markedSource) := by
    decide +kernel
  have newBytes : (transformFile plainSetting markedFiles (Path.ofText "card.ts")).files.read
      (Path.ofText "card.ts") = .ok (Utf8.encode markedInlined) := by decide +kernel
  have sourceBytes : Encoding.utf8.decode (Utf8.encode markedSource) = .ok markedSource := by
    decide +kernel
  have textBytes : Encoding.utf8.decode (Utf8.encode markedInlined) = .ok markedInlined := by
    decide +kernel
  cases oldRead.symm.trans oldBytes
  cases newRead.symm.trans newBytes
  cases sourceRead.symm.trans sourceBytes
  cases textRead.symm.trans textBytes
  obtain ⟨edits, inlining, oldEdits, newEdits⟩ := edits
  exact ⟨edits, inlining, oldEdits, newEdits,
    (own (by decide +kernel)).2 (by decide +kernel) (by decide +kernel)⟩

end Component

end Inlay

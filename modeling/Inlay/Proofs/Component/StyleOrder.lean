import Mathlib.Data.List.FinRange
import Mathlib.Logic.Function.Basic
import Inlay.Proofs.Component.Interleaving
import Inlay.Proofs.Component.Loading
import Inlay.Proofs.Literal.Escaping

/-!
# The order of styles

The styles of a component are loaded side by side, and each load takes its steps whenever it
likes. The loads may finish in any order, but a body goes to the position of its path in the
list. No body has a line feed, so the bodies can be read off the inlined list again: they are
what is left if it is cut at each comma with a line feed behind it.
-/

set_option autoImplicit false

namespace Inlay

/-! ## Cutting at a pair -/

namespace Text

/-- The pieces of a text between the places where two given characters stand in a row. -/
def cutAtPair (first second : CodePoint) : Text → List Text
  | [] => [[]]
  | [c] => [[c]]
  | c :: d :: text =>
      if c = first ∧ d = second then [] :: cutAtPair first second text
      else (cutAtPair first second (d :: text)).modifyHead (c :: ·)

variable {first second : CodePoint}

theorem cutAtPair_cons {text : Text} (apart : text.head? ≠ some second) (c : CodePoint) :
    cutAtPair first second (c :: text) = (cutAtPair first second text).modifyHead (c :: ·) := by
  cases text with
  | nil => rfl
  | cons d text =>
      have unpaired : ¬ (c = first ∧ d = second) := fun pair => apart (congrArg some pair.2)
      rw [cutAtPair, if_neg unpaired]

theorem cutAtPair_pair (text : Text) :
    cutAtPair first second (first :: second :: text) = [] :: cutAtPair first second text := by
  rw [cutAtPair, if_pos ⟨rfl, rfl⟩]

/-- A text without the second character is one piece, even if it ends in the first one. -/
theorem cutAtPair_of_not_mem {piece : Text} (absent : second ∉ piece) :
    cutAtPair first second piece = [piece] := by
  induction piece with
  | nil => rfl
  | cons c piece ih =>
      have apart : piece.head? ≠ some second := fun leads =>
        absent (.tail _ (List.mem_of_head? leads))
      rw [cutAtPair_cons apart, ih fun member => absent (.tail _ member)]
      rfl

theorem cutAtPair_append_pair {piece : Text} (differ : first ≠ second)
    (absent : second ∉ piece) (rest : Text) :
    cutAtPair first second (piece ++ first :: second :: rest) =
      piece :: cutAtPair first second rest := by
  induction piece with
  | nil => exact cutAtPair_pair rest
  | cons c piece ih =>
      have apart : (piece ++ first :: second :: rest).head? ≠ some second := by
        cases piece with
        | nil => simpa using differ
        | cons d piece =>
            intro leads
            obtain rfl := Option.some.inj leads
            exact absent (.tail _ (.head _))
      rw [List.cons_append, cutAtPair_cons apart, ih fun member => absent (.tail _ member)]
      rfl

theorem cutAtPair_joinWith {pieces : List Text} (differ : first ≠ second)
    (absent : ∀ piece ∈ pieces, second ∉ piece) (nonempty : pieces ≠ []) :
    cutAtPair first second (joinWith [first, second] pieces) = pieces := by
  induction pieces with
  | nil => exact absurd rfl nonempty
  | cons piece pieces ih =>
      have here := absent piece (.head _)
      cases pieces with
      | nil => exact cutAtPair_of_not_mem here
      | cons next pieces =>
          have later := ih (fun other member => absent other (.tail _ member))
            (List.cons_ne_nil next pieces)
          rw [joinWith, List.append_assoc]
          exact (cutAtPair_append_pair differ here _).trans (congrArg _ later)

end Text

/-! ## Inquiries side by side -/

/-- One of several inquiries that go on side by side: what it has yet to ask, or its end. -/
inductive Strand (α : Type) where
  | asking (inquiry : Inquiry α)
  | ended (outcome : Except Fault α)

namespace Strand

variable {α : Type} {count : Nat} {files : FileSystem} {strands next later : Fin count → Strand α}

/-- How a strand ends, or will end. -/
def outcome (files : FileSystem) : Strand α → Except Fault α
  | .asking inquiry => inquiry.result files
  | .ended outcome => outcome

def IsAsking (strand : Strand α) : Prop := ∃ inquiry, strand = .asking inquiry

/-- A step of any of the strands. It ends the strand at a position, or none. -/
inductive Advances (files : FileSystem) :
    (Fin count → Strand α) → Option (Fin count) → (Fin count → Strand α) → Prop where
  | ask {strands : Fin count → Strand α} {position : Fin count} {inquiry later : Inquiry α}
      (asks : strands position = .asking inquiry)
      (advanced : inquiry.advance files = .inr later) :
      Advances files strands none (Function.update strands position (.asking later))
  | finish {strands : Fin count → Strand α} {position : Fin count} {inquiry : Inquiry α}
      {outcome : Except Fault α} (asks : strands position = .asking inquiry)
      (advanced : inquiry.advance files = .inl outcome) :
      Advances files strands (some position) (Function.update strands position (.ended outcome))

/-- Steps of the strands, with the positions in the order in which their strands end. -/
inductive Runs (files : FileSystem) :
    (Fin count → Strand α) → List (Fin count) → (Fin count → Strand α) → Prop where
  | rest (strands : Fin count → Strand α) : Runs files strands [] strands
  | step {strands next later : Fin count → Strand α} {ending : Option (Fin count)}
      {order : List (Fin count)} (first : Advances files strands ending next)
      (others : Runs files next order later) : Runs files strands (ending.toList ++ order) later

theorem Advances.outcome_eq {ending : Option (Fin count)}
    (advances : Advances files strands ending next) (position : Fin count) :
    (next position).outcome files = (strands position).outcome files := by
  -- Only the strand that has taken the step differs, and its result is still the same.
  cases advances with
  | @ask moved inquiry later asks advanced =>
      by_cases same : position = moved
      · rw [same, Function.update_self, asks]
        exact (Inquiry.later_of_advance advanced).1
      · rw [Function.update_of_ne same]
  | @finish moved inquiry outcome asks advanced =>
      by_cases same : position = moved
      · rw [same, Function.update_self, asks]
        exact (Inquiry.result_of_advance advanced).symm
      · rw [Function.update_of_ne same]

theorem Advances.isAsking_iff {ending : Option (Fin count)}
    (advances : Advances files strands ending next) (position : Fin count) :
    (next position).IsAsking ↔ (strands position).IsAsking ∧ ending ≠ some position := by
  cases advances with
  | @ask moved inquiry later asks advanced =>
      by_cases same : position = moved
      · simp [same, asks, IsAsking]
      · simp [Function.update_of_ne same]
  | @finish moved inquiry outcome asks advanced =>
      by_cases same : position = moved
      · simp [same, IsAsking]
      · simp [Function.update_of_ne same, Ne.symm same]

theorem Advances.asked {position : Fin count}
    (advances : Advances files strands (some position) next) : (strands position).IsAsking := by
  cases advances with
  | finish asks advanced => exact ⟨_, asks⟩

theorem Runs.outcome_eq {order : List (Fin count)} (runs : Runs files strands order later)
    (position : Fin count) :
    (later position).outcome files = (strands position).outcome files := by
  induction runs with
  | rest => rfl
  | step first _ ih => exact ih.trans (first.outcome_eq position)

/-- The strands that end in a run are different ones, which ask before it. After it the others
that asked still ask. -/
structure EndsInOrder (strands later : Fin count → Strand α) (order : List (Fin count)) :
    Prop where
  unique : order.Nodup
  asked : ∀ position ∈ order, (strands position).IsAsking
  asking : ∀ position,
    (later position).IsAsking ↔ (strands position).IsAsking ∧ position ∉ order

theorem Runs.endsInOrder {order : List (Fin count)} (runs : Runs files strands order later) :
    EndsInOrder strands later order := by
  induction runs with
  | rest => exact ⟨.nil, nofun, by simp⟩
  | @step strands next later ending order first others ih =>
      constructor
      · cases ending with
        | none => exact ih.unique
        | some position =>
            -- A strand that has ended does not ask again.
            refine List.nodup_cons.mpr ⟨fun again => ?_, ih.unique⟩
            exact ((first.isAsking_iff position).mp (ih.asked position again)).2 rfl
      · intro position member
        rcases List.mem_append.mp member with now | behind
        · obtain rfl := Option.mem_toList.mp now
          exact first.asked
        · exact ((first.isAsking_iff position).mp (ih.asked position behind)).1
      · intro position
        rw [ih.asking, first.isAsking_iff, List.mem_append, Option.mem_toList, not_or, and_assoc]

theorem Runs.trans {order others : List (Fin count)} (runs : Runs files strands order next)
    (goesOn : Runs files next others later) : Runs files strands (order ++ others) later := by
  induction runs with
  | rest => exact goesOn
  | step first _ ih =>
      rw [List.append_assoc]
      exact .step first (ih goesOn)

theorem runs_alone {position : Fin count} {inquiry : Inquiry α}
    (asks : strands position = .asking inquiry) :
    Runs files strands [position]
      (Function.update strands position (.ended (inquiry.result files))) := by
  -- The other strands wait; the induction is on the steps that this one has left.
  induction many : inquiry.steps files using Nat.strongRecOn generalizing inquiry strands with
  | ind steps ih =>
      cases advanced : inquiry.advance files with
      | inl outcome =>
          rw [Inquiry.result_of_advance advanced]
          exact .step (.finish asks advanced) (.rest _)
      | inr later =>
          obtain ⟨same, _, fewer⟩ := Inquiry.later_of_advance advanced
          have rest := ih (later.steps files) (by omega)
            (Function.update_self position (.asking later) strands) rfl
          rw [Function.update_idem, same] at rest
          exact .step (.ask asks advanced) rest

theorem exists_runs {order : List (Fin count)} (unique : order.Nodup)
    (asking : ∀ position ∈ order, (strands position).IsAsking) :
    ∃ later, Runs files strands order later := by
  induction order generalizing strands with
  | nil => exact ⟨strands, .rest strands⟩
  | cons position order ih =>
      obtain ⟨fresh, unique⟩ := List.nodup_cons.mp unique
      obtain ⟨inquiry, asks⟩ := asking position (.head _)
      have alone : Runs files strands [position] _ := runs_alone asks
      obtain ⟨later, runs⟩ := ih unique fun other member => by
        rw [alone.endsInOrder.asking, List.mem_singleton]
        exact ⟨asking other (.tail _ member), ne_of_mem_of_not_mem member fresh⟩
      exact ⟨later, alone.trans runs⟩

theorem eq_ended {strand : Strand α} (done : ¬ strand.IsAsking) (files : FileSystem) :
    strand = .ended (strand.outcome files) := by
  cases strand with
  | asking inquiry => exact absurd ⟨inquiry, rfl⟩ done
  | ended outcome => rfl

/-- Strands that all ask may end in any order, each of them once, and each ends as it would
alone. -/
theorem runs_to_end_iff {order : List (Fin count)} {outcomes : Fin count → Except Fault α}
    (asking : ∀ position, (strands position).IsAsking) :
    Runs files strands order (fun position => .ended (outcomes position)) ↔
      order.Perm (List.finRange count) ∧
        outcomes = fun position => (strands position).outcome files := by
  constructor
  · intro runs
    obtain ⟨unique, -, stillAsking⟩ := runs.endsInOrder
    have all : ∀ position, position ∈ order := by
      intro position
      by_contra missing
      -- A strand that does not end in the run would still ask at its end.
      obtain ⟨inquiry, asks⟩ := (stillAsking position).mpr ⟨asking position, missing⟩
      cases asks
    constructor
    · rw [List.perm_ext_iff_of_nodup unique (List.nodup_finRange count)]
      exact fun position => iff_of_true (all position) (List.mem_finRange position)
    · exact funext runs.outcome_eq
  · intro ⟨perm, same⟩
    subst same
    have unique := perm.nodup_iff.mpr (List.nodup_finRange count)
    obtain ⟨later, runs⟩ : ∃ later, Runs files strands order later :=
      exists_runs unique fun position _ => asking position
    have allEnded : later = fun position => .ended ((strands position).outcome files) := by
      funext position
      have among : position ∈ order := perm.mem_iff.mpr (List.mem_finRange position)
      rw [← runs.outcome_eq]
      refine eq_ended (fun asks => ?_) files
      exact ((runs.endsInOrder.asking position).mp asks).2 among
    exact allEnded ▸ runs

end Strand

/-! ## Styles in the order of their paths -/

namespace Component

variable {setting : Setting} {files : FileSystem} {resolve : Text → Path}
  {content before behind : Text} {reference : StyleReference} {paths : List Text}

def styleLoads (setting : Setting) (resolve : Text → Path) (paths : List Text)
    (position : Fin paths.length) : Strand Text :=
  .asking (loadStyle setting resolve paths[position])

/-- The loads of the listed styles finish in the given order, with the given outcomes. -/
def LoadsFinish (setting : Setting) (files : FileSystem) (resolve : Text → Path)
    (paths : List Text) (order : List (Fin paths.length))
    (outcomes : Fin paths.length → Except Fault Text) : Prop :=
  Strand.Runs files (styleLoads setting resolve paths) order
    fun position => .ended (outcomes position)

/-- The text with the loaded bodies in place of a style reference, gathered by position. -/
def gathered {count : Nat} (before behind : Text) (bodies : Fin count → Text) : Text :=
  before ++ stylesProperty (List.ofFn bodies) ++ behind

theorem loadsFinish_iff {order : List (Fin paths.length)}
    {outcomes : Fin paths.length → Except Fault Text} :
    LoadsFinish setting files resolve paths order outcomes ↔
      order.Perm (List.finRange paths.length) ∧
        outcomes = fun position => (loadStyle setting resolve paths[position]).result files :=
  Strand.runs_to_end_iff fun _ => ⟨_, rfl⟩

theorem bodies_of_loadsFinish {order : List (Fin paths.length)}
    {outcomes : Fin paths.length → Except Fault Text} {bodies : List Text}
    (finish : LoadsFinish setting files resolve paths order outcomes)
    (loaded : List.Forall₂ (fun path body => (loadStyle setting resolve path).result files =
      .ok body) paths bodies) :
    ∃ bodyAt : Fin paths.length → Text,
      (outcomes = fun position => .ok (bodyAt position)) ∧ List.ofFn bodyAt = bodies := by
  obtain ⟨same, each⟩ := List.forall₂_iff_get.mp loaded
  refine ⟨fun position => bodies.get (position.cast same), ?_, ?_⟩
  · funext position
    rw [(loadsFinish_iff.mp finish).2]
    exact each position position.isLt (same ▸ position.isLt)
  · exact (List.ofFn_congr same.symm bodies.get).symm.trans (List.ofFn_get bodies)

/-- The style at a path is read, and rendered to a text. -/
def StyleRenders (setting : Setting) (files : FileSystem) (resolve : Text → Path)
    (path rendering : Text) : Prop :=
  ∃ raw, (Inquiry.readResource setting.charset (resolve path)).result files =
      .ok raw ∧
    (Stylesheet.render setting.styleContext (resolve path).text raw).result files = .ok rendering

theorem result_loadStyle {path rendering : Text}
    (renders : StyleRenders setting files resolve path rendering) :
    (loadStyle setting resolve path).result files = .ok (literalBody rendering) := by
  obtain ⟨raw, read, rendered⟩ := renders
  unfold loadStyle
  simp only [Inquiry.result_bind, Inquiry.result_debug, read, rendered, Inquiry.result_pure]

/-- The styles stand in the list in the order of their paths, each path with its own style even if
it is listed again, and they are what the list is cut into at its separators. The loads may finish
in any order, and all orders give the same text. -/
theorem inlineStyles_in_order {renderings : List Text}
    (found : StyleReference.scan.search? content = some (before, reference, behind))
    (listed : stylePaths reference = .ok paths) (nonempty : paths ≠ [])
    (rendered : List.Forall₂ (StyleRenders setting files resolve) paths renderings) :
    ∃ joined,
      (∀ race, (inlineStyles setting race resolve content).result files =
        .ok (before ++ ("styles: ['" ++ joined ++ "']") ++ behind)) ∧
      Text.cutAtPair (.char ',') (.char '\n') joined = renderings.map literalBody ∧
      (∀ order : List (Fin paths.length), order.Perm (List.finRange paths.length) →
        ∃ outcomes, LoadsFinish setting files resolve paths order outcomes) ∧
      ∀ order outcomes, LoadsFinish setting files resolve paths order outcomes →
        ∃ bodies : Fin paths.length → Text, (outcomes = fun position => .ok (bodies position)) ∧
          gathered before behind bodies = before ++ ("styles: ['" ++ joined ++ "']") ++ behind := by
  have loaded : List.Forall₂ (fun path body =>
      (loadStyle setting resolve path).result files = .ok body)
      paths (renderings.map literalBody) := by
    rw [List.forall₂_map_right_iff]
    exact rendered.imp fun path rendering => result_loadStyle
  refine ⟨Text.joinWith ",\n" (renderings.map literalBody), fun race => ?_, ?_, ?_, ?_⟩
  · exact (result_inlineStyles_of_some found).mpr ⟨_, ⟨paths, listed, loaded⟩, rfl⟩
  · have unbroken : ∀ body ∈ renderings.map literalBody, .char '\n' ∉ body := by
      intro body member
      obtain ⟨rendering, -, rfl⟩ := List.mem_map.mp member
      exact (isLiteralBody_literalBody rendering).noLineFeed
    have some : renderings.map literalBody ≠ [] := by
      intro none
      have short := rendered.length_eq
      rw [List.map_eq_nil_iff.mp none] at short
      exact nonempty (List.eq_nil_of_length_eq_zero short)
    exact Text.cutAtPair_joinWith (by decide) unbroken some
  · intro order perm
    exact ⟨_, loadsFinish_iff.mpr ⟨perm, rfl⟩⟩
  · intro order outcomes finish
    obtain ⟨bodies, same, inOrder⟩ := bodies_of_loadsFinish finish loaded
    refine ⟨bodies, same, ?_⟩
    rw [gathered, inOrder]
    rfl

/-- A component that lists one of its sheets twice. That sheet ends in a comma. -/
def repeatedProject : FileSystem where
  entries :=
    [(["a.css"], .file (Utf8.encode ".a{},")), (["b.css"], .file (Utf8.encode ".b\n  {}"))]
  workingDirectory := []

def repeatedReference : StyleReference := ⟨" ", "['a.css', 'b.css', 'a.css']"⟩

def repeatedPaths : List Text := ["a.css", "b.css", "a.css"]

/-- The last load finishes first. -/
def lastFirst : List (Fin repeatedPaths.length) :=
  [⟨2, by decide⟩, ⟨0, by decide⟩, ⟨1, by decide⟩]

theorem inlineStyles_in_order_of_repeated :
    ∃ joined,
      (∀ race, (inlineStyles pairedSetting race Path.ofText
          "x styleUrls: ['a.css', 'b.css', 'a.css'] y").result repeatedProject =
        .ok ("x " ++ ("styles: ['" ++ joined ++ "']") ++ " y")) ∧
      Text.cutAtPair (.char ',') (.char '\n') joined = [".a{},", ".b {}", ".a{},"] ∧
      (∃ outcomes, LoadsFinish pairedSetting repeatedProject Path.ofText repeatedPaths
        lastFirst outcomes) ∧
      ∀ order outcomes, LoadsFinish pairedSetting repeatedProject Path.ofText repeatedPaths order
          outcomes →
        ∃ bodies : Fin repeatedPaths.length → Text,
          (outcomes = fun position => .ok (bodies position)) ∧
            gathered "x " " y" bodies = "x " ++ ("styles: ['" ++ joined ++ "']") ++ " y" := by
  have found : StyleReference.scan.search? "x styleUrls: ['a.css', 'b.css', 'a.css'] y" =
      some (("x " : Text), repeatedReference, (" y" : Text)) := by decide +kernel
  have listed : stylePaths repeatedReference = .ok repeatedPaths := by decide +kernel
  have first : StyleRenders pairedSetting repeatedProject Path.ofText "a.css" ".a{}," :=
    ⟨".a{},", by decide +kernel, by decide +kernel⟩
  have second : StyleRenders pairedSetting repeatedProject Path.ofText "b.css" ".b\n  {}" :=
    ⟨".b\n  {}", by decide +kernel, by decide +kernel⟩
  have rendered : List.Forall₂ (StyleRenders pairedSetting repeatedProject Path.ofText)
      repeatedPaths [".a{},", ".b\n  {}", ".a{},"] :=
    .cons first (.cons second (.cons first .nil))
  obtain ⟨joined, inlined, cut, possible, always⟩ :=
    inlineStyles_in_order found listed (by decide) rendered
  refine ⟨joined, inlined, cut.trans (by decide +kernel), ?_, always⟩
  exact possible lastFirst (by decide)

end Component

end Inlay

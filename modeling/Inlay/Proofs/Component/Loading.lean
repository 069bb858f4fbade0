import Inlay.Component.Inline
import Inlay.Proofs.Outcomes
import Inlay.Proofs.Text.Places
import Mathlib.Data.List.Forall2

/-!
# Loading the resources of a component

What the inlining of templates and the inlining of styles return on a file system, said by the
results of reading each template and of loading each style.
-/

set_option autoImplicit false

namespace Inlay

theorem fill_map_tokensOf {α : Type} (image : α → Text) (pieces : List (Piece α)) :
    fill pieces ((tokensOf pieces).map image) = renderAll image pieces := by
  induction pieces with
  | nil => rfl
  | cons piece pieces ih =>
      cases piece with
      | char c => exact congrArg (List.cons c) ih
      | token token => exact congrArg (image token ++ ·) ih

namespace Inquiry

variable {α β : Type} {files : FileSystem}

theorem result_forEach_cons (inquiry : α → Inquiry β) (element : α) (elements : List α) :
    (forEach inquiry (element :: elements)).result files =
      match (inquiry element).result files with
      | .error fault => .error fault
      | .ok first =>
          match (forEach inquiry elements).result files with
          | .error fault => .error fault
          | .ok others => .ok (first :: others) := by
  change (inquiry element >>= fun first =>
    forEach inquiry elements >>= fun others => pure (first :: others)).result files = _
  rw [result_bind]
  cases (inquiry element).result files with
  | error fault => rfl
  | ok first =>
      dsimp only
      rw [result_bind]
      cases (forEach inquiry elements).result files with
      | error fault => rfl
      | ok others => rfl

theorem result_forEach_eq_ok_iff {inquiry : α → Inquiry β} {elements : List α}
    {values : List β} :
    (forEach inquiry elements).result files = .ok values ↔
      List.Forall₂ (fun element value => (inquiry element).result files = .ok value)
        elements values := by
  induction elements generalizing values with
  | nil =>
      constructor
      · rintro ⟨⟩
        exact .nil
      · rintro ⟨⟩
        rfl
  | cons element elements ih =>
      rw [result_forEach_cons]
      constructor
      · intro done
        split at done
        · cases done
        · next first firstDone =>
            split at done
            · cases done
            · next others othersDone =>
                cases done
                exact .cons firstDone (ih.mp othersDone)
      · intro all
        cases all with
        | cons firstDone othersDone => rw [firstDone, ih.mpr othersDone]

/-- The first fault is that of the whole, whatever the elements behind it would do. -/
theorem result_forEach_of_error {inquiry : α → Inquiry β} {before : List α} {element : α}
    {fault : Fault} (done : ∀ other ∈ before, ∃ value, (inquiry other).result files = .ok value)
    (failed : (inquiry element).result files = .error fault) (behind : List α) :
    (forEach inquiry (before ++ element :: behind)).result files = .error fault := by
  induction before with
  | nil => rw [List.nil_append, result_forEach_cons, failed]
  | cons first before ih =>
      obtain ⟨value, firstDone⟩ := done first (.head _)
      have later := ih fun other member => done other (.tail _ member)
      rw [List.cons_append, result_forEach_cons, firstDone, later]

/-- Attempts never fail, so each element has its outcome. -/
theorem result_forEach_attempt (inquiry : α → Inquiry β) (elements : List α) :
    (forEach (fun element => (inquiry element).attempt) elements).result files =
      .ok (elements.map fun element => (inquiry element).result files) := by
  induction elements with
  | nil => rfl
  | cons element elements ih => rw [result_forEach_cons, result_attempt, ih]; rfl

end Inquiry

namespace Component

variable {setting : Setting} {race : Race} {files : FileSystem} {resolve : Text → Path}
  {charset : Charset}

theorem result_loadTemplate (reference : TemplateReference) :
    (loadTemplate resolve charset reference).result files =
      ((Inquiry.readResource charset (resolve reference.path)).result files).map
        templateProperty := by
  unfold loadTemplate
  rw [Inquiry.result_bind, Inquiry.result_debug]
  dsimp only
  rw [Inquiry.result_bind]
  cases (Inquiry.readResource charset (resolve reference.path)).result files with
  | error fault => rfl
  | ok content => rfl

theorem result_loadTemplate_eq_ok_iff {reference : TemplateReference} {image : Text} :
    (loadTemplate resolve charset reference).result files = .ok image ↔
      ∃ content, (Inquiry.readResource charset (resolve reference.path)).result files =
        .ok content ∧ image = templateProperty content := by
  rw [result_loadTemplate]
  cases (Inquiry.readResource charset (resolve reference.path)).result files with
  | error fault => simp [Except.map]
  | ok content => simp [Except.map, eq_comm]

/-- What stands in the place of a template reference. One whose template cannot be read stays as
it is written. -/
def templateImage (files : FileSystem) (resolve : Text → Path) (charset : Charset)
    (reference : TemplateReference) : Text :=
  match (Inquiry.readResource charset (resolve reference.path)).result files with
  | .ok content => templateProperty content
  | .error _ => spelling reference

def TemplatesAreRead (files : FileSystem) (resolve : Text → Path) (charset : Charset)
    (source : Text) : Prop :=
  ∀ reference ∈ tokensOf (TemplateReference.scan.pieces source),
    ∃ content, (Inquiry.readResource charset (resolve reference.path)).result files =
      .ok content

def templated (files : FileSystem) (resolve : Text → Path) (charset : Charset) (source : Text) :
    Text :=
  TemplateReference.scan.replace (templateImage files resolve charset) source

theorem templated_of_result_inlineTemplates {source text : Text}
    (done : (inlineTemplates resolve charset source).result files = .ok text) :
    TemplatesAreRead files resolve charset source ∧
      text = templated files resolve charset source := by
  unfold inlineTemplates at done
  rw [Inquiry.result_bind] at done
  split at done
  · next images loaded =>
      cases done
      have each := Inquiry.result_forEach_eq_ok_iff.mp loaded
      have reads : ∀ {reference image},
          (loadTemplate resolve charset reference).result files = .ok image →
          (∃ content, (Inquiry.readResource charset (resolve reference.path)).result files =
            .ok content) ∧ templateImage files resolve charset reference = image := by
        intro reference image loaded
        obtain ⟨content, contentRead, rfl⟩ := result_loadTemplate_eq_ok_iff.mp loaded
        refine ⟨⟨content, contentRead⟩, ?_⟩
        unfold templateImage
        rw [contentRead]
      have all := each.imp fun _ _ loaded => reads loaded
      rw [List.forall₂_and_left, ← List.forall₂_map_left_iff, List.forall₂_eq_eq_eq] at all
      obtain ⟨read, same⟩ := all
      refine ⟨read, ?_⟩
      rw [← same, fill_map_tokensOf]
      rfl
  · cases done

theorem result_inlineTemplates_of_read {source : Text}
    (read : TemplatesAreRead files resolve charset source) :
    (inlineTemplates resolve charset source).result files =
      .ok (templated files resolve charset source) := by
  have loaded : (Inquiry.forEach (loadTemplate resolve charset)
      (tokensOf (TemplateReference.scan.pieces source))).result files =
        .ok ((tokensOf (TemplateReference.scan.pieces source)).map
          (templateImage files resolve charset)) := by
    rw [Inquiry.result_forEach_eq_ok_iff, List.forall₂_map_right_iff, List.forall₂_same]
    intro reference member
    obtain ⟨content, contentRead⟩ := read reference member
    rw [result_loadTemplate, templateImage, contentRead]
    rfl
  unfold inlineTemplates
  dsimp only
  rw [Inquiry.result_bind, loaded]
  dsimp only
  rw [Inquiry.result_pure, fill_map_tokensOf]
  rfl

/-- The first template that cannot be read stops the inlining. -/
theorem result_inlineTemplates_of_error {source : Text} {before behind : List TemplateReference}
    {reference : TemplateReference} {fault : Fault}
    (split : tokensOf (TemplateReference.scan.pieces source) = before ++ reference :: behind)
    (read : ∀ other ∈ before, ∃ content,
      (Inquiry.readResource charset (resolve other.path)).result files = .ok content)
    (failed : (Inquiry.readResource charset (resolve reference.path)).result files =
      .error fault) :
    (inlineTemplates resolve charset source).result files = .error fault := by
  have loaded : (Inquiry.forEach (loadTemplate resolve charset)
      (tokensOf (TemplateReference.scan.pieces source))).result files = .error fault := by
    rw [split]
    refine Inquiry.result_forEach_of_error (fun other member => ?_) ?_ behind
    · obtain ⟨content, contentRead⟩ := read other member
      exact ⟨_, result_loadTemplate_eq_ok_iff.mpr ⟨content, contentRead, rfl⟩⟩
    · rw [result_loadTemplate, failed]
      rfl
  unfold inlineTemplates
  dsimp only
  rw [Inquiry.result_bind, loaded]

/-- The paths that the style reference of a source lists. A list that cannot be read has none. -/
def listedStyles (source : Text) : List Text :=
  match StyleReference.scan.search? source with
  | none => []
  | some (_, reference, _) =>
      match stylePaths reference with
      | .ok paths => paths
      | .error _ => []

theorem exists_listed_of_mem {content path : Text} (listed : path ∈ listedStyles content) :
    ∃ before reference behind, StyleReference.scan.search? content =
      some (before, reference, behind) ∧ stylePaths reference = .ok (listedStyles content) := by
  unfold listedStyles at listed ⊢
  split at listed
  · cases listed
  · next before reference behind found =>
      split at listed
      · next paths parsed => exact ⟨before, reference, behind, found, by rw [parsed]⟩
      · cases listed

/-- The bodies of the styles that a reference lists are loaded, in the order of the list. -/
def LoadsStyles (setting : Setting) (files : FileSystem) (resolve : Text → Path)
    (reference : StyleReference) (bodies : List Text) : Prop :=
  ∃ paths, stylePaths reference = .ok paths ∧
    List.Forall₂ (fun path body => (loadStyle setting resolve path).result files = .ok body)
      paths bodies

theorem result_loadStyles (setting : Setting) (race : Race) (resolve : Text → Path)
    (paths : List Text) :
    (loadStyles setting race resolve paths).result files =
      gather race (paths.map fun path => (loadStyle setting resolve path).result files) := by
  unfold loadStyles
  rw [Inquiry.result_bind, Inquiry.result_forEach_attempt]
  dsimp only
  rw [Inquiry.result_ofExcept]

theorem result_loadStyles_eq_ok_iff {paths bodies : List Text} :
    (loadStyles setting race resolve paths).result files = .ok bodies ↔
      List.Forall₂ (fun path body => (loadStyle setting resolve path).result files = .ok body)
        paths bodies := by
  rw [result_loadStyles, gather_eq_ok_iff, ← List.forall₂_eq_eq_eq, List.forall₂_map_left_iff,
    List.forall₂_map_right_iff]

/-- A style that cannot be loaded stops the loading, though the others are tried. The fault is one
of theirs. -/
theorem exists_result_loadStyles_error (race : Race) {paths : List Text} {path : Text}
    {fault : Fault} (listed : path ∈ paths)
    (failed : (loadStyle setting resolve path).result files = .error fault) :
    ∃ told, (loadStyles setting race resolve paths).result files = .error told ∧
      ∃ other ∈ paths, (loadStyle setting resolve other).result files = .error told := by
  have member :
      .error fault ∈ paths.map fun path => (loadStyle setting resolve path).result files :=
    failed ▸ List.mem_map_of_mem listed
  obtain ⟨told, gathered, among⟩ := exists_gather_error race member
  exact ⟨told, (result_loadStyles ..).trans gathered, List.mem_map.mp among⟩

theorem result_inlineStyles_of_none {content : Text}
    (absent : StyleReference.scan.search? content = none) :
    (inlineStyles setting race resolve content).result files = .ok content := by
  unfold inlineStyles
  rw [absent]
  rfl

theorem result_inlineStyles_of_some {content before behind text : Text}
    {reference : StyleReference}
    (found : StyleReference.scan.search? content = some (before, reference, behind)) :
    (inlineStyles setting race resolve content).result files = .ok text ↔
      ∃ bodies, LoadsStyles setting files resolve reference bodies ∧
        text = before ++ stylesProperty bodies ++ behind := by
  unfold inlineStyles LoadsStyles
  rw [found]
  dsimp only
  rw [Inquiry.result_bind, Inquiry.result_ofExcept]
  cases stylePaths reference with
  | error fault => simp
  | ok paths =>
      dsimp only
      rw [Inquiry.result_bind]
      cases loaded : (loadStyles setting race resolve paths).result files with
      | error fault =>
          have never (bodies : List Text) : ¬ List.Forall₂ (fun path body =>
              (loadStyle setting resolve path).result files = .ok body) paths bodies := by
            intro all
            rw [result_loadStyles_eq_ok_iff.mpr all] at loaded
            cases loaded
          simp [never]
      | ok bodies =>
          have all := result_loadStyles_eq_ok_iff.mp loaded
          constructor
          · rintro ⟨⟩
            exact ⟨bodies, ⟨paths, rfl, all⟩, rfl⟩
          · rintro ⟨others, ⟨listed, same, othersLoaded⟩, rfl⟩
            cases same
            rw [← result_loadStyles_eq_ok_iff, loaded] at othersLoaded
            cases othersLoaded
            rfl

end Component

end Inlay

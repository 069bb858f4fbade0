import Inlay.Proofs.Component.Interleaving
import Inlay.Proofs.Component.Loading

/-!
# What a race decides

The styles of a component are loaded side by side, and the fault that comes first in time is told.
This is all that a race decides: under another one the inlining of a source file asks the same
questions, and it ends with the same result, or with the fault of another one of the styles that
cannot be loaded (`raced_inlineFile`).
-/

set_option autoImplicit false

namespace Inlay

namespace Inquiry

variable {α β : Type} {files : FileSystem}

theorem footprint_bind (files : FileSystem) (inquiry : Inquiry α) (next : α → Inquiry β) :
    (inquiry >>= next).footprint files = inquiry.footprint files ++
      match inquiry.result files with
      | .ok value => (next value).footprint files
      | .error _ => [] := by
  change (inquiry.bind next).footprint files = _
  induction inquiry with
  | done value => rfl
  | fail fault => rfl
  | note entry rest ih => exact ih
  | probe path rest ih => exact congrArg (path :: ·) (ih (files.probeFile path))
  | read path rest ih => exact congrArg (path :: ·) (ih (files.read path))

theorem reads_bind (files : FileSystem) (inquiry : Inquiry α) (next : α → Inquiry β) :
    (inquiry >>= next).reads files = inquiry.reads files ++
      match inquiry.result files with
      | .ok value => (next value).reads files
      | .error _ => [] := by
  change (inquiry.bind next).reads files = _
  induction inquiry with
  | done value => rfl
  | fail fault => rfl
  | note entry rest ih => exact ih
  | probe path rest ih => exact ih (files.probeFile path)
  | read path rest ih => exact congrArg (path :: ·) (ih (files.read path))

/-- Two results of which a race has chosen: the same one, or two of the faults that take part. -/
inductive RacedEnds (faults : List Fault) : Except Fault α → Except Fault α → Prop where
  | same (result : Except Fault α) : RacedEnds faults result result
  | raced {told other : Fault} : told ∈ faults → other ∈ faults → told ≠ other →
      RacedEnds faults (.error told) (.error other)

/-- Two inquiries that ask the same on a file system, and end alike but for a race. -/
structure RacedOn (files : FileSystem) (faults : List Fault) (inquiry other : Inquiry α) :
    Prop where
  footprint_eq : inquiry.footprint files = other.footprint files
  reads_eq : inquiry.reads files = other.reads files
  ends : RacedEnds faults (inquiry.result files) (other.result files)

variable {faults : List Fault} {inquiry other : Inquiry α} {next otherNext : α → Inquiry β}

theorem racedOn_refl (inquiry : Inquiry α) : RacedOn files faults inquiry inquiry :=
  ⟨rfl, rfl, .same _⟩

theorem RacedOn.bind (raced : RacedOn files faults inquiry other) (next : α → Inquiry β) :
    RacedOn files faults (inquiry >>= next) (other >>= next) := by
  obtain ⟨footprint, reads, ends⟩ := raced
  generalize firstEnds : inquiry.result files = result, otherEnds : other.result files = otherResult
    at ends
  constructor
  · rw [footprint_bind, footprint_bind, footprint, firstEnds, otherEnds]
    cases ends <;> rfl
  · rw [reads_bind, reads_bind, reads, firstEnds, otherEnds]
    cases ends <;> rfl
  · rw [result_bind, result_bind, firstEnds, otherEnds]
    cases ends with
    | same result => exact .same _
    | raced told other differ => exact .raced told other differ

/-- Inquiries that begin alike end alike but for a race if what they go on with does. -/
theorem racedOn_bind_same
    (later : ∀ value, inquiry.result files = .ok value →
      RacedOn files faults (next value) (otherNext value)) :
    RacedOn files faults (inquiry >>= next) (inquiry >>= otherNext) := by
  constructor
  · rw [footprint_bind, footprint_bind]
    cases done : inquiry.result files with
    | error fault => rfl
    | ok value => exact congrArg (_ ++ ·) (later value done).footprint_eq
  · rw [reads_bind, reads_bind]
    cases done : inquiry.result files with
    | error fault => rfl
    | ok value => exact congrArg (_ ++ ·) (later value done).reads_eq
  · rw [result_bind, result_bind]
    cases done : inquiry.result files with
    | error fault => exact .same _
    | ok value => exact (later value done).ends

theorem racedOn_ofExcept {outcome otherOutcome : Except Fault α}
    (ends : RacedEnds faults outcome otherOutcome) :
    RacedOn files faults (ofExcept outcome) (ofExcept otherOutcome) := by
  constructor
  · cases outcome <;> cases otherOutcome <;> rfl
  · cases outcome <;> cases otherOutcome <;> rfl
  · rw [result_ofExcept, result_ofExcept]
    exact ends

end Inquiry

open Inquiry (RacedEnds RacedOn racedOn_refl racedOn_bind_same racedOn_ofExcept)

theorem racedEnds_gather {α : Type} (race other : Race) (outcomes : List (Except Fault α)) :
    RacedEnds (faultsOf outcomes) (gather race outcomes) (gather other outcomes) := by
  cases gathered : gather race outcomes with
  | ok values =>
      have same := gather_eq_ok_iff.mp gathered
      rw [gather_eq_ok_iff.mpr same]
      exact .same _
  | error told =>
      have among := mem_of_gather_error gathered
      obtain ⟨winner, gathered', among'⟩ := exists_gather_error other among
      rw [gathered']
      by_cases same : told = winner
      · rw [same]
        exact .same _
      · exact .raced (mem_faultsOf.mpr among) (mem_faultsOf.mpr among') same

/-- The setting on a host with other races. -/
def Setting.withRace (setting : Setting) (race : Path → Race) : Setting :=
  { setting with host := { setting.host with race } }

namespace Component

variable {setting : Setting} {files : FileSystem} {path : Path} {source : Text}

/-- The faults of the styles that a source file lists once its templates are inlined. -/
def styleFaults (setting : Setting) (files : FileSystem) (path : Path) : List Fault :=
  let templated := do
    let source ← Inquiry.readExact setting.charset path
    inlineTemplates (resolveFrom path) setting.charset source
  match templated.result files with
  | .error _ => []
  | .ok content => faultsOf ((listedStyles content).map fun style =>
      (loadStyle setting (resolveFrom path) style).result files)

theorem styleFaults_of_templated {content : Text}
    (read : (Inquiry.readExact setting.charset path).result files = .ok source)
    (inlined : (inlineTemplates (resolveFrom path) setting.charset source).result files =
      .ok content) :
    styleFaults setting files path = faultsOf ((listedStyles content).map fun style =>
      (loadStyle setting (resolveFrom path) style).result files) := by
  simp only [styleFaults, Inquiry.result_bind, read, inlined]

theorem raced_loadStyles (race other : Race) (resolve : Text → Path) (paths : List Text) :
    RacedOn files (faultsOf (paths.map fun path => (loadStyle setting resolve path).result files))
      (loadStyles setting race resolve paths) (loadStyles setting other resolve paths) := by
  refine racedOn_bind_same fun outcomes done => racedOn_ofExcept ?_
  rw [Inquiry.result_forEach_attempt] at done
  cases done
  exact racedEnds_gather race other _

theorem raced_inlineStyles (race other : Race) (resolve : Text → Path) (content : Text) :
    RacedOn files
      (faultsOf ((listedStyles content).map fun style =>
        (loadStyle setting resolve style).result files))
      (inlineStyles setting race resolve content) (inlineStyles setting other resolve content) := by
  unfold inlineStyles listedStyles
  cases StyleReference.scan.search? content with
  | none => exact racedOn_refl _
  | some found =>
      refine racedOn_bind_same fun paths listed => ?_
      rw [Inquiry.result_ofExcept] at listed
      dsimp only
      rw [listed]
      exact (raced_loadStyles race other resolve paths).bind _

theorem raced_inlineFile (setting : Setting) (race : Path → Race) (files : FileSystem)
    (path : Path) :
    RacedOn files (styleFaults setting files path) (inlineFile setting path)
      (inlineFile (setting.withRace race) path) := by
  refine racedOn_bind_same fun source read => .bind ?_ _
  refine racedOn_bind_same fun content inlined => ?_
  rw [styleFaults_of_templated read inlined]
  exact raced_inlineStyles _ _ _ content

end Component

end Inlay

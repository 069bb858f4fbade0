import Inlay.Inquiry

/-!
# Inquiries that run side by side

Two inquiries are parallel if they ask the same questions and report the same, whatever the
answers are, and end alike: with the same fault, or with values that are related.
-/

set_option autoImplicit false

namespace Inlay.Inquiry

variable {α β γ δ : Type}

inductive Parallel (related : α → β → Prop) : Inquiry α → Inquiry β → Prop where
  | done {value : α} {other : β} :
      related value other → Parallel related (.done value) (.done other)
  | fail (fault : Fault) : Parallel related (.fail fault) (.fail fault)
  | note (entry : LogEntry) {next : Inquiry α} {otherNext : Inquiry β} :
      Parallel related next otherNext →
      Parallel related (.note entry next) (.note entry otherNext)
  | probe (path : Path) {next : Except AccessFault Bool → Inquiry α}
      {otherNext : Except AccessFault Bool → Inquiry β} :
      (∀ answer, Parallel related (next answer) (otherNext answer)) →
      Parallel related (.probe path next) (.probe path otherNext)
  | read (path : Path) {next : Except AccessFault Bytes → Inquiry α}
      {otherNext : Except AccessFault Bytes → Inquiry β} :
      (∀ answer, Parallel related (next answer) (otherNext answer)) →
      Parallel related (.read path next) (.read path otherNext)

/-- Two results that are the same fault, or values that are related. -/
inductive EndsAlike (related : α → β → Prop) : Except Fault α → Except Fault β → Prop where
  | ok {value : α} {other : β} : related value other → EndsAlike related (.ok value) (.ok other)
  | error (fault : Fault) : EndsAlike related (.error fault) (.error fault)

namespace Parallel

variable {related : α → β → Prop} {inquiry : Inquiry α} {other : Inquiry β}

theorem refl (inquiry : Inquiry α) : Parallel Eq inquiry inquiry := by
  induction inquiry with
  | done value => exact .done rfl
  | fail fault => exact .fail fault
  | note entry _ ih => exact .note entry ih
  | probe path _ ih => exact .probe path ih
  | read path _ ih => exact .read path ih

theorem bind {relatedNext : γ → δ → Prop} {next : α → Inquiry γ} {otherNext : β → Inquiry δ}
    (first : Parallel related inquiry other)
    (later : ∀ value otherValue, related value otherValue →
      Parallel relatedNext (next value) (otherNext otherValue)) :
    Parallel relatedNext (inquiry >>= next) (other >>= otherNext) := by
  induction first with
  | done pair => exact later _ _ pair
  | fail fault => exact .fail fault
  | note entry _ ih => exact .note entry ih
  | probe path _ ih => exact .probe path ih
  | read path _ ih => exact .read path ih

/-- An inquiry that goes on in two ways runs side by side with itself as long as both ways do. -/
theorem bind_same {relatedNext : γ → δ → Prop} {next : α → Inquiry γ} {otherNext : α → Inquiry δ}
    (inquiry : Inquiry α)
    (later : ∀ value, Parallel relatedNext (next value) (otherNext value)) :
    Parallel relatedNext (inquiry >>= next) (inquiry >>= otherNext) := by
  refine (refl inquiry).bind fun value otherValue same => ?_
  subst same
  exact later value

theorem footprint_eq (parallel : Parallel related inquiry other) (files : FileSystem) :
    inquiry.footprint files = other.footprint files := by
  induction parallel with
  | done => rfl
  | fail => rfl
  | note _ _ ih => exact ih
  | probe path _ ih => exact congrArg (path :: ·) (ih (files.probeFile path))
  | read path _ ih => exact congrArg (path :: ·) (ih (files.read path))

theorem reports_eq (parallel : Parallel related inquiry other) (files : FileSystem) :
    inquiry.reports files = other.reports files := by
  induction parallel with
  | done => rfl
  | fail => rfl
  | note entry _ ih => exact congrArg (entry :: ·) ih
  | probe path _ ih => exact ih (files.probeFile path)
  | read path _ ih => exact ih (files.read path)

theorem endsAlike (parallel : Parallel related inquiry other) (files : FileSystem) :
    EndsAlike related (inquiry.result files) (other.result files) := by
  induction parallel with
  | done pair => exact .ok pair
  | fail fault => exact .error fault
  | note _ _ ih => exact ih
  | probe path _ ih => exact ih (files.probeFile path)
  | read path _ ih => exact ih (files.read path)

end Parallel

end Inlay.Inquiry

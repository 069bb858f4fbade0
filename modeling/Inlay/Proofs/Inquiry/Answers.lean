import Inlay.Inquiry

/-!
# Answers to inquiries

An inquiry can be run on whatever answers its questions. The answers of a file system are those
that it is run on otherwise (`resultBy_answers`).
-/

set_option autoImplicit false

namespace Inlay

/-- What is answered to the questions of inquiries. -/
structure Answers where
  probe : Path → Except AccessFault Bool
  read : Path → Except AccessFault Bytes

def FileSystem.answers (files : FileSystem) : Answers := ⟨files.probeFile, files.read⟩

namespace Inquiry

variable {α β : Type}

def resultBy (answers : Answers) : Inquiry α → Except Fault α
  | .done value => .ok value
  | .fail fault => .error fault
  | .note _ rest => rest.resultBy answers
  | .probe path rest => (rest (answers.probe path)).resultBy answers
  | .read path rest => (rest (answers.read path)).resultBy answers

theorem resultBy_answers (files : FileSystem) (inquiry : Inquiry α) :
    inquiry.resultBy files.answers = inquiry.result files := by
  induction inquiry with
  | done value => rfl
  | fail fault => rfl
  | note entry rest ih => exact ih
  | probe path rest ih => exact ih (files.probeFile path)
  | read path rest ih => exact ih (files.read path)

theorem resultBy_bind (answers : Answers) (inquiry : Inquiry α) (next : α → Inquiry β) :
    (inquiry >>= next).resultBy answers =
      match inquiry.resultBy answers with
      | .ok value => (next value).resultBy answers
      | .error fault => .error fault := by
  change (inquiry.bind next).resultBy answers = _
  induction inquiry with
  | done value => rfl
  | fail fault => rfl
  | note entry rest ih => exact ih
  | probe path rest ih => exact ih (answers.probe path)
  | read path rest ih => exact ih (answers.read path)

end Inquiry

end Inlay

import Inlay.Fault
import Inlay.Log

/-!
# Inquiries

An inquiry is a program that looks at files but changes none: a tree of its questions, with one
branch for each answer. Running it on a file system gives its result and its reports, and
tells every path that it asked about.
-/

set_option autoImplicit false

namespace Inlay

/-- A program that reads files and ends with a value or a fault. -/
inductive Inquiry (α : Type) where
  | done (value : α)
  | fail (fault : Fault)
  | note (entry : LogEntry) (next : Inquiry α)
  | probe (path : Path) (next : Except AccessFault Bool → Inquiry α)
  | read (path : Path) (next : Except AccessFault Bytes → Inquiry α)

namespace Inquiry

variable {α β : Type}

def bind : Inquiry α → (α → Inquiry β) → Inquiry β
  | .done value, next => next value
  | .fail fault, _ => .fail fault
  | .note entry rest, next => .note entry (rest.bind next)
  | .probe path rest, next => .probe path fun answer => (rest answer).bind next
  | .read path rest, next => .read path fun answer => (rest answer).bind next

instance : Monad Inquiry where
  pure := .done
  bind := Inquiry.bind

def debug (channel : Channel) (message : Text) : Inquiry Unit :=
  .note { severity := .debug, channel, message } (.done ())

def ofExcept : Except Fault α → Inquiry α
  | .ok value => .done value
  | .error fault => .fail fault

/-- Makes the fault of an inquiry part of its result, so that the inquiry itself never fails. -/
def attempt : Inquiry α → Inquiry (Except Fault α)
  | .done value => .done (.ok value)
  | .fail fault => .done (.error fault)
  | .note entry rest => .note entry rest.attempt
  | .probe path rest => .probe path fun answer => (rest answer).attempt
  | .read path rest => .read path fun answer => (rest answer).attempt

/-- Runs an inquiry for each element of a list, in order, up to the first fault. -/
def forEach (inquiry : α → Inquiry β) : List α → Inquiry (List β)
  | [] => .done []
  | element :: elements => (inquiry element).bind fun first =>
      (forEach inquiry elements).bind fun others => .done (first :: others)

def result (files : FileSystem) : Inquiry α → Except Fault α
  | .done value => .ok value
  | .fail fault => .error fault
  | .note _ rest => rest.result files
  | .probe path rest => (rest (files.probeFile path)).result files
  | .read path rest => (rest (files.read path)).result files

/-- What an inquiry reports on a file system, in order. -/
def reports (files : FileSystem) : Inquiry α → List LogEntry
  | .done _ => []
  | .fail _ => []
  | .note entry rest => entry :: rest.reports files
  | .probe path rest => (rest (files.probeFile path)).reports files
  | .read path rest => (rest (files.read path)).reports files

/-- The paths that an inquiry asks a file system about, in order. -/
def footprint (files : FileSystem) : Inquiry α → List Path
  | .done _ => []
  | .fail _ => []
  | .note _ rest => rest.footprint files
  | .probe path rest => path :: (rest (files.probeFile path)).footprint files
  | .read path rest => path :: (rest (files.read path)).footprint files

@[simp]
theorem result_pure (files : FileSystem) (value : α) :
    (pure value : Inquiry α).result files = .ok value := rfl

@[simp]
theorem result_bind (files : FileSystem) (inquiry : Inquiry α) (next : α → Inquiry β) :
    (inquiry >>= next).result files =
      match inquiry.result files with
      | .ok value => (next value).result files
      | .error fault => .error fault := by
  change (inquiry.bind next).result files = _
  induction inquiry with
  | done value => rfl
  | fail fault => rfl
  | note entry rest ih => exact ih
  | probe path rest ih => exact ih (files.probeFile path)
  | read path rest ih => exact ih (files.read path)

@[simp]
theorem result_ofExcept (files : FileSystem) (outcome : Except Fault α) :
    (ofExcept outcome).result files = outcome := by
  cases outcome <;> rfl

@[simp]
theorem result_attempt (files : FileSystem) (inquiry : Inquiry α) :
    inquiry.attempt.result files = .ok (inquiry.result files) := by
  induction inquiry with
  | done value => rfl
  | fail fault => rfl
  | note entry rest ih => exact ih
  | probe path rest ih => exact ih (files.probeFile path)
  | read path rest ih => exact ih (files.read path)

@[simp]
theorem result_debug (files : FileSystem) (channel : Channel) (message : Text) :
    (debug channel message).result files = .ok () := rfl

end Inquiry

end Inlay

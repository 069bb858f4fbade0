import Inlay.Fault
import Inlay.Log

/-!
# Sinks

Where reports go: to the standard error stream, or to a file. The machine decides which sinks can
be opened, and which reports an open one takes.
-/

set_option autoImplicit false

namespace Inlay

/-- What a sink writes to. -/
inductive SinkTarget where
  | standardError
  | file (path : Text)
deriving Repr, DecidableEq

/-- A sink: its target, its level as it was given, the layout of its lines, and for a file
when a new one is begun and how long old ones are kept. -/
structure Sink where
  target : SinkTarget
  level : Value
  layout : String
  rotation : Option Value := none
  retention : Option Value := none
deriving Repr

/-- What keeps the sinks of a run. Opening a sink may change files, whether it succeeds or not;
what is written to an open one is kept apart from the files of the run. -/
structure Journal where
  opens : FileSystem → Sink → FileSystem × Except Refusal Unit
  takes : Sink → LogEntry → Bool

namespace Journal

def namedLevels : List (Text × Nat) :=
  [("TRACE", 5), ("DEBUG", 10), ("INFO", 20), ("SUCCESS", 25), ("WARNING", 30), ("ERROR", 40),
   ("CRITICAL", 50)]

/-- The number of a level, given by its name or its number. -/
def levelNumber : Value → Except Refusal Int
  | .text name =>
      match namedLevels.lookup name with
      | some number => .ok number
      | none => .error ⟨"ValueError", "Level '" ++ name ++ "' does not exist"⟩
  | .int number =>
      if number < 0 then
        .error ⟨"ValueError",
          s!"Invalid level value, it should be a positive integer, not: {number}"⟩
      else .ok number
  | .bool value => .ok (if value then 1 else 0)
  | value =>
      .error ⟨"TypeError",
        s!"Invalid level, it should be an integer or a string, not: '{value.shortKind}'"⟩

/-- Whether a report reaches the level of a sink. -/
def reaches (sink : Sink) (entry : LogEntry) : Bool :=
  match levelNumber sink.level with
  | .ok number => number ≤ entry.severity.number
  | .error _ => false

/-- A journal of the usual levels, which opens a sink wherever its level is one. -/
def common : Journal where
  opens files sink := (files, (levelNumber sink.level).map fun _ => ())
  takes := reaches

end Journal

end Inlay

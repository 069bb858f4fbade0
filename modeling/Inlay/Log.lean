import Inlay.Text.CodePoint

/-!
# Log entries

What a run reports while it works: a severity, the part of the program that speaks, and a
message.
-/

set_option autoImplicit false

namespace Inlay

/-- How serious a log entry is. -/
inductive Severity where
  | debug
  | info
  | error
deriving Repr, DecidableEq

def Severity.number : Severity → Nat
  | .debug => 10
  | .info => 20
  | .error => 40

def Severity.name : Severity → String
  | .debug => "DEBUG"
  | .info => "INFO"
  | .error => "ERROR"

/-- The part of the program that reports. -/
inductive Channel where
  | inliner
  | stylesheets
deriving Repr, DecidableEq

def Channel.name : Channel → String
  | .inliner => "inliner"
  | .stylesheets => "stylesheets"

/-- One report of a run. A timed report also tells how long the run took. -/
structure LogEntry where
  severity : Severity
  channel : Channel
  message : Text
  timed : Bool := false
deriving Repr, DecidableEq

/-- The message of a report, given how many seconds the run took. -/
def LogEntry.text (entry : LogEntry) (seconds : Text) : Text :=
  if entry.timed then entry.message ++ " in " ++ seconds ++ "s" else entry.message

end Inlay

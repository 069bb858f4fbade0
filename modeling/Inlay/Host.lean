import Inlay.Config.Document.Meaning
import Inlay.Journal

/-!
# Hosts

What a run finds on the machine besides its files, and does not decide itself: the reader of
configuration documents, what keeps the sinks for its reports, the compiler of stylesheets, the
encodings, which of several loads is the first one to fail, and how far a search for files can go.
All of it is taken as it is.
-/

set_option autoImplicit false

namespace Inlay

/-- Which of the faults of loads that go on side by side comes first in time. The faults are listed
in the order of the loads. -/
abbrev Race := List Fault → Nat

def Race.inOrder : Race := fun _ => 0

/-- How far the search for a pattern can go: how many parts the pattern may have, and how many
steps and directories deep the search may be. -/
structure SearchLimits where
  parts : Nat
  levels : Nat
deriving Repr, DecidableEq

def SearchLimits.common : SearchLimits := ⟨300, 900⟩

/-- The surroundings of a run. The reader gets the bytes of a configuration file together with its
name, which its wordings may tell; it also refuses a document that is nested deeper than the machine
can go through. Each source file has a race of its own. The limits may differ from pattern to
pattern, as a machine gets further with parts that it has met before. -/
structure Host where
  readDocument : Text → Bytes → Except Refusal Value
  journal : Journal
  compile : Text → Except Text Text
  codecs : Text → Except CodecRefusal Codec
  race : Path → Race
  limits : Text → SearchLimits

/-- The faults among some outcomes, in order. -/
def faultsOf {α : Type} (outcomes : List (Except Fault α)) : List Fault :=
  outcomes.filterMap fun
    | .error fault => some fault
    | .ok _ => none

/-- The values of outcomes that come side by side, or the fault that wins the race. -/
def gather {α : Type} (race : Race) (outcomes : List (Except Fault α)) : Except Fault (List α) :=
  (allOf outcomes).mapError fun first =>
    let faults := faultsOf outcomes
    faults[race faults]?.getD first

def Host.charset (host : Host) (name : Text) : Charset := ⟨name, host.codecs name⟩

/-- A host with the common documents, levels, encodings and limits, on which the loads fail in
order. -/
def Host.common (compile : Text → Except Text Text) : Host where
  readDocument := Document.readFile
  journal := .common
  compile := compile
  codecs := Codec.common
  race _ := Race.inOrder
  limits _ := .common

end Inlay

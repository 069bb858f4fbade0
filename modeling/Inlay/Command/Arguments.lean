import Inlay.Encoding.Utf8
import Inlay.Text.Similar

/-!
# Command-line arguments

The arguments of the command: one project directory, and options before or behind it.
-/

set_option autoImplicit false

namespace Inlay.Command

/-- What the arguments ask for: the words that are no options, the last configuration file,
and the flags. -/
structure Arguments where
  words : List Text := []
  config : Option Text := none
  verbose : Bool := false
  help : Bool := false
deriving Repr, DecidableEq

/-- Why the arguments cannot be followed. -/
inductive UsageFault where
  | unknownOption (name : Text) (similar : List Text)
  | missingValue (name : Text)
  | unexpectedValue (name : Text)
  | missingProject
  | missingConfig (path : Text)
  | projectIsFile (path : Text)
  | extraWords (words : List Text)
deriving Repr, DecidableEq

def longOptions : List Text := ["--config", "--verbose", "--help"]

/-- What is said about the options that are similar to an unknown one. -/
def suggestion : List Text → Text
  | [] => []
  | [name] => " Did you mean " ++ quoted name ++ "?"
  | names =>
      let shown := Text.joinWith ", " ((names.mergeSort (· ≤ ·)).map quoted)
      " (Did you mean one of: " ++ shown ++ "?)"

def shownPath (path : Text) : Text := quoted (Utf8.shownName path)

def UsageFault.message : UsageFault → Text
  | .unknownOption name similar => "No such option " ++ quoted name ++ "." ++ suggestion similar
  | .missingValue name => "Option " ++ quoted name ++ " requires an argument."
  | .unexpectedValue name => "Option " ++ quoted name ++ " does not take a value."
  | .missingProject => "Missing argument 'PROJECT_PATH'."
  | .missingConfig path =>
      "Invalid value for '--config' / '-c': Path " ++ shownPath path ++ " does not exist."
  | .projectIsFile path =>
      "Invalid value for 'PROJECT_PATH': Directory " ++ shownPath path ++ " is a file."
  | .extraWords [word] => "Got unexpected extra argument (" ++ word ++ ")"
  | .extraWords words =>
      "Got unexpected extra arguments (" ++ Text.joinWith " " words ++ ")"

/-- Whether a usage fault comes with a reminder of the usage. A value that is missing or out of
place is only named. -/
def UsageFault.showsUsage : UsageFault → Bool
  | .missingValue _ => false
  | .unexpectedValue _ => false
  | _ => true

namespace Arguments

/-- The value of an option, and the arguments behind it: what is written with the option, or
else the next argument. -/
def optionValue (name : Text) (attached : Option Text) (behind : List Text) :
    Except UsageFault (Text × List Text) :=
  match attached, behind with
  | some value, _ => .ok (value, behind)
  | none, value :: behind => .ok (value, behind)
  | none, [] => .error (.missingValue name)

/-- Follows an option with two hyphens, whose value may be attached by an equals sign. -/
def longOption (arguments : Arguments) (word : Text) (behind : List Text) :
    Except UsageFault (Arguments × List Text) :=
  let (name, attached) :=
    match Text.cut? '=' word with
    | some (name, value) => (name, some value)
    | none => (word, none)
  if name = "--config" then do
    let (value, behind) ← optionValue name attached behind
    return ({ arguments with config := some value }, behind)
  else if name = "--verbose" then
    if attached.isSome then .error (.unexpectedValue name)
    else .ok ({ arguments with verbose := true }, behind)
  else if name = "--help" then
    if attached.isSome then .error (.unexpectedValue name)
    else .ok ({ arguments with help := true }, behind)
  else .error (.unknownOption name (longOptions.filter (Similar.isSimilar · name)))

/-- Follows options of one letter each behind one hyphen. The rest of the word is the value of
an option that takes one. -/
def shortOptions (arguments : Arguments) (letters : Text) (behind : List Text) :
    Except UsageFault (Arguments × List Text) :=
  match letters with
  | [] => .ok (arguments, behind)
  | .char 'v' :: letters => shortOptions { arguments with verbose := true } letters behind
  | .char 'c' :: letters => do
      let attached := if letters = [] then none else some letters
      let (value, behind) ← optionValue ['-', 'c'] attached behind
      return ({ arguments with config := some value }, behind)
  | letter :: _ => .error (.unknownOption ['-', letter] [])

/-- Follows the words of a command line, of which there are at most so many. Two hyphens alone
end the options. -/
def follow : Nat → Arguments → List Text → Except UsageFault Arguments
  | 0, arguments, _ => .ok arguments
  | _ + 1, arguments, [] => .ok arguments
  | fuel + 1, arguments, word :: behind =>
      match word with
      | [.char '-', .char '-'] => .ok { arguments with words := arguments.words ++ behind }
      | .char '-' :: .char '-' :: _ => do
          let (arguments, behind) ← longOption arguments word behind
          follow fuel arguments behind
      | .char '-' :: c :: letters => do
          let (arguments, behind) ← shortOptions arguments (c :: letters) behind
          follow fuel arguments behind
      | _ => follow fuel { arguments with words := arguments.words ++ [word] } behind

def ofWords (words : List Text) : Except UsageFault Arguments := follow (words.length + 1) {} words

end Arguments

end Inlay.Command

import Inlay.Config.Environment
import Inlay.Config.Merge
import Inlay.Config.Options

/-!
# Loading a configuration

A configuration file is laid over the defaults, after the references to the environment in it
were replaced. Without a given file the usual places are searched, and without any file the
defaults hold.
-/

set_option autoImplicit false

namespace Inlay.Config

def mapping (fields : List (String × Value)) : Value :=
  .mapping (fields.map fun (name, value) => (.text name, value))

def defaults : Fields :=
  [(.text "inline", mapping
      [("include", .list [.text "**/*.ts"]),
       ("exclude", .list []),
       ("encoding", .text "utf-8"),
       ("max_concurrency", .int 16)]),
   (.text "styles", mapping
      [("import_prefix", .text ['~']),
       ("package_roots", .list []),
       ("less_extensions", .list [.text ".less"])]),
   (.text "logging", mapping
      [("level", .text "INFO"),
       ("file", .null)])]

/-- The names of configuration files, in the order in which they are looked for. -/
def fileNames : List Text := ["inliner.yaml", "inliner.yml"]

def firstFile? (files : FileSystem) : List Path → Except Fault (Option Path)
  | [] => .ok none
  | path :: paths =>
      match files.probeFile path with
      | .ok true => .ok (some path)
      | .ok false => firstFile? files paths
      | .error fault => .error (.access fault path.text)

/-- The configuration file in the project directory, if one is given, or else in the working
directory. -/
def findFile (files : FileSystem) (project : Option Text) : Except Fault (Option Text) :=
  let inProject :=
    match project with
    | some (c :: rest) => fileNames.map ((Path.ofText (c :: rest)).child ·)
    | _ => []
  (firstFile? files (inProject ++ fileNames.map Path.ofText)).map (·.map Path.text)

/-- The fields of a configuration file. A value that counts as not given has none. -/
def readFile (host : Host) (files : FileSystem) (path : Text) : Except Fault Fields :=
  match files.readText path with
  | .error fault => .error (.access fault path)
  | .ok bytes =>
      match host.readDocument path bytes with
      | .error refusal => .error (.config (.document refusal))
      | .ok value =>
          match value.orElse (.mapping []) with
          | .mapping fields => .ok fields
          | _ => .error (.config (.notMapping path))

/-- The configuration in a file, laid over the defaults. -/
def ofFile (host : Host) (files : FileSystem) (environment : Environment) (path : Text) :
    Except Fault Value := do
  let fields ← readFile host files path
  match (Value.fieldTexts fields).findSome? referenceFault? with
  | some fault => throw (.encoding (.chars fault))
  | none => return .mapping (mergeFields defaults (substituteFields environment fields))

/-- The configuration from a given file, or else from the usual places. A given file has to
exist. -/
def load (host : Host) (files : FileSystem) (environment : Environment)
    (file project : Option Text) : Except Fault Value :=
  match file with
  | some path =>
      match files.look (Path.ofText path) with
      | .ok (some _) => ofFile host files environment path
      | .ok none => .error (.config (.missingFile path))
      | .error fault => .error (.access fault (Path.ofText path).text)
  | none =>
      match findFile files project with
      | .ok (some path) => ofFile host files environment path
      | .ok none => .ok (.mapping defaults)
      | .error fault => .error fault

end Inlay.Config

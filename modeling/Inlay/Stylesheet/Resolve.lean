import Inlay.Inquiry
import Inlay.Text.LetterCase

/-!
# Resolving imports

Where the reference of an import leads: to a file beside the importing one, or, behind the
package mark, to a file of a package. Packages are looked for in the package directories of
the importing file's directory and of every directory above it, nearest first, and then in the
configured roots. How a path is resolved, which depends on what links there are, is given to the
search.
-/

set_option autoImplicit false

namespace Inlay

/-- How stylesheets are told apart and where their packages are. -/
structure StyleOptions where
  packageMark : Text := ['~']
  packageRoots : List Path := []
  lessExtensions : List Text := [".less"]
deriving Repr, DecidableEq

namespace Stylesheet

/-- Whether a file is to be compiled, by the extension of its name in any case of letters. -/
def isLess (file : Path) (extensions : List Text) : Bool :=
  (extensions.map lower).contains (lower file.suffix)

def packageDirectory : Text := "node_modules"

/-- The files that a reference may stand for: itself, and without an extension also the one
with the extension of sources. A path without a name has no such neighbour. -/
def candidates? (path : Path) : Option (List Path) :=
  if path.suffix = [] then
    (path.appendToName? ".less").map fun neighbour => [path, neighbour]
  else some [path]

def firstFile? : List Path → Inquiry (Option Path)
  | [] => .done none
  | path :: paths => .probe path fun
      | .ok true => .done (some path)
      | .ok false => firstFile? paths
      | .error fault => .fail (.access fault path.text)

def searchIn (resolve : Path → Path) (reference : Text) : List Path → Inquiry (Option Path)
  | [] => .done none
  | directory :: directories =>
      let path := directory.join (Path.ofText reference)
      match candidates? path with
      | none => .fail (.namelessPath path)
      | some paths => do
          match ← firstFile? paths with
          | some found => return some (resolve found)
          | none => searchIn resolve reference directories

/-- The directories that may hold packages as seen from a directory. -/
def packageDirectories (resolve : Path → Path) (start : Path) (roots : List Path) : List Path :=
  (resolve start).selfAndAncestors.map (·.child packageDirectory) ++ roots

/-- Where a reference into a package leads, as seen from a directory. -/
def resolvePackage (resolve : Path → Path) (reference : Text) (start : Path)
    (roots : List Path) : Inquiry (Option Path) :=
  match start.refusal? with
  | some fault => .fail (.access fault start.text)
  | none => searchIn resolve reference (packageDirectories resolve start roots)

/-- Where the reference of an import leads, as seen from the importing file. -/
def resolveImport (workingDirectory : Location) (options : StyleOptions) (reference : Text)
    (importer : Path) : Inquiry (Option Path) :=
  match options.packageMark, Text.after? options.packageMark reference with
  | _ :: _, some inPackage =>
      resolvePackage (Path.absolute workingDirectory) inPackage importer.parent
        options.packageRoots
  | _, _ => searchIn (Path.absolute workingDirectory) reference [importer.parent]

end Stylesheet

end Inlay

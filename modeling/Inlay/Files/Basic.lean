import Inlay.Encoding.Utf8
import Inlay.Path.Normal

/-!
# File systems

A file system is a value: the entries at absolute locations, and the directory in which a
program runs. Locations are found by walking a path part by part, so a double dot goes up from
a directory that exists. Only directory trees are described: there are no symbolic links, so the
absolute form of a path leads where the path does, no devices, and no permissions, so whatever is
there can be read and written.
-/

set_option autoImplicit false

namespace Inlay

abbrev Bytes := List UInt8

abbrev Location := List Text

/-- What stands at a location. -/
inductive Entry where
  | directory
  | file (content : Bytes)
deriving Repr, DecidableEq

/-- Why a path could not be accessed. -/
inductive AccessFault where
  | notFound
  | alreadyExists
  | notDirectory
  | isDirectory
  | nameTooLong
  | nullCharacter
  | encoding (fault : EncodeFault)
deriving Repr, DecidableEq

def AccessFault.isRefusal : AccessFault → Bool
  | .nullCharacter => true
  | .encoding _ => true
  | _ => false

/-- Why no file can be asked for by a written path: halves of characters have no bytes, and a
null character would end the path. -/
def refusal? (text : Text) : Option AccessFault :=
  match Utf8.nameFault? text with
  | some fault => some (.encoding fault)
  | none => if text.contains '\x00' then some .nullCharacter else none

/-- Why parts cannot be followed to where they lead from the parts before them, last one first.
The path up to each part is asked for in turn, without what double dots have taken away. -/
def trailRefusal? (isAnchored : Bool) (stack : List Text) : List Text → Option AccessFault
  | [] => none
  | part :: parts =>
      let stack := pushPart isAnchored stack part
      match refusal? (Path.text ⟨if isAnchored then .root else .relative, stack.reverse⟩) with
      | some fault => some fault
      | none => trailRefusal? isAnchored stack parts

def Path.refusal? (path : Path) : Option AccessFault :=
  trailRefusal? path.isAnchored [] path.parts

/-- The entries below the root, which is always a directory, and the working directory. -/
structure FileSystem where
  entries : List (Location × Entry)
  workingDirectory : Location
deriving Repr, DecidableEq

namespace FileSystem

/-- The bytes that the name of an entry may have. -/
def longestName : Nat := 255

/-- The bytes that a path may have. -/
def longestPath : Nat := 4095

/-- Whether a text takes more bytes than it may have. -/
def isLonger (limit : Nat) (text : Text) : Bool := limit < (Utf8.encode text).length

variable (files : FileSystem)

/-- Whether two locations are the same. The last parts, which tell most of them apart, are
compared first. -/
def sameLocation : Location → Location → Bool
  | [], [] => true
  | part :: location, other :: others => sameLocation location others && part == other
  | _, _ => false

theorem sameLocation_iff {location other : Location} :
    sameLocation location other = true ↔ location = other := by
  induction location generalizing other with
  | nil => cases other <;> simp [sameLocation]
  | cons part location ih =>
      cases other with
      | nil => simp [sameLocation]
      | cons first others => simp [sameLocation, ih, and_comm]

def standsAt (location : Location) (entry : Location × Entry) : Bool :=
  sameLocation entry.1 location

theorem standsAt_iff {location : Location} {entry : Location × Entry} :
    standsAt location entry = true ↔ entry.1 = location := sameLocation_iff

def find? (location : Location) : Option Entry :=
  if location = [] then some .directory
  else (files.entries.find? (standsAt location)).map (·.2)

/-- Walks from a location along the given parts. Every location that is walked through is an
existing directory; at the last one anything or nothing may stand. -/
def walk (location : Location) : List Text → Except AccessFault Location
  | [] => .ok location
  | part :: parts =>
      match files.find? location with
      | none => .error .notFound
      | some (.file _) => .error .notDirectory
      | some .directory =>
          if part = [] ∨ part = "." then walk location parts
          else if part = parentPart then walk location.dropLast parts
          else if isLonger longestName part then .error .nameTooLong
          else walk (location ++ [part]) parts

def locate (path : Path) : Except AccessFault Location :=
  match refusal? path.text with
  | some fault => .error fault
  | none =>
      if isLonger longestPath path.text then .error .nameTooLong
      else files.walk (if path.isAnchored then [] else files.workingDirectory) path.parts

/-- The location that a written path leads to. A slash at the end asks for a directory, and
the empty text leads nowhere. -/
def locateText (text : Text) : Except AccessFault Location :=
  match refusal? text with
  | some fault => .error fault
  | none =>
      if text = [] then .error .notFound
      else if isLonger longestPath text then .error .nameTooLong
      else
        files.walk (if Anchor.ofText text = .relative then files.workingDirectory else [])
          (Text.splitOn '/' text)

def lookup (path : Path) : Except AccessFault Entry :=
  match files.locate path with
  | .error fault => .error fault
  | .ok location =>
      match files.find? location with
      | none => .error .notFound
      | some entry => .ok entry

def lookupText (text : Text) : Except AccessFault Entry :=
  match files.locateText text with
  | .error fault => .error fault
  | .ok location =>
      match files.find? location with
      | none => .error .notFound
      | some entry => .ok entry

/-- What stands where a path leads, if anything does. A path that is too long for the question
has no answer. -/
def look (path : Path) : Except AccessFault (Option Entry) :=
  match files.lookup path with
  | .ok entry => .ok (some entry)
  | .error .nameTooLong => .error .nameTooLong
  | .error _ => .ok none

def isFile (path : Path) : Bool :=
  match files.lookup path with
  | .ok (.file _) => true
  | _ => false

def isDirectory (path : Path) : Bool :=
  match files.lookup path with
  | .ok .directory => true
  | _ => false

/-- Whether a path leads to a regular file, unless the path is too long for the question. -/
def probeFile (path : Path) : Except AccessFault Bool :=
  (files.look path).map fun
    | some (.file _) => true
    | _ => false

def exists? (path : Path) : Bool :=
  match files.lookup path with
  | .ok _ => true
  | .error _ => false

def contentOf : Entry → Except AccessFault Bytes
  | .file content => .ok content
  | .directory => .error .isDirectory

def read (path : Path) : Except AccessFault Bytes := files.lookup path >>= contentOf

def readText (text : Text) : Except AccessFault Bytes := files.lookupText text >>= contentOf

def put (location : Location) (entry : Entry) : FileSystem :=
  if files.entries.any (standsAt location) then
    { files with
      entries := files.entries.map fun old =>
        if standsAt location old then (location, entry) else old }
  else { files with entries := files.entries ++ [(location, entry)] }

theorem find?_put_self {location : Location} (below : location ≠ []) (entry : Entry) :
    (files.put location entry).find? location = some entry := by
  unfold put find?
  rw [if_neg below]
  split
  · next present =>
      obtain ⟨old, member, same⟩ := List.any_eq_true.mp present
      rw [standsAt_iff] at same
      generalize files.entries = entries at member
      induction entries with
      | nil => simp at member
      | cons head entries ih =>
          by_cases here : head.1 = location
          · simp [standsAt_iff, here]
          · have later : old ∈ entries := by
              rcases List.mem_cons.mp member with rfl | later
              · exact absurd same here
              · exact later
            simpa [standsAt_iff, here] using ih later
  · next absent =>
      rw [Bool.not_eq_true, List.any_eq_false] at absent
      have missing : files.entries.find? (standsAt location) = none :=
        List.find?_eq_none.mpr absent
      simp [List.find?_append, missing, standsAt_iff]

/-- What stands at the other locations stays. -/
theorem find?_put_of_ne {location other : Location} (apart : other ≠ location) (entry : Entry) :
    (files.put location entry).find? other = files.find? other := by
  unfold put find?
  by_cases root : other = []
  · simp [root]
  · rw [if_neg root, if_neg root]
    split
    · generalize files.entries = entries
      induction entries with
      | nil => rfl
      | cons head entries ih =>
          by_cases here : head.1 = location
          · have skipped : ¬ location = other := fun equal => apart equal.symm
            simpa [standsAt_iff, here, skipped] using ih
          · by_cases found : head.1 = other
            · simp [standsAt_iff, found, apart]
            · simpa [standsAt_iff, here, found] using ih
    · have skipped : ¬ location = other := fun equal => apart equal.symm
      simp [List.find?_append, standsAt_iff, skipped]

/-- The file system after a file was written at a path. Its directory has to exist. -/
def write (path : Path) (content : Bytes) : Except AccessFault FileSystem :=
  match files.locate path with
  | .error fault => .error fault
  | .ok location =>
      match files.find? location, files.find? location.dropLast with
      | some .directory, _ => .error .isDirectory
      | some (.file _), _ => .ok (files.put location (.file content))
      | none, some .directory => .ok (files.put location (.file content))
      | none, some (.file _) => .error .notDirectory
      | none, none => .error .notFound

def makeDirectory (path : Path) : Except AccessFault FileSystem :=
  match files.locate path with
  | .error fault => .error fault
  | .ok location =>
      match files.find? location, files.find? location.dropLast with
      | some _, _ => .error .alreadyExists
      | none, some .directory => .ok (files.put location .directory)
      | none, some (.file _) => .error .notDirectory
      | none, none => .error .notFound

/-- The names in a directory, with what stands there. -/
def listing (directory : Location) : List (Text × Entry) :=
  files.entries.filterMap fun (location, entry) =>
    if location ≠ [] ∧ sameLocation location.dropLast directory then
      location.getLast?.map fun name => (name, entry)
    else none

/-- The listing of the directory that a path leads to. A path that is too long for the question has
no answer. -/
def list (path : Path) : Except AccessFault (List (Text × Entry)) :=
  match files.locate path with
  | .ok location => .ok (files.listing location)
  | .error .nameTooLong => .error .nameTooLong
  | .error _ => .ok []

end FileSystem

end Inlay

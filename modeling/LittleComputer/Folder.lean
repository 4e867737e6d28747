import LittleComputer.Files

/-! The folder that a program's files are looked up in. It holds plain files and folders, and
those hold others in turn. A path is followed name by name from the folder, and nothing exists
outside it. -/
namespace LittleComputer

inductive Entry where
  | file (bytes : Array UInt8)
  | folder
  deriving DecidableEq

/-- Where something lies in a folder: its own name first, then those of the folders around it. -/
abbrev Location := List String

structure Folder where
  entries : List (Location × Entry) := []

namespace Folder

/-- What lies at a location. The empty one is that of the folder itself. -/
def find? (folder : Folder) : Location → Option Entry
  | [] => some .folder
  | name :: around => folder.entries.lookup (name :: around)

def set (folder : Folder) (location : Location) (entry : Entry) : Folder :=
  ⟨(location, entry) :: folder.entries.filter (·.1 != location)⟩

/-- Where a path has led so far. -/
inductive Place where
  | folder (location : Location)
  /-- Any folder that this one lies in. -/
  | outside
  | file (bytes : Array UInt8)

def Place.around : Place → Place
  | .folder (_ :: location) => .folder location
  | _ => .outside

def maxName : Nat := 255
def maxPath : Nat := 4095

/-- Follows one more name of `path`; an empty one stays where it is. -/
def enter (folder : Folder) (path : String) (place : Place) (name : String) :
    Except FileError Place :=
  match place with
  | .file _ => .error (.notFolder path)
  | place =>
    if name.utf8ByteSize > maxName then .error (.nameTooLong path)
    else if name = "" ∨ name = "." then .ok place
    else if name = ".." then .ok place.around
    else
      match place with
      | .folder location =>
        match folder.find? (name :: location) with
        | some (.file bytes) => .ok (.file bytes)
        | some .folder => .ok (.folder (name :: location))
        | none => .error (.missing path)
      | _ => .error (.missing path)

/-- Follows some names at the beginning of `path`. -/
def follow (folder : Folder) (path : String) (names : List String) : Except FileError Place :=
  names.foldlM (folder.enter path) (if path.startsWith "/" then .outside else .folder [])

def read (folder : Folder) (path : String) : Except FileError (Array UInt8) :=
  if path.contains '\x00' then .error .embeddedNull
  else if path = "" then .error (.missing path)
  else if path.utf8ByteSize > maxPath then .error (.nameTooLong path)
  else
    match folder.follow path (path.splitOn "/") with
    | .ok (.file bytes) => .ok bytes
    | .ok _ => .error (.isFolder path)
    | .error e => .error e

/-- The location of a name in the folder that the names before it lead to, the last one first. -/
def site? (folder : Folder) (path : String) : List String → Option Location
  | [] => none
  | name :: before =>
    if name.utf8ByteSize > maxName ∨ name = "" ∨ name = "." ∨ name = ".." then none
    else
      match folder.follow path before.reverse with
      | .ok (.folder location) => some (name :: location)
      | _ => none

/-- The location that a path gives to a new entry. Only that of a folder may end in slashes. -/
def locate? (folder : Folder) (path : String) (entry : Entry) : Option Location :=
  let names := (path.splitOn "/").reverse
  match entry with
  | .folder => folder.site? path (names.dropWhile (·.isEmpty))
  | .file _ => folder.site? path names

/-- Adds an entry, whose path must lead into a folder that is there. A file takes the place of a
file; any other entry stays as it is. -/
def put (folder : Folder) (path : String) (entry : Entry) : Folder :=
  match folder.locate? path entry with
  | none => folder
  | some location =>
    match folder.find? location, entry with
    | none, _ => folder.set location entry
    | some (.file _), .file _ => folder.set location entry
    | _, _ => folder

end Folder

end LittleComputer

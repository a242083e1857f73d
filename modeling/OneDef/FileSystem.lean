import OneDef.Error

/-!
# File systems

A file system is a list of entries, each a place with what stands there, and the directory from
which relative paths start.  A place is the list of names that lead to it from the top.  Paths are
followed name by name, and every name but the last has to lead to a directory.  Names and paths have
a greatest length: a path that is too long is refused at once, a name that is too long when it is
reached.
-/

namespace OneDef

/-- The names on the way from the top, in order. -/
abbrev Place := List String

inductive Entry where
  | file (bytes : List UInt8)
  | directory
  deriving DecidableEq

structure FileSystem where
  entries : List (Place × Entry)
  current : Place

namespace IoError

def notFound : IoError := .system 2 "No such file or directory"

def notDirectory : IoError := .system 20 "Not a directory"

def isDirectory : IoError := .system 21 "Is a directory"

def nameTooLong : IoError := .system 36 "File name too long"

def noSpace : IoError := .system 28 "No space left on device"

end IoError

namespace FileSystem

/-- What stands at a place; the top always is a directory. -/
def find? (files : FileSystem) (place : Place) : Option Entry :=
  if place = [] then some .directory else files.entries.lookup place

def contents? (files : FileSystem) (place : Place) : Option (List UInt8) :=
  match files.find? place with
  | some (.file bytes) => some bytes
  | _ => none

/-- Puts a file at a place, over the one that stands there. -/
def put (files : FileSystem) (place : Place) (bytes : List UInt8) : FileSystem :=
  { files with entries := (place, .file bytes) :: files.entries.filter (·.1 ≠ place) }

/-- Makes a directory at a place, and those on the way to it. -/
def makeDirectory (files : FileSystem) (place : Place) : FileSystem :=
  let places := (List.range place.length).map fun depth ↦ place.take (depth + 1)
  let missing := places.filter fun place ↦ files.find? place = none
  { files with entries := missing.map (·, .directory) ++ files.entries }

/-- The most bytes in a name. -/
def nameLimit : Nat := 255

/-- The most bytes in a path. -/
def pathLimit : Nat := 4095

/-- The place that one name leads to from a directory. -/
def enter (place : Place) (name : String) : Place :=
  if name = "." then place else if name = ".." then place.dropLast else place ++ [name]

/-- The place that names lead to. -/
def follow (files : FileSystem) (place : Place) : List String → Except IoError Place
  | [] => .ok place
  | name :: names =>
    match files.find? place with
    | some .directory =>
      if name.utf8ByteSize > nameLimit then .error .nameTooLong
      else
        match files.find? (enter place name) with
        | some _ => follow files (enter place name) names
        | none => .error .notFound
    | _ => .error .notDirectory

/-- A path taken apart: whether it starts at the top, its names, and whether it ends in a slash. -/
structure Path where
  absolute : Bool
  names : List String
  trailing : Bool

def Path.ofString (text : String) : Except IoError Path :=
  let parts := text.toList.splitOn '/'
  if text = "" then .error .notFound
  else if text.utf8ByteSize > pathLimit then .error .nameTooLong
  else .ok
    { absolute := parts.length > 1 && parts.head? = some []
      names := (parts.filter (· ≠ [])).map String.ofList
      trailing := parts.length > 1 && parts.getLast? = some [] }

/-- The place at which following a path starts. -/
def start (files : FileSystem) (path : Path) : Place :=
  if path.absolute then [] else files.current

/-- The contents of the file that a path names. -/
def read (files : FileSystem) (text : String) : Except IoError (List UInt8) := do
  let path ← Path.ofString text
  let place ← files.follow (files.start path) path.names
  match files.contents? place with
  | some bytes => if path.trailing then throw .notDirectory else return bytes
  | none => throw .isDirectory

/-- The place of the file that a path names for writing: its last name need not exist yet. -/
def target (files : FileSystem) (text : String) : Except IoError Place := do
  let path ← Path.ofString text
  match path.names.getLast? with
  | none => throw .isDirectory
  | some name =>
    let place ← files.follow (files.start path) path.names.dropLast
    if files.find? place ≠ some .directory then throw .notDirectory
    if path.trailing then throw .isDirectory
    if name.utf8ByteSize > nameLimit then throw .nameTooLong
    if files.find? (enter place name) = some .directory then throw .isDirectory
    return enter place name

/-- Replaces or creates the file that a path names. -/
def write (files : FileSystem) (text : String) (bytes : List UInt8) : Except IoError FileSystem :=
  (files.target text).map fun place ↦ files.put place bytes

end FileSystem

end OneDef

import Unweave.Path

/-!
# Disks

A disk holds files, directories and two devices by where they are; a place is the list of names from
the top, and the top itself always is a directory.  Operations take paths as text and fail the way
an operating system does: a path is walked part by part, and what it goes through must be there and
be a directory.
-/

namespace Unweave

/-- A place: the names from the top. -/
abbrev Location : Type := List String

inductive Device where
  /-- Empty to read, and forgets what is written. -/
  | null
  /-- Zeros without end. -/
  | zero
deriving DecidableEq, Repr

/-- What is at a place. -/
inductive DiskEntry where
  | file (content : ByteArray)
  | directory
  | device (d : Device)

namespace DiskEntry

def isDirectory : DiskEntry → Bool
  | directory => true
  | _ => false

/-- Whether two entries hold the same. -/
def same : DiskEntry → DiskEntry → Bool
  | file a, file b => a.data == b.data
  | directory, directory => true
  | device a, device b => a == b
  | _, _ => false

end DiskEntry

/-- Why an operation on files fails. -/
inductive DiskError where
  | notFound
  | permissionDenied
  | alreadyExists
  | notDirectory
  | isDirectory
  | nameTooLong
  | notEmpty
  /-- A path holds the character zero. -/
  | zeroInPath
  | notText
  /-- A file that should be a program is none. -/
  | notProgram
deriving DecidableEq, Repr

namespace DiskError

def message : DiskError → String
  | notFound => "No such file or directory (os error 2)"
  | permissionDenied => "Permission denied (os error 13)"
  | alreadyExists => "File exists (os error 17)"
  | notDirectory => "Not a directory (os error 20)"
  | isDirectory => "Is a directory (os error 21)"
  | nameTooLong => "File name too long (os error 36)"
  | notEmpty => "Directory not empty (os error 39)"
  | zeroInPath => "file name contained an unexpected NUL byte"
  | notText => "stream did not contain valid UTF-8"
  | notProgram => "Exec format error (os error 8)"

/-- The reason alone, as programs print it. -/
def reason : DiskError → String
  | notFound => "No such file or directory"
  | permissionDenied => "Permission denied"
  | alreadyExists => "File exists"
  | notDirectory => "Not a directory"
  | isDirectory => "Is a directory"
  | nameTooLong => "File name too long"
  | notEmpty => "Directory not empty"
  | zeroInPath => "Invalid argument"
  | notText => "Invalid argument"
  | notProgram => "Exec format error"

end DiskError

structure Disk where
  entries : List (Location × DiskEntry) := []
  /-- The current directory. -/
  here : Location := []
  /-- Where temporary directories are made. -/
  temporary : Location := []
  /-- How many of them were made. -/
  made : Nat := 0
  /-- Permissions that were set; others are the usual ones. -/
  modes : List (Location × Nat) := []

namespace Disk

/-! ## Places -/

/-- What is at a place. -/
def at? (d : Disk) (l : Location) : Option DiskEntry :=
  if l.isEmpty then some .directory else d.entries.lookup l

def putEntry (l : Location) (e : DiskEntry) :
    List (Location × DiskEntry) → List (Location × DiskEntry)
  | [] => [(l, e)]
  | (k, x) :: entries => if k = l then (k, e) :: entries else (k, x) :: putEntry l e entries

def put (d : Disk) (l : Location) (e : DiskEntry) : Disk :=
  { d with entries := putEntry l e d.entries }

/-- Remove what is at a place and everything below it. -/
def removeTree (d : Disk) (l : Location) : Disk :=
  { d with
    entries := d.entries.filter fun (k, _) => !l.isPrefixOf k
    modes := d.modes.filter fun (k, _) => !l.isPrefixOf k }

/-- The permission bits of what is at a place: all may read, the owner may write, and what is no
file may be entered by all. -/
def modeAt (d : Disk) (l : Location) : Nat :=
  match d.modes.lookup l with
  | some m => m
  | none =>
    match d.at? l with
    | some (.file _) => 420
    | some (.device _) => 438
    | _ => 493

def setMode (d : Disk) (l : Location) (mode : Nat) : Disk :=
  { d with modes := (l, mode) :: d.modes.filter (·.1 ≠ l) }

/-- Whether some permission to execute is given. -/
def isExecutable (d : Disk) (l : Location) : Bool := d.modeAt l &&& 73 != 0

/-- The names in a directory. -/
def children (d : Disk) (l : Location) : List String :=
  d.entries.filterMap fun (k, _) => if k.dropLast = l && k ≠ [] then k.getLast? else none

/-! ## Walking a path -/

/-- Where a path leads, and whether it is written as a directory. -/
structure Target where
  location : Location
  asDirectory : Bool

/-- Go on from a place along the parts of a path.  All but the last place are directories. -/
def walk (d : Disk) : Location → List String → Except DiskError Location
  | l, [] => .ok l
  | l, part :: parts =>
    match d.at? l with
    | none => .error .notFound
    | some .directory =>
      if Path.isVoid part then d.walk l parts
      else if part == ".." then d.walk l.dropLast parts
      else if part.utf8ByteSize > 255 then .error .nameTooLong
      else d.walk (l ++ [part]) parts
    | some _ => .error .notDirectory

def locate (d : Disk) (path : String) : Except DiskError Target :=
  if path.isEmpty then .error .notFound
  else if path.toList.contains (Char.ofNat 0) then .error .zeroInPath
  else if path.utf8ByteSize ≥ 4096 then .error .nameTooLong
  else
    let parts := Path.parts path
    let named := parts.filter (· != "")
    let slash := path.toList.getLast? == some '/'
    (d.walk (if Path.isAbsolute path then [] else d.here) named).map fun location =>
      { location, asDirectory := slash }

/-- The directory that the last part of a path is looked for in. -/
def locateParent (d : Disk) (path : String) : Except DiskError Location := do
  if path.toList.contains (Char.ofNat 0) then .error .zeroInPath
  else if path.utf8ByteSize ≥ 4096 then .error .nameTooLong
  else
    let named := (Path.parts path).filter (· != "")
    let l ← d.walk (if Path.isAbsolute path then [] else d.here) named.dropLast
    match d.at? l with
    | some .directory => .ok l
    | some _ => .error .notDirectory
    | none => .error .notFound

/-- What a path leads to. -/
def find (d : Disk) (path : String) : Except DiskError (Location × DiskEntry) := do
  let t ← d.locate path
  match d.at? t.location with
  | none => .error .notFound
  | some .directory => .ok (t.location, .directory)
  | some e => if t.asDirectory then .error .notDirectory else .ok (t.location, e)

/-! ## Files -/

def pathExists (d : Disk) (path : String) : Bool := (d.find path).isOk

def isFile (d : Disk) (path : String) : Bool :=
  match d.find path with
  | .ok (_, .file _) => true
  | _ => false

def isDirectory (d : Disk) (path : String) : Bool :=
  match d.find path with
  | .ok (_, .directory) => true
  | _ => false

def readBytes (d : Disk) (path : String) : Except DiskError ByteArray := do
  match ← d.find path with
  | (_, .file content) => .ok content
  | (_, .directory) => .error .isDirectory
  | (_, .device _) => .ok .empty

def readText (d : Disk) (path : String) : Except DiskError String := do
  match String.fromUTF8? (← d.readBytes path) with
  | some s => .ok s
  | none => .error .notText

/-- Where a file that may not be there yet would be.  A path that is written as a directory leads
to none, whatever its last part is. -/
def locateFile (d : Disk) (path : String) : Except DiskError Location := do
  if path.toList.getLast? == some '/' then
    let _ ← d.locateParent path
    .error .isDirectory
  else return (← d.locate path).location

/-- Write a file, which is made if it is not there.  A disk has no permissions and never runs full,
and it takes the new content at once.  So only a directory or a path that leads nowhere stands in
the way of a write, and a file that can be read can be written. -/
def writeBytes (d : Disk) (path : String) (content : ByteArray) : Except DiskError Disk := do
  let l ← d.locateFile path
  match d.at? l with
  | some .directory => .error .isDirectory
  | some (.device _) => .ok d
  | _ => .ok (d.put l (.file content))

def writeText (d : Disk) (path : String) (text : String) : Except DiskError Disk :=
  d.writeBytes path text.toUTF8

def removeFile (d : Disk) (path : String) : Except DiskError Disk := do
  match ← d.find path with
  | (_, .directory) => .error .isDirectory
  | (l, _) => .ok (d.removeTree l)

/-! ## Directories -/

def makeDirectory (d : Disk) (path : String) : Except DiskError Disk := do
  let t ← d.locate path
  match d.at? t.location with
  | some _ => .error .alreadyExists
  | none => .ok (d.put t.location .directory)

/-- Make a directory and those it is in, trying at most as many as there are parts. -/
def makeDirectoriesWithin : Nat → Disk → String → Except DiskError Disk
  | 0, _, _ => .error .notFound
  | n + 1, d, path =>
    if path.isEmpty then .ok d
    else
      match d.makeDirectory path with
      | .ok d => .ok d
      | .error .notFound =>
        match Path.parent? path with
        | none => .error .notFound
        | some up => do
          let d ← makeDirectoriesWithin n d up
          match d.makeDirectory path with
          | .ok d => .ok d
          | .error e => if d.isDirectory path then .ok d else .error e
      | .error e => if d.isDirectory path then .ok d else .error e

def makeDirectories (d : Disk) (path : String) : Except DiskError Disk :=
  makeDirectoriesWithin (path.length + 2) d path

/-- Make a temporary directory whose name starts with `stem`. -/
def makeTemporary (d : Disk) (stem : String) : Disk × Location :=
  let digits := (Nat.toDigits 10 d.made)
  let name := stem ++ String.ofList (List.replicate (6 - digits.length) '0' ++ digits)
  let l := d.temporary ++ [name]
  ({ d.put l .directory with made := d.made + 1 }, l)

/-- A disk with only the devices and an empty directory to work in. -/
def fresh (here : Location) : Disk :=
  let above := (List.range here.length).map fun n => (here.take (n + 1), DiskEntry.directory)
  { entries :=
      [(["dev"], .directory), (["dev", "null"], .device .null), (["dev", "zero"], .device .zero)] ++
        above
    here, temporary := here }

/-- The text of an absolute path to a place. -/
def pathOf (l : Location) : String := "/" ++ "/".intercalate l

end Disk
end Unweave

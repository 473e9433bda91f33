/-!
# Paths

A path is text with parts between slashes.  Empty parts and single dots say nothing, except that a
path may start with a dot.  Everything here looks at the text alone and never at a disk.
-/

namespace Unweave
namespace Path

/-- The text between slashes, empty parts included. -/
def split : List Char → List (List Char)
  | [] => [[]]
  | c :: cs =>
    if c = '/' then [] :: split cs
    else
      match split cs with
      | [] => [[c]]
      | part :: parts => (c :: part) :: parts

def isAbsolute (path : String) : Bool := path.toList.head? == some '/'

/-- The parts of a path, without the empty one before a leading slash. -/
def parts (path : String) : List String :=
  let ps := (split path.toList).map String.ofList
  if isAbsolute path then ps.drop 1 else ps

/-- Whether a part says nothing where it stands: only a first dot of a relative path does not. -/
def isVoid (part : String) : Bool := part == "" || part == "."

/-- Forget the void parts at the end, but not a dot that `keep` protects: the first of the list. -/
def dropVoidEnd (keep : Bool) : List String → List String
  | [] => []
  | part :: parts =>
    match dropVoidEnd false parts with
    | [] => if part == "" || (part == "." && !keep) then [] else [part]
    | rest => part :: rest

/-- The parts up to the last that says something. -/
def body (path : String) : List String := dropVoidEnd (!isAbsolute path) (parts path)

def ofParts (absolute : Bool) (parts : List String) : String :=
  (if absolute then "/" else "") ++ "/".intercalate parts

/-- The path without its last part, if it has one. -/
def parent? (path : String) : Option String :=
  let absolute := isAbsolute path
  match body path with
  | [] => none
  | ps => some (ofParts absolute (dropVoidEnd (!absolute) ps.dropLast))

/-- The directory a file is in: a single dot if the path does not tell. -/
def directoryOf (path : String) : String :=
  match parent? path with
  | none => "."
  | some "" => "."
  | some dir => dir

/-- The last part, if it is a name. -/
def fileName? (path : String) : Option String :=
  match (body path).getLast? with
  | some name => if name == "." || name == ".." then none else some name
  | none => none

/-- What follows the last dot of a name, unless the name starts with that dot. -/
def extensionOf (name : List Char) : Option (List Char) :=
  match name.reverse.dropWhile (· != '.') with
  | [] => none
  | [_] => none
  | _ :: _ => some (name.reverse.takeWhile (· != '.')).reverse

def extension? (path : String) : Option String :=
  (fileName? path).bind fun name => (extensionOf name.toList).map String.ofList

/-- Whether a part goes up. -/
def goesUp (path : String) : Bool := (parts path).contains ".."

/-- A path below a directory; an absolute one stays what it is. -/
def join (dir path : String) : String :=
  if isAbsolute path then path
  else if dir.isEmpty || dir.toList.getLast? == some '/' then dir ++ path
  else dir ++ "/" ++ path

/-- One step of a walk along a path, on names held innermost first. -/
def step (names : List String) (part : String) : List String :=
  if isVoid part then names else if part == ".." then names.drop 1 else part :: names

/-- The names from the top that a path leads through, started at `here`. -/
def resolve (here : List String) (path : String) : List String :=
  ((parts path).foldl step (if isAbsolute path then [] else here.reverse)).reverse

end Path
end Unweave

import Unweave.Codec.Solution
import Unweave.Disk.Basic
import Unweave.Text.Ascii
import Unweave.Workbench

/-!
# Solution files

A solution that was read from a file remembers the digest of what the file held.  A change is
written only if the file still holds that, so of two parties that read the same file the second one
to write is refused.
-/

namespace Unweave

structure SolutionFile where
  path : String
  solution : Solution
  /-- The digest of what the file holds as far as is known here. -/
  base : String

namespace SolutionFile

/-- A solution's path needs its extension, in any case, and a file. -/
def validate (d : Disk) (path : String) : Except Error Unit :=
  if !((Path.extension? path).map (Text.sameFolded · "sln")).getD false then
    .error (.invalidSolutionPath path)
  else if !d.isFile path then .error (.solutionNotFound path)
  else .ok ()

def open? (d : Disk) (path : String) : Except Error SolutionFile := do
  validate d path
  match d.readText path with
  | .error e => .error (.io e.message)
  | .ok text =>
    match Solution.parse? text with
    | none => .error (.json "not a solution")
    | some solution => .ok { path, solution, base := solution.snapshotId }

/-- Write a solution to a new file. -/
def save (d : Disk) (path : String) (s : Solution) : Except Error Disk :=
  (d.writeText path s.fileText).mapError fun e => .io e.message

/-- The file must still hold what the digest names. -/
def requireCurrent (f : SolutionFile) (d : Disk) : Except Error Unit :=
  match d.readText f.path with
  | .error e => .error (.commitRejected (f.path ++ ": " ++ e.message))
  | .ok text =>
    if (Solution.parse? text).map (·.snapshotId) = some f.base then .ok ()
    else .error (.commitRejected (f.path ++ " changed on disk since it was loaded"))

/-- Hand in a new solution, which goes to the file as a whole or not at all.  A disk takes a text at
once, so there is no second file that the text would go to first, to be moved into place.  And it
takes any text for a file that was just read: the refusal of the write is kept for its message, but
it is never met on such a disk. -/
def commit (f : SolutionFile) (d : Disk) (new : Solution) : Except Error (SolutionFile × Disk) := do
  f.solution.requireSameProjects new
  f.requireCurrent d
  match d.writeText f.path new.fileText with
  | .error e => .error (.commitRejected (f.path ++ ": " ++ e.message))
  | .ok d => .ok ({ f with solution := new, base := new.snapshotId }, d)

/-- A workbench on a solution file and the disk it is on. -/
def bench (compiler : Compiler Disk) : Workbench (SolutionFile × Disk) where
  solution s := s.1.solution
  commit new s :=
    match s.1.commit s.2 new with
    | .ok s => (.ok (), s)
    | .error e => (.error e, s)
  compile p s :=
    let (answer, d) := compiler p s.2
    (answer, (s.1, d))

end SolutionFile
end Unweave

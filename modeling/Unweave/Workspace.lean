import Unweave.SolutionFile

/-!
# Workspaces

A workspace owns the current solution.  It keeps it in memory or in a file, and takes a new one as a
whole or not at all; one that is locked takes none.
-/

namespace Unweave

inductive Workspace where
  | memory (solution : Solution)
  | file (f : SolutionFile)
  | locked (solution : Solution)

namespace Workspace

def solution : Workspace → Solution
  | memory s => s
  | file f => f.solution
  | locked s => s

/-- Take a new solution. -/
def commit (w : Workspace) (d : Disk) (new : Solution) : Except Error (Workspace × Disk) :=
  match w with
  | memory old => do
    old.requireSameProjects new
    return (memory new, d)
  | file f => do
    let (f, d) ← f.commit d new
    return (file f, d)
  | locked _ => .error (.commitRejected "read-only workspace")

/-- The same solution, in memory and free of the file it came from. -/
def detached (w : Workspace) : Workspace := memory w.solution

end Workspace
end Unweave

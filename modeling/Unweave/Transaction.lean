import Unweave.CleanUp
import Unweave.Workbench

/-!
# Transactions

Clean-ups are applied to a copy of the solution, which is handed in once at the end.  Every target
must compile before anything is done; a clean-up that asks for it is followed by a compile after
each document it changed.  Any failure before the end leaves the solution as it was.
-/

namespace Unweave
namespace Workbench

variable {σ : Type} (b : Workbench σ)

/-- The targets must compile to begin with. -/
def requirePreconditions (solution : Solution) : List ProjectId → Job σ Unit
  | [] => pure ()
  | id :: ids =>
    match solution.project? id with
    | none => requirePreconditions solution ids
    | some p => do
      b.requireCompiles (fun f => .preconditionFailed p.name f.text) p
      requirePreconditions solution ids

/-- Clean documents up, each in the project that the ones before it left. -/
def cleanDocuments (c : CleanUp) : List DocumentId → Project → Job σ Project
  | [], p => pure p
  | id :: ids, p =>
    match p.document? id with
    | none => cleanDocuments c ids p
    | some d =>
      match c.apply p d with
      | .error e => throw (.cleanUpFailed c.name d.name e.message)
      | .ok d' =>
        if d' = d then cleanDocuments c ids p
        else do
          let p := p.withDocument d'
          if c.recompiles then b.ensureCompiles p c.name
          cleanDocuments c ids p

/-- Clean the documents of a project up that may be touched. -/
def cleanProject (c : CleanUp) (solution : Solution) (id : ProjectId) : Job σ Solution :=
  match solution.project? id with
  | none => pure solution
  | some p => do
    let p ← b.cleanDocuments c ((p.documents.filter (·.isEditable)).map (·.id)) p
    return solution.withProject p

/-- One clean-up on all targets. -/
def cleanProjects (c : CleanUp) (targets : List ProjectId) (solution : Solution) : Job σ Solution :=
  targets.foldlM (b.cleanProject c) solution

/-- Run clean-ups on the targets and hand the outcome in. -/
def cleanAndCommit (cleanUps : List CleanUp) (targets : List ProjectId) (solution : Solution) :
    Job σ Solution := do
  b.requirePreconditions solution targets
  let solution ← cleanUps.foldlM (fun s c => b.cleanProjects c targets s) solution
  b.commitSolution solution
  return solution

/-- Clean all projects up. -/
def cleanSolution (cleanUps : List CleanUp) : Job σ Solution := do
  let solution ← b.current
  b.cleanAndCommit cleanUps solution.projectIds solution

def missingProject (id : ProjectId) : Error :=
  .invalidArguments ("no project with id " ++ id.render ++ " in the workspace")

/-- Clean one project up. -/
def cleanOne (cleanUps : List CleanUp) (id : ProjectId) : Job σ Solution := do
  let solution ← b.current
  if (solution.project? id).isNone then throw (missingProject id)
  b.cleanAndCommit cleanUps [id] solution

/-- The project as it now is. -/
def currentProject (id : ProjectId) : Job σ Project := do
  match (← b.current).project? id with
  | none => throw (missingProject id)
  | some p => return p

end Workbench
end Unweave

import Unweave.Codec.Solution
import Unweave.Extraction
import Unweave.Transaction

/-!
# The pipeline

A project is packed in seven steps: types become partial, regions go, needless usings go, interwoven
extension methods, then other interwoven members, then what is left of the types are taken out, and
the usings that became needless go.  Each step must leave the project compiling and hands its
outcome in; the packages of an extraction are added once its outcome was taken.

A solution is packed on a copy, so what holds it never changes.
-/

namespace Unweave

/-- How a pipeline judges and writes. -/
structure Settings where
  policy : InterweaveConfig := {}
  layout : Layout := {}
  /-- The source of diagnostics that tells which usings are needless. -/
  usings : Project → Document → List Diagnostic := fun _ d => Check.needlessUsings d

/-- A workbench's state with the library that is being filled. -/
structure Shelf (σ : Type) where
  host : σ
  library : Library := {}
  /-- The projects that are done, as they were left, in order. -/
  finished : List Project := []

namespace Shelf

variable {σ α : Type}

/-- Run a job of the workbench. -/
def onHost (job : Job σ α) : Job (Shelf σ) α := fun s =>
  let (r, host) := job s.host
  (r, { s with host })

/-- Add packages, one after the other. -/
def addPackages : List Package → Job (Shelf σ) Unit
  | [] => pure ()
  | p :: ps => do
    let shelf ← get
    let library ← shelf.library.add p
    set { shelf with library }
    addPackages ps

end Shelf

namespace Pipeline

variable {σ : Type} (settings : Settings) (b : Workbench σ)

def clean (c : CleanUp) (id : ProjectId) : Job (Shelf σ) Unit := do
  discard (Shelf.onHost (b.cleanOne [c] id))

/-- Run an extraction pass, hand its outcome in and keep its packages. -/
def extract (stage : String) (pass : Walker → Except Error Extracted) (id : ProjectId) :
    Job (Shelf σ) Unit := do
  let solution ← Shelf.onHost b.current
  match solution.project? id with
  | none => throw (Workbench.missingProject id)
  | some p =>
    let extracted ← pass (Walker.ofProject p)
    Shelf.onHost (b.ensureCompiles extracted.project stage)
    Shelf.onHost (b.commitSolution (solution.withProject extracted.project))
    Shelf.addPackages extracted.packages

/-- Pack one project and give what is left of it. -/
def packProject (id : ProjectId) : Job (Shelf σ) Project := do
  discard (Shelf.onHost (b.currentProject id))
  clean b .ensurePartial id
  clean b .removeRegions id
  clean b (.removeUsings settings.usings) id
  extract b "extract interwoven extension methods"
    (Extraction.extensions settings.policy settings.layout) id
  extract b "extract interwoven type members"
    (Extraction.members settings.policy settings.layout) id
  extract b "extract member containers"
    (Extraction.containers settings.policy settings.layout) id
  clean b (.removeUsings settings.usings) id
  let stripped ← Shelf.onHost (b.currentProject id)
  modify fun s => { s with finished := s.finished ++ [stripped] }
  return stripped

def packProjects : List ProjectId → Job (Shelf σ) Unit
  | [] => pure ()
  | id :: ids => do
    discard (packProject settings b id)
    packProjects ids

end Pipeline

/-- What packing a solution gives. -/
structure Packed where
  library : Library
  /-- The solution without what was taken out. -/
  stripped : Solution
  /-- The digest of the solution before anything was done. -/
  snapshotId : String

/-- Pack a solution, with a compiler that may act on a state.  The projects that were finished are
given even if a later one fails. -/
def packSolution {τ : Type} (settings : Settings) (compiler : Compiler τ) (solution : Solution)
    (t : τ) : Except Error Packed × List Project × τ :=
  if solution.projects.isEmpty then
    (.error (.invalidArguments "the solution has no projects"), [], t)
  else
    let (r, shelf) :=
      Pipeline.packProjects settings (.inMemory compiler) solution.projectIds
        { host := (solution, t) }
    (r.map fun _ =>
        { library := shelf.library, stripped := shelf.host.1, snapshotId := solution.snapshotId },
      shelf.finished, shelf.host.2)

end Unweave

import Unweave.Grouping
import Unweave.Pipeline
import Unweave.Report
import Unweave.Sandbox
import Unweave.SolutionFile

/-!
# Tasks

What the command line can be asked to do with a solution file: build its library, group its
extension methods, or check that it compiles.  The file itself is never changed.
-/

namespace Unweave

/-- Something done on a disk, whose effects stay if it fails. -/
abbrev OnDisk (α : Type) : Type := Disk → Except Error α × Disk

namespace Task

def configName : String := "paketti.toml"

def readConfig (d : Disk) (path : String) : Except Error Config :=
  match d.readText path with
  | .error e => .error (.config path e.message)
  | .ok text => (Config.parse text).mapError fun f => .config path f.message

/-- The configuration named, or the one beside the solution if there is one. -/
def loadConfig (d : Disk) (named : Option String) (solution : String) : Except Error Config :=
  match named with
  | some path => readConfig d path
  | none =>
    let path := Path.join (Path.directoryOf solution) configName
    if d.pathExists path then readConfig d path else .ok {}

def compilerOf (c : Config) : Compiler Disk :=
  match c.compiler.mode with
  | .structural => .structural
  | .command => (Sandbox.ofConfig c).compiler

def layoutOf (c : Config) : Layout := { margin := c.format.indent }

def settingsOf (c : Config) : Settings := { policy := c.interweave, layout := layoutOf c }

/-- Build the library of a solution, at a given time.  The stripped solution may be written to a
file.  With the report come the projects as they were left. -/
def build (c : Config) (now solution : String) (output : Option String) :
    OnDisk (Report × List Project) := fun d =>
  match SolutionFile.open? d solution with
  | .error e => (.error e, d)
  | .ok f =>
    match packSolution (settingsOf c) (compilerOf c) f.solution d with
    | (.error e, _, d) => (.error e, d)
    | (.ok packed, finished, d) =>
      let report := fun stripped =>
        Report.build solution packed.snapshotId now
          (packed.library.summary packed.stripped.projects.length) packed.library.infos stripped
      match output with
      | none => (.ok (report none, finished), d)
      | some path =>
        match SolutionFile.save d path packed.stripped with
        | .error e => (.error e, d)
        | .ok d => (.ok (report (some path), finished), d)

/-- Group the extension methods of all projects. -/
def groupAll (c : Config) (ps : List Project) : Except Error Library :=
  ps.foldlM
    (fun l p => do l.addAll (← groupExtensions c.interweave (layoutOf c) p).packages) Library.empty

def extensions (c : Config) (solution : String) (d : Disk) : Except Error Report := do
  let f ← SolutionFile.open? d solution
  let l ← groupAll c f.solution.projects
  return .extensions solution l.infos

/-- Compile projects one after the other. -/
def checkAll (compiler : Compiler Disk) : List Project → OnDisk Unit
  | [], d => (.ok (), d)
  | p :: ps, d =>
    match compiler p d with
    | (.error f, d) => (.error (.preconditionFailed p.name f.text), d)
    | (.ok (), d) => checkAll compiler ps d

def check (c : Config) (solution : String) : OnDisk Report := fun d =>
  match SolutionFile.open? d solution with
  | .error e => (.error e, d)
  | .ok f =>
    match checkAll (compilerOf c) f.solution.projects d with
    | (.error e, d) => (.error e, d)
    | (.ok (), d) =>
      (.ok (.check solution f.solution.snapshotId (f.solution.projects.map (·.name))), d)

/-- What is left of projects, as text. -/
def tree (layout : Layout) (ps : List Project) : String :=
  String.join (ps.map fun p =>
    "== " ++ p.name ++ " ==\n" ++
      String.join (p.documents.map fun doc =>
        "-- " ++ doc.name ++ "\n" ++ layout.root doc.root ++ "\n"))

end Task
end Unweave

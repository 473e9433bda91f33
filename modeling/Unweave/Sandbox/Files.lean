import Unweave.Disk.Basic
import Unweave.Layout
import Unweave.Solution.Basic

/-!
# The files of a sandbox

An external compiler gets a project as files in a directory.  Where a document's file goes is
decided by its path alone: relative paths are kept, and one that is absolute or goes up is cut down
to its last name.
-/

namespace Unweave
namespace Sandbox

/-- A path that stays below the directory it is joined to, if its last name does. -/
def safeRelative (path fallback : String) : String :=
  if Path.isAbsolute path || Path.goesUp path then (Path.fileName? path).getD fallback else path

def documentPath (dir : String) (d : Document) : String :=
  Path.join dir (safeRelative (d.path.getD d.name) d.name)

def manifestPath (dir : String) (p : Project) : String := Path.join dir (p.name ++ ".csproj")

/-- The project file that the external compiler reads. -/
def manifest (p : Project) : String :=
  "<Project Sdk=\"Microsoft.NET.Sdk\">\n  <PropertyGroup>\n    <OutputType>Library</OutputType>\n" ++
    "    <AssemblyName>" ++ p.assembly ++ "</AssemblyName>\n" ++
    "    <TargetFramework>netstandard2.0</TargetFramework>\n  </PropertyGroup>\n</Project>\n"

/-- The files that are written, in order: the documents, then the project file. -/
def paths (dir : String) (p : Project) : List String :=
  p.documents.map (documentPath dir) ++ [manifestPath dir p]

def makeParent (d : Disk) (path : String) : Except DiskError Disk :=
  match Path.parent? path with
  | none => .ok d
  | some parent => d.makeDirectories parent

/-- Write a document, with the directories that it needs. -/
def writeDocument (layout : Layout) (dir : String) (d : Disk) (document : Document) :
    Except DiskError Unit × Disk :=
  let path := documentPath dir document
  match makeParent d path with
  | .error e => (.error e, d)
  | .ok made =>
    match made.writeText path (layout.root document.root) with
    | .error e => (.error e, made)
    | .ok d => (.ok (), d)

/-- Write one more document, unless writing has failed. -/
def writeNext (layout : Layout) (dir : String) :
    Except DiskError Unit × Disk → Document → Except DiskError Unit × Disk
  | (.error e, d), _ => (.error e, d)
  | (.ok (), d), document => writeDocument layout dir d document

/-- Write documents until one fails; those before it stay. -/
def writeDocuments (layout : Layout) (dir : String) (documents : List Document) (d : Disk) :
    Except DiskError Unit × Disk :=
  documents.foldl (writeNext layout dir) (.ok (), d)

/-- Write a project's files below a directory and tell their paths. -/
def materialize (layout : Layout) (p : Project) (dir : String) (d : Disk) :
    Except DiskError (List String) × Disk :=
  match writeDocuments layout dir p.documents d with
  | (.error e, d) => (.error e, d)
  | (.ok (), d) =>
    match d.writeText (manifestPath dir p) (manifest p) with
    | .error e => (.error e, d)
    | .ok d => (.ok (paths dir p), d)

end Sandbox
end Unweave

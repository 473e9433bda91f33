import Unweave.Text.Ascii
import Unweave.Tree.Edit

/-!
# Solutions

A solution is a list of projects, a project a list of documents.  Look-ups take the first with an
identifier, replacements all of them; where identifiers are distinct the two agree.
-/

namespace Unweave

inductive SourceKind where
  | regular
  | script
  | generated
deriving DecidableEq, Repr

structure Document where
  id : DocumentId
  name : String
  path : Option String := none
  kind : SourceKind := .regular
  root : Root
deriving DecidableEq

structure Project where
  id : ProjectId
  name : String
  assembly : String
  documents : List Document := []
deriving DecidableEq

structure Solution where
  projects : List Project := []
deriving DecidableEq

namespace Document

/-- The part of a document's name after the last slash of either kind. -/
def fileName (name : String) : String :=
  String.ofList (name.toList.reverse.takeWhile fun c => c != '/' && c != '\\').reverse

/-- Whether a name is that of a file of assembly attributes. -/
def isAssemblyInfo (name : String) : Bool :=
  let file := Text.lower (fileName name)
  file == "assemblyinfo.cs" || file.endsWith ".assemblyinfo.cs"

/-- Whether clean-up may touch the document: it is ordinary source and not an assembly-info file. -/
def isEditable (d : Document) : Bool := d.kind == .regular && !isAssemblyInfo d.name

end Document

namespace Project

def document? (p : Project) (id : DocumentId) : Option Document :=
  p.documents.find? (·.id == id)

/-- The first document whose tree has the node. -/
def documentContaining? (p : Project) (node : NodeId) : Option Document :=
  p.documents.find? (·.root.contains node)

def contains (p : Project) (node : NodeId) : Bool := (p.documentContaining? node).isSome

def withDocument (p : Project) (document : Document) : Project :=
  { p with documents := p.documents.map fun d => if d.id = document.id then document else d }

end Project

namespace Solution

def project? (s : Solution) (id : ProjectId) : Option Project := s.projects.find? (·.id == id)

def projectIds (s : Solution) : List ProjectId := s.projects.map (·.id)

def withProject (s : Solution) (project : Project) : Solution :=
  { s with projects := s.projects.map fun p => if p.id = project.id then project else p }

end Solution
end Unweave

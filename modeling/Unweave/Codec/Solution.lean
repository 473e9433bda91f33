import Unweave.Codec.Tree
import Unweave.Digest.Sha256
import Unweave.Json.Reader
import Unweave.Json.Writer
import Unweave.Solution.Basic

/-!
# Solution files

A solution file holds the pretty form of a solution and a line end.  The digest of the compact form
names the solution's content.
-/

namespace Unweave

open Json (field fieldIfSome)

namespace SourceKind

def names : List (String × SourceKind) :=
  [("regular", .regular), ("script", .script), ("generated", .generated)]

def render : SourceKind → String
  | .regular => "regular"
  | .script => "script"
  | .generated => "generated"

end SourceKind

namespace Document

def toJson (d : Document) : Json :=
  .obj (field "id" (.ofWord d.id.val) ++ field "name" (.str d.name) ++
    fieldIfSome "path" (d.path.map .str) ++ field "kind" (.str d.kind.render) ++
    field "root" d.root.toJson)

def decode : Json.Decoder Document := fun scope j => do
  let r ← Json.record ["id", "name", "path", "kind", "root"] scope j
  let id ← r.required "id" Json.word
  let name ← r.required "name" Json.text
  let path ← r.optional "path" Json.text
  let kind ← r.default "kind" .regular (Json.choice SourceKind.names)
  let root ← r.required "root" Root.decode
  return { id := ⟨id⟩, name, path, kind, root }

end Document

namespace Project

def toJson (p : Project) : Json :=
  .obj (field "id" (.ofWord p.id.val) ++ field "name" (.str p.name) ++
    field "assembly_name" (.str p.assembly) ++
    field "documents" (.arr (p.documents.map Document.toJson)))

def decode : Json.Decoder Project := fun scope j => do
  let r ← Json.record ["id", "name", "assembly_name", "documents"] scope j
  let id ← r.required "id" Json.word
  let name ← r.required "name" Json.text
  let assembly ← r.required "assembly_name" Json.text
  let documents ← r.default "documents" [] (Json.list Document.decode)
  return { id := ⟨id⟩, name, assembly, documents }

end Project

namespace Solution

def toJson (s : Solution) : Json :=
  .obj (field "projects" (.arr (s.projects.map Project.toJson)))

def decode : Json.Decoder Solution := fun scope j => do
  let r ← Json.record ["projects"] scope j
  let projects ← r.default "projects" [] (Json.list Project.decode)
  return { projects }

/-- The solution that a file's text holds. -/
def parse? (text : String) : Option Solution :=
  (Json.parse? text).bind (decode Json.outermost)

/-- The text of a solution file. -/
def fileText (s : Solution) : String := s.toJson.pretty ++ "\n"

/-- The first sixteen digits of the digest of the compact form. -/
def snapshotId (s : Solution) : String :=
  Sha256.hex ((Sha256.digest s.toJson.compact.toUTF8.toList).take 8)

end Solution
end Unweave

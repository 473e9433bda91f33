import Unweave.Layout
import Unweave.Library
import Unweave.Selection

/-!
# Extraction

A pass selects declarations, writes each of them into a package, and takes them out of the project.
The texts are those of the project that the selection was made on.
-/

namespace Unweave

/-- What a pass leaves of a project, and one package for each declaration taken out, in order. -/
structure Extracted where
  project : Project
  packages : List Package

namespace Project

/-- The nodes of a list that are first found in a document with this identifier. -/
def nodesIn (p : Project) (ids : List NodeId) (document : DocumentId) : List NodeId :=
  ids.filter fun id => (p.documentContaining? id).map (·.id) == some document

/-- Take nodes out of the document with this identifier. -/
def eraseIn (p : Project) (document : DocumentId) (nodes : List NodeId) : Project :=
  if nodes.isEmpty then p
  else
    match p.document? document with
    | none => p
    | some d => p.withDocument { d with root := d.root.erase nodes.contains }

/-- Take nodes out of a project, one document after the other.  Each must be in some document. -/
def removeDeclarations (p : Project) (ids : List NodeId) : Except Error Project :=
  let missing := ids.filter (!p.contains ·)
  if missing.isEmpty then
    .ok ((p.documents.map (·.id)).foldl (fun q id => q.eraseIn id (p.nodesIn ids id)) p)
  else
    .error (.invariant
      ("Every member should exist within a document. These did not: " ++
        ", ".intercalate (missing.map NodeId.render)))

end Project

namespace Extraction

def removeSelected (p : Project) (selected : List Selected) : Except Error Project :=
  p.removeDeclarations (selected.map (·.id))

variable (policy : InterweaveConfig) (layout : Layout)

def extensionPackage (s : Selected) : Package :=
  .interwovenExtensionMethods (layout.member s.entry.declaration.toMember)
    (describe (policy.interweaves s.dependencies))

/-- Take out the interwoven extension methods. -/
def extensions (w : Walker) : Except Error Extracted := do
  let (selected, w) := policy.selectExtensions w
  let project ← removeSelected w.catalogue.project selected
  return { project, packages := selected.map (extensionPackage policy layout) }

def memberPackage (s : Selected) : Except Error Package :=
  match s.entry.containerOpenName with
  | none => .error (.invariant (s.entry.qualifiedName ++ " has no containing type"))
  | some owner =>
    .ok (.interwovenTypeMembers owner (layout.member s.entry.declaration.toMember)
      (describe (policy.interweaves s.dependencies)))

/-- Take out the other interwoven members. -/
def members (w : Walker) : Except Error Extracted := do
  let (selected, w) := policy.selectMembers w
  let selected ← selected
  let packages ← selected.mapM (memberPackage policy layout)
  let project ← removeSelected w.catalogue.project selected
  return { project, packages }

/-- The comments above a type and its header. -/
def containerDeclaration (h : TypeHead) : String :=
  "\n".intercalate
    ((h.leading.filter (·.kind == .comment)).map (Text.trimEnd ·.text) ++ [Layout.typeHeader h])

def containerPackage (p : Project) (s : Selected) : Except Error Package :=
  match s.entry.declaration with
  | .leaf l =>
    .error (.invariant
      ((Declaration.leaf l).kindName ++ " " ++ s.entry.qualifiedName ++
        " is not a member container"))
  | .type head inner =>
    match p.document? s.entry.document with
    | none => .error (.invariant (s.entry.document.render ++ " is not in the project"))
    | some d =>
      .ok (.memberContainer
        { kind := head.kind, name := Text.qualify s.entry.space head.name, arity := head.arity,
          declaration := containerDeclaration head,
          usings := Text.sortedSet ((d.root.usingsFor s.entry.space).map Layout.usingText) }
        ("\n\n".intercalate (layout.members inner)))

/-- Take out what is left of the top-level types. -/
def containers (w : Walker) : Except Error Extracted := do
  let selected := policy.selectContainers w
  let packages ← selected.mapM (containerPackage layout w.catalogue.project)
  let project ← removeSelected w.catalogue.project selected
  return { project, packages }

end Extraction
end Unweave

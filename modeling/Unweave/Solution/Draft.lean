import Unweave.Solution.Binding
import Unweave.Solution.Numbering

/-!
# Drafts

A draft is a project put together by hand, with nodes that need no identifiers and references that
need no targets.  Building it numbers the nodes and binds the references.  The projects of a
solution are numbered through, so no two of its fresh nodes share an identifier.
-/

namespace Unweave

structure DocumentDraft where
  name : String
  kind : SourceKind := .regular
  root : Root

structure ProjectDraft where
  id : ProjectId := ⟨1⟩
  name : String
  assembly : String
  documents : List DocumentDraft := []

/-- Number the documents of a project; the `k`-th of them is document `k`. -/
def DocumentDraft.numberAll (next k : Nat) : List DocumentDraft → Nat × List Document
  | [] => (next, [])
  | d :: ds =>
    let (next, root) := Numbering.root next d.root
    let (next, documents) := numberAll next (k + 1) ds
    (next, { id := ⟨UInt32.ofNat k⟩, name := d.name, path := some d.name, kind := d.kind, root } ::
      documents)

namespace ProjectDraft

/-- Build a project, with fresh nodes numbered from `next` on. -/
def buildFrom (next : Nat) (p : ProjectDraft) : Nat × Project :=
  let (next, documents) := DocumentDraft.numberAll next 1 p.documents
  let index := Binding.index documents
  (next,
    { id := p.id, name := p.name, assembly := p.assembly,
      documents := documents.map (Binding.bindDocument index) })

def build (p : ProjectDraft) : Project := (p.buildFrom 1).2

/-- Build projects one after another; the `k`-th of them is project `k`. -/
def buildAll (next k : Nat) : List ProjectDraft → Nat × List Project
  | [] => (next, [])
  | p :: ps =>
    let (next, project) := { p with id := ⟨UInt32.ofNat k⟩ }.buildFrom next
    let (next, projects) := buildAll next (k + 1) ps
    (next, project :: projects)

end ProjectDraft

def Solution.ofDrafts (drafts : List ProjectDraft) : Solution :=
  ⟨(ProjectDraft.buildAll 1 1 drafts).2⟩

end Unweave

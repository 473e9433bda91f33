/-!
# Identifiers

Nodes, documents and projects are named by words of thirty-two bits.  Zero marks a node that has no
name yet.  A name says which node is meant and nothing else: names may repeat, and a node keeps its
name through every change of the tree around it.
-/

namespace Unweave

structure NodeId where
  val : UInt32
deriving DecidableEq, Repr, Inhabited

structure DocumentId where
  val : UInt32
deriving DecidableEq, Repr, Inhabited

structure ProjectId where
  val : UInt32
deriving DecidableEq, Repr, Inhabited

namespace NodeId

def unassigned : NodeId := ⟨0⟩

def isAssigned (id : NodeId) : Bool := id != unassigned

def render (id : NodeId) : String := s!"#{id.val.toNat}"

end NodeId

def DocumentId.render (id : DocumentId) : String := s!"doc{id.val.toNat}"

def ProjectId.render (id : ProjectId) : String := s!"proj{id.val.toNat}"

end Unweave

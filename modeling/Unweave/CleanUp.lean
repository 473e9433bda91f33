import Unweave.Check.Usings
import Unweave.Error
import Unweave.Solution.Basic

/-!
# Clean-ups

A clean-up makes a new version of one document.  Three of them prepare a project for extraction:
top-level types become partial, region directives go, and so do needless using directives.
-/

namespace Unweave

structure CleanUp where
  name : String
  /-- Whether the project must compile after each document that was changed. -/
  recompiles : Bool
  apply : Project → Document → Except Error Document

namespace CleanUp

/-- A partial type says so right before its keyword. -/
def makePartial (h : TypeHead) : TypeHead :=
  if h.isPartial then h else { h with modifiers := h.modifiers ++ ["partial"] }

/-- Types inside other types are left as they are: they move together with their container. -/
def ensurePartial : CleanUp where
  name := "ensure-partial"
  recompiles := true
  apply _ d := .ok { d with root := d.root.mapTopTypes makePartial }

def removeRegions : CleanUp where
  name := "remove-regions"
  recompiles := false
  apply _ d := .ok { d with root := d.root.keepTrivia (!·.isRegion) }

/-- The nodes that diagnostics call needless. -/
def needless (ds : List Diagnostic) : List NodeId :=
  (ds.filter fun d =>
    d.code == Diagnostic.duplicateUsing || d.code == Diagnostic.unnecessaryUsing).filterMap (·.node)

/-- Erase what a source of diagnostics calls needless. -/
def removeUsings (diagnostics : Project → Document → List Diagnostic) : CleanUp where
  name := "remove-unused-usings"
  recompiles := false
  apply p d :=
    let nodes := needless (diagnostics p d)
    .ok (if nodes.isEmpty then d else { d with root := d.root.erase nodes.contains })

end CleanUp
end Unweave

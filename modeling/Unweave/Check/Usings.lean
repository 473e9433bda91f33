import Unweave.Diagnostic
import Unweave.Solution.Basic
import Unweave.Text.Sorted
import Unweave.Tree.View

/-!
# Needless using directives

A directive is needless when the same one stands before it in its block or around it, or when it
imports a namespace of which the document uses nothing.  Shorthands and static imports are only
ever reported as repetitions.
-/

namespace Unweave

abbrev UsingKey : Type := String × Option String × Bool

def Using.key (u : Using) : UsingKey := (u.name, u.shorthand, u.isStatic)

/-- Whether the directive imports a namespace. -/
def Using.isImport (u : Using) : Bool := u.shorthand.isNone && !u.isStatic

namespace Root

/-- Every namespace that a type symbol or a reference of the tree lives in. -/
def usedNamespaces (r : Root) : List String :=
  (r.symbols.flatMap (·.parts)).filterMap (·.space) ++ r.references.filterMap (·.space)

end Root

namespace Check

def hidden (code document message : String) (node : NodeId) : Diagnostic :=
  { code, severity := .hidden, message, document, node := some node }

/-- Check the directives of one block; `seen` holds those before and around it. -/
def usingsOf (used : List String) (document : String) (seen : List UsingKey) :
    List Using → List Diagnostic
  | [] => []
  | u :: us =>
    let rest := usingsOf used document (u.key :: seen) us
    if seen.contains u.key then
      hidden Diagnostic.duplicateUsing document
        ("The using directive for '" ++ u.name ++ "' appeared previously") u.id :: rest
    else if u.isImport && !used.contains u.name then
      hidden Diagnostic.unnecessaryUsing document "Unnecessary using directive." u.id :: rest
    else rest

mutual

def blockUsings (used : List String) (document : String) (seen : List UsingKey) :
    Member → List Diagnostic
  | .block head members =>
    usingsOf used document seen head.usings ++
      blockUsingsAll used document (head.usings.map Using.key ++ seen) members
  | _ => []

def blockUsingsAll (used : List String) (document : String) (seen : List UsingKey) :
    List Member → List Diagnostic
  | [] => []
  | m :: ms => blockUsings used document seen m ++ blockUsingsAll used document seen ms

end

/-- The needless directives of a document. -/
def needlessUsings (d : Document) : List Diagnostic :=
  let used := d.root.usedNamespaces
  usingsOf used d.name [] d.root.usings ++
    blockUsingsAll used d.name (d.root.usings.map Using.key) d.root.members

end Check
end Unweave

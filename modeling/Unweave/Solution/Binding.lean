import Unweave.Solution.Basic

/-!
# Binding

An open reference is bound to a declaration of the same project by name.  A reference that names a
type looks among the members of that type; one that does not looks among the members of the type
around it, then among the declarations outside any type.  Types are known by their simple name, and
the first declaration of a name wins.
-/

namespace Unweave
namespace Binding

/-- What declarations are found by: the simple name of the type around them, and their own. -/
abbrev Key : Type := Option String × String

abbrev Index : Type := List (Key × NodeId)

mutual

/-- The declarations of a member that stands in `container`; a block has none around it. -/
def entries (container : Option String) : Member → Index
  | .block _ ms => entriesAll none ms
  | .type head ms => entriesAll (some head.name) ms
  | .leaf l => l.form.names.map fun name => ((container, name), l.id)

def entriesAll (container : Option String) : List Member → Index
  | [] => []
  | m :: ms => entries container m ++ entriesAll container ms

end

def index (documents : List Document) : Index :=
  documents.flatMap fun d => entriesAll none d.root.members

def resolve (index : Index) (enclosing : Option String) (r : SymbolRef) : Option NodeId :=
  match r.container with
  | some c => index.lookup (some c, r.name)
  | none =>
    match enclosing.bind fun e => index.lookup (some e, r.name) with
    | some id => some id
    | none => index.lookup (none, r.name)

/-- Bind a reference unless it is bound. -/
def bindRef (index : Index) (enclosing : Option String) (r : SymbolRef) : SymbolRef :=
  match r.declaration with
  | some _ => r
  | none => { r with declaration := resolve index enclosing r }

def bindBody (index : Index) (enclosing : Option String) (b : Body) : Body :=
  { b with
    expressions := b.expressions.map fun e =>
      { e with symbol := e.symbol.map (bindRef index enclosing) } }

mutual

def bindMember (index : Index) (enclosing : Option String) : Member → Member
  | .block head ms => .block head (bindMembers index none ms)
  | .type head ms => .type head (bindMembers index (some head.name) ms)
  | .leaf l => .leaf { l with form := l.form.mapBodies (bindBody index enclosing) }

def bindMembers (index : Index) (enclosing : Option String) : List Member → List Member
  | [] => []
  | m :: ms => bindMember index enclosing m :: bindMembers index enclosing ms

end

def bindDocument (index : Index) (d : Document) : Document :=
  { d with root := { d.root with members := bindMembers index none d.root.members } }

end Binding
end Unweave

import Unweave.Solution.Basic
import Unweave.Tree.View
import Unweave.TypeRef

/-!
# Catalogues

A catalogue lists the declarations of a project in the order of its text, each with where it stands.
Looking an identifier up gives the last declaration that carries it, and the listed declarations are
those found that way, so a repeated identifier shows its last bearer in every place.
-/

namespace Unweave

/-- A member other than a namespace block. -/
inductive Declaration where
  | type (head : TypeHead) (members : List Member)
  | leaf (leaf : Leaf)

namespace Declaration

def id : Declaration → NodeId
  | type head _ => head.id
  | leaf l => l.id

def name : Declaration → String
  | type head _ => head.name
  | leaf l => l.name

def kindName : Declaration → String
  | type head _ => head.kind.keyword
  | leaf l =>
    match l.form with
    | .delegate .. => "delegate"
    | .method .. => "method"
    | .property .. => "property"
    | .constructor .. => "constructor"
    | .field .. => "field"

def toMember : Declaration → Member
  | type head members => .type head members
  | leaf l => .leaf l

def isType : Declaration → Bool
  | type .. => true
  | leaf _ => false

def isExtensionMethod : Declaration → Bool
  | type .. => false
  | leaf l => l.form.isExtension

/-- Methods, properties, constructors and fields. -/
def isTypeMember : Declaration → Bool
  | type .. => false
  | leaf l => !l.form.isDelegate

/-- What a body can call or read: every leaf. -/
def isCallable : Declaration → Bool
  | type .. => false
  | leaf _ => true

/-- The type symbols a declaration mentions by itself; those of a type are its members'. -/
def symbols : Declaration → List TypeSymbol
  | type .. => []
  | leaf l => l.symbols

/-- The declarations reached directly: the members of a type, or what a leaf's bodies refer to. -/
def callees : Declaration → List NodeId
  | type _ members => (members.filter (!·.isBlock)).map (·.id)
  | leaf l => l.references.filterMap (·.declaration)

end Declaration

/-- A declaration and where it stands. -/
structure Entry where
  declaration : Declaration
  document : DocumentId
  /-- The type around the declaration. -/
  container : Option TypeHead
  /-- The dotted name of the namespace, empty at the top. -/
  space : String
  /-- How many types are around the declaration. -/
  depth : Nat

namespace Entry

def id (e : Entry) : NodeId := e.declaration.id

/-- The name of the type around the declaration, with its namespace. -/
def containerName (e : Entry) : Option String :=
  e.container.map fun t => Text.qualify e.space t.name

/-- The open name of the type around the declaration. -/
def containerOpenName (e : Entry) : Option String :=
  e.container.map fun t => openTypeName e.space t.name t.arity

def qualifiedName (e : Entry) : String :=
  match e.containerName with
  | some container => container ++ "." ++ e.declaration.name
  | none => Text.qualify e.space e.declaration.name

end Entry

structure Catalogue where
  project : Project
  entries : List Entry

namespace Catalogue

mutual

/-- The declarations at and below a member. -/
def collect (document : DocumentId) (space : String) (container : Option TypeHead) (depth : Nat) :
    Member → List Entry
  | .block head members =>
    collectAll document (Text.qualify space head.name) container depth members
  | .type head members =>
    ⟨.type head members, document, container, space, depth⟩ ::
      collectAll document space (some head) (depth + 1) members
  | .leaf l => [⟨.leaf l, document, container, space, depth⟩]

def collectAll (document : DocumentId) (space : String) (container : Option TypeHead)
    (depth : Nat) : List Member → List Entry
  | [] => []
  | m :: ms =>
    collect document space container depth m ++ collectAll document space container depth ms

end

def ofProject (p : Project) : Catalogue :=
  ⟨p, p.documents.flatMap fun d => collectAll d.id "" none 0 d.root.members⟩

/-- The last declaration with the identifier. -/
def find? (c : Catalogue) (id : NodeId) : Option Entry := (c.entries.filter (·.id == id)).getLast?

/-- Every declaration in the order of the text. -/
def declarations (c : Catalogue) : List Entry := c.entries.filterMap fun e => c.find? e.id

def extensionMethods (c : Catalogue) : List Entry :=
  c.declarations.filter (·.declaration.isExtensionMethod)

def typeMembers (c : Catalogue) : List Entry :=
  c.declarations.filter fun e => e.declaration.isTypeMember && !e.declaration.isExtensionMethod

/-- The types that stand in no other type. -/
def topTypes (c : Catalogue) : List Entry :=
  c.declarations.filter fun e => e.declaration.isType && e.depth == 0

end Catalogue

namespace Root

mutual

/-- The directives of the blocks that lead to `target`, outermost first. -/
def usingsToward (target outer : String) : Member → List Using
  | .block head members =>
    let name := Text.qualify outer head.name
    if target == name || target.startsWith (name ++ ".") then
      head.usings ++ usingsTowardAll target name members
    else []
  | _ => []

def usingsTowardAll (target outer : String) : List Member → List Using
  | [] => []
  | m :: ms => usingsToward target outer m ++ usingsTowardAll target outer ms

end

/-- The directives in scope for a declaration in a namespace. -/
def usingsFor (r : Root) (space : String) : List Using :=
  r.usings ++ usingsTowardAll space "" r.members

end Root
end Unweave

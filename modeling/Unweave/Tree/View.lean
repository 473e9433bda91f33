import Unweave.Text.Dotted
import Unweave.Tree.Basic

/-!
# What a tree declares and mentions

Lists read off a tree in the order of its text: the identifiers it declares, the types it declares
with where they stand, the type symbols it mentions and the references in its bodies.
-/

namespace Unweave

/-- Where a type is declared: its namespace, the path of types around it, its name and arity. -/
structure TypeKey where
  space : String
  path : String
  name : String
  arity : Nat
deriving DecidableEq

namespace Member

mutual

/-- The identifiers of all declarations, blocks and types included, using directives not. -/
def declared : Member → List NodeId
  | block head members => head.id :: declaredAll members
  | type head members => head.id :: declaredAll members
  | leaf l => [l.id]

def declaredAll : List Member → List NodeId
  | [] => []
  | m :: ms => declared m ++ declaredAll ms

end

mutual

/-- The types declared below a namespace and a path of types; inside a block the path starts anew. -/
def types (space path : String) : Member → List (TypeKey × TypeHead)
  | block head members => typesAll (Text.qualify space head.name) "" members
  | type head members =>
    (⟨space, path, head.name, head.arity⟩, head) ::
      typesAll space (Text.qualify path head.name) members
  | leaf _ => []

def typesAll (space path : String) : List Member → List (TypeKey × TypeHead)
  | [] => []
  | m :: ms => types space path m ++ typesAll space path ms

end

mutual

/-- The type symbols that base lists, signatures and bodies mention. -/
def symbols : Member → List TypeSymbol
  | block _ members => symbolsAll members
  | type head members => head.bases.map (·.symbol) ++ symbolsAll members
  | leaf l => l.symbols

def symbolsAll : List Member → List TypeSymbol
  | [] => []
  | m :: ms => symbols m ++ symbolsAll ms

end

mutual

def references : Member → List SymbolRef
  | block _ members => referencesAll members
  | type _ members => referencesAll members
  | leaf l => l.references

def referencesAll : List Member → List SymbolRef
  | [] => []
  | m :: ms => references m ++ referencesAll ms

end

end Member

namespace Root

def declared (r : Root) : List NodeId := Member.declaredAll r.members

def types (r : Root) : List (TypeKey × TypeHead) := Member.typesAll "" "" r.members

def symbols (r : Root) : List TypeSymbol := Member.symbolsAll r.members

def references (r : Root) : List SymbolRef := Member.referencesAll r.members

end Root
end Unweave

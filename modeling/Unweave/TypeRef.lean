import Unweave.SortedSet
import Unweave.Symbol
import Unweave.Text.Dotted

/-!
# Type references

A type symbol in which everything was found.  A reference is identified by its full name, which says
assembly, namespace, name and arguments; its open name forgets the assembly and the arguments, but
not how many there are.
-/

namespace Unweave

inductive TypeShape where
  | named
  | tuple
  | array
  | parameter
deriving DecidableEq, Repr

structure TypeRef where
  shape : TypeShape
  name : String
  /-- The namespace, empty at the top. -/
  space : String
  assembly : String
  arguments : List TypeRef

/-- `Space.Name`, and for a generic type angle brackets with a comma for each further parameter. -/
def openTypeName (space name : String) (arity : Nat) : String :=
  Text.qualify space name ++
    if arity = 0 then "" else "<" ++ String.ofList (List.replicate (arity - 1) ',') ++ ">"

namespace TypeRef

/-- The shape of a type that was found. -/
def shapeOf? : SymbolKind → Option TypeShape
  | .named => some .named
  | .tuple => some .tuple
  | .array => some .array
  | .typeParameter => some .parameter
  | .error => none

mutual

/-- The reference to a symbol; there is none if the type or one inside it was not found. -/
def ofSymbol? : TypeSymbol → Option TypeRef
  | ⟨kind, name, space, assembly, arguments⟩ =>
    match shapeOf? kind, ofSymbols? arguments with
    | some shape, some arguments => some ⟨shape, name, space.getD "", assembly, arguments⟩
    | _, _ => none

def ofSymbols? : List TypeSymbol → Option (List TypeRef)
  | [] => some []
  | s :: ss =>
    match ofSymbol? s, ofSymbols? ss with
    | some t, some ts => some (t :: ts)
    | _, _ => none

end

mutual

/-- The text that identifies a type. -/
def fullName : TypeRef → String
  | ⟨shape, name, space, assembly, arguments⟩ =>
    let names := fullNames arguments
    match shape with
    | .parameter => name
    | .array => names.headD "?" ++ "[]"
    | _ =>
      "[" ++ assembly ++ "]" ++ Text.qualify space name ++
        if names.isEmpty then "" else "<" ++ ",".intercalate names ++ ">"

def fullNames : List TypeRef → List String
  | [] => []
  | t :: ts => fullName t :: fullNames ts

end

mutual

/-- The name with arguments erased and no assembly. -/
def openName : TypeRef → String
  | ⟨shape, name, space, _, arguments⟩ =>
    match shape with
    | .parameter => name
    | .array => (openNames arguments).headD "?" ++ "[]"
    | _ => openTypeName space name arguments.length

def openNames : List TypeRef → List String
  | [] => []
  | t :: ts => openName t :: openNames ts

end

/-- References are the same type when their full names are. -/
def same (a b : TypeRef) : Bool := a.fullName == b.fullName

def isArray (t : TypeRef) : Bool := t.shape == .array

def isParameter (t : TypeRef) : Bool := t.shape == .parameter

def isTuple (t : TypeRef) : Bool := t.shape == .tuple

def isGeneric (t : TypeRef) : Bool := t.shape == .named && !t.arguments.isEmpty

mutual

/-- The type and the types inside it, innermost first. -/
def parts : TypeRef → List TypeRef
  | ⟨shape, name, space, assembly, arguments⟩ =>
    partsOf arguments ++ [⟨shape, name, space, assembly, arguments⟩]

def partsOf : List TypeRef → List TypeRef
  | [] => []
  | t :: ts => parts t ++ partsOf ts

end

end TypeRef

/-- A set of types, one for each full name, in the order of full names. -/
abbrev TypeSet : Type := SortedSet TypeRef.fullName

namespace TypeSet

abbrev refs (s : TypeSet) : List TypeRef := s.toList

def ofList (ts : List TypeRef) : TypeSet := SortedSet.ofList ts

/-- The types that symbols mention and those inside them; symbols not found mention none. -/
def ofSymbols (ss : List TypeSymbol) : TypeSet :=
  ofList ((ss.filterMap TypeRef.ofSymbol?).flatMap TypeRef.parts)

abbrev names (s : TypeSet) : List String := s.keys

end TypeSet
end Unweave

import Unweave.Diagnostic
import Unweave.Solution.Basic
import Unweave.SortedSet
import Unweave.Tree.View

/-!
# The structural check

A project holds together when every bound reference has its declaration, every type it takes from
its own assembly is declared in it, and no type is declared twice unless every part is partial.
Faults are reported in that order: references and types as the text mentions them, a missing type
once for each document, double types in the order of their keys.
-/

namespace Unweave

/-- Why a project does not compile. -/
structure CompileFailure where
  text : String
  diagnostics : List Diagnostic := []
deriving DecidableEq

def CompileFailure.ofDiagnostics (ds : List Diagnostic) : CompileFailure :=
  { text := "\n".intercalate (ds.map Diagnostic.render), diagnostics := ds }

/-- How a type is looked up by name: namespace, name and number of arguments. -/
structure TypeName where
  space : String
  name : String
  arity : Nat
deriving DecidableEq

def TypeKey.typeName (k : TypeKey) : TypeName := ⟨k.space, k.name, k.arity⟩

def TypeSymbol.typeName (s : TypeSymbol) : TypeName := ⟨s.spaceName, s.name, s.arguments.length⟩

/-- Whether a symbol names a type of the assembly. -/
def TypeSymbol.isOf (assembly : String) (s : TypeSymbol) : Bool :=
  s.kind == .named && Text.sameFolded s.assembly assembly

namespace TypeKey

/-- Order of keys: namespace, path, name, arity. -/
def compare : TypeKey → TypeKey → Ordering :=
  compareLex (compareOn space) (compareLex (compareOn path)
    (compareLex (compareOn name) (compareOn arity)))

instance : Ord TypeKey := ⟨compare⟩

instance : Std.TransOrd TypeKey := inferInstanceAs (Std.TransCmp (compareLex _ _))

instance : Std.LawfulEqOrd TypeKey where
  eq_of_compare {k l} h := by
    obtain ⟨space, path, name, arity⟩ := k
    obtain ⟨space', path', name', arity'⟩ := l
    change ((Ord.compare space space').then ((Ord.compare path path').then
      ((Ord.compare name name').then (Ord.compare arity arity')))) = .eq at h
    simp only [Ordering.then_eq_eq, Std.compare_eq_iff_eq] at h
    obtain ⟨rfl, rfl, rfl, rfl⟩ := h
    rfl

end TypeKey

namespace Project

def declared (p : Project) : List NodeId := p.documents.flatMap (·.root.declared)

/-- Every declaration of a type with the name of its document. -/
def types (p : Project) : List (TypeKey × String × TypeHead) :=
  p.documents.flatMap fun d => d.root.types.map fun (k, h) => (k, d.name, h)

end Project

namespace Check

def error (code document message : String) : Diagnostic :=
  { code, severity := .error, message, document }

/-- References whose declaration is gone. -/
def danglingReferences (p : Project) : List Diagnostic :=
  p.documents.flatMap fun d =>
    d.root.references.filterMap fun r =>
      match r.declaration with
      | none => none
      | some id =>
        if p.declared.contains id then none
        else
          some
            { error Diagnostic.unresolvedReference d.name
                ("The name '" ++ r.name ++ "' does not exist in the current context") with
              node := some id }

/-- The types of the project's own assembly that a document mentions. -/
def ownSymbols (p : Project) (d : Document) : List TypeSymbol :=
  (d.root.symbols.flatMap (·.parts)).filter (·.isOf p.assembly)

/-- Keep the first mention of each type in each document. -/
def firstMentions (seen : List (String × TypeName)) :
    List (String × TypeSymbol) → List (String × TypeSymbol)
  | [] => []
  | (d, s) :: rest =>
    if seen.contains (d, s.typeName) then firstMentions seen rest
    else (d, s) :: firstMentions ((d, s.typeName) :: seen) rest

def missingTypes (p : Project) : List Diagnostic :=
  let known := p.types.map (·.1.typeName)
  let mentions := p.documents.flatMap fun d => (ownSymbols p d).map fun s => (d.name, s)
  (firstMentions [] (mentions.filter fun (_, s) => !known.contains s.typeName)).map fun (d, s) =>
    error Diagnostic.missingType d
      ("The type or namespace name '" ++ s.displayName ++ "' could not be found")

/-- The declarations of one type. -/
def declarationsOf (p : Project) (k : TypeKey) : List (String × TypeHead) :=
  p.types.filterMap fun (l, d, h) => if l = k then some (d, h) else none

def duplicateTypes (p : Project) : List Diagnostic :=
  let keys : Sorted TypeKey := .ofList (p.types.map (·.1))
  keys.toList.filterMap fun k =>
    match declarationsOf p k with
    | first :: second :: rest =>
      if (first :: second :: rest).all (·.2.isPartial) then none
      else
        let scope := if k.space.isEmpty then "<global namespace>" else k.space
        some (error Diagnostic.duplicateType second.1
          ("The namespace '" ++ scope ++ "' already contains a definition for '" ++ k.name ++ "'"))
    | _ => none

def diagnostics (p : Project) : List Diagnostic :=
  danglingReferences p ++ missingTypes p ++ duplicateTypes p

/-- The built-in compiler. -/
def structural (p : Project) : Except CompileFailure Unit :=
  match diagnostics p with
  | [] => .ok ()
  | ds => .error (.ofDiagnostics ds)

end Check
end Unweave

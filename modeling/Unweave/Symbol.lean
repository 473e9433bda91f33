import Unweave.Identifier

/-!
# Symbols

What a front end found out about the types and names in a tree.  A type symbol names a type by its
assembly, namespace, name and arguments, or records that the type could not be found.  A symbol
reference is a use of a member, bound to its declaration when that is known.
-/

namespace Unweave

inductive SymbolKind where
  | named
  | tuple
  | array
  | typeParameter
  | error
deriving DecidableEq, Repr

structure TypeSymbol where
  kind : SymbolKind
  name : String
  space : Option String := none
  /-- Empty for type parameters and types that were not found. -/
  assembly : String := ""
  arguments : List TypeSymbol := []

namespace TypeSymbol

mutual

def decEq : (a b : TypeSymbol) → Decidable (a = b)
  | ⟨k, n, s, m, as⟩, ⟨k', n', s', m', as'⟩ =>
    if h : k = k' ∧ n = n' ∧ s = s' ∧ m = m' then
      match decEqList as as' with
      | isTrue ha => isTrue (by obtain ⟨rfl, rfl, rfl, rfl⟩ := h; subst ha; rfl)
      | isFalse ha => isFalse (fun e => ha (TypeSymbol.mk.inj e).2.2.2.2)
    else isFalse (fun e => h (by
      obtain ⟨h1, h2, h3, h4, _⟩ := TypeSymbol.mk.inj e
      exact ⟨h1, h2, h3, h4⟩))

def decEqList : (as bs : List TypeSymbol) → Decidable (as = bs)
  | [], [] => isTrue rfl
  | [], _ :: _ => isFalse (fun e => nomatch e)
  | _ :: _, [] => isFalse (fun e => nomatch e)
  | a :: as, b :: bs =>
    match decEq a b, decEqList as bs with
    | isTrue h, isTrue hs => isTrue (by subst h; subst hs; rfl)
    | isFalse h, _ => isFalse (fun e => h (List.cons.inj e).1)
    | _, isFalse hs => isFalse (fun e => hs (List.cons.inj e).2)

end

instance : DecidableEq TypeSymbol := decEq

def named (assembly space name : String) : TypeSymbol :=
  { kind := .named, name, space := if space.isEmpty then none else some space, assembly }

/-- A type of the base runtime. -/
def system (name : String) : TypeSymbol := named "System.Runtime" "System" name

def tuple (elements : List TypeSymbol) : TypeSymbol :=
  { kind := .tuple, name := "ValueTuple", space := some "System", assembly := "System.ValueTuple",
    arguments := elements }

def array (element : TypeSymbol) : TypeSymbol :=
  { kind := .array, name := "Array", space := some "System", assembly := "System.Runtime",
    arguments := [element] }

def typeParameter (name : String) : TypeSymbol := { kind := .typeParameter, name }

def error (name : String) : TypeSymbol := { kind := .error, name }

/-- The namespace, empty at the top. -/
def spaceName (s : TypeSymbol) : String := s.space.getD ""

mutual

/-- Whether this type or one inside it was not found. -/
def containsError : TypeSymbol → Bool
  | ⟨kind, _, _, _, arguments⟩ => kind == .error || anyError arguments

def anyError : List TypeSymbol → Bool
  | [] => false
  | s :: ss => containsError s || anyError ss

end

mutual

/-- The type as source text writes it. -/
def displayName : TypeSymbol → String
  | ⟨kind, name, _, _, arguments⟩ =>
    let shown := displayNames arguments
    match kind with
    | .array => shown.headD "" ++ "[]"
    | .tuple => "(" ++ ", ".intercalate shown ++ ")"
    | _ => if shown.isEmpty then name else name ++ "<" ++ ", ".intercalate shown ++ ">"

def displayNames : List TypeSymbol → List String
  | [] => []
  | s :: ss => displayName s :: displayNames ss

end

mutual

/-- The symbol and all symbols inside it, outermost first. -/
def parts : TypeSymbol → List TypeSymbol
  | ⟨kind, name, space, assembly, arguments⟩ =>
    ⟨kind, name, space, assembly, arguments⟩ :: partsOf arguments

def partsOf : List TypeSymbol → List TypeSymbol
  | [] => []
  | s :: ss => parts s ++ partsOf ss

end

end TypeSymbol

/-- A use of a member, with the type and namespace it is said to be in. -/
structure SymbolRef where
  name : String
  container : Option String := none
  space : Option String := none
  declaration : Option NodeId := none
deriving DecidableEq

end Unweave

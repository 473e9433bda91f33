import Unweave.Catalogue

/-!
# Walking dependencies

The dependencies of a declaration are the types it mentions, with those inside them, and the
dependencies of everything it reaches.  Who calls whom may be cyclic.  A walk goes depth first and
keeps the declarations it is inside of on a stack; meeting one of them again contributes nothing,
but tells how far down the stack the cycle goes.  A declaration on a cycle stays open until the
first one of that cycle is done, and then all of them get the same, complete answer.

Every step into a declaration that is neither answered nor open makes the stack longer by an
identifier of the catalogue, so the number of its entries bounds how deep a walk can go.
-/

namespace Unweave
namespace Walk

/-- The answers found so far, and the declarations being walked, innermost first. -/
structure State where
  cache : List (NodeId × TypeSet) := []
  stack : List NodeId := []

/-- How far above the bottom of the stack an identifier is. -/
def heightOf (id : NodeId) : List NodeId → Option Nat
  | [] => none
  | x :: xs => if x = id then some xs.length else heightOf id xs

/-- Answer everything on the stack down to `id`, which leaves the stack too. -/
def settle (id : NodeId) (deps : TypeSet) (cache : List (NodeId × TypeSet)) :
    List NodeId → State
  | [] => ⟨cache, []⟩
  | x :: xs =>
    if x = id then ⟨(x, deps) :: cache, xs⟩ else settle id deps ((x, deps) :: cache) xs

/-- What a walk steps into next: a type all its members, a leaf only what can be called. -/
def targets (c : Catalogue) (d : Declaration) : List Declaration :=
  (d.callees.filterMap fun id => (c.find? id).map (·.declaration)).filter fun t =>
    d.isType || t.isCallable

/-- Walk a declaration.  With the types comes the lowest place of the stack that is part of a cycle
with it, if the declaration stays open. -/
def walk (c : Catalogue) : Nat → Declaration → State → (TypeSet × Option Nat) × State
  | 0, _, s => ((.empty, none), s)
  | fuel + 1, d, s =>
    match s.cache.lookup d.id with
    | some deps => ((deps, none), s)
    | none =>
      match heightOf d.id s.stack with
      | some height => ((.empty, some height), s)
      | none =>
        let height := s.stack.length
        let ((deps, low), s) :=
          (targets c d).foldl
            (fun ((deps, low), s) t =>
              let ((sub, subLow), s) := walk c fuel t s
              ((deps.union sub, min low (subLow.getD low)), s))
            ((TypeSet.ofSymbols d.symbols, height), { s with stack := d.id :: s.stack })
        if low < height then ((deps, some low), s)
        else ((deps, none), settle d.id deps s.cache s.stack)

end Walk

/-- A catalogue with the answers found so far. -/
structure Walker where
  catalogue : Catalogue
  cache : List (NodeId × TypeSet) := []

/-- Declarations that a caller is inside of, innermost first. -/
structure Visited where
  stack : List NodeId := []

def Visited.contains (v : Visited) (id : NodeId) : Bool := v.stack.contains id

namespace Walker

def ofProject (p : Project) : Walker := { catalogue := .ofProject p }

/-- Walk below the caller's declarations, which are handed back as they came: what a cycle through
them leaves open is dropped without an answer. -/
def dependenciesWith (w : Walker) (d : Declaration) (v : Visited) : TypeSet × Walker × Visited :=
  let ((deps, _), s) :=
    Walk.walk w.catalogue (w.catalogue.entries.length + 1) d ⟨w.cache, v.stack⟩
  (deps, { w with cache := s.cache }, ⟨s.stack.drop (s.stack.length - v.stack.length)⟩)

def dependencies (w : Walker) (d : Declaration) : TypeSet × Walker :=
  let (deps, w, _) := w.dependenciesWith d {}
  (deps, w)

/-- The dependencies of the declaration with an identifier, if there is one. -/
def dependenciesOf (w : Walker) (id : NodeId) : Option TypeSet × Walker :=
  match w.catalogue.find? id with
  | none => (none, w)
  | some e =>
    let (deps, w) := w.dependencies e.declaration
    (some deps, w)

def isCached (w : Walker) (id : NodeId) : Bool := (w.cache.lookup id).isSome

/-- Answer for each of a list of entries, in order. -/
def answerAll (w : Walker) : List Entry → List (Entry × TypeSet) × Walker
  | [] => ([], w)
  | e :: es =>
    let (deps, w) := w.dependencies e.declaration
    let (rest, w) := w.answerAll es
    ((e, deps) :: rest, w)

end Walker
end Unweave

import Unweave.Symbol

/-!
# Trees

A document is a tree of namespace blocks, types and leaves.  The leaves are the declarations without
members: delegates, methods, properties, constructors and fields.  They share an identifier, leading
trivia and modifiers, and differ in form, so an operation on trees has three cases and looks at the
form of a leaf only when it must.
-/

namespace Unweave

inductive TriviaKind where
  | whitespace
  | comment
  | regionDirective
  | endRegionDirective
  | directive
deriving DecidableEq, Repr

/-- Text in front of a node or of a closing brace. -/
structure Trivia where
  kind : TriviaKind
  text : String
deriving DecidableEq, Repr

def Trivia.isRegion (t : Trivia) : Bool :=
  t.kind == .regionDirective || t.kind == .endRegionDirective

/-- A type as written, with what it was found to be. -/
structure TypeSyntax where
  text : String
  symbol : TypeSymbol
deriving DecidableEq

structure Expression where
  text : String
  type : Option TypeSymbol := none
  symbol : Option SymbolRef := none
deriving DecidableEq

inductive BodyKind where
  | block
  | arrow
deriving DecidableEq, Repr

structure Body where
  kind : BodyKind
  text : String
  expressions : List Expression := []
deriving DecidableEq

structure Using where
  id : NodeId := .unassigned
  leading : List Trivia := []
  name : String
  shorthand : Option String := none
  isStatic : Bool := false
deriving DecidableEq

inductive TypeKind where
  | classKind
  | structKind
deriving DecidableEq, Repr

def TypeKind.keyword : TypeKind → String
  | .classKind => "class"
  | .structKind => "struct"

structure Parameter where
  name : String
  type : TypeSyntax
  isThis : Bool := false
deriving DecidableEq

inductive Accessors where
  | auto (setter : Bool)
  | arrow (body : Body)
  | explicit (getter setter : Option Body)
deriving DecidableEq

structure Variable where
  name : String
  initializer : Option Body := none
deriving DecidableEq

/-- What a leaf declares. -/
inductive Form where
  | delegate (name : String) (typeParameters : List String) (result : TypeSyntax)
      (parameters : List Parameter)
  | method (name : String) (typeParameters : List String) (result : TypeSyntax)
      (parameters : List Parameter) (body : Option Body)
  | property (name : String) (type : TypeSyntax) (accessors : Accessors)
  | constructor (name : String) (parameters : List Parameter) (body : Option Body)
  | field (type : TypeSyntax) (declared : List Variable)
deriving DecidableEq

structure Leaf where
  id : NodeId := .unassigned
  leading : List Trivia := []
  modifiers : List String := []
  form : Form
deriving DecidableEq

/-- A namespace block without its members. -/
structure BlockHead where
  id : NodeId := .unassigned
  leading : List Trivia := []
  name : String
  usings : List Using := []
  closing : List Trivia := []
deriving DecidableEq

/-- A type without its members. -/
structure TypeHead where
  id : NodeId := .unassigned
  leading : List Trivia := []
  kind : TypeKind
  modifiers : List String := []
  name : String
  typeParameters : List String := []
  bases : List TypeSyntax := []
  closing : List Trivia := []
deriving DecidableEq

inductive Member where
  | block (head : BlockHead) (members : List Member)
  | type (head : TypeHead) (members : List Member)
  | leaf (leaf : Leaf)

/-- The root of a document's tree. -/
structure Root where
  usings : List Using := []
  members : List Member := []
  ending : List Trivia := []

namespace Member

mutual

def decEq : (a b : Member) → Decidable (a = b)
  | block h ms, block h' ms' =>
    if hh : h = h' then
      match decEqList ms ms' with
      | isTrue hm => isTrue (by subst hh; subst hm; rfl)
      | isFalse hm => isFalse (fun e => hm (Member.block.inj e).2)
    else isFalse (fun e => hh (Member.block.inj e).1)
  | type h ms, type h' ms' =>
    if hh : h = h' then
      match decEqList ms ms' with
      | isTrue hm => isTrue (by subst hh; subst hm; rfl)
      | isFalse hm => isFalse (fun e => hm (Member.type.inj e).2)
    else isFalse (fun e => hh (Member.type.inj e).1)
  | leaf l, leaf l' =>
    if hl : l = l' then isTrue (by subst hl; rfl) else isFalse (fun e => hl (Member.leaf.inj e))
  | block .., type .. => isFalse (fun e => nomatch e)
  | block .., leaf .. => isFalse (fun e => nomatch e)
  | type .., block .. => isFalse (fun e => nomatch e)
  | type .., leaf .. => isFalse (fun e => nomatch e)
  | leaf .., block .. => isFalse (fun e => nomatch e)
  | leaf .., type .. => isFalse (fun e => nomatch e)

def decEqList : (as bs : List Member) → Decidable (as = bs)
  | [], [] => isTrue rfl
  | [], _ :: _ => isFalse (fun e => nomatch e)
  | _ :: _, [] => isFalse (fun e => nomatch e)
  | a :: as, b :: bs =>
    match decEq a b, decEqList as bs with
    | isTrue h, isTrue hs => isTrue (by subst h; subst hs; rfl)
    | isFalse h, _ => isFalse (fun e => h (List.cons.inj e).1)
    | _, isFalse hs => isFalse (fun e => hs (List.cons.inj e).2)

end

instance : DecidableEq Member := decEq

end Member

deriving instance DecidableEq for Root

def TypeHead.isPartial (h : TypeHead) : Bool := h.modifiers.contains "partial"

def TypeHead.arity (h : TypeHead) : Nat := h.typeParameters.length

/-- The bodies of a property, getter first. -/
def Accessors.bodies : Accessors → List Body
  | auto _ => []
  | arrow body => [body]
  | explicit getter setter => getter.toList ++ setter.toList

namespace Form

/-- The names that the declaration introduces: one, or one for each variable of a field. -/
def names : Form → List String
  | delegate name .. => [name]
  | method name .. => [name]
  | property name .. => [name]
  | constructor name .. => [name]
  | field _ declared => declared.map (·.name)

/-- The first of its names; a field without variables has none. -/
def name (f : Form) : String := f.names.headD ""

/-- The types of the signature, in the order they are written. -/
def signature : Form → List TypeSyntax
  | delegate _ _ result parameters => result :: parameters.map (·.type)
  | method _ _ result parameters _ => result :: parameters.map (·.type)
  | property _ type _ => [type]
  | constructor _ parameters _ => parameters.map (·.type)
  | field type _ => [type]

def bodies : Form → List Body
  | delegate .. => []
  | method _ _ _ _ body => body.toList
  | property _ _ accessors => accessors.bodies
  | constructor _ _ body => body.toList
  | field _ declared => declared.filterMap (·.initializer)

/-- An extension method is a method whose first parameter carries `this`. -/
def isExtension : Form → Bool
  | method _ _ _ (p :: _) _ => p.isThis
  | _ => false

def isDelegate : Form → Bool
  | delegate .. => true
  | _ => false

/-- Change each body in place. -/
def mapBodies (f : Body → Body) : Form → Form
  | delegate name typeParameters result parameters =>
    delegate name typeParameters result parameters
  | method name typeParameters result parameters body =>
    method name typeParameters result parameters (body.map f)
  | property name type (.auto setter) => property name type (.auto setter)
  | property name type (.arrow body) => property name type (.arrow (f body))
  | property name type (.explicit getter setter) =>
    property name type (.explicit (getter.map f) (setter.map f))
  | constructor name parameters body => constructor name parameters (body.map f)
  | field type declared =>
    field type (declared.map fun v => { v with initializer := v.initializer.map f })

end Form

namespace Leaf

def name (l : Leaf) : String := l.form.name

/-- The expressions of all bodies, in order. -/
def expressions (l : Leaf) : List Expression := l.form.bodies.flatMap (·.expressions)

/-- The type symbols a leaf mentions, first those of its signature, then those of its bodies. -/
def symbols (l : Leaf) : List TypeSymbol :=
  l.form.signature.map (·.symbol) ++ l.expressions.filterMap (·.type)

/-- The references of the bodies, in order. -/
def references (l : Leaf) : List SymbolRef := l.expressions.filterMap (·.symbol)

end Leaf

namespace Member

def id : Member → NodeId
  | block head _ => head.id
  | type head _ => head.id
  | leaf l => l.id

def name : Member → String
  | block head _ => head.name
  | type head _ => head.name
  | leaf l => l.name

def isBlock : Member → Bool
  | block .. => true
  | _ => false

end Member
end Unweave

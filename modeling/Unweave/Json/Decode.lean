import Unweave.Json.Basic

/-!
# Decoding JSON

A decoder is told where it stands: how many levels of arrays and objects it may still open, and
whether the value around it was taken in whole.  Opening an array or object takes a level; a field
that the record does not know is skipped unseen, however deep it is.

A record is written as an object, or as the array of its fields in order.  A field may be required,
have a default, or be nullable; a repeated field is a fault, and so is an array that is too long.
-/

namespace Unweave
namespace Json

/-- Where a value stands. -/
structure Scope where
  /-- How many arrays and objects may still be opened. -/
  level : Nat
  /-- Whether a value around this one was taken in whole. -/
  whole : Bool := false

abbrev Decoder (α : Type) : Type := Scope → Json → Option α

/-- Files may nest this deep. -/
def depthLimit : Nat := 127

/-- Where the value of a whole text stands. -/
def outermost : Scope := { level := depthLimit }

def text : Decoder String
  | _, str s => some s
  | _, _ => none

def flag : Decoder Bool
  | _, bool b => some b
  | _, _ => none

/-- An integer literal from `lo` up to, not including, `hi`. -/
def intIn (lo hi : Int) : Decoder Int
  | _, int i => if lo ≤ i ∧ i < hi then some i else none
  | _, _ => none

def natBelow (bound : Nat) : Decoder Nat :=
  fun scope j => (intIn 0 (Int.ofNat bound) scope j).map Int.toNat

/-- A number of thirty-two bits. -/
def word : Decoder UInt32 := fun scope j => (natBelow 4294967296 scope j).map UInt32.ofNat

/-- A number of sixty-four bits. -/
def long : Decoder Nat := natBelow 18446744073709551616

def list {α : Type} (item : Decoder α) : Decoder (List α)
  | ⟨level + 1, whole⟩, arr items => items.mapM (item ⟨level, whole⟩)
  | _, _ => none

def nullable {α : Type} (item : Decoder α) : Decoder (Option α)
  | _, null => some none
  | scope, j => (item scope j).map some

/-- One of a list of names.  The name may also be the only field of an object, with no value; in a
value that was taken in whole, an object without fields is no value too. -/
def choice {α : Type} (names : List (String × α)) : Decoder α
  | _, str s => names.lookup s
  | ⟨_ + 1, _⟩, obj [(s, null)] => names.lookup s
  | ⟨_ + 1, true⟩, obj [(s, obj [])] => names.lookup s
  | _, _ => none

/-- The fields of a record, whose values stand in the scope. -/
structure Record where
  scope : Scope
  /-- Whether the record was written as an array. -/
  listed : Bool
  fields : List (String × Json)

def record (names : List String) : Decoder Record
  | ⟨level + 1, whole⟩, obj fields =>
    let known := fields.filter fun f => names.contains f.1
    if (known.map (·.1)).Nodup then some ⟨⟨level, whole⟩, false, known⟩ else none
  | ⟨level + 1, whole⟩, arr items =>
    if items.length ≤ names.length then some ⟨⟨level, whole⟩, true, names.zip items⟩ else none
  | _, _ => none

namespace Record

variable {α : Type}

def required (r : Record) (name : String) (item : Decoder α) : Option α :=
  (r.fields.lookup name).bind (item r.scope)

def default (r : Record) (name : String) (value : α) (item : Decoder α) : Option α :=
  match r.fields.lookup name with
  | none => some value
  | some j => item r.scope j

def optional (r : Record) (name : String) (item : Decoder α) : Option (Option α) :=
  r.default name none (nullable item)

/-- An optional field that an array may not leave out. -/
def nullableField (r : Record) (name : String) (item : Decoder α) : Option (Option α) :=
  match r.fields.lookup name with
  | none => if r.listed then none else some none
  | some j => nullable item r.scope j

end Record

/-- The name of a variant.  In a value that was taken in whole it may be given by its position. -/
def tagName (names : List String) (whole : Bool) : Json → Option String
  | str s => if names.contains s then some s else none
  | int i => if whole && 0 ≤ i then names[i.toNat]? else none
  | _ => none

/-- A value that carries the name of its variant as a field, or as the first item of an array.
Such a value is taken in whole before its variant is known, so no part of it is skipped. -/
def tagged (tag : String) (names : List String) : Decoder (String × Json) := fun scope j =>
  if j.depth ≤ scope.level && j.isDefined then
    match j with
    | obj fields =>
      match fields.filter (·.1 == tag) with
      | [(_, t)] =>
        (tagName names scope.whole t).map fun t => (t, obj (fields.filter (·.1 != tag)))
      | _ => none
    | arr (t :: items) => (tagName names scope.whole t).map fun t => (t, arr items)
    | _ => none
  else none

end Json
end Unweave

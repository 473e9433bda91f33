/-!
# JSON values

A value keeps the fields of an object in the order they were written, repeated ones included:
which repetition is a fault is for the reader of a record to say.  Integers are told apart from
other numbers by how they are written, since only an integer literal is an identifier.
-/

namespace Unweave

inductive Json where
  | null
  | bool (b : Bool)
  | int (i : Int)
  /-- A number that is no integer literal, as it was written. -/
  | decimal (text : String)
  | str (s : String)
  | arr (items : List Json)
  | obj (fields : List (String × Json))
  /-- Well-formed text that denotes nothing: half of a surrogate pair, or a number beyond the range
  of doubles.  It may stand where a value is skipped and nowhere else. -/
  | undefined

namespace Json

mutual

/-- How many arrays and objects are open at the innermost place. -/
def depth : Json → Nat
  | arr items => depthItems items + 1
  | obj fields => depthFields fields + 1
  | _ => 0

def depthItems : List Json → Nat
  | [] => 0
  | j :: js => max (depth j) (depthItems js)

def depthFields : List (String × Json) → Nat
  | [] => 0
  | (_, j) :: fs => max (depth j) (depthFields fs)

end

mutual

/-- Whether every part of the value denotes something. -/
def isDefined : Json → Bool
  | arr items => allDefined items
  | obj fields => fieldsDefined fields
  | undefined => false
  | _ => true

def allDefined : List Json → Bool
  | [] => true
  | j :: js => isDefined j && allDefined js

def fieldsDefined : List (String × Json) → Bool
  | [] => true
  | (_, j) :: fs => isDefined j && fieldsDefined fs

end

mutual

/-- The value in which, of the fields of one name, only the last is left. -/
def settled : Json → Json
  | arr items => arr (settledItems items)
  | obj fields => obj (settledFields fields)
  | j => j

def settledItems : List Json → List Json
  | [] => []
  | j :: js => settled j :: settledItems js

def settledFields : List (String × Json) → List (String × Json)
  | [] => []
  | (k, j) :: fs =>
    let rest := settledFields fs
    if rest.any (·.1 == k) then rest else (k, settled j) :: rest

end

/-- The field of an object, `none` for other values. -/
def field? (j : Json) (name : String) : Option Json :=
  match j with
  | obj fields => fields.lookup name
  | _ => none

def ofNat (n : Nat) : Json := int (Int.ofNat n)

def strings (names : List String) : Json := arr (names.map str)

end Json
end Unweave

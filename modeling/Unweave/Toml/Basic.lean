/-!
# TOML values

A table remembers how it came to be, because that decides who may still add to it: a table that a
header opened takes no dotted keys from elsewhere, an inline table takes nothing at all, and a table
that exists only because something below it was named may be opened by a header once.
-/

namespace Unweave

/-- How a table came to be. -/
inductive Toml.Origin where
  /-- Named only as a part of a longer header. -/
  | implied
  /-- Named only as a part of a dotted key. -/
  | dotted
  /-- Opened by a header, or the table around everything. -/
  | headed
  /-- Written between braces. -/
  | inline
deriving DecidableEq, Repr

inductive Toml where
  | text (s : String)
  | integer (i : Int)
  | real
  | truth (b : Bool)
  /-- A date, a time, or both. -/
  | moment
  | array (items : List Toml)
  | table (origin : Toml.Origin) (entries : List (String × Toml))
  /-- Tables that were opened by double headers; the last one is open. -/
  | tables (items : List Toml)

namespace Toml

/-- Whether a path may lead through a table of this origin. -/
def Origin.admits (dottedPath : Bool) : Origin → Bool
  | implied => true
  | dotted => true
  | headed => !dottedPath
  | inline => false

/-- Give an entry a new value, or put it last. -/
def put (key : String) (value : Toml) : List (String × Toml) → List (String × Toml)
  | [] => [(key, value)]
  | (k, v) :: entries => if k = key then (k, value) :: entries else (k, v) :: put key value entries

/-- Change the table at the end of a path, making the tables on the way that are missing. -/
def within (dottedPath : Bool) (change : Toml → Option Toml) : List String → Toml → Option Toml
  | [], t => change t
  | key :: path, table origin entries =>
    match entries.lookup key with
    | none => do
      let made := table (if dottedPath then .dotted else .implied) []
      let t ← within dottedPath change path made
      return table origin (put key t entries)
    | some (table inner es) =>
      if inner.admits dottedPath then do
        let t ← within dottedPath change path (table inner es)
        return table origin (put key t entries)
      else none
    | some (tables items) => do
      let last ← items.getLast?
      let t ← within dottedPath change path last
      return table origin (put key (tables (items.dropLast ++ [t])) entries)
    | some _ => none
  | _, _ => none

/-- Enter a value under a dotted key, given as the path and the last part. -/
def enter (path : List String) (key : String) (value : Toml) : Toml → Option Toml :=
  within true
    (fun
      | table origin entries =>
        if (origin == .dotted) == path.isEmpty || (entries.lookup key).isSome then none
        else some (table origin (put key value entries))
      | _ => none)
    path

/-- Open a table: a header names each table at most once. -/
def openTable (key : String) : Toml → Option Toml
  | table origin entries =>
    match entries.lookup key with
    | none => some (table origin (put key (table .headed []) entries))
    | some (table .implied es) => some (table origin (put key (table .headed es) entries))
    | some _ => none
  | _ => none

/-- Open one more table of a list of tables. -/
def openNext (key : String) : Toml → Option Toml
  | table origin entries =>
    match entries.lookup key with
    | none => some (table origin (put key (tables [table .headed []]) entries))
    | some (tables items) =>
      some (table origin (put key (tables (items ++ [table .headed []])) entries))
    | some _ => none
  | _ => none

/-! ## Taking values apart -/

/-- The fields of a record.  A list gives them in order; a date has none that a record knows. -/
def fields? (names : List String) : Toml → Option (List (String × Toml))
  | table _ entries => some entries
  | array items => some (names.zip items)
  | tables items => some (names.zip items)
  | moment => some []
  | _ => none

/-- A field with a default. -/
def fieldOr {α : Type} (fields : List (String × Toml)) (name : String) (value : α)
    (item : Toml → Option α) : Option α :=
  match fields.lookup name with
  | none => some value
  | some t => item t

def text? : Toml → Option String
  | text s => some s
  | _ => none

def truth? : Toml → Option Bool
  | truth b => some b
  | _ => none

def nat? : Toml → Option Nat
  | integer (.ofNat n) => some n
  | _ => none

def texts? : Toml → Option (List String)
  | array items => items.mapM text?
  | _ => none

/-- Whether a value is a list or table without content. -/
def isHollow : Toml → Bool
  | array items => items.isEmpty
  | table _ entries => entries.isEmpty
  | _ => false

/-- One of a list of names, which may also be the only key of a table, over a hollow value. -/
def choice? {α : Type} (names : List (String × α)) : Toml → Option α
  | text s => names.lookup s
  | table _ [(s, t)] => if t.isHollow then names.lookup s else none
  | _ => none

end Toml
end Unweave

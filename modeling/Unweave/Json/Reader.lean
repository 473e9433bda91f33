import Unweave.Json.Basic
import Unweave.Json.Range

/-!
# Reading JSON

Strict JSON: no comments, no byte order mark, nothing but blanks after the value.  The reader asks
only whether the text is well formed; what a decoder never looks at may denote nothing
(`Json.undefined`), and how deep values may nest is the decoder's rule too.

The recursion is on a bound for the number of steps.  A step that opens a value takes a character,
and between two such steps there is at most one that takes none, so twice the length is enough.
-/

namespace Unweave
namespace Json
namespace Reader

def isSpace (c : Char) : Bool := c == ' ' || c == '\n' || c == '\t' || c == '\r'

def skip (cs : List Char) : List Char := cs.dropWhile isSpace

def isDigit (c : Char) : Bool := '0' ≤ c && c ≤ '9'

def hexValue (c : Char) : Option Nat :=
  if isDigit c then some (c.toNat - 48)
  else if 'a' ≤ c ∧ c ≤ 'f' then some (c.toNat - 87)
  else if 'A' ≤ c ∧ c ≤ 'F' then some (c.toNat - 55)
  else none

def hexCode (a b c d : Char) : Option Nat := do
  let a ← hexValue a
  let b ← hexValue b
  let c ← hexValue c
  let d ← hexValue d
  return ((a * 16 + b) * 16 + c) * 16 + d

/-- A piece of a string: a character, or a code of sixteen bits. -/
inductive Piece where
  | char (c : Char)
  | code (n : Nat)

def plainEscape : Char → Option Char
  | '"' => some '"'
  | '\\' => some '\\'
  | '/' => some '/'
  | 'b' => some '\x08'
  | 'f' => some '\x0c'
  | 'n' => some '\n'
  | 'r' => some '\r'
  | 't' => some '\t'
  | _ => none

/-- The pieces of a string whose opening quote is read, and what follows its closing quote. -/
def pieces : List Char → Option (List Piece × List Char)
  | [] => none
  | '"' :: cs => some ([], cs)
  | '\\' :: 'u' :: a :: b :: c :: d :: cs => do
    let n ← hexCode a b c d
    let (ps, rest) ← pieces cs
    return (.code n :: ps, rest)
  | '\\' :: e :: cs => do
    let c ← plainEscape e
    let (ps, rest) ← pieces cs
    return (.char c :: ps, rest)
  | c :: cs =>
    if c.toNat < 0x20 || c == '\\' then none
    else do
      let (ps, rest) ← pieces cs
      return (.char c :: ps, rest)

def isHigh (n : Nat) : Bool := 0xD800 ≤ n && n < 0xDC00

def isLow (n : Nat) : Bool := 0xDC00 ≤ n && n < 0xE000

/-- The text of the pieces; `none` if half of a surrogate pair stands alone. -/
def joined : List Piece → Option (List Char)
  | [] => some []
  | .char c :: ps => (joined ps).map (c :: ·)
  | .code h :: .code l :: ps =>
    if isHigh h then
      if isLow l then
        (joined ps).map (Char.ofNat (0x10000 + (h - 0xD800) * 0x400 + (l - 0xDC00)) :: ·)
      else none
    else if isLow h then none
    else (joined (.code l :: ps)).map (Char.ofNat h :: ·)
  | .code n :: ps => if isHigh n || isLow n then none else (joined ps).map (Char.ofNat n :: ·)

/-- A string whose opening quote is read; `none` inside when it denotes nothing. -/
def text (cs : List Char) : Option (Option String × List Char) :=
  (pieces cs).map fun (ps, rest) => ((joined ps).map String.ofList, rest)

def digitsValue (ds : List Char) : Nat := ds.foldl (fun n d => 10 * n + (d.toNat - 48)) 0

/-- The parts of a number literal: sign, whole digits, digits after the point, exponent. -/
structure Literal where
  negative : Bool
  whole : List Char
  fraction : Option (List Char)
  exponent : Option Int

def sign : List Char → Bool × List Char
  | '-' :: cs => (true, cs)
  | cs => (false, cs)

def fractionPart : List Char → Option (Option (List Char) × List Char)
  | '.' :: cs =>
    let ds := cs.takeWhile isDigit
    if ds.isEmpty then none else some (some ds, cs.dropWhile isDigit)
  | cs => some (none, cs)

def exponentSign : List Char → Bool × List Char
  | '-' :: cs => (true, cs)
  | '+' :: cs => (false, cs)
  | cs => (false, cs)

def exponentPart : List Char → Option (Option Int × List Char)
  | c :: cs =>
    if c == 'e' || c == 'E' then
      let (negative, cs) := exponentSign cs
      let ds := cs.takeWhile isDigit
      if ds.isEmpty then none
      else
        let n := Int.ofNat (digitsValue ds)
        some (some (if negative then -n else n), cs.dropWhile isDigit)
    else some (none, c :: cs)
  | [] => some (none, [])

/-- The whole part: a zero, or digits that do not start with one. -/
def wholePart : List Char → Option (List Char × List Char)
  | '0' :: cs => some (['0'], cs)
  | cs =>
    let ds := cs.takeWhile isDigit
    if ds.isEmpty then none else some (ds, cs.dropWhile isDigit)

def literal (cs : List Char) : Option (Literal × List Char) := do
  let (negative, cs) := sign cs
  let (whole, cs) ← wholePart cs
  let (fraction, cs) ← fractionPart cs
  let (exponent, cs) ← exponentPart cs
  return (⟨negative, whole, fraction, exponent⟩, cs)

/-- The value of a literal, written `source`.  A negative zero is no integer. -/
def Literal.value (l : Literal) (source : List Char) : Json :=
  let fraction := l.fraction.getD []
  if Range.isBeyond l.whole fraction (l.exponent.getD 0) then undefined
  else if l.fraction.isNone && l.exponent.isNone && !(l.negative && l.whole == ['0']) then
    let n := Int.ofNat (digitsValue l.whole)
    int (if l.negative then -n else n)
  else decimal (String.ofList source)

def number (cs : List Char) : Option (Json × List Char) := do
  let (l, rest) ← literal cs
  return (l.value (cs.take (cs.length - rest.length)), rest)

def keyword : List Char → Option (Json × List Char)
  | 'n' :: 'u' :: 'l' :: 'l' :: cs => some (null, cs)
  | 't' :: 'r' :: 'u' :: 'e' :: cs => some (bool true, cs)
  | 'f' :: 'a' :: 'l' :: 's' :: 'e' :: cs => some (bool false, cs)
  | _ => none

mutual

def value : Nat → List Char → Option (Json × List Char)
  | 0, _ => none
  | n + 1, cs =>
    match skip cs with
    | '"' :: cs => (text cs).map fun (s, rest) => ((s.map str).getD undefined, rest)
    | '[' :: cs =>
      match skip cs with
      | ']' :: rest => some (arr [], rest)
      | _ => (items n cs).map fun (js, rest) => (arr js, rest)
    | '{' :: cs =>
      match skip cs with
      | '}' :: rest => some (obj [], rest)
      | _ => (fields n cs).map fun (fs, rest) => ((fs.map obj).getD undefined, rest)
    | cs =>
      match keyword cs with
      | some r => some r
      | none => number cs

/-- One or more items and the closing bracket. -/
def items : Nat → List Char → Option (List Json × List Char)
  | 0, _ => none
  | n + 1, cs =>
    match value n cs with
    | none => none
    | some (j, rest) =>
      match skip rest with
      | ']' :: rest => some ([j], rest)
      | ',' :: rest => (items n rest).map fun (js, rest) => (j :: js, rest)
      | _ => none

/-- One or more fields and the closing brace; `none` inside when a name denotes nothing. -/
def fields : Nat → List Char → Option (Option (List (String × Json)) × List Char)
  | 0, _ => none
  | n + 1, cs =>
    match skip cs with
    | '"' :: cs =>
      match text cs with
      | none => none
      | some (k, rest) =>
        match skip rest with
        | ':' :: rest =>
          match value n rest with
          | none => none
          | some (j, rest) =>
            let f := k.map fun k => (k, j)
            match skip rest with
            | '}' :: rest => some (f.map ([·]), rest)
            | ',' :: rest =>
              (fields n rest).map fun (fs, rest) => (f.bind fun f => fs.map (f :: ·), rest)
            | _ => none
        | _ => none
    | _ => none

end

/-- The value that the characters spell, with nothing but blanks after it. -/
def document (cs : List Char) : Option Json :=
  match value (2 * cs.length + 2) cs with
  | some (j, rest) => if (skip rest).isEmpty then some j else none
  | none => none

end Reader

/-- The value a text spells, if it is well formed. -/
def parse? (s : String) : Option Json := Reader.document s.toList

end Json
end Unweave

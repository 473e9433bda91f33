import Unweave.Shell.Octets

/-!
# Numbers in text

Integers the way command line programs read them: blanks, a sign, and digits whose base may be told
by how they start.  Values have sixty-four bits.
-/

namespace Unweave
namespace Shell

def digitValue (c : Char) : Nat :=
  if c.isDigit then c.toNat - 48
  else if 'a' ≤ c && c ≤ 'z' then c.toNat - 87
  else if 'A' ≤ c && c ≤ 'Z' then c.toNat - 55
  else 99

def digitsValue (base : Nat) (ds : List Char) : Nat :=
  ds.foldl (fun n d => base * n + digitValue d) 0

/-- Wrap around to sixty-four bits with a sign. -/
def wrapped (i : Int) : Int := Int.bmod i 18446744073709551616

def greatest : Int := 9223372036854775807

/-- Cut down to sixty-four bits with a sign. -/
def clamped (i : Int) : Int := max (-greatest - 1) (min greatest i)

structure Reading where
  value : Int
  /-- What follows the number. -/
  rest : List Char
  /-- Whether there was a digit. -/
  found : Bool

/-- Take the sign off. -/
def signOf : List Char → Bool × List Char
  | '-' :: cs => (true, cs)
  | '+' :: cs => (false, cs)
  | cs => (false, cs)

def readDigits (base : Nat) (cs : List Char) : Nat × List Char × Bool :=
  let ds := cs.takeWhile fun c => digitValue c < base
  (digitsValue base ds, cs.drop ds.length, !ds.isEmpty)

/-- The digits of a number without its sign; in base zero the start tells the base. -/
def readUnsigned (base : Nat) (cs : List Char) : Nat × List Char × Bool :=
  match base, cs with
  | 0, '0' :: x :: d :: ds =>
    if (x == 'x' || x == 'X') && digitValue d < 16 then readDigits 16 (d :: ds)
    else readDigits 8 cs
  | 0, '0' :: _ => readDigits 8 cs
  | 0, _ => readDigits 10 cs
  | base, cs => readDigits base cs

/-- The integer at the start of a text, cut down to its range. -/
def readInteger (base : Nat) (cs : List Char) : Reading :=
  let (negative, body) := signOf (cs.dropWhile isSpaceByte)
  let (value, rest, found) := readUnsigned base body
  if found then
    { value := clamped (if negative then -(Int.ofNat value) else Int.ofNat value), rest, found }
  else { value := 0, rest := cs, found }

/-- A text that is an integer in base ten, blanks aside. -/
def integer? (s : String) : Option Int :=
  let r := readInteger 10 s.toList
  if r.found && (r.rest.dropWhile isSpaceByte).isEmpty then some r.value else none

/-- Digits alone. -/
def natural? (s : String) : Option Nat :=
  if !s.isEmpty && s.toList.all Char.isDigit then some (digitsValue 10 s.toList) else none

/-- Fill up to a width on the left. -/
def padLeft (width : Nat) (fill : Char) (s : String) : String :=
  String.ofList (List.replicate (width - s.length) fill) ++ s

def padRight (width : Nat) (s : String) : String :=
  s ++ String.ofList (List.replicate (width - s.length) ' ')

/-- The digits of a number in a base, in lower case. -/
def digitsIn (base n : Nat) : String := String.ofList (Nat.toDigits base n)

/-! ## Octal escapes -/

def isOctal (c : Char) : Bool := '0' ≤ c && c ≤ '7'

/-- Up to `n` characters of a kind at the start, and what follows them. -/
def takeUpTo (p : Char → Bool) : Nat → List Char → List Char × List Char
  | 0, cs => ([], cs)
  | _ + 1, [] => ([], [])
  | n + 1, c :: cs =>
    if p c then
      let (ds, rest) := takeUpTo p n cs
      (c :: ds, rest)
    else ([], c :: cs)

/-- The byte that digits in a base make. -/
def byteOf (base : Nat) (ds : List Char) : Char := Char.ofNat (digitsValue base ds % 256)

/-- The byte of an escape that is one letter. -/
def letterEscape : Char → Option Char
  | 'a' => some '\x07'
  | 'b' => some '\x08'
  | 'f' => some '\x0c'
  | 'n' => some '\n'
  | 'r' => some '\r'
  | 't' => some '\t'
  | 'v' => some '\x0b'
  | '\\' => some '\\'
  | _ => none

end Shell
end Unweave

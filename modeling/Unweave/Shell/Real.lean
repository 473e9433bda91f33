import Unweave.Shell.Number

/-!
# Real numbers in text

A real number is held exactly, as a whole number times a power of two, so that its digits can be
printed to any place.  Reading rounds a decimal to a number of significant bits; printing rounds to
the nearest digits, halves to even.
-/

namespace Unweave
namespace Shell

inductive Real where
  | finite (negative : Bool) (mantissa : Nat) (exponent : Int)
  | infinite (negative : Bool)
  | nan (negative : Bool)

namespace Real

def zero : Real := finite false 0 0

def isNegative : Real → Bool
  | finite negative _ _ => negative
  | infinite negative => negative
  | nan negative => negative

/-- The quotient rounded to the nearest, halves to even. -/
def roundDiv (n d : Nat) : Nat :=
  let q := n / d
  let r := n % d
  if 2 * r > d || (2 * r == d && q % 2 == 1) then q + 1 else q

/-- The quotient rounded to so many significant bits. -/
def nearest (bits : Nat) (n d : Nat) : Nat × Int :=
  if n = 0 then (0, 0)
  else
    let guess : Int := Int.ofNat n.log2 - Int.ofNat d.log2 - Int.ofNat bits
    let at_ := fun (e : Int) =>
      if e ≥ 0 then (n, d * Nat.pow 2 e.toNat) else (n * Nat.pow 2 (-e).toNat, d)
    let (a, b) := at_ guess
    let e := if a / b ≥ Nat.pow 2 bits then guess + 1 else guess
    let (a, b) := at_ e
    (roundDiv a b, e)

/-- A decimal `digits · 10 ^ scale` with so many significant bits. -/
def ofDecimal (bits : Nat) (negative : Bool) (digits : Nat) (scale : Int) : Real :=
  if scale > 5000 && digits != 0 then infinite negative
  else if scale < -6000 then finite negative 0 0
  else
    let (m, e) :=
      if scale ≥ 0 then nearest bits (digits * Nat.pow 10 scale.toNat) 1
      else nearest bits digits (Nat.pow 10 (-scale).toNat)
    finite negative m e

def ofFloat (x : Float) : Real :=
  let b := x.toBits.toNat
  let negative := b / 9223372036854775808 == 1
  let e := b / 4503599627370496 % 2048
  let m := b % 4503599627370496
  if e == 2047 then if m == 0 then infinite negative else nan negative
  else if e == 0 then finite negative m (-1074)
  else finite negative (m + 4503599627370496) (Int.ofNat e - 1075)

def ofInt (i : Int) : Real := finite (i < 0) i.natAbs 0

/-! ## Reading -/

/-- Whether a text starts with a word, whatever its case. -/
def startsWithWord (w : String) (cs : List Char) : Bool :=
  (cs.take w.length).map Char.toLower == w.toList

/-- The exponent that may follow digits. -/
def readExponent (cs : List Char) : Int × List Char :=
  match cs with
  | c :: rest =>
    if c == 'e' || c == 'E' then
      let (negative, body) := signOf rest
      let (n, after, found) := readDigits 10 body
      if found then (if negative then -(Int.ofNat n) else Int.ofNat n, after) else (0, cs)
    else (0, cs)
  | [] => (0, [])

/-- Digits, a point and more digits. -/
def readPlaces (base : Nat) (cs : List Char) : Nat × Nat × List Char × Bool :=
  let isDigit := fun c => digitValue c < base
  let whole := cs.takeWhile isDigit
  match cs.drop whole.length with
  | '.' :: rest =>
    let places := rest.takeWhile isDigit
    (digitsValue base (whole ++ places), places.length, rest.drop places.length,
      !(whole.isEmpty && places.isEmpty))
  | rest => (digitsValue base whole, 0, rest, !whole.isEmpty)

/-- The number at the start of a text, and what follows it; nothing if there is none. -/
def read? (bits : Nat) (hex : Bool) (cs : List Char) : Option (Real × List Char) :=
  let (negative, body) := signOf (cs.dropWhile isSpaceByte)
  if startsWithWord "infinity" body then some (infinite negative, body.drop 8)
  else if startsWithWord "inf" body then some (infinite negative, body.drop 3)
  else if startsWithWord "nan" body then some (nan negative, body.drop 3)
  else if hex && startsWithWord "0x" body && ((body.drop 2).head?.map digitValue).getD 99 < 16 then
    let (digits, places, rest, _) := readPlaces 16 (body.drop 2)
    let (m, e) := nearest bits digits 1
    some (finite negative m (e - 4 * Int.ofNat places), rest)
  else
    let (digits, places, rest, found) := readPlaces 10 body
    if found then
      let (e, rest) := readExponent rest
      some (ofDecimal bits negative digits (e - Int.ofNat places), rest)
    else none

/-! ## Printing -/

/-- The value times a power of ten as a fraction. -/
def scaled (m : Nat) (e : Int) (places : Int) : Nat × Nat :=
  let n := if places ≥ 0 then m * Nat.pow 10 places.toNat else m
  let d := if places ≥ 0 then 1 else Nat.pow 10 (-places).toNat
  if e ≥ 0 then (n * Nat.pow 2 e.toNat, d) else (n, d * Nat.pow 2 (-e).toNat)

/-- The nearest whole number to the value times a power of ten. -/
def roundedAt (m : Nat) (e : Int) (places : Int) : Nat :=
  let (n, d) := scaled m e places
  roundDiv n d

/-- Digits with a point before the last ones. -/
def withPoint (places : Nat) (digits : Nat) (always : Bool) : String :=
  let text := padLeft (places + 1) '0' (digitsIn 10 digits)
  let cs := text.toList
  let whole := cs.take (cs.length - places)
  if places = 0 then String.ofList whole ++ if always then "." else ""
  else String.ofList (whole ++ '.' :: cs.drop (cs.length - places))

def fixed (places : Nat) (always : Bool) (m : Nat) (e : Int) : String :=
  withPoint places (roundedAt m e (Int.ofNat places)) always

/-- Search the place of the first digit of a value that is not zero, from a guess. -/
def firstPlace (m : Nat) (e : Int) : Nat → Int → Int
  | 0, k => k
  | n + 1, k =>
    let (a, b) := scaled m e (-k)
    if a < b then firstPlace m e n (k - 1)
    else if a ≥ 10 * b then firstPlace m e n (k + 1)
    else k

/-- The digits of a value, one and so many more, and the place of the first. -/
def digitsAndPlace (places : Nat) (m : Nat) (e : Int) : Nat × Int :=
  if m = 0 then (0, 0)
  else
    let guess : Int := (Int.ofNat m.log2 + e) * 30103 / 100000
    let k := firstPlace m e 8 guess
    let ds := roundedAt m e (Int.ofNat places - k)
    if ds ≥ Nat.pow 10 (places + 1) then (ds / 10, k + 1) else (ds, k)

def exponentText (k : Int) : String :=
  "e" ++ (if k < 0 then "-" else "+") ++ padLeft 2 '0' (digitsIn 10 k.natAbs)

def exponential (places : Nat) (always : Bool) (m : Nat) (e : Int) : String :=
  let (ds, k) := digitsAndPlace places m e
  withPoint places ds always ++ exponentText k

/-- Forget zeros at the end of the places, and the point if nothing is left after it. -/
def withoutZeros (s : String) : String :=
  if s.toList.contains '.' then
    let cs := s.toList.reverse.dropWhile (· == '0')
    String.ofList (match cs with
      | '.' :: cs => cs.reverse
      | cs => cs.reverse)
  else s

/-- The shorter of the two forms, with so many significant digits. -/
def general (digits : Nat) (always : Bool) (m : Nat) (e : Int) : String :=
  let p := max 1 digits
  let (ds, k) := digitsAndPlace (p - 1) m e
  if k < -4 || k ≥ Int.ofNat p then
    let body := withPoint (p - 1) ds always
    (if always then body else withoutZeros body) ++ exponentText k
  else
    let body := fixed (Int.ofNat p - 1 - k).toNat always m e
    if always then body else withoutZeros body

end Real
end Shell
end Unweave

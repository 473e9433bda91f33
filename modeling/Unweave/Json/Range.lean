/-!
# The range of numbers

A number literal is read with the arithmetic of doubles.  The digits are taken as long as they make
a number of sixty-four bits; further digits of the whole part only count as places, and further
digits after the point are dropped.  That number and the power of ten are doubles, each the nearest
one, and the literal is out of range if their product is.
-/

namespace Unweave
namespace Json
namespace Range

/-- Sixty-four bits hold the numbers below. -/
def wordBound : Nat := 18446744073709551616

/-- The nearest number that has fifty-three significant bits; of two the even one. -/
def nearest (n : Nat) : Nat :=
  let extra := n.log2 - 52
  let unit := Nat.pow 2 extra
  let low := n / unit
  let rest := n % unit
  let up := 2 * rest > unit || (2 * rest == unit && low % 2 == 1)
  (if up then low + 1 else low) * unit

/-- The least number that is rounded to no double. -/
def limit : Nat := Nat.pow 2 1024 - Nat.pow 2 970

/-- Digits of a literal as a number of sixty-four bits and an exponent of ten. -/
structure Scaled where
  digits : Nat := 0
  exponent : Int := 0

def digit (c : Char) : Nat := c.toNat - 48

/-- Take the digits of the whole part. -/
def Scaled.whole (s : Scaled) : List Char → Scaled
  | [] => s
  | c :: cs =>
    let n := 10 * s.digits + digit c
    if n < wordBound then Scaled.whole { s with digits := n } cs
    else { s with exponent := s.exponent + Int.ofNat (cs.length + 1) }

/-- Take the digits after the point. -/
def Scaled.fraction (s : Scaled) : List Char → Scaled
  | [] => s
  | c :: cs =>
    let n := 10 * s.digits + digit c
    if n < wordBound then Scaled.fraction { digits := n, exponent := s.exponent - 1 } cs else s

/-- Whether the value is out of range.  No power of ten above 308 is a double. -/
def Scaled.isBeyond (s : Scaled) : Bool :=
  s.digits != 0 && s.exponent > 0 &&
    (s.exponent > 308 ||
      nearest (nearest s.digits * nearest (Nat.pow 10 s.exponent.toNat)) ≥ limit)

/-- Whether a literal of these digits and this exponent is out of range. -/
def isBeyond (whole fraction : List Char) (exponent : Int) : Bool :=
  let s := (({} : Scaled).whole whole).fraction fraction
  Scaled.isBeyond { s with exponent := s.exponent + exponent }

/-- Whether `m · 10 ^ e` itself is nearest to no double, where `m` has the digits `ds`.  Numbers of
fewer than 308 places are small enough and those of more than 310 are too large, so no large power
is computed. -/
def exceeds (ds : List Char) (e : Int) : Bool :=
  let ds := ds.dropWhile (· == '0')
  let places := Int.ofNat ds.length + e
  if ds.isEmpty || places < 308 then false
  else if places > 310 then true
  else
    let m := ds.foldl (fun n c => 10 * n + digit c) 0
    if e ≥ 0 then m * Nat.pow 10 e.toNat ≥ limit else m ≥ limit * Nat.pow 10 (-e).toNat

end Range
end Json
end Unweave

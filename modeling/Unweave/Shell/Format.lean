import Unweave.Shell.Real

/-!
# Formats

The conversions of formatted printing: flags, a width, a precision and a letter.
-/

namespace Unweave
namespace Shell

/-- A width or precision: none, a number, or the next argument. -/
inductive Extent where
  | none
  | fixed (n : Nat)
  | argument
deriving DecidableEq

structure Conversion where
  flags : List Char := []
  width : Extent := .none
  precision : Extent := .none
  letter : Char

namespace Conversion

def isFlag (c : Char) : Bool := c == '#' || c == '-' || c == '+' || c == ' ' || c == '0'

def extent (cs : List Char) : Extent × List Char :=
  match cs with
  | '*' :: rest => (.argument, rest)
  | cs =>
    let ds := cs.takeWhile Char.isDigit
    if ds.isEmpty then (.none, cs) else (.fixed (digitsValue 10 ds), cs.drop ds.length)

/-- Flags, width and precision after a percent sign, and what follows them. -/
def parse (cs : List Char) : Conversion × List Char :=
  let flags := cs.takeWhile isFlag
  let (width, rest) := extent (cs.drop flags.length)
  let (precision, rest) := match rest with
    | '.' :: rest =>
      match extent rest with
      | (.none, rest) => (.fixed 0, rest)
      | r => r
    | rest => (.none, rest)
  ({ flags, width, precision, letter := ' ' }, rest)

def has (c : Conversion) (flag : Char) : Bool := c.flags.contains flag

end Conversion

/-- A conversion whose extents are known. -/
structure Spec where
  left : Bool := false
  plus : Bool := false
  space : Bool := false
  zero : Bool := false
  alternate : Bool := false
  width : Nat := 0
  precision : Option Nat := none

namespace Spec

/-- Put the values of arguments for extents; a negative width means the other side, and a negative
precision none. -/
def ofConversion (c : Conversion) (width precision : Option Int) : Spec :=
  let w : Int := match c.width with
    | .none => 0
    | .fixed n => Int.ofNat n
    | .argument => width.getD 0
  let p : Option Nat := match c.precision with
    | .none => none
    | .fixed n => some n
    | .argument => match precision with
      | some (.ofNat n) => some n
      | _ => none
  { left := c.has '-' || w < 0, plus := c.has '+', space := c.has ' ', zero := c.has '0',
    alternate := c.has '#', width := w.natAbs, precision := p }

/-- Fill up to the width.  Zeros go between the sign and the digits. -/
def padded (s : Spec) (sign body : String) (zeros : Bool) : String :=
  let length := sign.length + body.length
  if s.left then padRight s.width (sign ++ body)
  else if zeros && s.zero then
    sign ++ String.ofList (List.replicate (s.width - length) '0') ++ body
  else padLeft s.width ' ' (sign ++ body)

def signFor (s : Spec) (negative : Bool) : String :=
  if negative then "-" else if s.plus then "+" else if s.space then " " else ""

def text (s : Spec) (t : String) : String :=
  let t := match s.precision with
    | some n => String.ofList (t.toList.take n)
    | none => t
  s.padded "" t false

/-- Digits with at least as many as the precision asks for. -/
def digits (s : Spec) (ds : String) : String :=
  match s.precision with
  | some n => if n = 0 && ds == "0" then "" else padLeft n '0' ds
  | none => ds

def integer (s : Spec) (i : Int) : String :=
  s.padded (s.signFor (i < 0)) (s.digits (digitsIn 10 i.natAbs)) s.precision.isNone

/-- An integer without sign: octal, decimal or hexadecimal. -/
def unsigned (s : Spec) (letter : Char) (n : Nat) : String :=
  let base := if letter == 'o' then 8 else if letter == 'u' then 10 else 16
  let ds := s.digits (digitsIn base n)
  let ds := if s.alternate && letter == 'o' && !ds.startsWith "0" then "0" ++ ds else ds
  let mark := if s.alternate && base = 16 && n != 0 then "0x" else ""
  let t := s.padded mark ds s.precision.isNone
  if letter == 'X' then String.ofList (t.toList.map Char.toUpper) else t

def real (s : Spec) (letter : Char) (x : Real) : String :=
  let upper := letter.isUpper
  let sign := s.signFor x.isNegative
  let t := match x with
    | .infinite _ => s.padded sign "inf" false
    | .nan _ => s.padded sign "nan" false
    | .finite _ m e =>
      let p := s.precision.getD 6
      let body := match letter.toLower with
        | 'f' => Real.fixed p s.alternate m e
        | 'e' => Real.exponential p s.alternate m e
        | _ => Real.general p s.alternate m e
      s.padded sign body true
  if upper then String.ofList (t.toList.map Char.toUpper) else t

end Spec
end Shell
end Unweave

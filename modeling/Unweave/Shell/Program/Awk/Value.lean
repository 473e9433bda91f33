import Unweave.Shell.Format
import Unweave.Shell.Program.Awk.Syntax

/-!
# Values

A value is a number or a text; a text that came from outside and looks like a number is both, and
one that was never set is both zero and nothing.
-/

namespace Unweave
namespace Shell
namespace Awk

inductive Value where
  | unset
  | number (x : Float)
  | text (s : String)
  /-- Text from outside that looks like a number. -/
  | either (s : String) (x : Float)

instance : Inhabited Value := ⟨.unset⟩

/-- The double closest to a real number. -/
def floatOf : Real → Float
  | .finite negative m e =>
    let x := Float.scaleB (Float.ofNat m) e
    if negative then -x else x
  | .infinite negative => if negative then -(1.0 / 0.0) else 1.0 / 0.0
  | .nan _ => 0.0 / 0.0

/-- The number at the start of a text; zero if there is none. -/
def leadingNumber (s : String) : Float :=
  match Real.read? 53 true s.toList with
  | some (r, _) => floatOf r
  | none => 0.0

/-- A text that is a number, blanks aside. -/
def wholeNumber? (s : String) : Option Float :=
  match Real.read? 53 true s.toList with
  | some (r, rest) =>
    let alphabetic := match (s.toList.dropWhile isSpaceByte) with
      | c :: d :: _ => c.isAlpha || (!c.isDigit && d.isAlpha)
      | [c] => c.isAlpha
      | [] => false
    if (rest.dropWhile isSpaceByte).isEmpty && !alphabetic then some (floatOf r) else none
  | none => none

/-- A text from outside. -/
def ofOutside (s : String) : Value :=
  match wholeNumber? s with
  | some x => .either s x
  | none => .text s

/-- The whole number that a double is, if it is one of moderate size. -/
def wholePart? (x : Float) : Option Int :=
  if x.floor == x && x.abs < 9.2e18 then
    match Real.ofFloat x with
    | .finite negative m e =>
      let n := Int.ofNat (Real.roundedAt m e 0)
      some (if negative then -n else n)
    | _ => none
  else none

/-- A double toward zero, as a whole number of sixty-four bits. -/
def truncated (x : Float) : Int :=
  let t := if x < 0.0 then x.ceil else x.floor
  match wholePart? t with
  | some i => i
  | none => if x < 0.0 then -greatest - 1 else greatest

/-- Print one number by a format with one conversion. -/
def formatNumber (format : String) (x : Float) : String :=
  let before := format.toList.takeWhile (· != '%')
  match format.toList.drop before.length with
  | '%' :: cs =>
    let (c, rest) := Conversion.parse cs
    match rest with
    | k :: after =>
      let s := Spec.ofConversion c none none
      let shown := if k == 'd' || k == 'i' then s.integer (truncated x) else s.real k (Real.ofFloat x)
      String.ofList before ++ shown ++ String.ofList after
    | [] => format
  | _ => format

def numberText (format : String) (x : Float) : String :=
  match wholePart? x with
  | some i => toString i
  | none => formatNumber format x

namespace Value

def toNumber : Value → Float
  | unset => 0.0
  | number x => x
  | text s => leadingNumber s
  | either _ x => x

/-- The text of a value, numbers by a format. -/
def toText (format : String) : Value → String
  | unset => ""
  | number x => numberText format x
  | text s => s
  | either s _ => s

def isTrue : Value → Bool
  | unset => false
  | number x => x != 0.0
  | text s => !s.isEmpty
  | either _ x => x != 0.0

/-- Whether a value compares as a number. -/
def isNumeric : Value → Bool
  | text _ => false
  | _ => true

def ofBool (b : Bool) : Value := number (if b then 1.0 else 0.0)

def ofNat (n : Nat) : Value := number (Float.ofNat n)

end Value

def compareValues (format : String) (c : Comparison) (a b : Value) : Bool :=
  if a.isNumeric && b.isNumeric then
    let x := a.toNumber
    let y := b.toNumber
    match c with
    | .less => x < y
    | .lessEqual => x ≤ y
    | .equal => x == y
    | .notEqual => x != y
    | .greater => x > y
    | .greaterEqual => x ≥ y
  else
    let x := a.toText format
    let y := b.toText format
    match c with
    | .less => x < y
    | .lessEqual => x ≤ y
    | .equal => x == y
    | .notEqual => x != y
    | .greater => y < x
    | .greaterEqual => y ≤ x

/-- The remainder with the sign of the first operand. -/
def remainder (x y : Float) : Float :=
  match Real.ofFloat x, Real.ofFloat y with
  | .finite negative m e, .finite _ n f =>
    if n = 0 then 0.0 / 0.0
    else
      let low := min e f
      let a := m * Nat.pow 2 (e - low).toNat
      let b := n * Nat.pow 2 (f - low).toNat
      floatOf (.finite negative (a % b) low)
  | .finite .., .infinite _ => x
  | _, _ => 0.0 / 0.0

/-- A power; whole exponents by multiplication. -/
def raised (x y : Float) : Float := Float.pow x y

def operate (o : Operator) (x y : Float) : Float :=
  match o with
  | .add => x + y
  | .subtract => x - y
  | .multiply => x * y
  | .divide => x / y
  | .remainder => remainder x y
  | .power => raised x y

end Awk
end Shell
end Unweave

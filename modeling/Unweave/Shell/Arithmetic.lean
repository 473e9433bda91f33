import Unweave.Shell.Number

/-!
# Arithmetic

Expressions over integers of sixty-four bits that wrap around, with the operators and the precedence
of C, and assignments to variables.  What is not asked for by a condition is read but has no effect.
-/

namespace Unweave
namespace Shell
namespace Arithmetic

inductive Token where
  | number (n : Int)
  | name (s : String)
  | operator (s : String)
  | bad
deriving DecidableEq

/-- Operators, longer ones before those they start with. -/
def operators : List String :=
  ["<<=", ">>=", "<<", ">>", "<=", ">=", "==", "!=", "&&", "||", "*=", "/=", "%=", "+=", "-=", "&=",
    "^=", "|=", "=", "<", ">", "!", "~", "(", ")", "+", "-", "*", "/", "%", "&", "|", "^", "?", ":"]

def operator? (cs : List Char) : Option String := operators.find? fun o => o.toList.isPrefixOf cs

def tokens : Nat → List Char → List Token
  | 0, _ => []
  | n + 1, cs =>
    match cs.dropWhile isSpaceByte with
    | [] => []
    | c :: cs =>
      if c.isDigit then
        let (value, rest, _) := readUnsigned 0 (c :: cs)
        .number (clamped (Int.ofNat value)) :: tokens n rest
      else if isNameStart c then
        let name := (c :: cs).takeWhile isNameByte
        .name (String.ofList name) :: tokens n ((c :: cs).drop name.length)
      else
        match operator? (c :: cs) with
        | some o => .operator o :: tokens n ((c :: cs).drop o.length)
        | none => [.bad]

/-- The message without the expression it is about, or one that stands alone. -/
inductive Fault where
  | inExpression (message : String)
  | alone (message : String)

structure State where
  rest : List Token
  /-- The value of a variable. -/
  lookup : String → Option String
  /-- What was assigned, the last first. -/
  assigned : List (String × Int) := []

abbrev Eval : Type → Type := EStateM Fault State

def fault {α : Type} (message : String) : Eval α := throw (.inExpression message)

def peek : Eval (Option Token) := do
  return (← get).rest.head?

def advance : Eval Unit := modify fun s => { s with rest := s.rest.drop 1 }

def isNext (o : String) : Eval Bool := do
  return (← peek) == some (.operator o)

def valueOf (name : String) : Eval Int := do
  let s ← get
  match s.assigned.lookup name with
  | some i => return i
  | none =>
    let text := (s.lookup name).getD "0"
    let r := readInteger 0 text.toList
    if (r.rest.dropWhile isSpaceByte).isEmpty then return r.value
    else throw (.alone ("Illegal number: " ++ text))

def truth (b : Bool) : Int := if b then 1 else 0

/-- The bits of an integer. -/
def bits (i : Int) : UInt64 := UInt64.ofInt i

def ofBits (u : UInt64) : Int := wrapped (Int.ofNat u.toNat)

def apply (o : String) (a b : Int) : Eval Int :=
  match o with
  | "*" => return wrapped (a * b)
  | "/" => if b = 0 then fault "division by zero" else return wrapped (Int.tdiv a b)
  | "%" => if b = 0 then fault "division by zero" else return wrapped (Int.tmod a b)
  | "+" => return wrapped (a + b)
  | "-" => return wrapped (a - b)
  | "<<" => return ofBits (bits a <<< bits b)
  | ">>" => return Int.fdiv a (Int.ofNat (Nat.pow 2 ((bits b).toNat % 64)))
  | "<" => return truth (a < b)
  | "<=" => return truth (a ≤ b)
  | ">" => return truth (a > b)
  | ">=" => return truth (a ≥ b)
  | "==" => return truth (a == b)
  | "!=" => return truth (a != b)
  | "&" => return ofBits (bits a &&& bits b)
  | "^" => return ofBits (bits a ^^^ bits b)
  | _ => return ofBits (bits a ||| bits b)

/-- How tightly an operator binds. -/
def binding? : Token → Option Nat
  | .operator o =>
    if ["*", "/", "%"].contains o then some 8
    else if ["+", "-"].contains o then some 7
    else if ["<<", ">>"].contains o then some 6
    else if ["<", "<=", ">", ">="].contains o then some 5
    else if ["==", "!="].contains o then some 4
    else if o == "&" then some 3
    else if o == "^" then some 2
    else if o == "|" then some 1
    else none
  | _ => none

/-- The operator of an assignment that also computes. -/
def assignment? : Token → Option String
  | .operator o =>
    if o == "=" then some ""
    else if ["*=", "/=", "%=", "+=", "-=", "<<=", ">>=", "&=", "^=", "|="].contains o then
      some (String.ofList o.toList.dropLast)
    else none
  | _ => none

mutual

def assignment : Nat → Bool → Eval Int
  | 0, _ => fault "expecting primary"
  | n + 1, quiet => do
    match (← get).rest with
    | .name x :: t :: rest =>
      match assignment? t with
      | some o =>
        modify fun s => { s with rest }
        let b ← assignment n quiet
        if quiet then return b
        else
          let v ← if o.isEmpty then pure b else apply o (← valueOf x) b
          modify fun s => { s with assigned := (x, v) :: s.assigned }
          return v
      | none => conditional n quiet
    | _ => conditional n quiet

def conditional : Nat → Bool → Eval Int
  | 0, _ => fault "expecting primary"
  | n + 1, quiet => do
    let a ← disjunction n quiet
    if ← isNext "?" then
      advance
      let b ← assignment n (quiet || a == 0)
      unless ← isNext ":" do fault "expecting \x27:\x27"
      advance
      let c ← conditional n (quiet || a != 0)
      return if a != 0 then b else c
    else return a

def disjunction : Nat → Bool → Eval Int
  | 0, _ => fault "expecting primary"
  | n + 1, quiet => do
    let a ← conjunction n quiet
    if ← isNext "||" then
      advance
      let b ← disjunction n (quiet || a != 0)
      return truth (a != 0 || b != 0)
    else return a

def conjunction : Nat → Bool → Eval Int
  | 0, _ => fault "expecting primary"
  | n + 1, quiet => do
    let a ← primary n quiet
    let a ← binary n quiet 1 a
    if ← isNext "&&" then
      advance
      let b ← conjunction n (quiet || a == 0)
      return truth (a != 0 && b != 0)
    else return a

/-- Operators that bind at least so tightly, after a first operand. -/
def binary : Nat → Bool → Nat → Int → Eval Int
  | 0, _, _, _ => fault "expecting primary"
  | n + 1, quiet, tight, a => do
    match (← get).rest with
    | .operator o :: rest =>
      match binding? (.operator o) with
      | some k =>
        if k < tight then return a
        else
          modify fun s => { s with rest }
          let b ← primary n quiet
          let b ← binary n quiet (k + 1) b
          let c ← if quiet then pure b else apply o a b
          binary n quiet tight c
      | none => return a
    | _ => return a

def primary : Nat → Bool → Eval Int
  | 0, _ => fault "expecting primary"
  | n + 1, quiet => do
    match (← get).rest with
    | .number i :: rest =>
      modify fun s => { s with rest }
      return i
    | .name x :: rest =>
      modify fun s => { s with rest }
      if quiet then return 0 else valueOf x
    | .operator "(" :: rest =>
      modify fun s => { s with rest }
      let a ← assignment n quiet
      unless ← isNext ")" do fault "expecting \x27)\x27"
      advance
      return a
    | .operator "+" :: rest =>
      modify fun s => { s with rest }
      primary n quiet
    | .operator "-" :: rest =>
      modify fun s => { s with rest }
      return wrapped (-(← primary n quiet))
    | .operator "!" :: rest =>
      modify fun s => { s with rest }
      return truth ((← primary n quiet) == 0)
    | .operator "~" :: rest =>
      modify fun s => { s with rest }
      return wrapped (-(← primary n quiet) - 1)
    | _ => fault "expecting primary"

end

def expression (n : Nat) : Eval Int := do
  let a ← assignment n false
  if (← get).rest.isEmpty then return a else fault "expecting EOF"

end Arithmetic

/-- The value of an expression and what it assigns to variables, or what is wrong with it. -/
def evaluate (lookup : String → Option String) (text : String) :
    Except String (Int × List (String × Int)) :=
  let rest := Arithmetic.tokens (text.length + 1) text.toList
  match (Arithmetic.expression (4 * text.length + 16)).run { rest, lookup } with
  | .ok a s => .ok (a, s.assigned.reverse)
  | .error (.inExpression m) _ =>
    .error ("arithmetic expression: " ++ m ++ ": \"" ++ text ++ "\"")
  | .error (.alone m) _ => .error m

end Shell
end Unweave

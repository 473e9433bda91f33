import Unweave.Shell.Program.Basic
import Unweave.Shell.Regex

/-!
# Expressions of arguments

Arithmetic, comparisons and matches whose operands and operators are arguments of their own.
-/

namespace Unweave
namespace Shell
namespace Program
namespace Expression

/-- A fault: a message, behind a word on the syntax or alone. -/
inductive Fault where
  | grammar (message : String)
  | value (message : String)

structure State where
  rest : List String
  /-- The word that was read last. -/
  last : String := ""

abbrev Eval : Type → Type := EStateM Fault State

def advance : Eval Unit :=
  modify fun s =>
    match s.rest with
    | w :: rest => { rest, last := w }
    | [] => s

def peek : Eval (Option String) := do
  return (← get).rest.head?

/-- An operand that is a number, of any size. -/
def number? (s : String) : Option Int :=
  match s.toList with
  | '-' :: d :: ds =>
    if (d :: ds).all Char.isDigit then some (-(Int.ofNat (digitsValue 10 (d :: ds)))) else none
  | d :: ds =>
    if (d :: ds).all Char.isDigit then some (Int.ofNat (digitsValue 10 (d :: ds))) else none
  | [] => none

def render (i : Int) : String := (if i < 0 then "-" else "") ++ digitsIn 10 i.natAbs

/-- Whether a value counts as nothing: no text, or only zeros. -/
def isNull (s : String) : Bool :=
  match s.toList with
  | [] => true
  | '-' :: d :: ds => (d :: ds).all (· == '0')
  | ds => ds.all (· == '0')

def operand (s : String) : Eval Int :=
  match number? s with
  | some i => return i
  | none => throw (.value "non-integer argument")

/-- Match an expression at the start of a text: the first group, or the length of the match. -/
def matched (text pattern : String) : Eval String :=
  match Regex.compile {} false pattern.toList with
  | .error _ => throw (.value "Invalid regular expression")
  | .ok m =>
    let subject := text.toList.toArray
    match m.matchAt? subject 0 with
    | some r =>
      if m.groups > 0 then return String.ofList (Matcher.groupText subject r 1)
      else return digitsIn 10 r.stop
    | none => return if m.groups > 0 then "" else "0"

/-- The first place of a byte of a set, from one. -/
def indexOf (text set : String) : Nat :=
  match text.toList.findIdx? fun c => set.toList.contains c with
  | some i => i + 1
  | none => 0

def part (text position length : String) : String :=
  match number? position, number? length with
  | some p, some n =>
    if p ≤ 0 || n ≤ 0 then "" else String.ofList ((text.toList.drop (p.toNat - 1)).take n.toNat)
  | _, _ => ""

def compare (o a b : String) : Bool :=
  match number? a, number? b with
  | some x, some y =>
    match o with
    | "<" => x < y
    | "<=" => x ≤ y
    | "=" | "==" => x == y
    | "!=" => x != y
    | ">=" => x ≥ y
    | _ => x > y
  | _, _ =>
    match o with
    | "<" => a < b
    | "<=" => a ≤ b
    | "=" | "==" => a == b
    | "!=" => a != b
    | ">=" => b ≤ a
    | _ => b < a

def missing {α : Type} : Eval α := do
  throw (.grammar ("missing argument after " ++ quote (← get).last))

mutual

def disjunction : Nat → Bool → Eval String
  | 0, _ => missing
  | n + 1, used => do
    let a ← conjunction n used
    disjunctionAfter n used a

def disjunctionAfter : Nat → Bool → String → Eval String
  | 0, _, a => return a
  | n + 1, used, a => do
    if (← peek) == some "|" then
      advance
      let b ← conjunction n (used && isNull a)
      disjunctionAfter n used (if isNull a then (if isNull b then "0" else b) else a)
    else return a

def conjunction : Nat → Bool → Eval String
  | 0, _ => missing
  | n + 1, used => do
    let a ← comparison n used
    conjunctionAfter n used a

def conjunctionAfter : Nat → Bool → String → Eval String
  | 0, _, a => return a
  | n + 1, used, a => do
    if (← peek) == some "&" then
      advance
      let b ← comparison n (used && !isNull a)
      conjunctionAfter n used (if isNull a || isNull b then "0" else a)
    else return a

def comparison : Nat → Bool → Eval String
  | 0, _ => missing
  | n + 1, used => do
    let a ← sum n used
    comparisonAfter n used a

def comparisonAfter : Nat → Bool → String → Eval String
  | 0, _, a => return a
  | n + 1, used, a => do
    match ← peek with
    | some o =>
      if ["<", "<=", "=", "==", "!=", ">=", ">"].contains o then
        advance
        let b ← sum n used
        comparisonAfter n used (if compare o a b then "1" else "0")
      else return a
    | none => return a

def sum : Nat → Bool → Eval String
  | 0, _ => missing
  | n + 1, used => do
    let a ← product n used
    sumAfter n used a

def sumAfter : Nat → Bool → String → Eval String
  | 0, _, a => return a
  | n + 1, used, a => do
    match ← peek with
    | some o =>
      if o == "+" || o == "-" then
        advance
        let b ← product n used
        if used then
          let x ← operand a
          let y ← operand b
          sumAfter n used (render (if o == "+" then x + y else x - y))
        else sumAfter n used "0"
      else return a
    | none => return a

def product : Nat → Bool → Eval String
  | 0, _ => missing
  | n + 1, used => do
    let a ← matching n used
    productAfter n used a

def productAfter : Nat → Bool → String → Eval String
  | 0, _, a => return a
  | n + 1, used, a => do
    match ← peek with
    | some o =>
      if o == "*" || o == "/" || o == "%" then
        advance
        let b ← matching n used
        if used then
          let x ← operand a
          let y ← operand b
          if o != "*" && y == 0 then throw (.value "division by zero")
          productAfter n used
            (render (if o == "*" then x * y else if o == "/" then Int.tdiv x y else Int.tmod x y))
        else productAfter n used "0"
      else return a
    | none => return a

def matching : Nat → Bool → Eval String
  | 0, _ => missing
  | n + 1, used => do
    let a ← named n used
    matchingAfter n used a

def matchingAfter : Nat → Bool → String → Eval String
  | 0, _, a => return a
  | n + 1, used, a => do
    if (← peek) == some ":" then
      advance
      let b ← named n used
      matchingAfter n used (← if used then matched a b else pure "0")
    else return a

/-- Operators that are words, which stand before their operands. -/
def named : Nat → Bool → Eval String
  | 0, _ => missing
  | n + 1, used => do
    match ← peek with
    | some "+" =>
      advance
      match ← peek with
      | none => missing
      | some w =>
        advance
        return w
    | some "length" =>
      advance
      return digitsIn 10 (← named n used).length
    | some "match" =>
      advance
      let a ← named n used
      let b ← named n used
      if used then matched a b else return ""
    | some "index" =>
      advance
      let a ← named n used
      let b ← named n used
      return digitsIn 10 (indexOf a b)
    | some "substr" =>
      advance
      let a ← named n used
      let p ← named n used
      let l ← named n used
      return part a p l
    | _ => primary n used

def primary : Nat → Bool → Eval String
  | 0, _ => missing
  | n + 1, used => do
    match ← peek with
    | none => missing
    | some "(" =>
      advance
      let a ← disjunction n used
      match ← peek with
      | some ")" =>
        advance
        return a
      | none => throw (.grammar ("expecting \x27)\x27 after " ++ quote (← get).last))
      | some w => throw (.grammar ("expecting \x27)\x27 instead of " ++ quote w))
    | some ")" => throw (.grammar "unexpected \x27)\x27")
    | some w =>
      advance
      return w

end

end Expression

open Expression in
def expr : Program := do
  let as := (← get).arguments
  let as := if as.head? == some "--" then as.drop 1 else as
  if as.isEmpty then failUsage 2 "missing operand"
  match (disjunction (24 * as.length + 48) true).run { rest := as } with
  | .error (.grammar e) _ => failWith 2 ("syntax error: " ++ e)
  | .error (.value e) _ => failWith 2 e
  | .ok v s =>
    match s.rest with
    | w :: _ => failWith 2 ("syntax error: unexpected argument " ++ quote w)
    | [] =>
      putLine v
      setStatus (if isNull v then 1 else 0)

end Program
end Shell
end Unweave

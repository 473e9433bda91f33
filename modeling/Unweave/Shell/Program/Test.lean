import Unweave.Shell.Program.Basic

/-!
# Conditions

Tests of texts, numbers and files.  The shell's own test and the program of that name agree on what
operators mean, and differ in how they read a line of them and in what they say about faults.
-/

namespace Unweave
namespace Shell
namespace Program

/-! ## Operators -/

/-- Tests of one operand. -/
def unaryOperators : List String :=
  ["-r", "-w", "-x", "-e", "-f", "-d", "-c", "-b", "-p", "-u", "-g", "-k", "-s", "-t", "-z", "-n",
    "-h", "-L", "-O", "-G", "-S"]

def binaryOperators : List String :=
  ["=", "!=", "-eq", "-ne", "-ge", "-gt", "-le", "-lt", "-nt", "-ot", "-ef"]

/-- Where a file operand leads, and what is there. -/
def fileAt? (d : Disk) (path : String) : Option (Location × DiskEntry) :=
  match d.find (readable path) with
  | .ok r => some r
  | .error _ => none

/-- A test of a file. -/
def fileTest (d : Disk) (operator path : String) : Bool :=
  match fileAt? d path with
  | none => false
  | some (l, e) =>
    match operator with
    | "-x" => e.isDirectory || d.isExecutable l
    | "-f" =>
      match e with
      | .file _ => true
      | _ => false
    | "-d" => e.isDirectory
    | "-c" =>
      match e with
      | .device _ => true
      | _ => false
    | "-s" =>
      match e with
      | .file content => content.size > 0
      | .directory => true
      | .device _ => false
    | "-u" => d.modeAt l &&& 2048 != 0
    | "-g" => d.modeAt l &&& 1024 != 0
    | "-k" => d.modeAt l &&& 512 != 0
    | "-b" | "-p" | "-h" | "-L" | "-S" => false
    | _ => true

/-- A comparison of texts or files. -/
def compareTexts (d : Disk) (operator a b : String) : Bool :=
  match operator with
  | "=" | "==" => a == b
  | "!=" => a != b
  | "<" => a < b
  | ">" => b < a
  | "-ef" =>
    match fileAt? d a, fileAt? d b with
    | some (l, _), some (m, _) => l == m
    | _, _ => false
  | _ => false

def compareNumbers (operator : String) (a b : Int) : Bool :=
  match operator with
  | "-eq" => a == b
  | "-ne" => a != b
  | "-ge" => a ≥ b
  | "-gt" => a > b
  | "-le" => a ≤ b
  | _ => a < b

def comparesNumbers (operator : String) : Bool :=
  ["-eq", "-ne", "-ge", "-gt", "-le", "-lt"].contains operator

/-- How a reader of tests differs: what is a number, and how its fault is told. -/
structure TestDialect where
  number : String → Except String Int
  disk : Disk

namespace TestDialect

def unary (t : TestDialect) (operator operand : String) : Except String Bool :=
  match operator with
  | "-z" => .ok operand.isEmpty
  | "-n" => .ok (!operand.isEmpty)
  | "-t" => (t.number operand).map fun _ => false
  | _ => .ok (fileTest t.disk operator operand)

def binary (t : TestDialect) (operator a b : String) : Except String Bool :=
  if comparesNumbers operator then do
    let x ← t.number a
    let y ← t.number b
    return compareNumbers operator x y
  else .ok (compareTexts t.disk operator a b)

end TestDialect

/-! ## The shell's own test -/

namespace ShellTest

inductive Token where
  | finish
  | operand
  | unary
  | binary
  | negation
  | conjunction
  | disjunction
  | openParen
  | closeParen
deriving DecidableEq

def isBinary (s : String) : Bool := binaryOperators.contains s || s == "<" || s == ">"

def operator? (s : String) : Option Token :=
  if unaryOperators.contains s then some .unary
  else if isBinary s then some .binary
  else
    match s with
    | "!" => some .negation
    | "-a" => some .conjunction
    | "-o" => some .disjunction
    | "(" => some .openParen
    | ")" => some .closeParen
    | _ => none

/-- Whether an operator of one operand stands for itself here: it is the last word, or a comparison
follows it. -/
def isOperand (ws : Array String) (i : Nat) : Bool :=
  match ws[i + 1]? with
  | none => true
  | some s => (ws[i + 2]?).isSome && isBinary s

def lex (ws : Array String) (i : Nat) : Token :=
  match ws[i]? with
  | none => .finish
  | some s =>
    match operator? s with
    | some .unary => if isOperand ws i then .operand else .unary
    | some .openParen => if (ws[i + 1]?).isNone then .operand else .openParen
    | some t => t
    | none => .operand

abbrev Eval : Type → Type := EStateM String Nat

structure Context where
  words : Array String
  dialect : TestDialect

def lift {α : Type} : Except String α → Eval α
  | .ok a => return a
  | .error e => throw e

def word (c : Context) (i : Nat) : String := (c.words[i]?).getD ""

mutual

def disjunction (c : Context) : Nat → Token → Eval Bool
  | 0, _ => return false
  | n + 1, t => do
    let a ← conjunction c n t
    if lex c.words ((← get) + 1) == .disjunction then
      modify (· + 2)
      let b ← disjunction c n (lex c.words (← get))
      return a || b
    else return a

def conjunction (c : Context) : Nat → Token → Eval Bool
  | 0, _ => return false
  | n + 1, t => do
    let a ← negation c n t
    if lex c.words ((← get) + 1) == .conjunction then
      modify (· + 2)
      let b ← conjunction c n (lex c.words (← get))
      return a && b
    else return a

def negation (c : Context) : Nat → Token → Eval Bool
  | 0, _ => return false
  | n + 1, t => do
    if t == .negation then
      let next := lex c.words ((← get) + 1)
      if next != .finish then modify (· + 1)
      return !(← negation c n next)
    else primary c n t

def primary (c : Context) : Nat → Token → Eval Bool
  | 0, _ => return false
  | n + 1, t => do
    let i ← get
    match t with
    | .finish => return false
    | .openParen =>
      set (i + 1)
      let next := lex c.words (i + 1)
      if next == .closeParen then return false
      let a ← disjunction c n next
      modify (· + 1)
      unless lex c.words (← get) == .closeParen do throw "closing paren expected"
      return a
    | .unary =>
      set (i + 1)
      if (c.words[i + 1]?).isNone then throw (word c i ++ ": argument expected")
      lift (c.dialect.unary (word c i) (word c (i + 1)))
    | _ =>
      if lex c.words (i + 1) == .binary then
        set (i + 2)
        if (c.words[i + 2]?).isNone then throw (word c (i + 1) ++ ": argument expected")
        lift (c.dialect.binary (word c (i + 1)) (word c i) (word c (i + 2)))
      else return !(word c i).isEmpty

end

/-- Evaluate words from a token on, and see that all were used. -/
def whole (c : Context) (t : Token) : Except String Bool :=
  match (disjunction c (4 * c.words.size + 8) t).run 0 with
  | .error e _ => .error e
  | .ok b i =>
    if (c.words[i]?).isSome && (c.words[i + 1]?).isSome then
      .error ((if (word c i).isEmpty then "" else word c i ++ ": ") ++ "unexpected operator")
    else .ok b

def inner (d : TestDialect) (ws : List String) : Except String Bool :=
  whole ⟨ws.toArray, d⟩ (lex ws.toArray 0)

/-- Three and four words have readings of their own. -/
def evaluate (d : TestDialect) : List String → Except String Bool
  | [] => .ok false
  | [a, o, b] =>
    if isBinary o then whole ⟨#[a, o, b], d⟩ .operand
    else if a == "(" && b == ")" then inner d [o]
    else if a == "!" then (evaluate d [o, b]).map not
    else inner d [a, o, b]
  | [a, b, c, e] =>
    if a == "(" && e == ")" then inner d [b, c]
    else if a == "!" then (evaluate d [b, c, e]).map not
    else inner d [a, b, c, e]
  | ws => inner d ws

def number (s : String) : Except String Int :=
  let (negative, body) := signOf (s.toList.dropWhile isSpaceByte)
  let (n, rest, found) := readDigits 10 body
  let i := if negative then -(Int.ofNat n) else Int.ofNat n
  if found && (rest.dropWhile isSpaceByte).isEmpty && clamped i == i then .ok i
  else .error ("Illegal number: " ++ s)

end ShellTest

/-- The shell's own test: whether its words hold, or what is wrong with them. -/
def shellTest (disk : Disk) (bracket : Bool) (words : List String) : Except String Bool :=
  let d : TestDialect := { number := ShellTest.number, disk }
  if bracket then
    if words.getLast? == some "]" then ShellTest.evaluate d words.dropLast
    else .error "missing ]"
  else ShellTest.evaluate d words

/-! ## The program -/

namespace ProgramTest

abbrev Eval : Type → Type := EStateM String (List String)

structure Context where
  /-- The last of all words. -/
  last : String
  dialect : TestDialect

def isBinary (s : String) : Bool := s == "==" || binaryOperators.contains s

def beyond {α : Type} (c : Context) : Eval α := throw ("missing argument after " ++ quote c.last)

def lift {α : Type} : Except String α → Eval α
  | .ok a => return a
  | .error e => throw e

def isDashed (s : String) : Bool :=
  match s.toList with
  | ['-', _] => true
  | _ => false

def advance (k : Nat) : Eval Unit := modify (·.drop k)

def unary (c : Context) : Eval Bool := do
  match ← get with
  | o :: rest =>
    if unaryOperators.contains o || o == "-N" then
      match rest with
      | a :: rest =>
        set rest
        lift (c.dialect.unary o a)
      | [] => beyond c
    else throw (quote o ++ ": unary operator expected")
  | [] => beyond c

def binary (c : Context) : Eval Bool := do
  match ← get with
  | a :: o :: b :: rest =>
    set rest
    lift (c.dialect.binary o a b)
  | _ => beyond c

def one : Eval Bool := do
  match ← get with
  | a :: rest =>
    set rest
    return !a.isEmpty
  | [] => return false

def two (c : Context) : Eval Bool := do
  match ← get with
  | a :: _ =>
    if a == "!" then
      advance 1
      return !(← one)
    else if isDashed a then unary c
    else beyond c
  | [] => beyond c

mutual

def disjunction (c : Context) : Nat → Eval Bool
  | 0 => beyond c
  | n + 1 => do
    let a ← conjunction c n
    match ← get with
    | "-o" :: rest =>
      set rest
      let b ← disjunction c n
      return a || b
    | _ => return a

def conjunction (c : Context) : Nat → Eval Bool
  | 0 => beyond c
  | n + 1 => do
    let a ← term c n
    match ← get with
    | "-a" :: rest =>
      set rest
      let b ← conjunction c n
      return a && b
    | _ => return a

def term (c : Context) : Nat → Eval Bool
  | 0 => beyond c
  | n + 1 => do
    match ← get with
    | [] => beyond c
    | "!" :: rest =>
      set rest
      if rest.isEmpty then beyond c
      return !(← term c n)
    | "(" :: rest =>
      set rest
      if rest.isEmpty then beyond c
      let inside := 1 + ((rest.drop 1).takeWhile (· != ")")).length
      let a ← counted c n (if inside > 4 then rest.length else inside)
      match ← get with
      | ")" :: rest =>
        set rest
        return a
      | [] => throw (quote ")" ++ " expected")
      | w :: _ => throw (quote ")" ++ " expected, found " ++ quote w)
    | a :: rest =>
      if (rest.drop 1).length ≥ 1 && isBinary (rest.headD "") then binary c
      else if isDashed a then unary c
      else one

/-- So many words have readings of their own. -/
def counted (c : Context) : Nat → Nat → Eval Bool
  | 0, _ => beyond c
  | n + 1, count => do
    let ws ← get
    match count, ws with
    | 1, _ => one
    | 2, _ => two c
    | 3, _ => three c n
    | 4, "!" :: _ =>
      advance 1
      return !(← three c n)
    | 4, "(" :: _ :: _ :: ")" :: _ =>
      advance 1
      let a ← two c
      advance 1
      return a
    | _, _ => disjunction c n

def three (c : Context) : Nat → Eval Bool
  | 0 => beyond c
  | n + 1 => do
    match ← get with
    | a :: o :: b :: _ =>
      if isBinary o then binary c
      else if a == "!" then
        advance 1
        return !(← two c)
      else if a == "(" && b == ")" then
        advance 1
        let r ← one
        advance 1
        return r
      else if o == "-a" || o == "-o" then disjunction c n
      else throw (quote o ++ ": binary operator expected")
    | _ => beyond c

end

def evaluate (d : TestDialect) (ws : List String) : Except String Bool :=
  if ws.isEmpty then .ok false
  else
    match (counted ⟨ws.getLastD "", d⟩ (6 * ws.length + 12) ws.length).run ws with
    | .error e _ => .error e
    | .ok b [] => .ok b
    | .ok _ (w :: _) => .error ("extra argument " ++ quote w)

/-- Numbers may have any size, and blanks around them. -/
def number (s : String) : Except String Int :=
  let (negative, body) := signOf (s.toList.dropWhile isSpaceByte)
  let (n, rest, found) := readDigits 10 body
  if found && (rest.dropWhile isBlankByte).isEmpty then
    .ok (if negative then -(Int.ofNat n) else Int.ofNat n)
  else .error ("invalid integer " ++ quote s)

end ProgramTest

def test : Program := do
  let w ← get
  let d : TestDialect := { number := ProgramTest.number, disk := w.disk }
  let ws ← if w.name.endsWith "[" then
      if w.arguments.getLast? == some "]" then pure w.arguments.dropLast
      else failWith 2 ("missing " ++ quote "]")
    else pure w.arguments
  match ProgramTest.evaluate d ws with
  | .ok b => setStatus (if b then 0 else 1)
  | .error e => failWith 2 e

end Program
end Shell
end Unweave

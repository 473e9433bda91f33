import Unweave.Shell.Octets
import Unweave.Shell.Syntax

/-!
# Reading scripts: the place in the text

A script is read command by command.  The reader keeps the text that is left, the number of the line
it is in, a token it has looked at and put back, and the documents whose text starts at the next
line.
-/

namespace Unweave
namespace Shell
namespace Reader

structure SyntaxError where
  line : Nat
  message : String

/-- What an arrow does. -/
inductive Arrow where
  | file (access : Access)
  /-- Copy a channel, by default this one. -/
  | copy (channel : Nat)
  | document (stripped : Bool)
deriving DecidableEq

inductive Token where
  | finish
  | newline
  | semicolon
  | ampersand
  | andIf
  | orIf
  | bar
  | openParen
  | closeParen
  | caseEnd
  | arrow (channel : Option Nat) (kind : Arrow)
  | word (parts : Word)
  | keyword (name : String)

namespace Token

/-- How a token is called in a message. -/
def name : Token → String
  | finish => "end of file"
  | newline => "newline"
  | semicolon => "\";\""
  | ampersand => "\"&\""
  | andIf => "\"&&\""
  | orIf => "\"||\""
  | bar => "\"|\""
  | openParen => "\"(\""
  | closeParen => "\")\""
  | caseEnd => "\";;\""
  | arrow .. => "redirection"
  | word _ => "word"
  | keyword k => "\"" ++ k ++ "\""

def isKeyword (t : Token) (k : String) : Bool :=
  match t with
  | keyword name => name == k
  | _ => false

/-- Whether a list of commands may end before a token. -/
def endsList : Token → Bool
  | finish => true
  | closeParen => true
  | caseEnd => true
  | keyword k => ["do", "done", "elif", "else", "esac", "fi", "then", "\x7d"].contains k
  | _ => false

end Token

def keywords : List String :=
  ["!", "case", "do", "done", "elif", "else", "esac", "fi", "for", "if", "in", "then", "until",
    "while", "\x7b", "\x7d"]

/-- A document whose text is still to come. -/
structure Pending where
  index : Nat
  /-- The line that ends it. -/
  mark : String
  /-- Whether its text stands for itself. -/
  verbatim : Bool
  /-- Whether tabs at the start of lines are dropped. -/
  stripped : Bool

structure Cursor where
  rest : List Char
  line : Nat := 1
  pushed : Option Token := none
  pending : List Pending := []
  /-- The documents read so far by their numbers. -/
  documents : List (Nat × Word) := []
  /-- The number of the next document. -/
  fresh : Nat := 0
  /-- Other texts for command names. -/
  aliases : List (String × String) := []
  /-- Aliases whose text is being read, with the length of what follows it. -/
  expanding : List (String × Nat) := []

abbrev Parse (α : Type) : Type := EStateM SyntaxError Cursor α

def failWith {α : Type} (message : String) : Parse α := do
  throw { line := (← get).line, message }

/-- Fail at a token, possibly telling what was expected. -/
def unexpected {α : Type} (t : Token) (expected : Option Token := none) : Parse α :=
  failWith (t.name ++ " unexpected" ++
    match expected with
    | none => ""
    | some e => " (expecting " ++ e.name ++ ")")

/-! ## Characters -/

/-- Forget line ends after a backslash. -/
def joinLines : List Char → Nat → List Char × Nat
  | '\\' :: '\n' :: cs, line => joinLines cs (line + 1)
  | cs, line => (cs, line)

/-- The next character, which stays. -/
def peek : Parse (Option Char) := do
  let c ← get
  let (rest, line) := joinLines c.rest c.line
  set { c with rest, line }
  return rest.head?

def advance : Parse Unit :=
  modify fun c =>
    match c.rest with
    | [] => c
    | x :: rest => { c with rest, line := if x == '\n' then c.line + 1 else c.line }

def next : Parse (Option Char) := do
  let x ← peek
  advance
  return x

/-- The next character where a backslash joins no lines. -/
def nextRaw : Parse (Option Char) := do
  let x := (← get).rest.head?
  advance
  return x

/-- As many steps as a loop over the rest may take. -/
def stepsLeft : Parse Nat := do
  return (← get).rest.length + 2

/-- Characters of a kind. -/
def run (p : Char → Bool) : Nat → List Char → Parse String
  | 0, cs => return String.ofList cs.reverse
  | n + 1, cs => do
    match ← peek with
    | some c =>
      if p c then do
        advance
        run p n (c :: cs)
      else return String.ofList cs.reverse
    | none => return String.ofList cs.reverse

def runOf (p : Char → Bool) : Parse String := do
  run p (← stepsLeft) []

/-- The text up to a character, without it. -/
def upTo (stop : Char) : Nat → List Char → Parse String
  | 0, _ => failWith "Unterminated quoted string"
  | n + 1, cs => do
    match ← nextRaw with
    | none => failWith "Unterminated quoted string"
    | some c => if c == stop then return String.ofList cs.reverse else upTo stop n (c :: cs)

def pushBack (t : Token) : Parse Unit := modify fun c => { c with pushed := some t }

/-! ## Parts of a word, held in reverse -/

def addChar (c : Char) (quoted : Bool) : List Part → List Part
  | .literal s q :: parts =>
    if q == quoted then .literal (s.push c) q :: parts
    else .literal (String.singleton c) quoted :: .literal s q :: parts
  | parts => .literal (String.singleton c) quoted :: parts

/-- Add a quoted text, which makes a field even if it is empty. -/
def addQuoted (s : String) (parts : List Part) : List Part :=
  match parts with
  | .literal t true :: parts => .literal (t ++ s) true :: parts
  | parts => .literal s true :: parts

end Reader
end Shell
end Unweave

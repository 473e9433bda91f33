import Unweave.Shell.Regex

/-!
# Programs of patterns and actions

A program is a list of rules: where its pattern holds, its action is carried out for a record.
-/

namespace Unweave
namespace Shell
namespace Awk

inductive Operator where
  | add
  | subtract
  | multiply
  | divide
  | remainder
  | power
deriving DecidableEq

inductive Comparison where
  | less
  | lessEqual
  | equal
  | notEqual
  | greater
  | greaterEqual
deriving DecidableEq

/-- Where a line is read from. -/
inductive Origin where
  | records
  | file
  | command
deriving DecidableEq

inductive Expression where
  | number (x : Float)
  | text (s : String)
  /-- An expression to search for; alone it is looked for in the record. -/
  | regex (m : Matcher)
  | variable (name : String)
  | element (name : String) (index : List Expression)
  | field (e : Expression)
  /-- An expression in parentheses. -/
  | group (e : Expression)
  /-- Several of them, as an index. -/
  | tuple (es : List Expression)
  | assign (target : Expression) (operator : Option Operator) (value : Expression)
  | conditional (c a b : Expression)
  | or (a b : Expression)
  | and (a b : Expression)
  | not (e : Expression)
  | isIn (index : List Expression) (array : String)
  | holds (negated : Bool) (e regex : Expression)
  | compare (c : Comparison) (a b : Expression)
  | join (a b : Expression)
  | binary (o : Operator) (a b : Expression)
  | negate (e : Expression)
  | plus (e : Expression)
  | step (before : Bool) (delta : Float) (target : Expression)
  | call (name : String) (arguments : List Expression)
  | builtin (name : String) (arguments : List Expression)
  | getline (origin : Origin) (source : Option Expression) (target : Option Expression)

/-- Where output goes. -/
inductive Outlet where
  | file
  | append
  | command
deriving DecidableEq

inductive Statement where
  | expression (e : Expression)
  | print (es : List Expression) (outlet : Option (Outlet × Expression))
  | printf (es : List Expression) (outlet : Option (Outlet × Expression))
  | block (ss : List Statement)
  | branch (c : Expression) (yes : Statement) (no : Option Statement)
  | loop (c : Expression) (body : Statement)
  | doLoop (body : Statement) (c : Expression)
  | forLoop (first : Option Statement) (c : Option Expression) (step : Option Statement)
      (body : Statement)
  | forIn (name array : String) (body : Statement)
  | next
  | nextFile
  | exit (status : Option Expression)
  | returns (value : Option Expression)
  | break_
  | continue_
  | delete (array : String) (index : Option (List Expression))

inductive Trigger where
  | begin
  | finish
  | always
  | when (e : Expression)
  | between (first last : Expression)

structure Rule where
  trigger : Trigger
  /-- Without an action the record is printed. -/
  action : Option Statement

structure Function where
  name : String
  parameters : List String
  body : Statement

structure Source where
  rules : Array Rule := #[]
  functions : List Function := []

def builtins : List String :=
  ["length", "substr", "index", "split", "sub", "gsub", "match", "sprintf", "sin", "cos", "atan2",
    "exp", "log", "sqrt", "int", "rand", "srand", "tolower", "toupper", "system", "close", "fflush",
    "systime"]

def keywords : List String :=
  ["BEGIN", "END", "function", "func", "if", "else", "while", "for", "do", "break", "continue", "next",
    "nextfile", "exit", "return", "delete", "in", "getline", "print", "printf"]

end Awk
end Shell
end Unweave

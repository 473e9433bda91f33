import Unweave.Shell.Redirect

/-!
# Commands of the shell itself

Some commands run inside the shell because they look at or change it.  Each gets its arguments and
gives a status; an error that it tells ends the shell if the command is a special one.
-/

namespace Unweave
namespace Shell

abbrev Builtin : Type := Runner → List String → Act Nat

namespace Builtin

open Act

/-- Builtins whose errors end the shell and whose assignments stay. -/
def specialNames : List String := Reader.reservedNames

def otherNames : List String :=
  ["[", "alias", "bg", "cd", "command", "echo", "false", "fg", "getopts", "hash", "jobs", "kill",
    "local", "printf", "pwd", "read", "test", "true", "type", "ulimit", "umask", "unalias", "wait"]

def isSpecial (name : String) : Bool := specialNames.contains name

def isBuiltin (name : String) : Bool := isSpecial name || otherNames.contains name

/-- A number of digits alone. -/
def number (s : String) : Act Nat := do
  match natural? s with
  | some n => return n
  | none => fail ("Illegal number: " ++ s)

/-- The letters of options at the start of arguments, and the other arguments. -/
def options (known : String) : List String → Act (List Char × List String)
  | [] => return ([], [])
  | a :: as => do
    match a.toList with
    | ['-', '-'] => return ([], as)
    | '-' :: c :: cs =>
      for x in c :: cs do
        unless known.toList.contains x do fail ("Illegal option -" ++ String.singleton x)
      let (more, rest) ← options known as
      return (c :: cs ++ more, rest)
    | _ => return ([], a :: as)

/-- A text in quotes, so that it reads back as one word. -/
def quoted (s : String) : String :=
  "\x27" ++ "\x27\"\x27\"\x27".intercalate (s.splitOn "\x27") ++ "\x27"

/-- The text before the first equals sign and, if there is one, the text after it. -/
def halves (s : String) : String × Option String :=
  let name := s.toList.takeWhile (· != '=')
  match s.toList.drop name.length with
  | [] => (s, none)
  | _ :: value => (String.ofList name, some (String.ofList value))

/-! ## Printing -/

/-- Run a program inside the shell. -/
def inside (p : Program) (name : String) (as : List String) : Act Nat := do
  let m ← get
  let start : Starter := fun _ _ _ input disk => { disk, left := input }
  let r := Program.reply p { name, arguments := as, disk := m.disk, start, limit := m.limit }
  for (channel, s) in r.printed do
    match channel with
    | .err => let _ ← write 2 s
    | .out =>
      let open_ ← write 1 s
      unless open_ do
        complain ((m.process.command.getD "") ++ ": I/O error")
        return 1
  return r.status

def echo : Builtin := fun _ as => inside Program.shellEcho "echo" as

def printf : Builtin := fun _ as => do
  let (_, as) ← options "" as
  match as with
  | [] => fail "usage: printf format [arg ...]"
  | format :: as =>
    let p := Program.Printing.passes Program.shellDialect format.toList (as.length + 1)
      { arguments := as }
    p.complaints.reverse.forM complain
    unless p.out.isEmpty do
      let open_ ← write 1 { text := p.out.reverse }
      unless open_ do
        complain "printf: I/O error"
        return 1
    match p.fault with
    | some message => fail message
    | none => return if p.complaints.isEmpty then 0 else 1

def test (bracket : Bool) : Builtin := fun _ as => do
  match Program.shellTest (← disk) bracket as with
  | .ok b => return if b then 0 else 1
  | .error message => fail message

def succeed : Builtin := fun _ _ => return 0

def failure : Builtin := fun _ _ => return 1

end Builtin
end Shell
end Unweave

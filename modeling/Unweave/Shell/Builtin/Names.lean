import Unweave.Shell.Builtin.Basic

/-!
# Builtins for places and names
-/

namespace Unweave
namespace Shell
namespace Builtin

open Act

/-! ## The current directory -/

def pathOfHere (d : Disk) : String := octets (Disk.pathOf d.here)

/-- Go to a directory; tells whether that could be done. -/
def goTo (path : String) : Act Bool := do
  let d ← disk
  match d.find (if path.isEmpty then "." else readable path) with
  | .ok (l, .directory) =>
    let old := pathOfHere d
    setDisk { d with here := l }
    assign "OLDPWD" old
    assign "PWD" (octets (Disk.pathOf l))
    return true
  | _ => return false

/-- The first directory of a list in which a path leads to a directory. -/
def searched? (d : Disk) (path : String) : List String → Option String
  | [] => none
  | directory :: rest =>
    let whole := if directory.isEmpty then path else directory ++ "/" ++ path
    if d.isDirectory (readable whole) then some whole else searched? d path rest

def cd : Builtin := fun _ as => do
  let (_, as) ← match as with
    | "-" :: rest => pure ([], "-" :: rest)
    | as => options "LP" as
  let path ← match as with
    | [] => pure ((← valueOf? "HOME").getD "")
    | "-" :: _ =>
      match ← valueOf? "OLDPWD" with
      | some old => pure old
      | none => fail "OLDPWD not set"
    | path :: _ => pure path
  let shown := as.head? == some "-"
  let relative := !(path.startsWith "/" || path.startsWith "./" || path.startsWith "../" ||
    path == "." || path == "..")
  let directories := (← valueOf? "CDPATH").getD ""
  let d ← disk
  let searched := if relative && !directories.isEmpty && !shown then
      searched? d path (directories.splitOn ":")
    else none
  let target := searched.getD path
  unless ← goTo target do fail ("can\x27t cd to " ++ path)
  if shown || (searched.isSome && target != path) then say (pathOfHere (← disk) ++ "\n")
  return 0

def pwd : Builtin := fun _ as => do
  let _ ← options "LP" as
  say (pathOfHere (← disk) ++ "\n")
  return 0

/-! ## Permissions and limits -/

/-- The permissions that a mask leaves, by who has them. -/
def maskText (mask : Nat) : String :=
  let rights := fun (n : Nat) =>
    (if n &&& 4 = 0 then "r" else "") ++ (if n &&& 2 = 0 then "w" else "") ++
      (if n &&& 1 = 0 then "x" else "")
  "u=" ++ rights (mask / 64 % 8) ++ ",g=" ++ rights (mask / 8 % 8) ++ ",o=" ++ rights (mask % 8)

def umask : Builtin := fun _ as => do
  let (letters, as) ← options "S" as
  let mask := (← process).mask
  match as with
  | [] =>
    say ((if letters.contains 'S' then maskText mask else padLeft 4 '0' (digitsIn 8 mask)) ++ "\n")
    return 0
  | a :: _ =>
    if (a.toList.head?.map Char.isDigit).getD false then
      unless a.toList.all isOctal do fail ("Illegal number: " ++ a)
      modifyProcess fun p => { p with mask := digitsValue 8 a.toList % 512 }
    else
      match Program.modeChange a with
      | some change => modifyProcess fun p => { p with mask := 511 - change false (511 - mask) % 512 }
      | none => fail ("Illegal mode: " ++ a)
    return 0

def ulimit : Builtin := fun _ as => do
  let (letters, as) ← options "HSatfdscmlpnvwr" as
  if as.isEmpty then
    say ((if letters.contains 'c' then "0" else if letters.contains 'n' then "1024" else "unlimited") ++
      "\n")
  return 0

def times : Builtin := fun _ _ => do
  say "0m0.000000s 0m0.000000s\n0m0.000000s 0m0.000000s\n"
  return 0

/-! ## Aliases -/

def aliasText (name value : String) : String := name ++ "=" ++ quoted value ++ "\n"

def setAliases : Builtin := fun _ as => do
  if as.isEmpty then
    for (name, value) in (← process).aliases do say (aliasText name value)
    return 0
  else
    let mut status := 0
    for a in as do
      match halves a with
      | (name, some value) =>
        modifyProcess fun p =>
          { p with aliases := (name, value) :: p.aliases.filter (·.1 != name) }
      | (name, none) =>
        match (← process).aliases.lookup name with
        | some value => say (aliasText name value)
        | none =>
          putError ("alias: " ++ name ++ " not found\n")
          status := 1
    return status

def dropAliases : Builtin := fun _ as => do
  let (letters, as) ← options "a" as
  if letters.contains 'a' then
    modifyProcess fun p => { p with aliases := [] }
    return 0
  else
    let mut status := 0
    for name in as do
      if (← process).aliases.any (·.1 == name) then
        modifyProcess fun p => { p with aliases := p.aliases.filter (·.1 != name) }
      else
        putError ("unalias: " ++ name ++ " not found\n")
        status := 1
    return status

/-! ## What names mean -/

/-- What a command name means. -/
inductive Meaning where
  | keyword
  | otherName (value : String)
  | special
  | function
  | builtin
  | file (path : String)

def searchPath : Act String := do
  return (← valueOf? "PATH").getD Program.usualPath

def meaning? (name : String) : Act (Option Meaning) := do
  let p ← process
  if Reader.keywords.contains name then return some .keyword
  match p.aliases.lookup name with
  | some value => return some (.otherName value)
  | none => pure ()
  if isSpecial name then return some .special
  if p.functions.any (·.1 == name) then return some .function
  if isBuiltin name then return some .builtin
  let d ← disk
  if name.toList.contains '/' then
    return if Program.isProgramFile d (readable name) then some (.file name) else none
  return (Program.locate? d (← searchPath) name).map .file

/-- Tell what a name means in words. -/
def describe (name : String) : Act Nat := do
  match ← meaning? name with
  | none =>
    say (name ++ ": not found\n")
    return 127
  | some m =>
    say (name ++ (match m with
      | .keyword => " is a shell keyword"
      | .otherName value => " is an alias for " ++ value
      | .special => " is a special shell builtin"
      | .function => " is a shell function"
      | .builtin => " is a shell builtin"
      | .file path => " is " ++ path) ++ "\n")
    return 0

/-- Tell what a name means so that it can be read back. -/
def tell (name : String) : Act Nat := do
  match ← meaning? name with
  | none => return 127
  | some m =>
    say (match m with
      | .otherName value => "alias " ++ aliasText name value
      | .file path => path ++ "\n"
      | _ => name ++ "\n")
    return 0

def kind : Builtin := fun _ as => do
  let mut status := 0
  for name in as do
    let s ← describe name
    if s != 0 then status := s
  return status

def hash : Builtin := fun _ as => do
  let (_, as) ← options "rv" as
  let mut status := 0
  for name in as do
    if (← meaning? name).isNone then
      complain (name ++ ": not found")
      status := 1
  return status

end Builtin
end Shell
end Unweave

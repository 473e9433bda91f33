import Unweave.Disk.Basic
import Unweave.Shell.Number
import Unweave.Shell.Stream

/-!
# Programs

A program is started with a name, arguments, variables, an input and a disk.  While it works it
prints, may change the disk and lets time pass, and it ends with a status.  It may start other
programs in turn; how they are run is handed to it.
-/

namespace Unweave
namespace Shell

inductive Channel where
  | out
  | err
deriving DecidableEq

/-- How a program ends other than by coming to its end. -/
inductive Stop where
  | ended
  /-- It never ends, or not in time. -/
  | stuck
  | killed (signal : Nat)
deriving DecidableEq

/-- What a program that was started did. -/
structure Reply where
  printed : List (Channel × Stream) := []
  status : Nat := 0
  stop : Stop := .ended
  disk : Disk
  /-- Milliseconds that passed. -/
  time : Nat := 0
  /-- What it left of its input. -/
  left : Stream := {}
  /-- Why it was not started at all. -/
  refused : Option DiskError := none

/-- How a program is started: the milliseconds it may take, its words, its variables, its input and
the disk. -/
abbrev Starter : Type := Nat → List String → List (String × String) → Stream → Disk → Reply

/-- A program at work. -/
structure Work where
  name : String
  arguments : List String
  environment : List (String × String) := []
  input : Stream := {}
  /-- Whether what is not used of the input can be given back. -/
  seekable : Bool := false
  /-- Why the input cannot be read. -/
  unreadable : Option DiskError := none
  disk : Disk
  start : Starter
  /-- What was printed, the last first. -/
  printed : List (Channel × Stream) := []
  status : Nat := 0
  time : Nat := 0
  /-- Milliseconds it may take. -/
  limit : Nat

abbrev Job : Type → Type := EStateM Stop Work

abbrev Program : Type := Job Unit

namespace Program

/-! ## Printing -/

def print (s : Stream) : Job Unit :=
  modify fun w => { w with printed := (.out, s) :: w.printed }

def put (cs : List Char) : Job Unit := unless cs.isEmpty do print { text := cs }

def putText (s : String) : Job Unit := put s.toList

def putLine (s : String) : Job Unit := putText (s ++ "\n")

def putError (s : String) : Job Unit :=
  modify fun w => { w with printed := (.err, .ofText s) :: w.printed }

def setStatus (n : Nat) : Job Unit := modify fun w => { w with status := n }

def quit {α : Type} (status : Nat) : Job α := do
  setStatus status
  throw .ended

/-- Let time pass, but not beyond the limit. -/
def pass (time : Nat) : Job Unit := do
  let w ← get
  if w.time + time > w.limit then
    set { w with time := w.limit }
    throw .stuck
  else set { w with time := w.time + time }

/-- Print a message behind the program's name. -/
def complain (message : String) : Job Unit := do
  putError ((← get).name ++ ": " ++ message ++ "\n")

/-- Print a message and end. -/
def failWith {α : Type} (status : Nat) (message : String) : Job α := do
  complain message
  quit status

def hint : Job Unit := do
  putError ("Try \x27" ++ (← get).name ++ " --help\x27 for more information.\n")

/-- Print a message about how the program was called, and end. -/
def failUsage {α : Type} (status : Nat) (message : String) : Job α := do
  complain message
  hint
  quit status

/-- A byte that cannot be shown as it is, by an escape. -/
def escapedByte (c : Char) : String :=
  match c with
  | '\x07' => "\\a"
  | '\x08' => "\\b"
  | '\t' => "\\t"
  | '\n' => "\\n"
  | '\x0b' => "\\v"
  | '\x0c' => "\\f"
  | '\r' => "\\r"
  | c => "\\" ++ padLeft 3 '0' (digitsIn 8 c.toNat)

/-- Whether a byte is shown as it is. -/
def isShown (c : Char) : Bool := ' ' ≤ c && c ≤ '~'

/-- A text in quotes, with escapes for what would not be clear in them. -/
def quote (s : String) : String :=
  "\x27" ++ String.join (s.toList.map fun c =>
    if c == '\\' || c == '\x27' then String.ofList ['\\', c]
    else if isShown c then String.singleton c
    else escapedByte c) ++ "\x27"

/-! ## Options -/

/-- Whether an option takes a value. -/
inductive Takes where
  | nothing
  | value
  | maybe
deriving DecidableEq

structure LongOption where
  name : String
  takes : Takes
  short : Char

/-- What the letters of a short form say: a colon after a letter means that it takes a value. -/
def takesOf (shorts : List Char) (c : Char) : Option Takes :=
  if c == ':' then none
  else
    match shorts.dropWhile (· != c) with
    | [] => none
    | _ :: ':' :: ':' :: _ => some .maybe
    | _ :: ':' :: _ => some .value
    | _ => some .nothing

structure Grammar where
  shorts : String
  longs : List LongOption := []
  /-- Whether options may come after other arguments. -/
  mixed : Bool := true

structure Arguments where
  options : List (Char × String) := []
  operands : List String := []

namespace Arguments

def has (a : Arguments) (c : Char) : Bool := a.options.any (·.1 == c)

/-- The last value given for an option. -/
def value? (a : Arguments) (c : Char) : Option String := a.options.reverse.lookup c

def values (a : Arguments) (c : Char) : List String :=
  a.options.filterMap fun (k, v) => if k == c then some v else none

/-- The last of some options that was given. -/
def last? (a : Arguments) (cs : List Char) : Option Char :=
  (a.options.reverse.find? fun (k, _) => cs.contains k).map (·.1)

end Arguments

/-- The letters of one argument, up to one that takes the rest or the next argument. -/
def shortOptions (shorts : List Char) (next : List String) :
    List Char → Except String (List (Char × String) × List String)
  | [] => .ok ([], next)
  | c :: cs =>
    match takesOf shorts c with
    | none => .error ("invalid option -- \x27" ++ String.singleton c ++ "\x27")
    | some .nothing => do
      let (os, next) ← shortOptions shorts next cs
      return ((c, "") :: os, next)
    | some .maybe => .ok ([(c, String.ofList cs)], next)
    | some .value =>
      if cs.isEmpty then
        match next with
        | v :: next => .ok ([(c, v)], next)
        | [] => .error ("option requires an argument -- \x27" ++ String.singleton c ++ "\x27")
      else .ok ([(c, String.ofList cs)], next)

/-- The long option that a name or the start of one means. -/
def longOption? (longs : List LongOption) (name : String) : Except String LongOption :=
  match longs.find? (·.name == name) with
  | some o => .ok o
  | none =>
    match longs.filter (·.name.startsWith name) with
    | [o] => .ok o
    | [] => .error ("unrecognized option \x27--" ++ name ++ "\x27")
    | o :: os =>
      if os.all (·.short == o.short) then .ok o
      else
        .error ("option \x27--" ++ name ++ "\x27 is ambiguous; possibilities:" ++
          String.join ((o :: os).map fun o => " \x27--" ++ o.name ++ "\x27"))

def longOptions (longs : List LongOption) (text : List Char) (next : List String) :
    Except String ((Char × String) × List String) := do
  let name := String.ofList (text.takeWhile (· != '='))
  let value := text.dropWhile (· != '=')
  let o ← longOption? longs name
  match o.takes, value with
  | .nothing, [] => return ((o.short, ""), next)
  | .nothing, _ => .error ("option \x27--" ++ o.name ++ "\x27 doesn\x27t allow an argument")
  | .maybe, v => return ((o.short, String.ofList (v.drop 1)), next)
  | .value, _ :: v => return ((o.short, String.ofList v), next)
  | .value, [] =>
    match next with
    | v :: next => return ((o.short, v), next)
    | [] => .error ("option \x27--" ++ o.name ++ "\x27 requires an argument")

/-- Tell options from other arguments. -/
def parseArguments (g : Grammar) : Nat → List String → Except String Arguments
  | 0, _ => .ok {}
  | _ + 1, [] => .ok {}
  | n + 1, a :: rest =>
    match a.toList with
    | ['-', '-'] => .ok { operands := rest }
    | '-' :: '-' :: text => do
      let (o, next) ← longOptions g.longs text rest
      let more ← parseArguments g n next
      return { more with options := o :: more.options }
    | '-' :: c :: cs => do
      let (os, next) ← shortOptions g.shorts.toList rest (c :: cs)
      let more ← parseArguments g n next
      return { more with options := os ++ more.options }
    | _ =>
      if g.mixed then do
        let more ← parseArguments g n rest
        return { more with operands := a :: more.operands }
      else .ok { operands := a :: rest }

/-- The arguments of the program; a fault in them ends it with a status. -/
def arguments (g : Grammar) (fault : Nat := 1) : Job Arguments := do
  let as := (← get).arguments
  match parseArguments g (as.length + 1) as with
  | .ok a => return a
  | .error message => failUsage fault message

def long (name : String) (short : Char) (takes : Takes := .nothing) : LongOption :=
  { name, takes, short }

/-! ## Reading -/

/-- Take all of the input.  One that does not end is waited for without end. -/
def readInput : Job (List Char) := do
  let w ← get
  if w.input.isEndless then throw .stuck
  set { w with input := {} }
  return w.input.text

/-- Take the input as it is. -/
def takeInput : Job Stream := do
  let w ← get
  set { w with input := {} }
  return w.input

/-- Paths that name the input. -/
def namesInput (path : String) : Bool := path == "/dev/stdin" || path == "/dev/fd/0"

/-- The stream that a file holds. -/
def openFile (path : String) : Job (Except DiskError Stream) := do
  if namesInput path then return .ok (← takeInput)
  let disk := (← get).disk
  match disk.find (readable path) with
  | .error e => return .error e
  | .ok (_, .file content) => return .ok { text := octetsOf content }
  | .ok (_, .directory) => return .error .isDirectory
  | .ok (_, .device .null) => return .ok {}
  | .ok (_, .device .zero) => return .ok { forever := [Char.ofNat 0] }

/-- What an argument names; a dash is the input. -/
def openOperand (path : String) : Job (Except DiskError Stream) := do
  if path == "-" then
    match (← get).unreadable with
    | some e => return .error e
    | none => return .ok (← takeInput)
  else openFile path

/-- The text that an argument names.  One that does not end is waited for without end. -/
def readOperand (path : String) : Job (Except DiskError (List Char)) := do
  match ← openOperand path with
  | .error e => return .error e
  | .ok s => if s.isEndless then throw .stuck else return .ok s.text

/-- The texts that arguments name one after the other, or the input; what cannot be read is told
and gives a status.  After one without end nothing else comes. -/
def forOperands (operands : List String) (failure : Nat)
    (f : String → List Char → Job Unit)
    (told : String → DiskError → String := fun path e => path ++ ": " ++ e.reason) : Job Unit :=
  (if operands.isEmpty then ["-"] else operands).forM fun path => do
    match ← openOperand path with
    | .ok s => do
      f path s.seen
      if s.isEndless then throw .stuck
    | .error e => do
      complain (told path e)
      setStatus failure

/-- All texts that arguments name, joined. -/
def joinedOperands (operands : List String) (failure : Nat) : Job (List Char) := do
  let mut all : Array Char := #[]
  for path in (if operands.isEmpty then ["-"] else operands) do
    match ← readOperand path with
    | .ok text => all := text.foldl Array.push all
    | .error e =>
      complain (path ++ ": " ++ e.reason)
      setStatus failure
  return all.toList

/-! ## Disks -/

def disk : Job Disk := do
  return (← get).disk

def setDisk (d : Disk) : Job Unit := modify fun w => { w with disk := d }

/-- Change the disk, or tell why not. -/
def change (r : Except DiskError Disk) (told : DiskError → String) : Job Unit := do
  match r with
  | .ok d => setDisk d
  | .error e =>
    complain (told e)
    setStatus 1

/-! ## Other programs -/

/-- Run another program to its end, as part of this one: its status, or why it was not started. -/
def startOther (words : List String) (environment : List (String × String)) (input : Stream) :
    Job (Except DiskError Nat) := do
  let w ← get
  let r := w.start (w.limit - w.time) words environment input w.disk
  set { w with disk := r.disk, printed := r.printed.reverse ++ w.printed, time := w.time + r.time }
  match r.refused, r.stop with
  | some e, _ => return .error e
  | none, .stuck => throw .stuck
  | none, .killed n => return .ok (128 + n)
  | none, .ended => return .ok r.status

/-- The status of a program that cannot be started. -/
def refusedStatus (e : DiskError) : Nat := if e == .notFound then 127 else 126

/-- Run another program in place of this one. -/
def become (words : List String) (environment : List (String × String))
    (told : DiskError → String) : Job Unit := do
  let w ← get
  let r := w.start (w.limit - w.time) words environment w.input w.disk
  set { w with
    disk := r.disk, printed := r.printed.reverse ++ w.printed, time := w.time + r.time, input := r.left }
  match r.refused, r.stop with
  | some e, _ => failWith (refusedStatus e) (told e)
  | none, .ended => quit r.status
  | none, stop => throw stop

/-- Run another program to its end and take what it prints. -/
def captureOther (words : List String) (environment : List (String × String)) (input : Stream) :
    Job (Stream × Nat) := do
  let w ← get
  let r := w.start (w.limit - w.time) words environment input w.disk
  let told := r.printed.filter (·.1 == .err)
  let printed := (r.printed.filter (·.1 == .out)).foldl (fun (s : Stream) (_, t) => s.append t) {}
  set { w with disk := r.disk, printed := told.reverse ++ w.printed, time := w.time + r.time }
  match r.stop with
  | .stuck => return ({ printed with cut := true }, 0)
  | .killed n => return (printed, 128 + n)
  | .ended => return (printed, r.status)

/-- Run a program as a whole. -/
def reply (p : Program) (w : Work) : Reply :=
  match p.run w with
  | .ok _ w =>
    { printed := w.printed.reverse, status := w.status, disk := w.disk, time := w.time,
      left := w.input }
  | .error stop w =>
    { printed := w.printed.reverse, status := w.status, stop, disk := w.disk, time := w.time,
      left := w.input }

end Program
end Shell
end Unweave

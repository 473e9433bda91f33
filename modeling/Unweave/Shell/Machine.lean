import Unweave.Shell.Program.Table
import Unweave.Shell.Reader.Command

/-!
# The machine that runs scripts

Commands run against a disk, a clock and open handles.  A process has variables, functions, parameters
and channels of its own; a channel is a number that leads to a handle, and processes may share handles.
How long a command may run is known beforehand: when the clock passes the limit, or when the steps
granted are used up, it counts as one that does not end.
-/

namespace Unweave
namespace Shell

/-- What a channel may lead to. -/
inductive Handle where
  | null
  | zero
  /-- What the outermost command prints. -/
  | log (channel : Channel)
  /-- A buffer: what can be read, and what was written since, the last first. -/
  | pipe (ready : Stream) (written : List Stream)
  /-- An open file and the place in it. -/
  | file (place : Location) (offset : Nat) (appends : Bool)
  | directory

structure Variable where
  value : Option String := none
  exported : Bool := false
  /-- Whether it keeps its value for good. -/
  fixed : Bool := false

/-- What a process has for itself. -/
structure Process where
  pid : Nat
  /-- The number of the shell that this process belongs to. -/
  shell : Nat
  parent : Nat
  /-- The name that messages start with. -/
  name : String
  /-- The builtin at work, or the file that is read. -/
  command : Option String := none
  line : Nat := 1
  parameters : List String := []
  bindings : List (String × Variable) := []
  functions : List (String × Command) := []
  aliases : List (String × String) := []
  /-- The options that are set, by their letters. -/
  flags : List Char := []
  status : Nat := 0
  /-- Channels and the handles they lead to. -/
  channels : List (Nat × Nat) := []
  /-- Actions for signals; zero is the end of the process. -/
  traps : List (Nat × String) := []
  /-- What variables were before a function or command got its own. -/
  frames : List (List (String × Option Variable)) := []
  /-- How many functions are being called. -/
  depth : Nat := 0
  /-- How many loops are going on. -/
  loops : Nat := 0
  /-- Commands in the background: numbers of jobs and processes. -/
  jobs : List (Nat × Nat) := []
  background : Option Nat := none
  mask : Nat := 18
  /-- The status of the last output taken while words became fields. -/
  taken : Option Nat := none
  /-- How far options are read within one argument. -/
  optionOffset : Nat := 0

/-- How a process came to its end. -/
inductive Ending where
  | status (n : Nat)
  | signal (n : Nat)
deriving DecidableEq

/-- The status that is seen of an ending. -/
def Ending.code : Ending → Nat
  | status n => n
  | signal n => 128 + n

/-- A command in the background that nobody looked at yet. -/
structure Pending where
  pid : Nat
  body : Command
  process : Process
  here : Location
  /-- When it was started. -/
  since : Nat

structure Machine where
  process : Process
  disk : Disk
  /-- Milliseconds that passed. -/
  clock : Nat := 0
  limit : Nat
  /-- Steps that are left. -/
  steps : Nat
  handles : Array Handle
  /-- What the outermost command printed, the last first. -/
  log : List (Channel × Stream) := []
  /-- Texts that stand in scripts, by their numbers. -/
  documents : List (Nat × Word) := []
  /-- The number of the next document. -/
  fresh : Nat := 0
  /-- The number of the last process. -/
  pids : Nat
  waiting : List Pending := []
  /-- Background processes that came to their end. -/
  ended : List (Nat × Ending) := []
  /-- Signals that processes were sent and did not notice yet. -/
  signals : List (Nat × Nat) := []

/-- What ends a command before its end. -/
inductive Interrupt where
  /-- The process ends with the status it has. -/
  | exit
  /-- An error that was told ends the process, unless something takes it. -/
  | fault
  /-- Loops are left, the last of which may be taken up again. -/
  | leave (levels : Nat) (again : Bool)
  /-- A function or a file ends. -/
  | back
  | killed (signal : Nat)
  /-- It does not end in time. -/
  | stuck

abbrev Act : Type → Type := EStateM Interrupt Machine

namespace Act

/-! ## The process -/

def process : Act Process := do
  return (← get).process

def modifyProcess (f : Process → Process) : Act Unit :=
  modify fun m => { m with process := f m.process }

def setStatus (n : Nat) : Act Unit := modifyProcess fun p => { p with status := n }

def status : Act Nat := do
  return (← get).process.status

def disk : Act Disk := do
  return (← get).disk

def setDisk (d : Disk) : Act Unit := modify fun m => { m with disk := d }

def hasFlag (c : Char) : Act Bool := do
  return (← process).flags.contains c

/-- Take a step; one that is not left is not taken. -/
def tick : Act Unit := do
  match (← get).steps with
  | 0 => throw .stuck
  | n + 1 => modify fun m => { m with steps := n }

/-- Let time pass, but not beyond the limit. -/
def pass (time : Nat) : Act Unit := do
  let m ← get
  if m.clock + time > m.limit then
    set { m with clock := m.limit }
    throw .stuck
  else set { m with clock := m.clock + time }

/-! ## Variables -/

def lookupVariable (name : String) : Act (Option Variable) := do
  return (← process).bindings.lookup name

def Variables.put (vs : List (String × Variable)) (name : String) (v : Variable) :
    List (String × Variable) :=
  if vs.any (·.1 == name) then vs.map fun (n, x) => if n == name then (n, v) else (n, x)
  else vs ++ [(name, v)]

def putVariable (name : String) (v : Variable) : Act Unit :=
  modifyProcess fun p => { p with bindings := Variables.put p.bindings name v }

def removeVariable (name : String) : Act Unit :=
  modifyProcess fun p => { p with bindings := p.bindings.filter (·.1 != name) }

/-- The value of a variable that has one. -/
def valueOf? (name : String) : Act (Option String) := do
  return (← lookupVariable name).bind (·.value)

/-- What stands between fields. -/
def separators : Act (List Char) := do
  return ((← valueOf? "IFS").getD " \t\n").toList

/-- The variables that programs are given. -/
def environment : Act (List (String × String)) := do
  return (← process).bindings.filterMap fun (n, v) =>
    if v.exported then v.value.map (n, ·) else none

/-! ## Handles -/

def handleOf? (channel : Nat) : Act (Option Nat) := do
  return (← process).channels.lookup channel

def handle? (index : Nat) : Act Handle := do
  return ((← get).handles[index]?).getD .null

def setHandle (index : Nat) (p : Handle) : Act Unit :=
  modify fun m => { m with handles := m.handles.setIfInBounds index p }

/-- Open a handle. -/
def newHandle (p : Handle) : Act Nat := do
  let m ← get
  set { m with handles := m.handles.push p }
  return m.handles.size

/-- Let a channel lead to a handle. -/
def connect (channel index : Nat) : Act Unit :=
  modifyProcess fun p =>
    { p with channels := (channel, index) :: p.channels.filter (·.1 != channel) }

def disconnect (channel : Nat) : Act Unit :=
  modifyProcess fun p => { p with channels := p.channels.filter (·.1 != channel) }

/-- A content with bytes written over it from a place on. -/
def overwritten (content : ByteArray) (offset : Nat) (bytes : ByteArray) : ByteArray :=
  if offset = content.size then content ++ bytes
  else if offset > content.size then
    content ++ (List.replicate (offset - content.size) 0).toByteArray ++ bytes
  else
    content.extract 0 offset ++ bytes ++ content.extract (offset + bytes.size) content.size

/-- Write to a handle. -/
def writeHandle (index : Nat) (s : Stream) : Act Unit := do
  match ← handle? index with
  | .log c => modify fun m => { m with log := (c, s) :: m.log }
  | .pipe ready written => setHandle index (.pipe ready (s :: written))
  | .file place offset appends =>
    let d ← disk
    match d.at? place with
    | some (.file content) =>
      let bytes := contentOf s.seen
      let start := if appends then content.size else offset
      setDisk (d.put place (.file (overwritten content start bytes)))
      setHandle index (.file place (start + bytes.size) appends)
    | _ => pure ()
  | _ => pure ()

/-- Write to a channel, which has to be open. -/
def write (channel : Nat) (s : Stream) : Act Bool := do
  match ← handleOf? channel with
  | some index =>
    writeHandle index s
    return true
  | none => return false

/-- What was written to a buffer joined with what can be read of it. -/
def gathered (ready : Stream) (written : List Stream) : Stream :=
  match written with
  | [] => ready
  | [s] => ready.append s
  | written =>
    let rest := written.reverse.foldl
      (fun (acc : Array Char × Stream) s =>
        if acc.2.isEndless then acc
        else (s.text.foldl Array.push acc.1, { s with text := [] }))
      (#[], {})
    ready.append { rest.2 with text := rest.1.toList }

/-- What is left to read of a handle, which keeps it. -/
def contentOfHandle (index : Nat) : Act Stream := do
  match ← handle? index with
  | .zero => return { forever := [Char.ofNat 0] }
  | .pipe ready written =>
    let all := gathered ready written
    setHandle index (.pipe all [])
    return all
  | .file place offset _ =>
    match (← disk).at? place with
    | some (.file content) => return { text := (octetsOf content).drop offset }
    | _ => return {}
  | _ => return {}

/-- Whether what is not used of a handle can be given back. -/
def isSeekable (p : Handle) : Bool :=
  match p with
  | .file .. => true
  | _ => false

/-- Leave only this much to be read of a handle. -/
def leave (index : Nat) (left : Stream) : Act Unit := do
  match ← handle? index with
  | .pipe _ _ => setHandle index (.pipe left [])
  | .file place _ appends =>
    match (← disk).at? place with
    | some (.file content) =>
      setHandle index (.file place (content.size - left.text.length) appends)
    | _ => pure ()
  | _ => pure ()

/-! ## Messages -/

/-- What messages start with. -/
def label : Act String := do
  let p ← process
  return p.name ++ ": " ++ toString p.line ++ ": " ++
    match p.command with
    | some c => c ++ ": "
    | none => ""

def putError (s : String) : Act Unit := do
  let _ ← write 2 (.ofText s)

def complain (message : String) : Act Unit := do
  putError ((← label) ++ message ++ "\n")

/-- Tell an error, which ends the process unless something takes it. -/
def fail {α : Type} (message : String) (code : Nat := 2) : Act α := do
  complain message
  setStatus code
  throw .fault

/-- Print to the channel for output. -/
def say (s : String) : Act Unit := do
  let open_ ← write 1 (.ofText s)
  unless open_ do
    let name := (← process).command.getD ""
    complain (name ++ ": I/O error")
    setStatus 1
    throw .fault

/-- Set a variable, unless it keeps its value. -/
def assign (name value : String) : Act Unit := do
  let v := (← lookupVariable name).getD {}
  if v.fixed then fail (name ++ ": is read only")
  let exported := v.exported || (← hasFlag 'a')
  putVariable name { v with value := some value, exported }
  if name == "OPTIND" then modifyProcess fun p => { p with optionOffset := 0 }

/-- Remember what a variable was before a function or command got its own. -/
def keepVariable (name : String) : Act Unit := do
  let v ← lookupVariable name
  modifyProcess fun p =>
    match p.frames with
    | frame :: frames =>
      if frame.any (·.1 == name) then p else { p with frames := ((name, v) :: frame) :: frames }
    | [] => p

def pushFrame : Act Unit := modifyProcess fun p => { p with frames := [] :: p.frames }

/-- Give variables back what they were. -/
def popFrame : Act Unit :=
  modifyProcess fun p =>
    match p.frames with
    | frame :: frames =>
      { p with
        frames
        bindings := frame.foldl (fun vs (name, v) =>
          match v with
          | some v => Variables.put vs name v
          | none => vs.filter (·.1 != name)) p.bindings }
    | [] => p

/-- Do something whatever comes of an action. -/
def andThen {α : Type} (act : Act α) (after : Act Unit) : Act α := do
  try
    let a ← act
    after
    return a
  catch i =>
    after
    throw i

/-! ## Processes -/

/-- The first number of a process. -/
def firstPid : Nat := 4100

/-- Run something in a process of its own, which starts as a copy of this one. -/
def fork (act : Act Unit) : Act Ending := fun m =>
  let pid := m.pids + 1
  let child := { m.process with
    pid, parent := m.process.pid, traps := m.process.traps.filter (·.2.isEmpty), jobs := []
    taken := none }
  let after := fun (t : Machine) =>
    { t with process := m.process, disk := { t.disk with here := m.disk.here } }
  match act { m with pids := pid, process := child } with
  | .ok _ t => .ok (.status (t.process.status % 256)) (after t)
  | .error .stuck t => .error .stuck (after t)
  | .error (.killed n) t => .ok (.signal n) (after t)
  | .error _ t => .ok (.status (t.process.status % 256)) (after t)

end Act

/-- Where a command stands. -/
structure Context where
  /-- Whether something looks at its status. -/
  tested : Bool := false
  /-- Whether the process ends with it. -/
  last : Bool := false

/-- A piece of a word whose text is known. -/
inductive Piece where
  | text (cs : List Char) (quoted split : Bool)
  /-- The place between two parameters. -/
  | gap
  /-- All parameters, when there are none. -/
  | nothing

/-- How what is nested in a command is run. -/
structure Runner where
  run : Context → Command → Act Unit
  /-- The pieces of a word; what is not quoted may be cut if asked. -/
  pieces : Bool → Word → Act (List Piece)
  /-- Run a text as a script. -/
  script : String → Act Unit

end Shell
end Unweave

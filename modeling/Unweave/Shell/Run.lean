import Unweave.Shell.Execute

/-!
# Running commands

What each command does, and the start of a program from outside.
-/

namespace Unweave
namespace Shell
namespace Run

open Act

/-- The builtins that run no other commands. -/
def builtins : List (String × Builtin) :=
  [(":", Builtin.succeed), ("[", Builtin.test true), ("alias", Builtin.setAliases),
    ("bg", Builtin.resume), ("break", Builtin.leaveLoops false), ("cd", Builtin.cd),
    ("continue", Builtin.leaveLoops true), ("echo", Builtin.echo), ("exit", Builtin.exit),
    ("export", Builtin.exportVariables), ("false", Builtin.failure), ("fg", Builtin.resume),
    ("getopts", Builtin.getopts), ("hash", Builtin.hash), ("jobs", Builtin.jobs),
    ("kill", Builtin.kill), ("local", Builtin.localVariables), ("printf", Builtin.printf),
    ("pwd", Builtin.pwd), ("read", Builtin.read), ("readonly", Builtin.fixVariables),
    ("return", Builtin.back), ("set", Builtin.setShell), ("shift", Builtin.shift),
    ("test", Builtin.test false), ("times", Builtin.times), ("trap", Builtin.trap),
    ("true", Builtin.succeed), ("type", Builtin.kind), ("ulimit", Builtin.ulimit),
    ("umask", Builtin.umask), ("unalias", Builtin.dropAliases), ("unset", Builtin.unset),
    ("wait", Builtin.wait)]

/-- End the process if a failure that nobody looks at has to. -/
def checkExit (context : Context) : Act Unit := do
  if !context.tested && (← status) != 0 then
    if ← hasFlag 'e' then throw .exit

/-- Take the ending of a process as the status.  The last one of a process ends that too. -/
def settle (context : Context) (e : Ending) : Act Unit := do
  match e with
  | .signal n => if context.last && (← process).traps.isEmpty then throw (.killed n)
  | .status _ => pure ()
  report e
  setStatus e.code

/-! ## Programs -/

/-- What is told of a program that cannot be started, and the status for it. -/
def refusal (name : String) (e : DiskError) : String × Nat :=
  if name.isEmpty then (": Permission denied", 127)
  else
    let reason := if e == .notFound || e == .notDirectory then "not found" else e.reason
    let denied := e == .permissionDenied && name.toList.contains '/'
    (name ++ ": " ++ reason, if denied then 126 else 127)

/-- Start a program by its words. -/
def execute (r : Runner) (words : List String) : Act (Except DiskError Ending) := do
  match Execute.resolve (← disk) (← Builtin.searchPath) (words.headD "") with
  | .error e => return .error e
  | .ok path =>
    Execute.file r (Execute.starter r Execute.startDepth) (Builtin.elapse r) Execute.interpreterDepth
      path words (← environment)

def launch (r : Runner) (context : Context) (words : List String) : Act Unit := do
  match ← execute r words with
  | .ok e => settle context e
  | .error e =>
    let (message, code) := refusal (words.headD "") e
    complain message
    setStatus code

/-! ## Builtins that run commands -/

def evaluateText (r : Runner) (context : Context) (as : List String) : Act Unit := do
  let text := " ".intercalate as
  if text.toList.all isSpaceByte then setStatus 0
  else Script.run r { tested := context.tested } text

/-- Where a script to be read in is. -/
def sourcePath (name : String) : Act String := do
  if name.toList.contains '/' then return name
  let d ← disk
  let found := (Program.pathsFor (← Builtin.searchPath) name).find? fun path =>
    d.isFile (readable path)
  match found with
  | some path => return path
  | none => fail (name ++ ": not found")

/-- Run the lines of a file in this process. -/
def source (r : Runner) (context : Context) (as : List String) : Act Unit := do
  match as with
  | [] => setStatus 0
  | name :: _ =>
    let path ← sourcePath name
    match (← disk).readBytes (readable path) with
    | .error .isDirectory => setStatus 0
    | .error e => fail (Redirect.fault false path e)
    | .ok content =>
      modifyProcess fun p => { p with command := some path, status := 0 }
      try Script.run r { tested := context.tested } (String.ofList (octetsOf content))
      catch i =>
        match i with
        | .back => pure ()
        | i => throw i

/-- Run a program in place of this process. -/
def become (r : Runner) (words : List String) : Act Unit := do
  if words.isEmpty then setStatus 0
  else
    match ← execute r words with
    | .ok (.status n) =>
      setStatus n
      modifyProcess fun p => { p with traps := [] }
      throw .exit
    | .ok (.signal n) => throw (.killed n)
    | .error e =>
      let (message, code) := refusal (words.headD "") e
      complain message
      setStatus code
      throw .exit

/-- Tell what a command name means. -/
def tellCommand (as : List String) : Act Unit := do
  let (letters, names) ← Builtin.options "pvV" as
  match names with
  | [] => setStatus 0
  | name :: _ =>
    setStatus (← if letters.contains 'V' then Builtin.describe name else Builtin.tell name)

/-- Run a builtin.  An error ends the process only if the builtin is a special one. -/
def builtin (r : Runner) (context : Context) (special : Bool) (name : String) (as : List String) :
    Act Unit := do
  let outer := (← process).command
  modifyProcess fun p => { p with command := some name }
  let act : Act Unit := match name with
    | "eval" => evaluateText r context as
    | "." => source r context as
    | "exec" => become r as
    | "command" => tellCommand as
    | name => do
      let b := (builtins.lookup name).getD Builtin.failure
      setStatus (← b r as)
  let guarded : Act Unit := do
    try act
    catch i =>
      match i with
      | .fault => if special then throw .fault
      | i => throw i
  andThen guarded (modifyProcess fun p => { p with command := outer })

/-! ## Functions -/

/-- How deep functions may call functions. -/
def callDepth : Nat := 1000

def call (r : Runner) (context : Context) (body : Command) (as : List String) : Act Unit := do
  let p ← process
  if p.depth ≥ callDepth then
    fail ("Maximum function recursion depth (" ++ toString callDepth ++ ") reached")
  modifyProcess fun p => { p with parameters := as, depth := p.depth + 1, loops := 0 }
  pushFrame
  let act : Act Unit := do
    try r.run { tested := context.tested } body
    catch i =>
      match i with
      | .back => pure ()
      | i => throw i
  andThen act do
    popFrame
    modifyProcess fun q =>
      { q with parameters := p.parameters, depth := p.depth, loops := p.loops }

/-! ## Simple commands -/

/-- Words without a start that asks for the command of that name alone. -/
def withoutPrefix : Nat → List String → List String × Bool
  | n + 1, "command" :: words =>
    let rest := match words with
      | "-p" :: rest => rest
      | rest => rest
    let rest := match rest with
      | "--" :: rest => rest
      | rest => rest
    match rest with
    | [] => ("command" :: words, false)
    | w :: _ =>
      if w.startsWith "-" then ("command" :: words, false)
      else ((withoutPrefix n rest).1, true)
  | _, words => (words, false)

/-- Run a command by its words. -/
def invoke (r : Runner) (context : Context) (alone : Bool) (words : List String) : Act Unit := do
  let name := words.headD ""
  let as := words.drop 1
  if Builtin.isSpecial name then builtin r context (!alone) name as
  else
    let functions := (← process).functions
    match if alone then none else functions.lookup name with
    | some body => call r context body as
    | none =>
      if Builtin.isBuiltin name then builtin r context false name as
      else launch r context words

/-- Do redirections; tells whether they could be done. -/
def redirected (r : Runner) (special : Bool) (rs : List Redirection) : Act Bool := do
  try
    Redirect.applyAll r rs
    return true
  catch i =>
    match i with
    | .fault => if special then throw .fault else return false
    | i => throw i

/-- Set variables one after the other, and tell how that reads. -/
def assignAll (r : Runner) (temporary exported : Bool) :
    List (String × Word) → Act (List String)
  | [] => return []
  | (name, w) :: as => do
    let value ← Expand.assigned r w
    if temporary then keepVariable name
    assign name value
    if exported then
      match ← lookupVariable name with
      | some v => putVariable name { v with exported := true }
      | none => pure ()
    let more ← assignAll r temporary exported as
    return (name ++ "=" ++ value) :: more

/-- Tell a command before it runs, if that is asked for. -/
def trace (words : List String) : Act Unit := do
  if ← hasFlag 'x' then
    putError ((← valueOf? "PS4").getD "" ++ " ".intercalate words ++ "\n")

/-- Set variables and run a command, which may have them for itself. -/
def withAssignments (r : Runner) (context : Context) (alone : Bool) (as : List (String × Word))
    (shown words : List String) : Act Unit := do
  let name := words.headD ""
  let temporary := alone || !Builtin.isSpecial name
  if as.isEmpty then
    trace shown
    invoke r context alone words
  else if temporary then
    pushFrame
    let act := do
      let told ← assignAll r true true as
      trace (told ++ shown)
      invoke r context alone words
    andThen act popFrame
  else
    let told ← assignAll r false (name == "exec") as
    trace (told ++ shown)
    invoke r context alone words

def simple (r : Runner) (context : Context) (line : Nat) (as : List (String × Word))
    (ws : List Word) (rs : List Redirection) : Act Unit := do
  tick
  modifyProcess fun p => { p with line, taken := none }
  let words ← Expand.allFields r ws
  if words.isEmpty then
    Redirect.restoring do
      if ← redirected r false rs then
        let told ← assignAll r false false as
        unless told.isEmpty do trace told
        setStatus ((← process).taken.getD 0)
  else
    let (inner, alone) := withoutPrefix words.length words
    let special := Builtin.isSpecial (inner.headD "") && !alone
    let act := do
      if ← redirected r special rs then withAssignments r context alone as words inner
    if inner == ["exec"] then act else Redirect.restoring act

/-! ## Pipelines -/

/-- Steps that a command may take whose output goes on to another. -/
def stageSteps : Nat := 50000

/-- Whether anything was written to a handle. -/
def hasOutput (index : Nat) : Act Bool := do
  let s ← contentOfHandle index
  return !s.text.isEmpty || s.isEndless

/-- Run a command whose output goes on to another.  One that does not end is cut off, if it has
printed anything that the next command may be content with. -/
def stage (r : Runner) (input output : Nat) (c : Command) : Act Unit := do
  let before := (← get).steps
  let granted := min before stageSteps
  modify fun m => { m with steps := granted }
  let act : Act Unit := do
    let e ← subshell r do
      connect 0 input
      connect 1 output
      r.run { last := true } c
    report e
  try act
  catch i =>
    let m ← get
    unless (← hasOutput output) && m.clock < m.limit do throw i
    let s ← contentOfHandle output
    unless s.isEndless do setHandle output (.pipe { s with cut := true } [])
  modify fun m => { m with steps := before - granted + m.steps }

/-- Run the stages of a pipeline, each on what the one before printed. -/
def stages (r : Runner) : Nat → List Command → Act Unit
  | _, [] => return
  | input, [c] => do
    let e ← subshell r do
      connect 0 input
      r.run { last := true } c
    report e
    setStatus e.code
  | input, c :: cs => do
    let start := (← get).clock
    let output ← newHandle (.pipe {} [])
    stage r input output c
    let stop := (← get).clock
    modify fun m => { m with clock := start }
    stages r output cs
    setHandle output .null
    modify fun m => { m with clock := max m.clock stop }

def pipeline (r : Runner) (cs : List Command) : Act Unit := do
  let input ← match ← handleOf? 0 with
    | some i => pure i
    | none => newHandle .null
  stages r input cs

/-! ## Other commands -/

/-- The commands of a list, before others. -/
def commandsOf : Command → List Command → List Command
  | .sequence first second, rest => commandsOf first (commandsOf second rest)
  | c, rest => c :: rest

/-- Run commands one after the other. -/
def sequence (r : Runner) (context : Context) : List Command → Act Unit
  | [] => return
  | [c] => r.run context c
  | c :: cs => do
    r.run { tested := context.tested } c
    sequence r context cs

/-- Run the body of a loop once; tells whether the loop goes on. -/
def loopStep (act : Act Bool) : Act Bool := do
  try act
  catch i =>
    match i with
    | .leave n again =>
      if n > 1 then throw (.leave (n - 1) again) else return again
    | i => throw i

/-- Run something as a loop. -/
def asLoop (act : Act Unit) : Act Unit := do
  let loops := (← process).loops
  modifyProcess fun p => { p with loops := loops + 1 }
  andThen act (modifyProcess fun p => { p with loops })

/-- Run a body while a condition's success is as asked.  The status is that of the last body. -/
def loop (r : Runner) (context : Context) (success : Bool) (condition body : Command) :
    Nat → Nat → Act Unit
  | 0, _ => throw .stuck
  | n + 1, last => do
    let goesOn ← loopStep do
      r.run { tested := true } condition
      if ((← status) == 0) == success then
        r.run { tested := context.tested } body
        return true
      else
        setStatus last
        return false
    if goesOn then loop r context success condition body n (← status)

/-- Run a body once for each value of a variable. -/
def forEach (r : Runner) (context : Context) (name : String) (body : Command) :
    List String → Act Unit
  | [] => return
  | v :: vs => do
    assign name v
    let goesOn ← loopStep do
      r.run { tested := context.tested } body
      return true
    if goesOn then forEach r context name body vs

/-- Whether a text matches one of some patterns. -/
def matchesAny (r : Runner) (text : List Char) : List Word → Act Bool
  | [] => return false
  | w :: ws => do
    let p ← Expand.pattern r w
    if Pattern.covers p text then return true else matchesAny r text ws

/-- Run the first case that matches. -/
def select (r : Runner) (context : Context) (text : List Char) : List Clause → Act Unit
  | [] => setStatus 0
  | .mk patterns body :: clauses => do
    if ← matchesAny r text patterns then
      match body with
      | .skip => setStatus 0
      | body => r.run context body
    else select r context text clauses

/-- Start a command in the background. -/
def background (body : Command) : Act Unit := do
  let null ← newHandle .null
  let m ← get
  let pid := m.pids + 1
  let p := m.process
  let job := ((p.jobs.map (·.1)).foldl max 0) + 1
  let child := { p with
    pid, parent := p.pid, jobs := [], taken := none
    traps := p.traps.filter (·.2.isEmpty)
    channels := (0, null) :: p.channels.filter (·.1 != 0) }
  set { m with
    pids := pid
    waiting := { pid, body, process := child, here := m.disk.here, since := m.clock } :: m.waiting
    process := { p with jobs := (job, pid) :: p.jobs, background := some pid, status := 0 } }

/-- Run a command. -/
def command (r : Runner) (context : Context) (c : Command) : Act Unit := do
  match c with
  | .skip => pure ()
  | .simple line as ws rs =>
    simple r context line as ws rs
    checkExit context
  | .pipeline cs =>
    tick
    pipeline r cs
    checkExit context
  | .negation body =>
    r.run { tested := true } body
    setStatus (if (← status) = 0 then 1 else 0)
  | .both first second =>
    r.run { tested := true } first
    if (← status) = 0 then r.run context second
  | .either first second =>
    r.run { tested := true } first
    if (← status) != 0 then r.run context second
  | .sequence .. => sequence r context (commandsOf c [])
  | .background line body =>
    modifyProcess fun p => { p with line }
    background body
  | .subshell line body rs =>
    tick
    modifyProcess fun p => { p with line }
    let e ← subshell r do
      Redirect.applyAll r rs
      r.run { last := true } body
    settle context e
    checkExit context
  | .redirected line body rs =>
    modifyProcess fun p => { p with line }
    Redirect.restoring do
      if ← redirected r false rs then r.run { tested := context.tested } body
  | .branch condition consequence alternative =>
    r.run { tested := true } condition
    if (← status) = 0 then r.run context consequence
    else
      match alternative with
      | .skip => setStatus 0
      | alternative => r.run context alternative
  | .loop success condition body =>
    asLoop (loop r context success condition body ((← get).steps + 1) 0)
  | .forEach line name ws body =>
    modifyProcess fun p => { p with line }
    let words ← Expand.allFields r ws
    setStatus 0
    asLoop (forEach r context name body words)
  | .select line word clauses =>
    modifyProcess fun p => { p with line }
    let text ← Expand.single r word
    select r context text.toList clauses
  | .define name body =>
    modifyProcess fun p =>
      { p with functions := (name, body) :: p.functions.filter (·.1 != name), status := 0 }
  Builtin.handleSignals r

/-- How commands nested up to a depth are run. -/
def level : Nat → Runner
  | 0 =>
    { run := fun _ _ => throw .stuck, pieces := fun _ _ => throw .stuck
      script := fun _ => throw .stuck }
  | n + 1 =>
    { run := fun context c => do command (level n) context c
      pieces := fun nested w => do Expand.pieces (level n) nested w
      script := fun text => do Script.run (level n) {} text }

/-- How deep commands may be nested. -/
def depth : Nat := 20000

/-- Steps for one command: what uses more of them never ends. -/
def steps : Nat := 500000

/-- Run what is left of the background when nobody waits for it any more. -/
def drain : Nat → Act Unit
  | 0 => return
  | n + 1 => do
    match (← get).waiting.getLast? with
    | none => return
    | some p =>
      let e ← Builtin.complete (level depth) p (← get).limit
      if e.isNone then throw .stuck
      drain n

end Run

/-- What a command did. -/
structure Result where
  /-- The exit code, if no signal ended the command. -/
  status : Option Nat
  out : List UInt8
  err : List UInt8
  time : Nat
  /-- Whether the command did not end in time. -/
  late : Bool
  disk : Disk

/-- What was printed on a channel, and whether it ends. -/
def printedOn (c : Channel) (log : List (Channel × Stream)) : List UInt8 × Bool :=
  let mine := (log.filter (·.1 == c)).map (·.2)
  ((mine.map fun s => bytesOf s.text).flatten, mine.any (·.isEndless))

/-- Start a program in the current directory of a disk, with no input.  What was started may fail;
a program that is not there cannot be started. -/
def start (limit : Nat) (environment : List (String × String)) (name : String)
    (arguments : List String) (d : Disk) : Except DiskError Result := do
  let disk := Program.install d
  let directories := (environment.lookup "PATH").getD Program.usualPath
  let name := octets name
  let words := name :: arguments.map octets
  let path ← Execute.resolve disk directories name
  match Execute.imageOf (← Execute.executable disk (readable path)) with
  | .unknown => .error .notProgram
  | _ => pure ()
  let m : Machine :=
    { process :=
        Execute.newProcess "sh" Act.firstPid (Act.firstPid - 1) environment disk.here
          [(0, 0), (1, 1), (2, 2)] []
      disk, limit, steps := Run.steps, handles := #[.null, .log .out, .log .err]
      pids := Act.firstPid }
  let r := Run.level Run.depth
  let result := fun (t : Machine) (e : Option Ending) =>
    let t := match Run.drain (t.waiting.length + 100) { t with limit := t.limit + 1000000 } with
      | .ok _ t => t
      | .error _ t => t
    let log := t.log.reverse
    let (out, outEndless) := printedOn .out log
    let (err, errEndless) := printedOn .err log
    { status := match e with
        | some (.status n) => some (n % 256)
        | _ => none
      out, err, time := t.clock, late := e.isNone || outEndless || errEndless
      disk := { Program.uninstall t.disk with here := d.here } : Result }
  match Execute.file r (Execute.starter r Execute.startDepth) (Builtin.elapse r)
      Execute.interpreterDepth path words environment m with
  | .ok (.ok e) t => .ok (result t (some e))
  | .ok (.error e) _ => .error e
  | .error _ t => .ok (result t none)

end Shell
end Unweave

import Unweave.Shell.Builtin.Basic

/-!
# Builtins for processes, signals and jobs
-/

namespace Unweave
namespace Shell
namespace Builtin

open Act

/-! ## Commands in the background -/

/-- Steps that a command in the background may take. -/
def grantedSteps : Nat := 100000

/-- Run a command of the background from when it was started, up to a deadline.  It gives an ending
if it comes to one in time. -/
def complete (r : Runner) (p : Pending) (deadline : Nat) : Act (Option Ending) := fun m =>
  let steps := min m.steps grantedSteps
  let start := { m with
    process := p.process, disk := { m.disk with here := p.here }, clock := p.since, steps
    limit := deadline, waiting := m.waiting.filter (·.pid != p.pid) }
  let after := fun (t : Machine) (e : Option Ending) =>
    { t with
      process := m.process, disk := { t.disk with here := m.disk.here }
      clock := max m.clock t.clock, limit := m.limit, steps := m.steps - steps + t.steps
      ended := match e with
        | some e => (p.pid, e) :: t.ended
        | none => t.ended }
  match finish r (r.run { last := true } p.body) start with
  | .error .stuck t => .ok none (after t none)
  | .error (.killed n) t => .ok (some (.signal n)) (after t (some (.signal n)))
  | .error _ t =>
    let e := Ending.status (t.process.status % 256)
    .ok (some e) (after t (some e))
  | .ok _ t =>
    let e := Ending.status (t.process.status % 256)
    .ok (some e) (after t (some e))

/-- Run commands of the background that come to their end before a time. -/
def runDue (r : Runner) (time : Nat) : List Pending → Act Unit
  | [] => return
  | p :: ps => do
    let m ← get
    match ← complete r p time with
    | some _ => modify fun t => { t with clock := m.clock }
    | none => set m
    runDue r time ps

/-- Let time pass, in which commands of the background go on. -/
def elapse (r : Runner) (time : Nat) : Act Unit := do
  let m ← get
  if time > 0 then runDue r (min m.limit (m.clock + time)) m.waiting.reverse
  pass time

/-- How a background process ended, after waiting for it. -/
def await (r : Runner) (pid : Nat) : Act (Option Ending) := do
  let m ← get
  match m.ended.lookup pid with
  | some e => return some e
  | none =>
    match m.waiting.find? (·.pid == pid) with
    | none => return none
    | some p =>
      match ← complete r p m.limit with
      | some e => return some e
      | none => throw .stuck

/-- The process of a job by its number. -/
def jobProcess (word : String) : Act Nat := do
  let jobs := (← process).jobs
  match word.toList with
  | '%' :: ds =>
    let found := match ds with
      | [] => jobs.head?
      | ['%'] => jobs.head?
      | ['+'] => jobs.head?
      | ds => (natural? (String.ofList ds)).bind fun n => jobs.find? (·.1 == n)
    match found with
    | some (_, pid) => return pid
    | none => fail ("No such job: " ++ word)
  | _ => number word

def wait : Builtin := fun r as => do
  match as with
  | [] =>
    for (_, pid) in (← process).jobs.reverse do
      let _ ← await r pid
    return 0
  | words =>
    let mut status := 0
    for word in words do
      let pid ← jobProcess word
      if (← process).jobs.any (·.2 == pid) then
        match ← await r pid with
        | some e =>
          report e
          status := e.code
        | none => status := 127
      else status := 127
    return status

def jobs : Builtin := fun _ _ => do
  let m ← get
  let all := m.process.jobs
  for (n, pid) in all.reverse do
    let current := (all.head?.map (·.2)) == some pid
    let previous := ((all[1]?).map (·.2)) == some pid
    let state := match m.ended.lookup pid with
      | none => "Running"
      | some (.status 0) => "Done"
      | some (.status k) => "Done(" ++ toString k ++ ")"
      | some (.signal k) => Signal.message k
    say ("[" ++ toString n ++ "] " ++ (if current then "+" else if previous then "-" else " ") ++ " " ++
      padRight 27 state ++ "\n")
  return 0

def resume : Builtin := fun _ _ => fail "No current job"

/-! ## Signals -/

/-- Send this process a signal. -/
def raise (signal : Nat) : Act Unit := do
  let p ← process
  match p.traps.lookup signal with
  | some action =>
    if !Signal.isFixed signal then
      unless action.isEmpty do
        modify fun m => { m with signals := m.signals ++ [(p.pid, signal)] }
    else throw (.killed signal)
  | none =>
    if signal = 0 || Signal.isHarmless signal then return
    else if Signal.stops signal then throw .stuck
    else throw (.killed signal)

/-- Send a signal to a process by its number; tells whether there is such a process. -/
def send (r : Runner) (signal pid : Nat) : Act Bool := do
  let m ← get
  if pid == m.process.pid || pid = 0 then
    raise signal
    return true
  else if pid == m.process.shell || pid == m.process.parent then
    modify fun m => { m with signals := m.signals ++ [(pid, signal)] }
    return true
  else
    match m.waiting.find? (·.pid == pid) with
    | none => return false
    | some p =>
      if signal = 0 || Signal.isHarmless signal then return true
      else
        let e ← complete r p m.clock
        if e.isNone then modify fun m => { m with ended := (pid, .signal signal) :: m.ended }
        return true

/-- Do what was asked for the signals that this process was sent. -/
def handleSignals (r : Runner) : Act Unit := do
  let m ← get
  unless m.signals.isEmpty do
    let mine := m.signals.filter (·.1 == m.process.pid)
    set { m with signals := m.signals.filter (·.1 != m.process.pid) }
    for (_, signal) in mine do
      match (← process).traps.lookup signal with
      | some action =>
        if Signal.isFixed signal then throw (.killed signal)
        let before ← status
        r.script action
        setStatus before
      | none =>
        if signal = 0 || Signal.isHarmless signal then pure ()
        else if Signal.stops signal then throw .stuck
        else throw (.killed signal)

def killUsage : String :=
  "Usage: kill [-s sigspec | -signum | -sigspec] [pid | job]... or\nkill -l [exitstatus]"

/-- The signal and the processes that arguments name. -/
def killTarget (as : List String) : Act (Nat × List String) := do
  match as with
  | "-s" :: name :: rest =>
    match Signal.parse? name with
    | some n => return (n, rest)
    | none => fail ("invalid signal number or name: " ++ name)
  | "-s" :: [] => fail "No arg for -s option"
  | "--" :: rest => return (15, rest)
  | a :: rest =>
    match a.toList with
    | '-' :: c :: cs =>
      match Signal.parse? (String.ofList (c :: cs)) with
      | some n => return (n, rest)
      | none => fail ("Illegal option -" ++ String.singleton c)
    | _ => return (15, a :: rest)
  | [] => return (15, [])

/-- Tell the names of signals. -/
def listSignals : List String → Act Nat
  | [] => do
    say "0\n"
    for name in Signal.names do say (name ++ "\n")
    return 0
  | a :: _ => do
    let n ← number a
    let k := if n > 128 then n - 128 else n
    if k = 0 || k ≥ Signal.bound then fail ("invalid signal number or exit status: " ++ a)
    say (Signal.nameOf k ++ "\n")
    return 0

def kill : Builtin := fun r as => do
  match as with
  | [] => fail killUsage
  | "-l" :: rest => listSignals rest
  | as =>
    let (signal, targets) ← killTarget as
    let targets := if targets.head? == some "--" then targets.drop 1 else targets
    if targets.isEmpty then fail killUsage
    let mut status := 0
    for target in targets do
      let pid ← if target.startsWith "%" then jobProcess target else number target
      unless ← send r signal pid do
        complain "No such process\n"
        status := 1
    return status

def trap : Builtin := fun _ as => do
  let (_, as) ← match as with
    | "-" :: rest => pure ([], "-" :: rest)
    | as => options "" as
  let set := fun (action : Option String) (names : List String) => do
    for name in names do
      match Signal.parse? name with
      | none =>
        putError ("trap: " ++ name ++ ": bad trap\n")
        return 1
      | some n =>
        modifyProcess fun p =>
          { p with
            traps := match action with
              | none => p.traps.filter (·.1 != n)
              | some text => (n, text) :: p.traps.filter (·.1 != n) }
    return (0 : Nat)
  match as with
  | [] =>
    let traps := (← process).traps.mergeSort fun a b => a.1 ≤ b.1
    for (n, text) in traps do say ("trap -- " ++ quoted text ++ " " ++ Signal.nameOf n ++ "\n")
    return 0
  | [name] => set none [name]
  | action :: names =>
    if (natural? action).isSome then set none (action :: names)
    else if action == "-" then set none names
    else set (some action) names

/-! ## Ends -/

/-- The status that an argument asks for, or the one that is there. -/
def statusFrom (as : List String) : Act Nat := do
  match as with
  | [] => status
  | a :: _ => number a

def exit : Builtin := fun _ as => do
  setStatus (← statusFrom as)
  throw .exit

def back : Builtin := fun _ as => do
  setStatus (← statusFrom as)
  throw .back

def leaveLoops (again : Bool) : Builtin := fun _ as => do
  let n ← match as with
    | [] => pure 1
    | a :: _ => number a
  if n = 0 then fail ("Illegal number: " ++ as.headD "")
  let loops := (← process).loops
  if loops = 0 then return 0
  setStatus 0
  throw (.leave (min n loops) again)

end Builtin
end Shell
end Unweave

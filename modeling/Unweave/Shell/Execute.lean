import Unweave.Shell.Script

/-!
# Starting programs

A program is a file: one of the system, a script that names its interpreter, or a script for the
shell.  It gets the variables that are exported and the channels of the process that starts it.
-/

namespace Unweave
namespace Shell
namespace Execute

open Act

/-! ## Shells -/

/-- How a shell was called. -/
structure Call where
  /-- Whether a text is given instead of a file. -/
  text : Bool := false
  /-- Whether the script is the input. -/
  input : Bool := false
  flags : List Char := []
  words : List String := []

/-- Read the arguments of a shell. -/
def parseCall : Nat → Call → List String → Except String Call
  | 0, c, _ => .ok c
  | _ + 1, c, [] => .ok c
  | n + 1, c, a :: as =>
    match a.toList with
    | ['-', '-'] => .ok { c with words := as }
    | ['-'] => .ok { c with words := as }
    | sign :: x :: xs =>
      if sign == '-' || sign == '+' then
        let on := sign == '-'
        let letters := x :: xs
        match letters.find? fun l => !(Builtin.optionLetters.contains l || l == 'c' || l == 'o') with
        | some l => .error ("Illegal option " ++ String.ofList [sign, l])
        | none =>
          let plain := letters.filter fun l => l != 'c' && l != 'o'
          let flags := if on then plain ++ c.flags else c.flags.filter (!plain.contains ·)
          let c := { c with
            flags, text := c.text || letters.contains 'c', input := c.input || plain.contains 's' }
          if letters.contains 'o' then
            match as with
            | [] => .ok c
            | name :: as =>
              match Builtin.optionNames.lookup name with
              | some l =>
                parseCall n
                  { c with flags := if on then l :: c.flags else c.flags.filter (· != l) } as
              | none => .error ("Illegal option " ++ String.ofList [sign, 'o'] ++ " " ++ name)
          else parseCall n c as
      else .ok { c with words := a :: as }
    | _ => .ok { c with words := a :: as }

/-- A process for a shell that was just started. -/
def newProcess (name : String) (pid parent : Nat) (environment : List (String × String))
    (here : Location) (channels : List (Nat × Nat)) (ignored : List (Nat × String)) : Process :=
  let given := environment.filter fun (n, _) => isName n && n != "IFS" && n != "OPTIND" && n != "PPID"
  let set := given.map fun (n, v) => (n, ({ value := some v, exported := true } : Variable))
  let own : List (String × String) :=
    [("IFS", " \t\n"), ("OPTIND", "1"), ("PPID", toString parent), ("PS4", "+ "),
      ("PATH", Program.usualPath)]
  let vs := own.foldl (fun vs (n, v) =>
    if vs.any (·.1 == n) then vs else vs ++ [(n, ({ value := some v } : Variable))]) set
  let vs := Variables.put vs "PWD" { value := some (octets (Disk.pathOf here)), exported := true }
  { pid, shell := pid, parent, name, bindings := vs, channels, traps := ignored }

/-- Run a shell with its arguments, in a process that is there for it. -/
def shell (r : Runner) (name : String) (as : List String) : Act Unit := do
  let refuse : String → Act Unit := fun message => do
    modifyProcess fun p => { p with line := 0 }
    fail message
  match parseCall (as.length + 1) {} as with
  | .error message => refuse message
  | .ok c =>
    modifyProcess fun p => { p with flags := c.flags }
    if c.text then
      match c.words with
      | [] => refuse "-c requires an argument"
      | text :: rest =>
        modifyProcess fun p => { p with name := rest.headD name, parameters := rest.drop 1 }
        Script.run r { last := true } text
    else
      match if c.input then [] else c.words with
      | [] =>
        modifyProcess fun p => { p with parameters := c.words, flags := 's' :: p.flags.filter (· != 's') }
        match ← handleOf? 0 with
        | none => pure ()
        | some index =>
          let s ← contentOfHandle index
          if s.isEndless then throw .stuck
          leave index {}
          Script.run r {} (String.ofList s.text)
      | file :: rest =>
        match (← disk).readBytes (readable file) with
        | .error .isDirectory => pure ()
        | .error _ => refuse ("cannot open " ++ file ++ ": No such file")
        | .ok content =>
          modifyProcess fun p => { p with name := file, parameters := rest }
          Script.run r {} (String.ofList (octetsOf content))

/-! ## Programs -/

/-- What a file is when it is executed. -/
inductive Image where
  | program (name : String)
  | script (interpreter : List String)
  | unknown

/-- The words after the mark of a script: the interpreter and one argument at most. -/
def interpreterOf (line : List Char) : List String :=
  let line := (line.dropWhile isBlankByte).reverse.dropWhile isBlankByte |>.reverse
  let first := line.takeWhile fun c => !isBlankByte c
  let rest := (line.drop first.length).dropWhile isBlankByte
  if first.isEmpty then [] else
    String.ofList first :: if rest.isEmpty then [] else [String.ofList rest]

def imageOf (content : ByteArray) : Image :=
  let start := octetsOf (content.extract 0 256)
  match Program.ofImage? start with
  | some name => .program name
  | none =>
    match start with
    | '#' :: '!' :: cs => .script (interpreterOf (cs.takeWhile (· != '\n')))
    | _ => .unknown

/-- The content of a file that may be executed. -/
def executable (d : Disk) (path : String) : Except DiskError ByteArray :=
  match d.find path with
  | .error e => .error e
  | .ok (l, .file content) => if d.isExecutable l then .ok content else .error .permissionDenied
  | .ok _ => .error .permissionDenied

/-- Where a name leads by a list of directories. -/
def resolve (d : Disk) (directories name : String) : Except DiskError String :=
  if name.toList.contains '/' then (executable d (readable name)).map fun _ => name
  else if name.isEmpty then .error .notFound
  else if name.utf8ByteSize > 255 then .error .nameTooLong
  else
    match Program.locate? d directories name with
    | some path => .ok path
    | none =>
      if (Program.pathsFor directories name).any fun path => d.pathExists (readable path) then
        .error .permissionDenied
      else .error .notFound

/-- Run a program of the system on the channels of this process. -/
def program (start : Starter) (p : Program) (name : String) (as : List String)
    (environment : List (String × String)) (wait : Nat → Act Unit) : Act Ending := do
  let index ← handleOf? 0
  let input ← match index with
    | some i => contentOfHandle i
    | none => pure {}
  let handle ← handle? (index.getD 0)
  let m ← get
  let reply := Program.reply p
    { name, arguments := as, environment, input, seekable := isSeekable handle
      unreadable := match handle with
        | .directory => some .isDirectory
        | _ => none
      disk := m.disk, start, limit := m.limit - m.clock }
  setDisk { reply.disk with here := m.disk.here }
  for (channel, s) in reply.printed do
    let _ ← write (if channel == .out then 1 else 2) s
  match index with
  | some i => leave i reply.left
  | none => pure ()
  wait reply.time
  if reply.printed.any (·.2.isEndless) then throw .stuck
  match reply.stop with
  | .ended => return .status reply.status
  | .killed n => return .signal n
  | .stuck => throw .stuck

/-- Run a shell in a process of its own. -/
def shellProcess (r : Runner) (name : String) (as : List String)
    (environment : List (String × String)) : Act Ending :=
  fork do
    let p ← process
    let d ← disk
    modifyProcess fun _ => newProcess name p.pid p.parent environment d.here p.channels p.traps
    finish r (shell r name as)

/-- Run the file of a program.  Scripts may name scripts as interpreters, up to a depth. -/
def file (r : Runner) (start : Starter) (wait : Nat → Act Unit) :
    Nat → String → List String → List (String × String) → Act (Except DiskError Ending)
  | 0, _, _, _ => return .error .permissionDenied
  | n + 1, path, words, environment => do
    let d ← disk
    match executable d (readable path) with
    | .error e => return .error e
    | .ok content =>
      match imageOf content with
      | .program name =>
        if Program.shells.contains name then
          return .ok (← shellProcess r (words.headD name) (words.drop 1) environment)
        else
          match Program.find? name with
          | some p => return .ok (← program start p (words.headD name) (words.drop 1) environment wait)
          | none => return .error .permissionDenied
      | .script [] => return .ok (← shellProcess r path (path :: words.drop 1) environment)
      | .script (interpreter :: argument) =>
        file r start wait n interpreter (interpreter :: argument ++ path :: words.drop 1) environment
      | .unknown => return .ok (← shellProcess r (words.headD path) (path :: words.drop 1) environment)

/-- How deep interpreters may be named by scripts. -/
def interpreterDepth : Nat := 5

/-- Steps that a program's own programs may take. -/
def grantedSteps : Nat := 200000

/-- How programs start other programs: with handles of their own. -/
def starter (r : Runner) : Nat → Starter
  | 0 => fun _ _ _ input disk => { disk, left := input, stop := .stuck }
  | n + 1 => fun limit words environment input disk =>
    let directories := (environment.lookup "PATH").getD Program.usualPath
    match words with
    | [] => { disk, left := input, refused := some .notFound }
    | name :: _ =>
      match resolve disk directories name with
      | .error e => { disk, left := input, refused := some e }
      | .ok path =>
        let channels := [(0, 0), (1, 1), (2, 2)]
        let m : Machine :=
          { process := newProcess "sh" (firstPid + 90) (firstPid + 89) environment disk.here channels []
            disk, limit, steps := grantedSteps
            handles := #[.pipe input [], .log .out, .log .err], pids := firstPid + 90 }
        let reply := fun (t : Machine) (e : Option Ending) =>
          let left := match (t.handles[0]?).getD .null with
            | .pipe ready written => gathered ready written
            | _ => {}
          { printed := t.log.reverse, disk := { t.disk with here := disk.here }, time := t.clock, left
            status := (e.map Ending.code).getD 0
            stop := match e with
              | some (.status _) => .ended
              | some (.signal n) => .killed n
              | none => .stuck : Reply }
        match file r (starter r n) pass interpreterDepth path words environment m with
        | .ok (.ok e) t => reply t (some e)
        | .ok (.error e) t => { reply t (some (.status 0)) with refused := some e }
        | .error _ t => reply t none

/-- How deep programs may start programs that start programs. -/
def startDepth : Nat := 50

end Execute
end Shell
end Unweave

import Unweave.Config
import Unweave.Outcome
import Unweave.Sandbox.Files
import Unweave.Shell.Run
import Unweave.Workbench

/-!
# Sandboxes

An external compiler is a command that runs in a temporary directory with the files of a project.
The command succeeds or fails, and the directory is removed, unless it was asked for that failures
stay.
-/

namespace Unweave

structure Sandbox where
  command : List String
  /-- Milliseconds after which the command is stopped. -/
  limit : Nat
  keepOnFailure : Bool := false
  layout : Layout := {}

namespace Sandbox

/-! ## Commands -/

/-- What a command finds set. -/
def environment : List (String × String) :=
  [("HOME", "/root"), ("PATH", Shell.Program.usualPath), ("PAKETTI_SANDBOX", "1")]

def renderSpan (milliseconds : Nat) : String :=
  if milliseconds % 1000 = 0 then toString (milliseconds / 1000) ++ "s"
  else toString milliseconds ++ "ms"

def outcomeOf (limit : Nat) (r : Shell.Result) : Outcome :=
  if r.late then
    { success := false, exitCode := none, stdout := "",
      stderr :=
        "Command timed out after " ++ renderSpan limit ++ " (limit: " ++ renderSpan limit ++ ")",
      duration := limit, timedOut := true }
  else
    { success := r.status = some 0, exitCode := r.status.map Int.ofNat, stdout := Utf8.lossy r.out,
      stderr := Utf8.lossy r.err, duration := r.time }

/-- Run a command in a directory, which it may name by a mark.  There may be none to run. -/
def runCommand (command : List String) (limit : Nat) (dir : String) (d : Disk) :
    Except String Outcome × Disk :=
  match command.map (·.replace directoryMark dir) with
  | [] => (.error "Empty command", d)
  | program :: arguments =>
    if (program :: arguments).any (·.toList.contains (Char.ofNat 0)) then
      (.error "nul byte found in provided data", d)
    else
    match d.find dir with
    | .ok (here, .directory) =>
      match Shell.start limit environment program arguments { d with here } with
      | .error e => (.error e.message, d)
      | .ok r => (.ok (outcomeOf limit r), { r.disk with here := d.here })
    | .ok _ => (.error DiskError.notDirectory.message, d)
    | .error e => (.error e.message, d)

/-! ## The compiler -/

def failure (text : String) : Except CompileFailure Unit := .error { text }

/-- Compile a project in a temporary directory. -/
def compiler (s : Sandbox) : Compiler Disk := fun p d =>
  let (d, place) := d.makeTemporary "paketti-"
  let dir := Disk.pathOf place
  match materialize s.layout p dir d with
  | (.error e, d) => (failure ("failed to write sandbox: " ++ e.message), d.removeTree place)
  | (.ok _, d) =>
    match runCommand s.command s.limit dir d with
    | (.error text, d) => (failure ("failed to run compiler: " ++ text), d.removeTree place)
    | (.ok o, d) =>
      if o.success then (.ok (), d.removeTree place)
      else (failure o.combined, if s.keepOnFailure then d else d.removeTree place)

/-- The sandbox that a configuration asks for. -/
def ofConfig (c : Config) : Sandbox :=
  { command := c.compiler.command, limit := c.compiler.timeoutSeconds * 1000,
    keepOnFailure := c.compiler.keepOnFailure, layout := { margin := c.format.indent } }

end Sandbox
end Unweave

import Unweave.Shell.Expand

/-!
# Redirections

Channels are led to other handles before a command runs.  A file that cannot be opened is told, and
the command is not run.
-/

namespace Unweave
namespace Shell
namespace Redirect

open Act

/-- Paths that name a channel of the process. -/
def channelOf? (path : String) : Option Nat :=
  match path with
  | "/dev/stdin" => some 0
  | "/dev/stdout" => some 1
  | "/dev/stderr" => some 2
  | _ => if path.startsWith "/dev/fd/" then natural? (String.ofList (path.toList.drop 8)) else none

/-- Why a file cannot be opened, or made. -/
def fault (made : Bool) (path : String) (e : DiskError) : String :=
  let absent := e == .notFound || e == .notDirectory
  if made then
    "cannot create " ++ path ++ ": " ++ if absent then "Directory nonexistent" else e.reason
  else "cannot open " ++ path ++ ": " ++ if absent then "No such file" else e.reason

/-- Open a file for reading. -/
def openToRead (path : String) : Act Handle := do
  match (← disk).find (readable path) with
  | .error e => fail (fault false path e)
  | .ok (l, .file _) => return .file l 0 false
  | .ok (_, .directory) => return .directory
  | .ok (_, .device .null) => return .null
  | .ok (_, .device .zero) => return .zero

/-- Make a file, with the permissions that the mask leaves. -/
def make (d : Disk) (l : Location) (mask : Nat) : Disk :=
  let made := d.put l (.file .empty)
  if mask = 18 then made else made.setMode l (438 &&& (511 - mask))

/-- Open a file for writing; it is made if it is not there, and may be emptied. -/
def openToWrite (access : Access) (path : String) : Act Handle := do
  let d ← disk
  match d.locateFile (readable path) with
  | .error e => fail (fault true path e)
  | .ok l =>
    match d.at? l with
    | some .directory => fail (fault true path .isDirectory)
    | some (.device .null) => return .null
    | some (.device .zero) => return .zero
    | some (.file _) =>
      match access with
      | .append => return .file l 0 true
      | .both => return .file l 0 false
      | access =>
        if access == .write && (← hasFlag 'C') then fail (fault true path .alreadyExists)
        setDisk (d.put l (.file .empty))
        return .file l 0 false
    | none =>
      setDisk (make d l (← process).mask)
      return .file l 0 (access == .append)

/-- The handle that a path leads to. -/
def handleFor (access : Access) (path : String) : Act Nat := do
  match channelOf? path with
  | some channel =>
    match ← handleOf? channel with
    | some index => return index
    | none => fail (fault (access != .read) path .notFound)
  | none =>
    if access == .read then newHandle (← openToRead path)
    else newHandle (← openToWrite access path)

/-- A redirection that cannot be understood ends the process. -/
def malformed {α : Type} : Act α := do
  complain "Syntax error: Bad fd number"
  setStatus 2
  throw .exit

/-- Do one redirection. -/
def apply (r : Runner) : Redirection → Act Unit
  | .file channel access name => do
    let path ← Expand.single r name
    connect channel (← handleFor access path)
  | .copy channel origin => do
    match (← Expand.single r origin).toList with
    | ['-'] => disconnect channel
    | [c] =>
      unless c.isDigit do malformed
      match ← handleOf? (c.toNat - 48) with
      | some index => connect channel index
      | none => fail (String.singleton c ++ ": Bad file descriptor")
    | _ => malformed
  | .document channel index => do
    let word := ((← get).documents.lookup index).getD []
    let text ← Expand.textOf (← r.pieces false word)
    connect channel (← newHandle (.pipe (.ofText text) []))

def applyAll (r : Runner) (rs : List Redirection) : Act Unit := rs.forM (apply r)

/-- Give the channels back what they led to, whatever comes of an action. -/
def restoring {α : Type} (act : Act α) : Act α := do
  let channels := (← process).channels
  andThen act (modifyProcess fun p => { p with channels })

end Redirect
end Shell
end Unweave

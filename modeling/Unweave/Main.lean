import Std.Time.DateTime.Timestamp
import Unweave.Calendar
import Unweave.CommandLine

/-!
# The program

Takes in what the call looks at, answers the call, and writes what changed.
-/

namespace Unweave
namespace Host

/-- Take in what is at a place and above it. -/
def takeIn (d : Disk) (l : Location) : IO Disk :=
  (List.range l.length).foldlM
    (fun d n => do
      let place := l.take (n + 1)
      let path := (← IO.currentDir) / Disk.pathOf place
      if ← path.isDir then return d.put place .directory
      else if ← path.pathExists then return d.put place (.file (← IO.FS.readBinFile path))
      else return d)
    d

/-- The disk as far as a call looks at it. -/
def load (arguments : List String) : IO Disk := do
  let here := Path.resolve [] (← IO.currentDir).toString
  let temporary := Path.resolve here ((← IO.getEnv "TMPDIR").getD "/tmp")
  let paths := match CommandLine.parse arguments with
    | .run i => i.paths
    | _ => []
  let places := [here, temporary] ++ paths.map (Path.resolve here)
  places.foldlM takeIn { Disk.fresh here with temporary }

/-- Write what is different from before. -/
def store (before after : Disk) : IO Unit :=
  after.entries.forM fun (l, e) => do
    if ((before.at? l).map e.same).getD false then return
    let path := (← IO.currentDir) / Disk.pathOf l
    match e with
    | .directory => IO.FS.createDirAll path
    | .file content => IO.FS.writeBinFile path content
    | .device _ => return

/-- The time in universal time. -/
def now : IO String := do
  let t ← Std.Time.Timestamp.now
  return Calendar.render t.toSecondsSinceUnixEpoch.val.toNat

end Host
end Unweave

def main (arguments : List String) : IO UInt32 := do
  let disk ← Unweave.Host.load arguments
  let (answer, after) := Unweave.CommandLine.run (← Unweave.Host.now) arguments disk
  Unweave.Host.store disk after
  IO.print answer.stdout
  IO.eprint answer.stderr
  return UInt32.ofNat answer.exit

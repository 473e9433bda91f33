import Unweave.Shell.Program.Awk.Run
import Unweave.Shell.Program.ByteSet
import Unweave.Shell.Program.Compare
import Unweave.Shell.Program.Count
import Unweave.Shell.Program.Editor.Run
import Unweave.Shell.Program.Expression
import Unweave.Shell.Program.Files
import Unweave.Shell.Program.Find
import Unweave.Shell.Program.Lines
import Unweave.Shell.Program.Order
import Unweave.Shell.Program.Print
import Unweave.Shell.Program.Search
import Unweave.Shell.Program.System
import Unweave.Shell.Program.Test

/-!
# The programs of the system

Programs are files in two directories of the system.  Such a file is marked as a program at its start
and tells by a name which one it is, so that a copy of it is the same program.
-/

namespace Unweave
namespace Shell
namespace Program

def table : List (String × Program) :=
  [("[", test), ("arch", arch), ("awk", awk), ("base64", base64), ("basename", basename),
    ("cat", cat), ("chmod", chmod), ("cmp", cmp), ("comm", comm), ("cp", cp), ("cut", cut),
    ("date", date), ("dd", dd), ("diff", diff), ("dirname", dirname), ("echo", echo),
    ("egrep", grep), ("env", env), ("expand", expand), ("expr", expr), ("false", fail),
    ("fgrep", grep), ("find", find), ("fold", fold), ("grep", grep), ("groups", groups),
    ("head", head), ("hostname", hostname), ("id", id), ("join", join), ("ls", ls),
    ("mawk", awk), ("mkdir", mkdir), ("mktemp", mktemp), ("mv", mv), ("nice", nice), ("nl", nl),
    ("nohup", nohup), ("nproc", nproc), ("od", od), ("paste", paste), ("printenv", printenv),
    ("printf", printf), ("pwd", pwd), ("readlink", readlink), ("realpath", realpath), ("rev", rev),
    ("rm", rm), ("rmdir", rmdir), ("sed", sed), ("seq", seq), ("sha256sum", sha256sum),
    ("sleep", sleep), ("sort", sort), ("stat", stat), ("sync", succeed), ("tac", tac),
    ("tail", tail), ("tee", tee), ("test", test), ("timeout", timeout), ("touch", touch), ("tr", tr),
    ("true", succeed), ("truncate", truncate), ("tty", tty), ("uname", uname), ("uniq", uniq),
    ("wc", wc), ("whoami", whoami), ("xargs", xargs), ("yes", yes)]

/-- The names of shells. -/
def shells : List String := ["sh", "dash"]

/-- Where programs are looked for if nothing else is told. -/
def usualPath : String := "/usr/local/sbin:/usr/local/bin:/usr/sbin:/usr/bin:/sbin:/bin"

/-! ## Files of programs -/

/-- The content of the file of a program. -/
def image (name : String) : ByteArray := ("\x7fELF " ++ name).toUTF8

/-- The program that a content is. -/
def ofImage? (content : List Char) : Option String :=
  match content with
  | '\x7f' :: 'E' :: 'L' :: 'F' :: ' ' :: name => some (String.ofList name)
  | _ => none

def systemDirectories : List Location := [["usr", "bin"], ["bin"]]

/-- The top directories of a system. -/
def systemTops : List String := ["usr", "bin", "root", "home", "etc", "var"]

/-- The files of the programs, with the directories of a system. -/
def systemEntries : List (Location × DiskEntry) :=
  systemTops.map (fun name => ([name], .directory)) ++ (["usr", "bin"], .directory) ::
    systemDirectories.flatMap fun l =>
      ("which" :: shells ++ table.map (·.1)).map fun name => (l ++ [name], .file (image name))

/-- Put the programs on a disk that does not have them. -/
def install (d : Disk) : Disk :=
  let missing := systemEntries.filter fun (l, _) => (d.at? l).isNone
  { d with
    entries := d.entries ++ missing
    modes := d.modes ++ (missing.filter fun (_, e) => !e.isDirectory).map fun (l, _) => (l, 493) }

/-- Take the programs off a disk again. -/
def uninstall (d : Disk) : Disk :=
  let isSystem := fun (l : Location) => (l.head?.map systemTops.contains).getD false
  { d with
    entries := d.entries.filter fun (l, _) => !isSystem l
    modes := d.modes.filter fun (l, _) => !isSystem l }

/-! ## Looking for programs -/

/-- Whether a path leads to a file that may be executed. -/
def isProgramFile (d : Disk) (path : String) : Bool :=
  match d.find path with
  | .ok (l, .file _) => d.isExecutable l
  | _ => false

/-- The paths that a name may have by a list of directories. -/
def pathsFor (directories name : String) : List String :=
  (directories.splitOn ":").map fun directory =>
    if directory.isEmpty then name
    else if directory.endsWith "/" then directory ++ name
    else directory ++ "/" ++ name

/-- Where the program of a name is, if it is anywhere. -/
def locate? (d : Disk) (directories name : String) : Option String :=
  (pathsFor directories name).find? fun path => isProgramFile d (readable path)

def which : Program := do
  let a ← arguments { shorts := "as", mixed := false } 2
  let w ← get
  let directories := (w.environment.lookup "PATH").getD usualPath
  if a.operands.isEmpty then setStatus 1
  a.operands.forM fun name => do
    let found :=
      if name.toList.contains '/' then
        if isProgramFile w.disk (readable name) then [name] else []
      else (pathsFor directories name).filter fun path => isProgramFile w.disk (readable path)
    if found.isEmpty then setStatus 1
    (if a.has 'a' then found else found.take 1).forM putLine

/-- The program of a name. -/
def find? (name : String) : Option Program :=
  if name == "which" then some which else table.lookup name

end Program
end Shell
end Unweave

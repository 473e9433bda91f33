import Unweave.Disk.Basic

/-!
# Trees on a disk

Whole directories with all below them: copied, moved and removed.
-/

namespace Unweave
namespace Disk

/-- The entries at a place and below it. -/
def tree (d : Disk) (l : Location) : List (Location × DiskEntry) :=
  d.entries.filter fun (k, _) => l.isPrefixOf k

def isEmptyDirectory (d : Disk) (l : Location) : Bool := (d.children l).isEmpty

/-- Put entries that are below one place below another, with their permissions. -/
def graft (d : Disk) (origin target : Location) (entries : List (Location × DiskEntry)) : Disk :=
  entries.foldl (fun (d : Disk) (k, e) =>
    let l := target ++ k.drop origin.length
    let m := d.modes.lookup k
    let d := match d.at? l, e with
      | some .directory, .directory => d
      | _, e => d.put l e
    match m with
    | some m => d.setMode l m
    | none => d) d

/-- Copy a tree onto another place. -/
def copyTree (d : Disk) (origin target : Location) : Disk := d.graft origin target (d.tree origin)

/-- Move a tree to another place, where nothing stays of what was there. -/
def moveTree (d : Disk) (origin target : Location) : Disk :=
  let entries := d.tree origin
  let d := d.removeTree target
  (d.graft origin target entries).removeTree origin

/-- Remove a directory that has to be empty. -/
def removeDirectory (d : Disk) (path : String) : Except DiskError Disk := do
  match ← d.find path with
  | (l, .directory) => if d.isEmptyDirectory l then .ok (d.removeTree l) else .error .notEmpty
  | _ => .error .notDirectory

end Disk
end Unweave

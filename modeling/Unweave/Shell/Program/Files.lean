import Unweave.Disk.Trees
import Unweave.Shell.Pattern
import Unweave.Shell.Program.Order
import Unweave.Shell.Program.Print

/-!
# Programs that work on files

Listing, making, copying, moving and removing files and directories, and their permissions.
-/

namespace Unweave
namespace Shell
namespace Program

/-- A text cut where it changes between bytes that are shown and others. -/
def shownRuns : List Char → List (Bool × List Char)
  | [] => []
  | c :: cs =>
    match shownRuns cs with
    | (shown, run) :: runs =>
      if shown == isShown c then (shown, c :: run) :: runs else (isShown c, [c]) :: (shown, run) :: runs
    | [] => [(isShown c, [c])]

/-- A name in quotes, so that a shell reads it back; bytes that are not shown stand in quotes of
their own. -/
def quotedRuns (s : String) : String :=
  let runs := shownRuns s.toList
  let start := match runs with
    | (true, _) :: _ => ""
    | _ => "\x27\x27"
  start ++ String.join (runs.map fun (shown, cs) =>
    if shown then
      "\x27" ++ String.join (cs.map fun c =>
        if c == '\x27' then "\x27\\\x27\x27" else String.singleton c) ++ "\x27"
    else "$\x27" ++ String.join (cs.map escapedByte) ++ "\x27")

/-- A file's name in a message; one with an apostrophe is put between other quotes. -/
def quoteName (s : String) : String :=
  let plain := s.toList.all fun c => isShown c && c != '"' && c != '$' && c != '\x60' && c != '\\'
  if s.toList.contains '\x27' && plain then "\"" ++ s ++ "\"" else quotedRuns s

def lookUp (path : String) : Job (Except DiskError (Location × DiskEntry)) := do
  return (← disk).find (readable path)

/-- The last part of a path. -/
def lastPart (path : String) : String :=
  let cs := path.toList.reverse.dropWhile (· == '/')
  String.ofList (cs.takeWhile (· != '/')).reverse

/-- A name in a directory. -/
def within (directory name : String) : String :=
  if directory.endsWith "/" then directory ++ name else directory ++ "/" ++ name

/-! ## Permissions -/

def triad (m : Nat) (special : Bool) (letter : Char) : List Char :=
  [if m &&& 4 != 0 then 'r' else '-', if m &&& 2 != 0 then 'w' else '-',
    if special then (if m &&& 1 != 0 then letter else letter.toUpper)
    else if m &&& 1 != 0 then 'x' else '-']

/-- Permissions as nine letters. -/
def modeText (m : Nat) : String :=
  String.ofList (triad (m / 64) (m &&& 2048 != 0) 's' ++ triad (m / 8 % 8) (m &&& 1024 != 0) 's' ++
    triad (m % 8) (m &&& 512 != 0) 't')

def kindLetter : DiskEntry → String
  | .directory => "d"
  | .device _ => "c"
  | .file _ => "-"

/-- A change of permissions: who, how and which. -/
structure ModeClause where
  who : Nat
  /-- Whether nobody was named, so that the usual mask counts. -/
  anyone : Bool
  operator : Char
  bits : Nat
  /-- Execution only for directories and what can be executed already. -/
  conditional : Bool := false
  /-- Take the bits of another class. -/
  copied : Option Nat := none

def whoBits (c : Char) : Option Nat :=
  match c with
  | 'u' => some 2496
  | 'g' => some 1080
  | 'o' => some 519
  | 'a' => some 4095
  | _ => none

/-- The letters of permissions after an operator. -/
def permissions : List Char → ModeClause → Option ModeClause
  | [], c => some c
  | x :: xs, c =>
    match x with
    | 'r' => permissions xs { c with bits := c.bits ||| 292 }
    | 'w' => permissions xs { c with bits := c.bits ||| 146 }
    | 'x' => permissions xs { c with bits := c.bits ||| 73 }
    | 'X' => permissions xs { c with conditional := true }
    | 's' => permissions xs { c with bits := c.bits ||| 3072 }
    | 't' => permissions xs { c with bits := c.bits ||| 512 }
    | 'u' => permissions xs { c with copied := some 6 }
    | 'g' => permissions xs { c with copied := some 3 }
    | 'o' => permissions xs { c with copied := some 0 }
    | _ => none

/-- The operators of one class of users. -/
def modeActions (who : Nat) (anyone : Bool) : Nat → List Char → Option (List ModeClause)
  | 0, _ => none
  | _ + 1, [] => some []
  | n + 1, o :: cs =>
    if o == '+' || o == '-' || o == '=' then do
      let letters := cs.takeWhile fun c => c != '+' && c != '-' && c != '='
      let c ← permissions letters { who, anyone, operator := o, bits := 0 }
      let more ← modeActions who anyone n (cs.drop letters.length)
      return c :: more
    else none

def modeClauses (s : String) : Option (List ModeClause) := do
  let parts ← (splitAt ',' [] s.toList).mapM fun part => do
    let whos := part.takeWhile fun c => (whoBits c).isSome
    let rest := part.drop whos.length
    if rest.isEmpty then none
    else
      let who := whos.foldl (fun n c => n ||| (whoBits c).getD 0) 0
      modeActions (if whos.isEmpty then 4095 else who) whos.isEmpty (rest.length + 1) rest
  return parts.flatten

/-- Nobody named means that the usual mask takes writing away from others. -/
def usualMask : Nat := 18

def ModeClause.apply (c : ModeClause) (isDirectory : Bool) (m : Nat) : Nat :=
  let bits := match c.copied with
    | some shift =>
      let b := m / Nat.pow 2 shift % 8
      b * 64 + b * 8 + b
    | none => c.bits
  let bits := if c.conditional && (isDirectory || m &&& 73 != 0) then bits ||| 73 else bits
  let bits := bits &&& c.who
  let bits := if c.anyone then bits &&& (4095 ^^^ usualMask) else bits
  match c.operator with
  | '+' => m ||| bits
  | '-' => m &&& (4095 ^^^ bits)
  | _ => (m &&& (4095 ^^^ (c.who &&& 511))) ||| bits

/-- The permissions that a mode makes of others; nothing if it is none. -/
def modeChange (s : String) : Option (Bool → Nat → Nat) :=
  let cs := s.toList
  if !cs.isEmpty && cs.all isOctal && digitsValue 8 cs < 4096 then
    some fun _ _ => digitsValue 8 cs
  else (modeClauses s).map fun clauses isDirectory m =>
    clauses.foldl (fun m c => c.apply isDirectory m) m

/-- Whether an argument that looks like an option is a mode. -/
def isModeArgument (a : String) : Bool :=
  match a.toList with
  | '-' :: c :: _ => ['r', 'w', 'x', 'X', 's', 't', 'u', 'g', 'o'].contains c
  | _ => false

def modePaths (deep : Bool) (path : String) : Job (List (Location × DiskEntry)) := do
  match ← lookUp path with
  | .error e =>
    complain ("cannot access " ++ quoteName path ++ ": " ++ e.reason)
    setStatus 1
    return []
  | .ok (l, e) =>
    let d ← disk
    return if deep then (l, e) :: (d.tree l).filter (·.1 != l) else [(l, e)]

def octalMode (m : Nat) : String := padLeft 4 '0' (digitsIn 8 m)

def chmod : Program := do
  let w ← get
  let guarded := match w.arguments.findIdx? isModeArgument with
    | some i => w.arguments.take i ++ "--" :: w.arguments.drop i
    | none => w.arguments
  set { w with arguments := guarded }
  let a ← arguments
    { shorts := "Rvcf"
      longs := [long "recursive" 'R', long "verbose" 'v', long "changes" 'c', long "quiet" 'f',
        long "silent" 'f', long "reference" 'Z' .value] }
  let a ← match a.value? 'Z' with
    | none => pure a
    | some path =>
      match ← lookUp path with
      | .ok (l, _) =>
        pure { a with operands := digitsIn 8 ((← disk).modeAt l) :: a.operands }
      | .error e => failWith 1 ("failed to get attributes of " ++ quoteName path ++ ": " ++ e.reason)
  match a.operands with
  | [] => failUsage 1 "missing operand"
  | [mode] => failUsage 1 ("missing operand after " ++ quote mode)
  | mode :: paths =>
    match modeChange mode with
    | none => failUsage 1 ("invalid mode: " ++ quote mode)
    | some f =>
      for path in paths do
        for (l, e) in ← modePaths (a.has 'R') path do
          let old := (← disk).modeAt l
          let new := f e.isDirectory old
          setDisk ((← disk).setMode l new)
          if a.has 'v' || (a.has 'c' && old != new) then
            if old == new then
              putLine ("mode of " ++ quoteName path ++ " retained as " ++ octalMode old ++ " (" ++
                modeText old ++ ")")
            else
              putLine ("mode of " ++ quoteName path ++ " changed from " ++ octalMode old ++ " (" ++
                modeText old ++ ") to " ++ octalMode new ++ " (" ++ modeText new ++ ")")

/-! ## Listing -/

structure ListStyle where
  all : Bool := false
  almost : Bool := false
  long : Bool := false
  deep : Bool := false
  asEntries : Bool := false
  reversed : Bool := false
  bySize : Bool := false
  byExtension : Bool := false
  byVersion : Bool := false
  unsorted : Bool := false
  classified : Bool := false
  slashed : Bool := false
  commas : Bool := false
  columns : Bool := false
  sizes : Bool := false
  ignored : List String := []
  ownerless : Bool := false
  groupless : Bool := false
  numeric : Bool := false
  human : Bool := false
  quoted : Bool := false

/-- A name that is listed and what it names. -/
structure Listed where
  name : String
  location : Location
  entry : DiskEntry

def sizeOf : DiskEntry → Nat
  | .file content => content.size
  | .directory => 4096
  | .device _ => 0

/-- Blocks of a thousand bytes and some that an entry takes. -/
def blocksOf : DiskEntry → Nat
  | .file content => (content.size + 4095) / 4096 * 4
  | .directory => 4
  | .device _ => 0

/-- How many names lead to an entry. -/
def linkCount (d : Disk) (x : Listed) : Nat :=
  match x.entry with
  | .directory =>
    2 + ((d.children x.location).filter fun n =>
      match d.at? (x.location ++ [n]) with
      | some .directory => true
      | _ => false).length
  | _ => 1

def extensionOf (s : String) : String :=
  let cs := s.toList
  if cs.contains '.' then String.ofList ((cs.reverse.takeWhile (· != '.')).reverse) else ""

def ListStyle.before (s : ListStyle) (a b : Listed) : Bool :=
  if s.bySize && sizeOf a.entry != sizeOf b.entry then sizeOf a.entry > sizeOf b.entry
  else if s.byExtension && extensionOf a.name != extensionOf b.name then
    extensionOf a.name < extensionOf b.name
  else if s.byVersion then
    compareVersions (a.name.length + b.name.length + 1) a.name.toList b.name.toList != .gt
  else a.name ≤ b.name

def ListStyle.order (s : ListStyle) (xs : List Listed) : List Listed :=
  let xs := if s.unsorted then xs else xs.mergeSort s.before
  if s.reversed then xs.reverse else xs

def ListStyle.shown (s : ListStyle) (d : Disk) (x : Listed) : String :=
  (if s.quoted then "\"" ++ x.name ++ "\"" else x.name) ++
    if x.entry.isDirectory then (if s.classified || s.slashed then "/" else "")
    else if s.classified then
      match x.entry with
      | .file _ => if d.isExecutable x.location then "*" else ""
      | _ => ""
    else ""

/-- The size of an entry in few digits. -/
def humanSize (n : Nat) : String :=
  if n < 1024 then digitsIn 10 n
  else
    let (n, unit) := if n < 1048576 then (n, "K") else (n / 1024, "M")
    if n < 10240 then
      let tenths := (n * 10 + 1023) / 1024
      digitsIn 10 (tenths / 10) ++ "." ++ digitsIn 10 (tenths % 10) ++ unit
    else digitsIn 10 ((n + 1023) / 1024) ++ unit

/-- Lines with all there is to say. -/
def longLines (s : ListStyle) (d : Disk) (xs : List Listed) : List String :=
  let links := xs.map fun x => digitsIn 10 (linkCount d x)
  let size := fun (x : Listed) => if s.human then humanSize (sizeOf x.entry) else digitsIn 10 (sizeOf x.entry)
  let widest := fun (ts : List String) => ts.foldl (fun n t => max n t.length) 0
  let linkWidth := widest links
  let sizeWidth := widest (xs.map size)
  let owner := if s.numeric then "0" else "root"
  (xs.zip links).map fun (x, l) =>
    kindLetter x.entry ++ modeText (d.modeAt x.location) ++ " " ++ padLeft linkWidth ' ' l ++ " " ++
      (if s.ownerless then "" else owner ++ " ") ++ (if s.groupless then "" else owner ++ " ") ++
      padLeft sizeWidth ' ' (size x) ++ " Jan  1 00:00 " ++ s.shown d x

/-- Print entries one after the other. -/
def listEntries (s : ListStyle) (xs : List Listed) : Job Unit := do
  let d ← disk
  if s.long then (longLines s d xs).forM putLine
  else
    let names := xs.map (s.shown d)
    if s.commas then unless names.isEmpty do putLine (", ".intercalate names)
    else if s.columns then unless names.isEmpty do putLine ("  ".intercalate names)
    else if s.sizes then
      let width := xs.foldl (fun n x => max n (digitsIn 10 (blocksOf x.entry)).length) 0
      xs.forM fun x => putLine (padLeft width ' ' (digitsIn 10 (blocksOf x.entry)) ++ " " ++ s.shown d x)
    else names.forM putLine

/-- What a listing of a directory holds. -/
def listedIn (s : ListStyle) (d : Disk) (l : Location) : List Listed :=
  let names := (d.children l).map octets
  let kept := names.filter fun n =>
    (s.all || s.almost || !n.startsWith ".") &&
      !s.ignored.any fun p => Pattern.covers (Pattern.ofText p) n.toList
  let own := kept.filterMap fun n =>
    (d.at? (l ++ [readable n])).map fun e => ({ name := n, location := l ++ [readable n], entry := e } : Listed)
  let dots : List Listed := if s.all then
      [⟨".", l, .directory⟩, ⟨"..", l.dropLast, .directory⟩]
    else []
  s.order (dots ++ own)

/-- List a directory and, if asked, those in it. -/
def listDirectory (s : ListStyle) : Nat → Bool → Bool → String → Location → Job Unit
  | 0, _, _, _, _ => return ()
  | n + 1, titled, first, path, l => do
    if titled then putText ((if first then "" else "\n") ++ path ++ ":\n")
    let d ← disk
    let xs := listedIn s d l
    if s.long || s.sizes then
      putLine ("total " ++ toString (xs.foldl (fun n x => n + blocksOf x.entry) 0))
    listEntries s xs
    if s.deep then
      for x in xs do
        if x.entry.isDirectory && x.name != "." && x.name != ".." then
          listDirectory s n true false (within path x.name) x.location

def listGrammar : Grammar :=
  { shorts := "aA1lRdrFpStXvUfhinogsmxCQqbNkcuBI:w:T:LH"
    longs :=
      [long "all" 'a', long "almost-all" 'A', long "recursive" 'R', long "directory" 'd',
        long "reverse" 'r', long "classify" 'F' .maybe, long "human-readable" 'h', long "inode" 'i',
        long "size" 's', long "ignore" 'I' .value, long "color" 'Z' .maybe, long "sort" 'Y' .value,
        long "quote-name" 'Q', long "literal" 'N', long "numeric-uid-gid" 'n', long "no-group" 'G',
        long "group-directories-first" 'D', long "format" 'O' .value, long "full-time" 'l',
        long "time-style" 'Z' .value, long "si" 'h', long "escape" 'b', long "zero" 'Z'] }

def ls : Program := do
  let a ← arguments listGrammar 2
  let wide := a.last? ['1', 'l', 'm', 'x', 'C', 'g', 'o', 'n']
  let isLong := a.has 'l' || a.has 'g' || a.has 'o' || a.has 'n'
  let s : ListStyle :=
    { all := a.has 'a' || a.has 'f', almost := a.has 'A', long := isLong, deep := a.has 'R',
      asEntries := a.has 'd', reversed := a.has 'r', bySize := a.has 'S', byExtension := a.has 'X',
      byVersion := a.has 'v', unsorted := a.has 'U' || a.has 'f', classified := a.has 'F',
      slashed := a.has 'p', commas := wide == some 'm', columns := wide == some 'x' || wide == some 'C',
      sizes := a.has 's', ignored := a.values 'I', ownerless := a.has 'g',
      groupless := a.has 'o' || a.has 'G', numeric := a.has 'n', human := a.has 'h',
      quoted := a.has 'Q' }
  let operands := if a.operands.isEmpty then ["."] else a.operands
  let mut files : List Listed := []
  let mut directories : List Listed := []
  for path in operands do
    match ← lookUp path with
    | .error e =>
      complain ("cannot access " ++ quoteName path ++ ": " ++ e.reason)
      setStatus 2
    | .ok (l, e) =>
      if e.isDirectory && !s.asEntries then directories := directories ++ [⟨path, l, e⟩]
      else files := files ++ [⟨path, l, e⟩]
  listEntries s (s.order files)
  let titled := s.deep || operands.length > 1
  let mut first := files.isEmpty
  for x in s.order directories do
    listDirectory s 64 titled first x.name x.location
    first := false

/-! ## Making and removing -/

/-- Make a directory and those above it that are missing. -/
def makePath (told : Bool) : List String → String → Job Bool
  | [], _ => return true
  | part :: parts, base => do
    let path := if base.isEmpty then part else within base part
    let next := if part.isEmpty then "/" else path
    match ← lookUp next with
    | .ok (_, .directory) => makePath told parts next
    | .ok _ =>
      complain ("cannot create directory " ++ quoteName next ++
        (if parts.isEmpty then ": File exists" else ": Not a directory"))
      setStatus 1
      return false
    | .error _ =>
      match (← disk).makeDirectory (readable next) with
      | .ok d =>
        setDisk d
        if told then putLine ((← get).name ++ ": created directory " ++ quoteName next)
        makePath told parts next
      | .error e =>
        complain ("cannot create directory " ++ quoteName next ++ ": " ++ e.reason)
        setStatus 1
        return false

def mkdir : Program := do
  let a ← arguments
    { shorts := "pvm:", longs := [long "parents" 'p', long "verbose" 'v', long "mode" 'm' .value] }
  if a.operands.isEmpty then failUsage 1 "missing operand"
  let change ← match a.value? 'm' with
    | none => pure none
    | some m =>
      match modeChange m with
      | some f => pure (some f)
      | none => failWith 1 ("invalid mode " ++ quote m)
  for path in a.operands do
    let made ← if a.has 'p' && !path.isEmpty then
        let parts := (splitAt '/' [] path.toList).map String.ofList
        let parts := match parts with
          | "" :: rest => "" :: rest.filter (!·.isEmpty)
          | parts => parts.filter (!·.isEmpty)
        makePath (a.has 'v') parts ""
      else
        match (← disk).makeDirectory (readable path) with
        | .ok d => do
          setDisk d
          if a.has 'v' then putLine ((← get).name ++ ": created directory " ++ quoteName path)
          pure true
        | .error e => do
          complain ("cannot create directory " ++ quoteName path ++ ": " ++ e.reason)
          setStatus 1
          pure false
    match change, ← lookUp path with
    | some f, .ok (l, _) => if made then setDisk ((← disk).setMode l (f true 511))
    | _, _ => pure ()

/-- A path without its last part. -/
def parentPath (path : String) : String :=
  let cs := (path.toList.reverse.dropWhile (· == '/')).dropWhile (· != '/')
  String.ofList (cs.dropWhile (· == '/')).reverse

/-- Remove directories upwards as long as they are empty. -/
def removeParents (told quiet : Bool) : Nat → String → Job Unit
  | 0, _ => return ()
  | n + 1, path =>
    if path.isEmpty then return ()
    else do
      if told then putLine ((← get).name ++ ": removing directory, " ++ quoteName path)
      match (← disk).removeDirectory (readable path) with
      | .ok d =>
        setDisk d
        removeParents told quiet n (parentPath path)
      | .error e =>
        unless quiet && e == .notEmpty do
          complain ("failed to remove directory " ++ quoteName path ++ ": " ++ e.reason)
          setStatus 1

def rmdir : Program := do
  let a ← arguments
    { shorts := "pv"
      longs := [long "parents" 'p', long "verbose" 'v', long "ignore-fail-on-non-empty" 'q'] }
  if a.operands.isEmpty then failUsage 1 "missing operand"
  for path in a.operands do
    if a.has 'v' then putLine ((← get).name ++ ": removing directory, " ++ quoteName path)
    if lastPart path == "." then
      complain ("failed to remove " ++ quoteName path ++ ": Invalid argument")
      setStatus 1
    else
      match (← disk).removeDirectory (readable path) with
      | .ok d =>
        setDisk d
        if a.has 'p' then removeParents (a.has 'v') (a.has 'q') path.length (parentPath path)
      | .error e =>
        unless a.has 'q' && e == .notEmpty do
          complain ("failed to remove " ++ quoteName path ++ ": " ++ e.reason)
          setStatus 1

def touch : Program := do
  let a ← arguments
    { shorts := "acmd:t:r:fh"
      longs := [long "no-create" 'c', long "date" 'd' .value, long "reference" 'r' .value] }
  if a.operands.isEmpty then failUsage 1 "missing file operand"
  for path in a.operands do
    match ← lookUp path with
    | .ok _ => pure ()
    | .error e =>
      unless a.has 'c' && e == .notFound do
        if path.endsWith "/" then
          complain ("setting times of " ++ quoteName path ++ ": " ++ e.reason)
          setStatus 1
        else
          change ((← disk).writeBytes (readable path) .empty)
            fun e => "cannot touch " ++ quoteName path ++ ": " ++ e.reason

/-- Tell what is removed with a tree, from below. -/
def removedLines (d : Disk) : Nat → String → Location → List String
  | 0, _, _ => []
  | n + 1, path, l =>
    match d.at? l with
    | some .directory =>
      ((d.children l).flatMap fun c => removedLines d n (within path (octets c)) (l ++ [c])) ++
        ["removed directory " ++ quoteName path]
    | _ => ["removed " ++ quoteName path]

def rm : Program := do
  let a ← arguments
    { shorts := "frRdviI"
      longs := [long "force" 'f', long "recursive" 'r', long "dir" 'd', long "verbose" 'v',
        long "interactive" 'i' .maybe, long "one-file-system" 'x', long "no-preserve-root" 'x',
        long "preserve-root" 'x'] }
  if a.operands.isEmpty then
    if a.has 'f' then quit 0 else failUsage 1 "missing operand"
  let deep := a.has 'r' || a.has 'R'
  for path in a.operands do
    let refuse := fun (reason : String) => do
      complain ("cannot remove " ++ quoteName path ++ ": " ++ reason)
      setStatus 1
    match ← lookUp path with
    | .error e => unless a.has 'f' && (e == .notFound || e == .notDirectory) do refuse e.reason
    | .ok (l, .directory) =>
      let d ← disk
      if deep then
        let last := lastPart path
        if last == "." || last == ".." then
          complain ("refusing to remove \x27.\x27 or \x27..\x27 directory: skipping " ++ quoteName path)
          setStatus 1
        else if l.isEmpty then
          complain "it is dangerous to operate recursively on \x27/\x27"
          complain "use --no-preserve-root to override this failsafe"
          setStatus 1
        else
          if a.has 'v' then (removedLines d 64 path l).forM putLine
          setDisk (d.removeTree l)
      else if a.has 'd' then
        if d.isEmptyDirectory l then
          if a.has 'v' then putLine ("removed directory " ++ quoteName path)
          setDisk (d.removeTree l)
        else refuse "Directory not empty"
      else refuse "Is a directory"
    | .ok (l, e) =>
      let asks := a.last? ['i', 'f'] == some 'i'
      let yes ← if asks then do
          let empty := match e with
            | .file content => content.isEmpty
            | _ => false
          putError ((← get).name ++ ": remove regular " ++ (if empty then "empty " else "") ++ "file " ++
            quoteName path ++ "? ")
          let input ← takeInput
          let line := input.text.takeWhile (· != '\n')
          modify fun w => { w with input := input.drop (line.length + 1) }
          pure (line.head? == some 'y' || line.head? == some 'Y')
        else pure true
      if yes then
        if a.has 'v' then putLine ("removed " ++ quoteName path)
        setDisk ((← disk).removeTree l)

/-! ## Copying and moving -/

/-- Where the sources of a copy go: a directory, or a path of its own. -/
inductive Destination where
  | into (directory : String)
  | onto (path : String)

def destination (a : Arguments) : Job (List String × Destination) := do
  match a.value? 't' with
  | some dir =>
    match ← lookUp dir with
    | .ok (_, .directory) => pure ()
    | .ok _ => failWith 1 ("target directory " ++ quoteName dir ++ ": Not a directory")
    | .error e => failWith 1 ("target directory " ++ quoteName dir ++ ": " ++ e.reason)
    if a.operands.isEmpty then failUsage 1 "missing file operand"
    return (a.operands, .into dir)
  | none =>
    match a.operands.reverse with
    | [] => failUsage 1 "missing file operand"
    | [x] => failUsage 1 ("missing destination file operand after " ++ quoteName x)
    | target :: sources =>
      let sources := sources.reverse
      if a.has 'T' then
        match sources with
        | [_] => return (sources, .onto target)
        | _ => failUsage 1 ("extra operand " ++ quoteName target)
      match ← lookUp target, sources with
      | .ok (_, .directory), _ => return (sources, .into target)
      | _, [_] => return (sources, .onto target)
      | .ok _, _ => failWith 1 ("target " ++ quoteName target ++ ": Not a directory")
      | .error e, _ => failWith 1 ("target " ++ quoteName target ++ ": " ++ e.reason)

def targetPath (d : Destination) (source : String) : String :=
  match d with
  | .onto p => p
  | .into dir =>
    let last := lastPart source
    if last == "." || last == ".." then dir else within dir last

def refuse (message : String) : Job Unit := do
  complain message
  setStatus 1

/-- Lines about what is copied with a tree. -/
def copiedLines (d : Disk) : Nat → String → String → Location → List String
  | 0, _, _, _ => []
  | n + 1, source, target, l =>
    (quoteName source ++ " -> " ++ quoteName target) ::
      match d.at? l with
      | some .directory =>
        (d.children l).flatMap fun c =>
          copiedLines d n (within source (octets c)) (within target (octets c)) (l ++ [c])
      | _ => []

def copyDirectory (a : Arguments) (source target : String) (l : Location) : Job Unit := do
  let d ← disk
  match d.find (readable target) with
  | .ok (_, .file _) | .ok (_, .device _) =>
    refuse ("cannot overwrite non-directory " ++ quoteName target ++ " with directory " ++ quoteName source)
  | found =>
    match d.locate (readable target) with
    | .error e => refuse ("cannot create directory " ++ quoteName target ++ ": " ++ e.reason)
    | .ok t =>
      if l.isPrefixOf t.location then
        refuse ("cannot copy a directory, " ++ quoteName source ++ ", into itself, " ++ quoteName target)
      else
        match found, d.locateParent (readable target) with
        | .error _, .error e => refuse ("cannot create directory " ++ quoteName target ++ ": " ++ e.reason)
        | _, _ =>
          if a.has 'v' then (copiedLines d 64 source target l).forM putLine
          setDisk (d.copyTree l t.location)

def copyFile (a : Arguments) (source target : String) (l : Location) (content : ByteArray) :
    Job Unit := do
  let d ← disk
  match d.find (readable target) with
  | .ok (_, .directory) =>
    refuse ("cannot overwrite directory " ++ quoteName target ++ " with non-directory")
  | .ok (m, e) =>
    if l == m then refuse (quoteName source ++ " and " ++ quoteName target ++ " are the same file")
    else unless a.has 'n' do
      match e with
      | .file _ => setDisk (d.put m (.file content))
      | _ => pure ()
      if a.has 'v' then putLine (quoteName source ++ " -> " ++ quoteName target)
  | .error e =>
    let failure := if target.endsWith "/" && e == .notFound then
        match d.locateParent (readable target) with
        | .ok _ => some DiskError.notDirectory
        | .error e => some e
      else if e == .notFound then none
      else some e
    match failure with
    | some e =>
      if e == .notDirectory && !target.endsWith "/" then
        refuse ("cannot stat " ++ quoteName target ++ ": " ++ e.reason)
      else refuse ("cannot create regular file " ++ quoteName target ++ ": " ++ e.reason)
    | none =>
      match d.locateFile (readable target), d.locateParent (readable target) with
      | .ok m, .ok _ =>
        let made := d.put m (.file content)
        setDisk (match d.modes.lookup l with
          | some mode => made.setMode m mode
          | none => made)
        if a.has 'v' then putLine (quoteName source ++ " -> " ++ quoteName target)
      | .error e, _ => refuse ("cannot create regular file " ++ quoteName target ++ ": " ++ e.reason)
      | _, .error e => refuse ("cannot create regular file " ++ quoteName target ++ ": " ++ e.reason)

def cp : Program := do
  let a ← arguments
    { shorts := "rRafnvpt:Tiudl"
      longs := [long "recursive" 'r', long "archive" 'a', long "force" 'f', long "no-clobber" 'n',
        long "verbose" 'v', long "preserve" 'p' .maybe, long "target-directory" 't' .value,
        long "no-target-directory" 'T', long "update" 'u' .maybe, long "interactive" 'i'] }
  let (sources, target) ← destination a
  let deep := a.has 'r' || a.has 'R' || a.has 'a'
  let mut seen : List (String × Location) := []
  for source in sources do
    match ← lookUp source with
    | .error e => refuse ("cannot stat " ++ quoteName source ++ ": " ++ e.reason)
    | .ok (l, e) =>
      let path := targetPath target source
      if seen.any fun (_, m) => m == l then
        complain ("warning: source " ++ (if e.isDirectory then "directory " else "file ") ++
          quoteName source ++ " specified more than once")
      else
        seen := (source, l) :: seen
        match e with
        | .directory =>
          if deep then copyDirectory a source path l
          else refuse ("-r not specified; omitting directory " ++ quoteName source)
        | .file content => copyFile a source path l content
        | .device .null => copyFile a source path l .empty
        | .device .zero => throw .stuck

/-- Move one file or directory. -/
def moveOne (a : Arguments) (source target : String) (l : Location) (e : DiskEntry) : Job Unit := do
  let d ← disk
  let done := fun (m : Location) => do
    setDisk (d.moveTree l m)
    if a.has 'v' then putLine ("renamed " ++ quoteName source ++ " -> " ++ quoteName target)
  match d.find (readable target) with
  | .ok (m, found) =>
    if l == m then refuse (quoteName source ++ " and " ++ quoteName target ++ " are the same file")
    else if a.has 'n' then complain ("not replacing " ++ quoteName target)
    else if e.isDirectory then
      if !found.isDirectory then
        refuse ("cannot overwrite non-directory " ++ quoteName target ++ " with directory " ++ quoteName source)
      else if l.isPrefixOf m then
        refuse ("cannot move " ++ quoteName source ++ " to a subdirectory of itself, " ++ quoteName target)
      else if d.isEmptyDirectory m then done m
      else refuse ("cannot overwrite " ++ quoteName target ++ ": Directory not empty")
    else if found.isDirectory then
      refuse ("cannot overwrite directory " ++ quoteName target ++ " with non-directory")
    else done m
  | .error reason =>
    let cannot := fun (e : DiskError) =>
      refuse ("cannot move " ++ quoteName source ++ " to " ++ quoteName target ++ ": " ++ e.reason)
    if reason == .notDirectory then
      refuse ("cannot stat " ++ quoteName target ++ ": " ++ reason.reason)
    else
      match d.locate (readable target), d.locateParent (readable target) with
      | .error e, _ => cannot e
      | _, .error e => cannot e
      | .ok t, .ok _ =>
        if t.asDirectory && !e.isDirectory then cannot .notDirectory
        else if l.isPrefixOf t.location then
          refuse ("cannot move " ++ quoteName source ++ " to a subdirectory of itself, " ++ quoteName target)
        else done t.location

def mv : Program := do
  let a ← arguments
    { shorts := "fnvt:Tiu"
      longs := [long "force" 'f', long "no-clobber" 'n', long "verbose" 'v',
        long "target-directory" 't' .value, long "no-target-directory" 'T', long "update" 'u' .maybe,
        long "interactive" 'i'] }
  let (sources, target) ← destination a
  for source in sources do
    match ← lookUp source with
    | .error e => refuse ("cannot stat " ++ quoteName source ++ ": " ++ e.reason)
    | .ok (l, e) =>
      let path := targetPath target source
      if lastPart source == "." || lastPart source == ".." then
        refuse ("cannot move " ++ quoteName source ++ " to " ++ quoteName path ++ ": Device or resource busy")
      else moveOne a source path l e

/-! ## Facts about files -/

def kindName : DiskEntry → String
  | .directory => "directory"
  | .device _ => "character special file"
  | .file content => if content.isEmpty then "regular empty file" else "regular file"

/-- The facts that letters of a format ask for. -/
def statText (d : Disk) (path : String) (l : Location) (e : DiskEntry) : List Char → List Char
  | '%' :: c :: cs =>
    let rest := statText d path l e cs
    match c with
    | 's' => (digitsIn 10 (sizeOf e)).toList ++ rest
    | 'n' => path.toList ++ rest
    | 'a' => (digitsIn 8 (d.modeAt l)).toList ++ rest
    | 'A' => (kindLetter e ++ modeText (d.modeAt l)).toList ++ rest
    | 'F' => (kindName e).toList ++ rest
    | 'U' | 'G' => "root".toList ++ rest
    | 'u' | 'g' => '0' :: rest
    | 'h' => (digitsIn 10 (linkCount d { name := path, location := l, entry := e })).toList ++ rest
    | '%' => '%' :: rest
    | c => '%' :: c :: rest
  | c :: cs => c :: statText d path l e cs
  | [] => []

def stat : Program := do
  let a ← arguments
    { shorts := "c:Lft", longs := [long "format" 'c' .value, long "printf" 'P' .value] }
  if a.operands.isEmpty then failUsage 1 "missing operand"
  for path in a.operands do
    match ← lookUp path with
    | .error e =>
      complain ("cannot statx " ++ quoteName path ++ ": " ++ e.reason)
      setStatus 1
    | .ok (l, e) =>
      let d ← disk
      match a.value? 'P' with
      | some f => put (statText d path l e (programText f).1)
      | none => put (statText d path l e ((a.value? 'c').getD "%n").toList ++ ['\n'])

/-- The absolute path of what a path leads to. -/
def realpath : Program := do
  let a ← arguments
    { shorts := "emsqzLP"
      longs := [long "canonicalize-existing" 'e', long "canonicalize-missing" 'm', long "quiet" 'q',
        long "no-symlinks" 's'] }
  if a.operands.isEmpty then failUsage 1 "missing operand"
  for path in a.operands do
    let d ← disk
    let fail := fun (e : DiskError) => do
      unless a.has 'q' do complain (path ++ ": " ++ e.reason)
      setStatus 1
    match d.find (readable path), d.locate (readable path), d.locateParent (readable path) with
    | .ok (l, _), _, _ => putLine (octets (Disk.pathOf l))
    | .error e, .ok t, .ok _ =>
      if a.has 'e' then fail e else putLine (octets (Disk.pathOf t.location))
    | .error e, _, _ => fail e

def readlink : Program := do
  let a ← arguments
    { shorts := "femnqsvz"
      longs := [long "canonicalize" 'f', long "canonicalize-existing" 'e', long "no-newline" 'n'] }
  if a.operands.isEmpty then failUsage 1 "missing operand"
  for path in a.operands do
    let d ← disk
    if a.has 'f' || a.has 'e' || a.has 'm' then
      match d.find (readable path), d.locate (readable path), d.locateParent (readable path) with
      | .ok (l, _), _, _ => putText (octets (Disk.pathOf l) ++ if a.has 'n' then "" else "\n")
      | .error _, .ok t, .ok _ =>
        if a.has 'e' then setStatus 1
        else putText (octets (Disk.pathOf t.location) ++ if a.has 'n' then "" else "\n")
      | _, _, _ => setStatus 1
    else setStatus 1

def truncate : Program := do
  let a ← arguments
    { shorts := "s:co", longs := [long "size" 's' .value, long "no-create" 'c'] }
  match a.value? 's' with
  | none => failUsage 1 "you must specify either \x27--size\x27 or \x27--reference\x27"
  | some size =>
    if a.operands.isEmpty then failUsage 1 "missing file operand"
    let (sign, digits) := match size.toList with
      | '+' :: ds => (some '+', ds)
      | '-' :: ds => (some '-', ds)
      | ds => (none, ds)
    match countOf? digits with
    | none => failWith 1 ("Invalid number: " ++ quote size)
    | some n =>
      for path in a.operands do
        let d ← disk
        let old := match d.readBytes (readable path) with
          | .ok content => octetsOf content
          | .error _ => []
        let length := match sign with
          | some '+' => old.length + n
          | some _ => old.length - n
          | none => n
        let new := old.take length ++ List.replicate (length - old.length) (Char.ofNat 0)
        change (d.writeBytes (readable path) (contentOf new))
          fun e => "cannot open " ++ quoteName path ++ " for writing: " ++ e.reason

/-- The value of an operand that is written with its name. -/
def operandValue? (name : String) (as : List String) : Option String :=
  as.reverse.findSome? fun a =>
    if a.startsWith (name ++ "=") then some (String.ofList (a.toList.drop (name.length + 1))) else none

/-- Copy blocks of a file. -/
def dd : Program := do
  let as := (← get).arguments
  let known := ["if", "of", "bs", "ibs", "obs", "count", "skip", "seek", "status", "conv", "iflag", "oflag"]
  match as.find? fun a => !known.any fun k => a.startsWith (k ++ "=") with
  | some a => failUsage 1 ("unrecognized operand " ++ quote a)
  | none => pure ()
  let number := fun (name : String) (default : Nat) =>
    (((operandValue? name as).map String.toList).bind countOf?).getD default
  let block := number "bs" (number "ibs" 512)
  let source ← match operandValue? "if" as with
    | none => takeInput
    | some path =>
      match ← openFile path with
      | .ok s => pure s
      | .error .isDirectory => failWith 1 ("error reading " ++ quoteName path ++ ": Is a directory")
      | .error e => failWith 1 ("failed to open " ++ quoteName path ++ ": " ++ e.reason)
  let skipped := source.drop (number "skip" 0 * block)
  let text ← match operandValue? "count" as with
    | some _ => pure (skipped.take (number "count" 0 * block))
    | none => if skipped.isEndless then throw .stuck else pure skipped.text
  match operandValue? "of" as with
  | none => put text
  | some path =>
    let d ← disk
    let old := if operandValue? "conv" as == some "notrunc" || number "seek" 0 > 0 then
        match d.readBytes (readable path) with
        | .ok content => octetsOf content
        | .error _ => []
      else []
    let start := number "seek" 0 * number "bs" (number "obs" 512)
    let before := old.take start ++ List.replicate (start - old.length) (Char.ofNat 0)
    let after := if operandValue? "conv" as == some "notrunc" then old.drop (start + text.length) else []
    match d.writeBytes (readable path) (contentOf (before ++ text ++ after)) with
    | .ok d => setDisk d
    | .error e => failWith 1 ("failed to open " ++ quoteName path ++ ": " ++ e.reason)
  unless operandValue? "status" as == some "none" do
    let whole := if block = 0 then 0 else text.length / block
    let rest := if block = 0 then 0 else if text.length % block == 0 then 0 else 1
    let records := toString whole ++ "+" ++ toString rest ++ " records "
    putError (records ++ "in\n" ++ records ++ "out\n")
    unless operandValue? "status" as == some "noxfer" do
      putError (toString text.length ++ " bytes copied, 0 s, 0 kB/s\n")

/-- Make a file or directory with a name that is not in use. -/
def mktemp : Program := do
  let a ← arguments
    { shorts := "dup:qt"
      longs := [long "directory" 'd', long "dry-run" 'u', long "tmpdir" 'p' .maybe, long "quiet" 'q'] }
  let d ← disk
  let template := a.operands.headD "tmp.XXXXXXXXXX"
  let places := (template.toList.reverse.takeWhile (· == 'X')).length
  if places < 3 then failWith 1 ("too few X\x27s in template " ++ quote template)
  let name := String.ofList (template.toList.take (template.length - places)) ++
    padLeft places 'a' (digitsIn 10 d.made)
  let directory := match a.value? 'p' with
    | some dir => if dir.isEmpty then octets (Disk.pathOf d.temporary) else dir
    | none => octets (Disk.pathOf d.temporary)
  let path := if a.operands.isEmpty || a.has 'p' || a.has 't' then within directory name else name
  unless a.has 'u' do
    let made := if a.has 'd' then d.makeDirectory (readable path) else d.writeBytes (readable path) .empty
    match made with
    | .ok d =>
      let d := { d with made := d.made + 1 }
      setDisk (match d.find (readable path) with
        | .ok (l, _) => d.setMode l (if a.has 'd' then 448 else 384)
        | .error _ => d)
    | .error e =>
      failWith 1 ("failed to create " ++ (if a.has 'd' then "directory" else "file") ++ " via template " ++
        quote (within directory template) ++ ": " ++ e.reason)
  putLine path

end Program
end Shell
end Unweave

import Unweave.Shell.Program.Files
import Unweave.Shell.Regex

/-!
# Searching for files, and commands for many arguments
-/

namespace Unweave
namespace Shell
namespace Program
namespace Find

/-- A number that has to be reached, passed or missed. -/
inductive Bound where
  | exactly (n : Nat)
  | more (n : Nat)
  | less (n : Nat)

def Bound.holds (b : Bound) (n : Nat) : Bool :=
  match b with
  | exactly m => n == m
  | more m => n > m
  | less m => n < m

def bound? (cs : List Char) : Option (Bound × List Char) :=
  let digits := fun (make : Nat → Bound) (cs : List Char) =>
    let ds := cs.takeWhile Char.isDigit
    if ds.isEmpty then none else some (make (digitsValue 10 ds), cs.drop ds.length)
  match cs with
  | '+' :: cs => digits .more cs
  | '-' :: cs => digits .less cs
  | cs => digits .exactly cs

inductive Expression where
  | always (b : Bool)
  | name (p : List Pattern.Item)
  | foldedName (p : List Pattern.Item)
  | path (p : List Pattern.Item)
  | regex (m : Matcher)
  | kinds (cs : List Char)
  | empty
  | size (b : Bound) (unit : Nat)
  | mode (bits : Nat) (how : Char)
  | test (operator : String)
  | print
  | printZero
  | printFormat (format : String)
  | exec (words : List String)
  /-- Run once for many, at the end. -/
  | execMany (index : Nat) (words : List String)
  | delete
  | prune
  | quit
  | not (e : Expression)
  | both (a b : Expression)
  | either (a b : Expression)
  | sequence (a b : Expression)

structure Options where
  least : Nat := 0
  most : Option Nat := none
  /-- Whether directories come after what is in them. -/
  depth : Bool := false

structure Reader where
  rest : List String
  options : Options := {}
  /-- Whether something is done with what is found. -/
  acts : Bool := false
  many : Nat := 0

abbrev Parse : Type → Type := EStateM String Reader

def peek : Parse (Option String) := do
  return (← get).rest.head?

def next : Parse (Option String) := do
  let s ← get
  set { s with rest := s.rest.drop 1 }
  return s.rest.head?

def argument (name : String) : Parse String := do
  match ← next with
  | some a => return a
  | none => throw ("missing argument to \x60" ++ name ++ "\x27")

def acting (e : Expression) : Parse Expression := do
  modify fun s => { s with acts := true }
  return e

/-- The words of a command up to the mark that ends it. -/
def commandWords (name : String) : Nat → List String → Parse Expression
  | 0, _ => throw ("missing argument to \x60" ++ name ++ "\x27")
  | n + 1, out => do
    match ← next with
    | none => throw ("missing argument to \x60" ++ name ++ "\x27")
    | some ";" =>
      if out.isEmpty then throw ("missing argument to \x60" ++ name ++ "\x27")
      acting (.exec out.reverse)
    | some "+" =>
      if out.head? == some "\x7b\x7d" then
        let s ← get
        set { s with many := s.many + 1 }
        acting (.execMany s.many (out.drop 1).reverse)
      else commandWords name n ("+" :: out)
    | some w => commandWords name n (w :: out)

def depthArgument (name : String) : Parse Nat := do
  let a ← argument name
  match natural? a with
  | some n => return n
  | none =>
    throw ("Expected a positive decimal integer argument to " ++ name ++ ", but got " ++ quote a)

def sizeUnit (c : Char) : Option Nat :=
  match c with
  | 'b' => some 512
  | 'c' => some 1
  | 'w' => some 2
  | 'k' => some 1024
  | 'M' => some 1048576
  | 'G' => some 1073741824
  | _ => none

def primary (word : String) : Parse Expression := do
  let pattern := fun (s : String) => Pattern.ofText s
  let lower := fun (s : String) => String.ofList (s.toList.map Char.toLower)
  match word with
  | "-name" => return .name (pattern (← argument word))
  | "-iname" => return .foldedName (pattern (lower (← argument word)))
  | "-path" | "-wholename" => return .path (pattern (← argument word))
  | "-regex" =>
    match Regex.compile {} false (← argument word).toList with
    | .ok m => return .regex m
    | .error e => throw e
  | "-type" =>
    let a ← argument word
    let kinds := (splitAt ',' [] a.toList).flatten
    match kinds.find? fun c => !(['f', 'd', 'l', 'c', 'b', 'p', 's'].contains c) with
    | some _ => throw ("Unknown argument to -type: " ++ a)
    | none => return .kinds kinds
  | "-empty" => return .empty
  | "-size" =>
    let a ← argument word
    match bound? a.toList with
    | some (b, []) => return .size b 512
    | some (b, [c]) =>
      match sizeUnit c with
      | some u => return .size b u
      | none => throw ("invalid -size type \x60" ++ String.singleton c ++ "\x27")
    | _ => throw ("Invalid argument \x60" ++ a ++ "\x27 to -size")
  | "-perm" =>
    let a ← argument word
    let (how, mode) := match a.toList with
      | '-' :: cs => ('-', String.ofList cs)
      | '/' :: cs => ('/', String.ofList cs)
      | _ => ('=', a)
    match modeChange mode with
    | some f => return .mode (f false 0) how
    | none => throw ("invalid mode " ++ quote a)
  | "-executable" => return .test "-x"
  | "-readable" => return .test "-r"
  | "-writable" => return .test "-w"
  | "-true" => return .always true
  | "-false" => return .always false
  | "-print" => acting .print
  | "-print0" => acting .printZero
  | "-printf" => acting (.printFormat (← argument word))
  | "-exec" | "-execdir" => commandWords word (2 * (← get).rest.length + 2) []
  | "-delete" =>
    modify fun s => { s with options := { s.options with depth := true } }
    acting .delete
  | "-prune" => return .prune
  | "-quit" => acting .quit
  | "-depth" | "-d" =>
    modify fun s => { s with options := { s.options with depth := true } }
    return .always true
  | "-maxdepth" =>
    let n ← depthArgument word
    modify fun s => { s with options := { s.options with most := some n } }
    return .always true
  | "-mindepth" =>
    let n ← depthArgument word
    modify fun s => { s with options := { s.options with least := n } }
    return .always true
  | "-xdev" | "-mount" | "-follow" | "-noleaf" | "-warn" | "-nowarn" | "-daystart" =>
    return .always true
  | "-user" | "-group" | "-uid" | "-gid" | "-mtime" | "-mmin" | "-links" =>
    let _ ← argument word
    return .always true
  | "-newer" =>
    let _ ← argument word
    return .always false
  | w =>
    if w.startsWith "-" then throw ("unknown predicate \x60" ++ w ++ "\x27")
    else throw ("paths must precede expression: \x60" ++ w ++ "\x27")

mutual

def sequence : Nat → Parse Expression
  | 0 => throw "expression too long"
  | n + 1 => do
    let a ← disjunction n
    if (← peek) == some "," then
      let _ ← next
      return .sequence a (← sequence n)
    else return a

def disjunction : Nat → Parse Expression
  | 0 => throw "expression too long"
  | n + 1 => do
    let a ← conjunction n
    match ← peek with
    | some "-o" | some "-or" =>
      let _ ← next
      return .either a (← disjunction n)
    | _ => return a

def conjunction : Nat → Parse Expression
  | 0 => throw "expression too long"
  | n + 1 => do
    let a ← negation n
    match ← peek with
    | none => return a
    | some w =>
      if w == "-a" || w == "-and" then
        let _ ← next
        return .both a (← conjunction n)
      else if w == "-o" || w == "-or" || w == ")" || w == "," then return a
      else return .both a (← conjunction n)

def negation : Nat → Parse Expression
  | 0 => throw "expression too long"
  | n + 1 => do
    match ← next with
    | none => throw "invalid expression; I was expecting to find something"
    | some "!" | some "-not" => return .not (← negation n)
    | some "(" =>
      let e ← sequence n
      match ← next with
      | some ")" => return e
      | _ =>
        throw "invalid expression; I was expecting to find a \x27)\x27 somewhere but did not see one."
    | some w =>
      if w == "-a" || w == "-o" || w == "-and" || w == "-or" || w == "," then
        throw ("invalid expression; you have used a binary operator " ++ quote w ++
          " with nothing before it.")
      else primary w

end

/-- Paths come before the expression. -/
def startsExpression (w : String) : Bool :=
  (w.startsWith "-" && w.length > 1) || w == "!" || w == "("

def parse (words : List String) : Except String (Expression × Reader) :=
  if words.isEmpty then .ok (.always true, { rest := [] })
  else
    match (sequence (8 * words.length + 16)).run { rest := words } with
    | .error e _ => .error e
    | .ok e s =>
      match s.rest with
      | [] => .ok (e, s)
      | w :: _ =>
        .error (if w == ")" then "invalid expression; you have too many \x27)\x27"
          else "paths must precede expression: \x60" ++ w ++ "\x27")

/-! ## Walking -/

/-- A file that is looked at. -/
structure Found where
  path : String
  /-- The path that the search started at. -/
  start : String
  location : Location
  entry : DiskEntry
  depth : Nat

def kindOf : DiskEntry → Char
  | .directory => 'd'
  | .device _ => 'c'
  | .file _ => 'f'

/-- The facts that a format asks for. -/
def formatText (d : Disk) (x : Found) : List Char → List Char
  | '%' :: c :: cs =>
    let rest := formatText d x cs
    match c with
    | 'p' => x.path.toList ++ rest
    | 'f' => (lastPart x.path).toList ++ rest
    | 'P' => (x.path.toList.drop (x.start.length + 1)) ++ rest
    | 'h' =>
      let cs := x.path.toList.reverse.dropWhile (· != '/')
      (if cs.isEmpty then ['.'] else (cs.drop 1).reverse) ++ rest
    | 's' => (digitsIn 10 (sizeOf x.entry)).toList ++ rest
    | 'd' => (digitsIn 10 x.depth).toList ++ rest
    | 'y' => kindOf x.entry :: rest
    | 'm' => (digitsIn 8 (d.modeAt x.location)).toList ++ rest
    | 'M' => (kindLetter x.entry ++ modeText (d.modeAt x.location)).toList ++ rest
    | 'u' | 'g' => "root".toList ++ rest
    | '%' => '%' :: rest
    | c => '%' :: c :: rest
  | c :: cs => c :: formatText d x cs
  | [] => []

structure Progress where
  /-- What commands that run once at the end are for. -/
  many : List (Nat × String) := []
  pruned : Bool := false
  ended : Bool := false
  failed : Bool := false

abbrev Search : Type → Type := StateT Progress Job

def modeHolds (how : Char) (bits mode : Nat) : Bool :=
  match how with
  | '-' => mode &&& bits == bits
  | '/' => bits == 0 || mode &&& bits != 0
  | _ => mode == bits

def replaceBraces (path : String) (w : String) : String := path.intercalate (w.splitOn "\x7b\x7d")

def evaluate (x : Found) : Expression → Search Bool
  | .always b => return b
  | .name p => return Pattern.covers p (lastPart x.path).toList
  | .foldedName p => return Pattern.covers p ((lastPart x.path).toList.map Char.toLower)
  | .path p => return Pattern.covers p x.path.toList
  | .regex m =>
    let text := x.path.toList.toArray
    return (Regex.ends (m.subject text) m.regex 0 []).any fun (j, _) => j == text.size
  | .kinds cs => return cs.contains (kindOf x.entry)
  | .empty => do
    match x.entry with
    | .directory => return (← disk).isEmptyDirectory x.location
    | .file content => return content.isEmpty
    | .device _ => return false
  | .size b unit => return b.holds ((sizeOf x.entry + unit - 1) / unit)
  | .mode bits how => do
    return modeHolds how bits ((← disk).modeAt x.location)
  | .test o => do
    match o with
    | "-x" => return x.entry.isDirectory || (← disk).isExecutable x.location
    | _ => return true
  | .print => do
    putLine x.path
    return true
  | .printZero => do
    put (x.path.toList ++ [Char.ofNat 0])
    return true
  | .printFormat f => do
    put (formatText (← disk) x (programText f).1)
    return true
  | .exec words => do
    let w ← getThe Work
    match ← startOther (words.map (replaceBraces x.path)) w.environment {} with
    | .ok status => return status == 0
    | .error e => do
      complain (quote (words.headD "") ++ ": " ++ e.reason)
      return false
  | .execMany k _ => do
    modify fun s => { s with many := s.many ++ [(k, x.path)] }
    return true
  | .delete => do
    let d ← disk
    if x.path == "." then return true
    else if x.entry.isDirectory && !d.isEmptyDirectory x.location then
      complain ("cannot delete " ++ quoteName x.path ++ ": Directory not empty")
      modify fun s => { s with failed := true }
      return false
    else
      setDisk (d.removeTree x.location)
      return true
  | .prune => do
    modify fun s => { s with pruned := true }
    return true
  | .quit => do
    modify fun s => { s with ended := true }
    return true
  | .not e => do
    return !(← evaluate x e)
  | .both a b => do if ← evaluate x a then evaluate x b else return false
  | .either a b => do if ← evaluate x a then return true else evaluate x b
  | .sequence a b => do
    let _ ← evaluate x a
    evaluate x b

def visit (o : Options) (e : Expression) (x : Found) : Search Unit := do
  if x.depth ≥ o.least && !(← getThe Progress).ended then
    let _ ← evaluate x e

def walk (o : Options) (e : Expression) (start : String) : Nat → Nat → String → Location → Search Unit
  | 0, _, _, _ => return ()
  | n + 1, depth, path, l => do
    match (← disk).at? l with
    | none => return ()
    | some entry =>
      let x : Found := { path, start, location := l, entry, depth }
      modify fun s => { s with pruned := false }
      unless o.depth do visit o e x
      let s ← getThe Progress
      if entry.isDirectory && !(s.pruned && !o.depth) && !s.ended &&
          (match o.most with
          | some m => depth < m
          | none => true) then
        for name in (← disk).children l do
          walk o e start n (depth + 1) (within path (octets name)) (l ++ [name])
      if o.depth then visit o e x

/-- The commands that run once for many. -/
def manyCommands : Expression → List (Nat × List String)
  | .execMany k words => [(k, words)]
  | .not e => manyCommands e
  | .both a b => manyCommands a ++ manyCommands b
  | .either a b => manyCommands a ++ manyCommands b
  | .sequence a b => manyCommands a ++ manyCommands b
  | _ => []

end Find

open Find in
def find : Program := do
  let as := (← get).arguments.dropWhile fun a => a == "-H" || a == "-L" || a == "-P"
  let paths := as.takeWhile fun a => !startsExpression a
  match Find.parse (as.drop paths.length) with
  | .error e => failWith 1 e
  | .ok (e, r) =>
    let e := if r.acts then e else .both e .print
    let mut progress : Progress := {}
    for path in (if paths.isEmpty then ["."] else paths) do
      unless progress.ended do
        match ← lookUp path with
        | .error reason =>
          complain (quoteName path ++ ": " ++ reason.reason)
          setStatus 1
        | .ok (l, _) =>
          let (_, p) ← (Find.walk r.options e path 64 0 path l).run progress
          progress := p
    for (k, words) in manyCommands e do
      let found := progress.many.filterMap fun (j, path) => if j == k then some path else none
      unless found.isEmpty do
        match ← startOther (words ++ found) (← get).environment {} with
        | .ok 0 => pure ()
        | .ok _ => setStatus 1
        | .error e =>
          complain (quote (words.headD "") ++ ": " ++ e.reason)
          setStatus 1
    if progress.failed then setStatus 1

/-! ## Commands for many arguments -/

namespace Xargs

/-- How the input is cut. -/
inductive Cutting where
  | words
  | lines
  | at (c : Char)

/-- Words with quotes and backslashes: finished words, those of each line together. -/
def cutWords : Nat → List Char → Option (List Char) → List String → Except String (List String)
  | 0, _, _, out => .ok out.reverse
  | _ + 1, [], none, out => .ok out.reverse
  | _ + 1, [], some w, out => .ok (String.ofList w.reverse :: out).reverse
  | n + 1, c :: cs, w, out =>
    let held := w.getD []
    if c == '\x27' || c == '"' then
      let inside := cs.takeWhile fun d => d != c && d != '\n'
      match cs.drop inside.length with
      | d :: rest =>
        if d == c then cutWords n rest (some (inside.reverse ++ held)) out
        else .error (if c == '"' then "double" else "single")
      | [] => .error (if c == '"' then "double" else "single")
    else if c == '\\' then
      match cs with
      | d :: rest => cutWords n rest (some (d :: held)) out
      | [] => cutWords n [] w out
    else if isSpaceByte c then
      match w with
      | some w => cutWords n cs none (String.ofList w.reverse :: out)
      | none => cutWords n cs none out
    else cutWords n cs (some (c :: held)) out

/-- Lists of at most so many. -/
def chunks {α : Type} (size : Nat) : Nat → List α → List (List α)
  | 0, _ => []
  | _ + 1, [] => []
  | n + 1, xs => xs.take size :: chunks size n (xs.drop size)

end Xargs

open Xargs in
def xargs : Program := do
  let a ← arguments
    { shorts := "0d:E:I:i::L:n:P:prts:xeo", mixed := false
      longs := [long "null" '0', long "delimiter" 'd' .value, long "replace" 'I' .value,
        long "max-lines" 'L' .value, long "max-args" 'n' .value, long "max-procs" 'P' .value,
        long "no-run-if-empty" 'r', long "verbose" 't', long "max-chars" 's' .value] }
  let text ← readInput
  let command := if a.operands.isEmpty then ["echo"] else a.operands
  let cutting : Cutting := if a.has '0' then .at (Char.ofNat 0)
    else
      match a.value? 'd' with
      | some d =>
        match (programText d).1 with
        | c :: _ => .at c
        | [] => .at '\n'
      | none => if a.has 'I' || a.has 'L' then .lines else .words
  let unmatched := fun {α : Type} (kind : String) => (failWith 1
    ("unmatched " ++ kind ++
      " quote; by default quotes are special to xargs unless you use the -0 option") : Job α)
  let split := fun (cs : List Char) => cutWords (2 * cs.length + 2) cs none []
  let groups ← match cutting with
    | .at c =>
      let parts := (splitAt c [] text).map String.ofList
      let parts := if parts.getLast? == some "" then parts.dropLast else parts
      pure (parts.map fun p => [p])
    | .words =>
      match split text with
      | .ok ws => pure (ws.map fun w => [w])
      | .error kind => unmatched kind
    | .lines =>
      let lines := (linesOf text).filter fun l => !(l.all isBlankByte)
      lines.mapM fun l =>
        if a.has 'I' then pure [String.ofList (l.dropWhile isBlankByte)]
        else
          match split l with
          | .ok ws => pure ws
          | .error kind => unmatched kind
  let runs : List (List String) := match a.value? 'I' with
    | some mark =>
      groups.map fun g => command.map fun w => (g.headD "").intercalate (w.splitOn mark)
    | none =>
      match (a.value? 'L').bind natural?, (a.value? 'n').bind natural? with
      | some n, _ =>
        (chunks n (groups.length + 1) groups).map fun gs => command ++ gs.flatten
      | none, some n => (chunks n (groups.flatten.length + 1) groups.flatten).map (command ++ ·)
      | none, none => [command ++ groups.flatten]
  let runs := if groups.isEmpty then
      if a.has 'r' || a.has 'I' then [] else [command]
    else runs
  let env := (← get).environment
  for words in runs do
    if a.has 't' then putError (" ".intercalate words ++ "\n")
    match ← startOther words env {} with
    | .ok 0 => pure ()
    | .ok 255 =>
      complain (words.headD "" ++ ": exited with status 255; aborting")
      quit 124
    | .ok status => setStatus (if status > 128 then 125 else 123)
    | .error e =>
      complain (words.headD "" ++ ": " ++ e.reason)
      quit (refusedStatus e)

end Program
end Shell
end Unweave

import Unweave.Shell.Program.Basic
import Unweave.Shell.Program.Editor.Script

/-!
# The stream editor

Lines are read one by one; each goes through the whole script and is printed at its end.
-/

namespace Unweave
namespace Shell
namespace Editor

/-- A line of the input. -/
structure Line where
  text : List Char
  /-- Whether the line has its feed. -/
  closed : Bool := true
  file : String := "-"

/-- What is printed at the end of a cycle. -/
inductive Queued where
  | text (cs : List Char)
  | file (path : String)
  | fileLine (path : String)

/-- A range that has started: where it ends, if that is known by number. -/
inductive Activity where
  | inactive
  | until (line : Option Nat)

structure Output where
  /-- What was written, reversed. -/
  text : List Char := []
  /-- Whether the last line lacks its feed. -/
  owes : Bool := false
  /-- What ends lines. -/
  feed : Char := '\n'

namespace Output

def put (o : Output) (cs : List Char) : Output :=
  { o with text := cs.reverse ++ (if o.owes then o.feed :: o.text else o.text), owes := false }

def putLine (o : Output) (line : List Char) (closed : Bool) : Output :=
  let o := o.put line
  if closed then { o with text := o.feed :: o.text } else { o with owes := true }

end Output

structure State where
  space : List Char := []
  held : List Char := []
  line : Nat := 0
  closed : Bool := true
  file : String := "-"
  input : List Line
  out : Output := {}
  queue : List Queued := []
  ranges : Array Activity
  replaced : Bool := false
  used : Option Matcher := none
  /-- What was written to files. -/
  files : List (String × Output) := []
  /-- How many lines of files were read. -/
  linesRead : List (String × Nat) := []

structure Options where
  quiet : Bool := false
  disk : Disk

/-- How the run through the script ends for a line. -/
inductive Ending where
  | done
  | deleted
  /-- Start over without reading a line. -/
  | again
  | quit (status : Nat) (silent : Bool)
  | stuck
  | failed (message : String)

namespace State

def isLast (s : State) : Bool := s.input.isEmpty

/-- Print to a file or to the output. -/
def write (s : State) (path : String) (line : List Char) : State :=
  if path == "/dev/stdout" then { s with out := s.out.putLine line s.closed }
  else
    let old := (s.files.lookup path).getD {}
    { s with files := (path, old.putLine line s.closed) :: s.files.filter (·.1 != path) }

def matches? (s : State) (m : Option Matcher) : Option (Bool × State) :=
  match m.or s.used with
  | none => none
  | some m => some (m.isIn s.space, { s with used := some m })

/-- Whether an address selects the current line; nothing if it asks for an expression and none was
used before. -/
def selects? (s : State) : Address → Option (Bool × State)
  | .line n => some (s.line == n, s)
  | .last => some (s.isLast, s)
  | .step first step =>
    some (if step == 0 then s.line == first else s.line ≥ first && (s.line - first) % step == 0, s)
  | .holds m => s.matches? m

/-- The next multiple of a number after a line. -/
def nextMultiple (line n : Nat) : Nat := if n = 0 then line else (line / n + 1) * n

def setRange (s : State) (k : Nat) (a : Activity) : State :=
  { s with ranges := s.ranges.set! k a }

/-- Whether a range starts at the current line, and how it goes on. -/
def startRange (s : State) (k : Nat) (stop : Bound) : State :=
  let upTo := fun (n : Nat) => if n ≤ s.line then s else s.setRange k (.until (some n))
  match stop with
  | .at (.line n) => upTo n
  | .at _ => s.setRange k (.until none)
  | .after n => upTo (s.line + n)
  | .multiple n => upTo (nextMultiple s.line n)

/-- Whether a command is for the current line. -/
def isSelected (s : State) (k : Nat) (c : Selection) : Option (Bool × State) := do
  let (b, s) ← match c.first, c.stop with
    | none, _ => some (true, s)
    | some a, none => s.selects? a
    | some a, some stop =>
      match (s.ranges[k]?).getD .inactive with
      | .until (some n) =>
        some (s.line ≤ n, if s.line ≥ n then s.setRange k .inactive else s)
      | .until none =>
        match stop with
        | .at x => do
          let (ends, s) ← s.selects? x
          return (true, if ends then s.setRange k .inactive else s)
        | _ => some (true, s)
      | .inactive => do
        let (starts, s) ← s.selects? a
        if starts then return (true, s.startRange k stop) else return (false, s)
  return (b != c.negated, s)

/-- The current line up to its first feed. -/
def firstLine (s : State) : List Char := s.space.takeWhile (· != s.out.feed)

/-- Read the next line; nothing if there is none. -/
def read? (s : State) : Option (State × List Char) :=
  match s.input with
  | [] => none
  | l :: rest =>
    some ({ s with input := rest, line := s.line + 1, closed := l.closed, file := l.file }, l.text)

def printLine (s : State) (line : List Char) : State :=
  { s with out := s.out.putLine line s.closed }

def show_ (s : State) : State := s.printLine s.space

/-- Print what waits for the end of the cycle. -/
def flush (disk : Disk) (s : State) : State :=
  let s := s.queue.reverse.foldl (fun (s : State) q =>
    match q with
    | .text cs => { s with out := s.out.put cs }
    | .file path =>
      match disk.readBytes (readable path) with
      | .ok content =>
        if content.isEmpty then s else { s with out := s.out.put (octetsOf content) }
      | .error _ => s
    | .fileLine path =>
      match disk.readBytes (readable path) with
      | .ok content =>
        let n := (s.linesRead.lookup path).getD 0
        match (linesOf (octetsOf content))[n]? with
        | some line =>
          { s with
            out := s.out.putLine line true
            linesRead := (path, n + 1) :: s.linesRead.filter (·.1 != path) }
        | none => s
      | .error _ => s) s
  { s with queue := [] }

end State

/-! ## Replacing -/

structure Casting where
  /-- What was made, reversed. -/
  out : List Char := []
  mode : Casing := .off
  once : Option Casing := none

def castChar (mode : Casing) (c : Char) : Char :=
  match mode with
  | .upper | .nextUpper => c.toUpper
  | .lower | .nextLower => c.toLower
  | .off => c

def Casting.put (t : Casting) (cs : List Char) : Casting :=
  match cs with
  | [] => t
  | c :: cs =>
    let first := castChar (t.once.getD t.mode) c
    { t with out := (cs.map (castChar t.mode)).reverse ++ first :: t.out, once := none }

/-- The text that replaces a match. -/
def replacementText (ps : List Piece) (text : Array Char) (r : Match) : List Char :=
  (ps.foldl (fun (t : Casting) p =>
    match p with
    | .text cs => t.put cs
    | .group k => t.put (Matcher.groupText text r k)
    | .casing c =>
      match c with
      | .nextUpper | .nextLower => { t with once := some c }
      | c => { t with mode := c, once := none }) {}).out.reverse

/-- Replace matches in a text: the parts between them stay. -/
def replaced (ps : List Piece) (text : Array Char) : Nat → List Match → List Char
  | i, [] => Matcher.between text i text.size
  | i, r :: rs => Matcher.between text i r.start ++ replacementText ps text r ++ replaced ps text r.stop rs

def substitute (t : Substitution) (m : Matcher) (space : List Char) : Option (List Char) :=
  let text := space.toArray
  let found := if t.all || t.from_ > 1 then m.all text else (m.search? text).toList
  let chosen := found.drop (t.from_ - 1)
  let chosen := if t.all then chosen else chosen.take 1
  if chosen.isEmpty then none else some (replaced t.replacement text 0 chosen)

/-! ## Listing -/

/-- A byte as it is listed. -/
def listed (c : Char) : List Char :=
  match c with
  | '\\' => ['\\', '\\']
  | '\x07' => ['\\', 'a']
  | '\x08' => ['\\', 'b']
  | '\x0c' => ['\\', 'f']
  | '\n' => ['\\', 'n']
  | '\r' => ['\\', 'r']
  | '\t' => ['\\', 't']
  | '\x0b' => ['\\', 'v']
  | c =>
    if ' ' ≤ c && c ≤ '~' then [c]
    else '\\' :: (padLeft 3 '0' (digitsIn 8 c.toNat)).toList

def listedLines (width : Nat) (cs : List Char) : List Char :=
  let (out, _) := cs.foldl
    (fun (acc : List Char × Nat) c =>
      let (out, column) := acc
      let shown := listed c
      if width > 1 && column + shown.length > width - 1 then
        (shown.reverse ++ '\n' :: '\\' :: out, shown.length)
      else (shown.reverse ++ out, column + shown.length)) ([], 0)
  out.reverse ++ ['$', '\n']

/-! ## Cycles -/

/-- The place of a label. -/
def labelIndex (script : Array Command) (name : String) : Nat :=
  if name.isEmpty then script.size
  else
    (script.findIdx? fun c =>
      match c.action with
      | .label n => n == name
      | _ => false).getD script.size

/-- Run the script from a place on for the current line. -/
def run (o : Options) (script : Array Command) : Nat → Nat → State → State × Ending
  | 0, _, s => (s, .stuck)
  | n + 1, k, s =>
    match script[k]? with
    | none => (s, .done)
    | some c =>
      match s.isSelected k c.selection with
      | none => (s, .failed "no previous regular expression")
      | some (false, s) =>
        match c.action with
        | .open_ stop => run o script n (stop + 1) s
        | _ => run o script n (k + 1) s
      | some (true, s) =>
        let go := fun (s : State) => run o script n (k + 1) s
        match c.action with
        | .open_ _ | .close | .label _ | .nothing => go s
        | .append text => go { s with queue := .text text :: s.queue }
        | .insert text => go { s with out := s.out.put text }
        | .change text =>
          let within := match (s.ranges[k]?).getD .inactive with
            | .until _ => !c.selection.negated
            | .inactive => false
          (if within then s else { s with out := s.out.put text }, .deleted)
        | .branch cond name =>
          let jumps := match cond with
            | .always => true
            | .replaced => s.replaced
            | .notReplaced => !s.replaced
          let s := if cond == .always then s else { s with replaced := false }
          run o script n (if jumps then labelIndex script name else k + 1) s
        | .delete => (s, .deleted)
        | .deleteFirst =>
          match s.space.dropWhile (· != s.out.feed) with
          | _ :: rest => ({ s with space := rest }, .again)
          | [] => (s, .deleted)
        | .print => go s.show_
        | .printFirst => go { s with out := s.out.putLine s.firstLine true }
        | .number => go { s with out := s.out.put ((digitsIn 10 s.line).toList ++ ['\n']) }
        | .list width => go { s with out := s.out.put (listedLines (width.getD 70) s.space) }
        | .get => go { s with space := s.held }
        | .getAppend => go { s with space := s.space ++ s.out.feed :: s.held }
        | .hold => go { s with held := s.space }
        | .holdAppend => go { s with held := s.held ++ s.out.feed :: s.space }
        | .exchange => go { s with space := s.held, held := s.space }
        | .next =>
          if s.isLast then (s, .quit 0 false)
          else
            let s := if o.quiet then s else s.show_
            match (s.flush o.disk).read? with
            | some (s, line) => go { s with space := line }
            | none => (s, .quit 0 true)
        | .nextAppend =>
          match (s.flush o.disk).read? with
          | some (s, line) => go { s with space := s.space ++ s.out.feed :: line }
          | none => (s, .quit 0 false)
        | .quit status silent => ({ s with closed := true }, .quit status silent)
        | .readFile path => go { s with queue := .file path :: s.queue }
        | .readLine path => go { s with queue := .fileLine path :: s.queue }
        | .write path => go (s.write path s.space)
        | .writeFirst path => go (s.write path s.firstLine)
        | .substitute t =>
          match t.matcher.or s.used with
          | none => (s, .failed "no previous regular expression")
          | some m =>
            let s := { s with used := some m }
            match substitute t m s.space with
            | none => go s
            | some space =>
              let s := { s with space, replaced := true }
              let s := if t.prints then s.show_ else s
              go (match t.file with
                | some path => s.write path s.space
                | none => s)
        | .exchangeBytes pairs =>
          go { s with space := s.space.map fun c => (pairs.lookup c).getD c }
        | .zap => go { s with space := [] }
        | .fileName => go { s with out := s.out.put (s.file.toList ++ ['\n']) }

/-- Commands that one cycle may take. -/
def patience : Nat := 200000

/-- Cycles until the input or the script ends. -/
def cycles (o : Options) (script : Array Command) : Nat → Bool → State → State × Ending
  | 0, _, s => (s, .done)
  | n + 1, again, s =>
    let read := if again then some (s, s.space) else s.read?
    match read with
    | none => (s, .done)
    | some (s, line) =>
      let s := { s with space := line, replaced := if again then s.replaced else false }
      match run o script patience 0 s with
      | (s, .done) =>
        let s := if o.quiet then s else s.show_
        cycles o script n false (s.flush o.disk)
      | (s, .deleted) => cycles o script n false (s.flush o.disk)
      | (s, .again) => cycles o script n true (s.flush o.disk)
      | (s, .quit status silent) =>
        let s := if o.quiet || silent then s else s.show_
        (s.flush o.disk, .quit status silent)
      | (s, e) => (s, e)

/-- Ranges that line zero starts are active from the beginning. -/
def firstRanges (script : Array Command) : Array Activity :=
  script.map fun c =>
    match c.selection.first with
    | some (.line 0) => .until none
    | _ => .inactive

/-- The files that a script writes to. -/
def writtenFiles (script : Array Command) : List String :=
  script.toList.filterMap fun c =>
    match c.action with
    | .write path | .writeFirst path => some path
    | .substitute t => t.file
    | _ => none

end Editor

namespace Program

open Editor

def sedGrammar : Grammar :=
  { shorts := "ne:f:Eri::suzl:"
    longs :=
      [long "quiet" 'n', long "silent" 'n', long "expression" 'e' .value, long "file" 'f' .value,
        long "regexp-extended" 'E', long "in-place" 'i' .maybe, long "separate" 's',
        long "unbuffered" 'u', long "null-data" 'z', long "posix" 'x', long "debug" 'X',
        long "sandbox" 'S', long "line-length" 'l' .value] }

/-- A part of the script: its text and how faults in it are told. -/
inductive Source where
  | expression (index : Nat) (text : List Char)
  | file (path : String) (text : List Char)

def Source.text : Source → List Char
  | expression _ t => t
  | file _ t => t

/-- Where a fault is. -/
def Source.place (s : Source) (c : Cursor) : String :=
  match s with
  | expression k _ => "-e expression #" ++ toString k ++ ", char " ++ toString c.read
  | file path _ => "file " ++ path ++ " line " ++ toString c.line

/-- Expressions one after the other are one text with feeds between them, so a text to add may go on
in the next. -/
def joinSources : List Source → List Source
  | .expression k a :: .expression _ b :: rest =>
    if a.getLast? == some '\\' then joinSources (.expression k (a ++ '\n' :: b) :: rest)
    else .expression k a :: joinSources (.expression (k + 1) b :: rest)
  | s :: rest => s :: joinSources rest
  | [] => []
termination_by xs => xs.length

/-- A text with two characters in each other's place. -/
def exchanged (a b : Char) (text : List Char) : List Char :=
  text.map fun c => if c == a then b else if c == b then a else c

/-- The lines of a text by what ends them. -/
def lineList (feed : Char) (file : String) (text : List Char) : List Line :=
  let swap := if feed == '\n' then fun (cs : List Char) => cs else exchanged '\n' feed
  let lines := (linesOf (swap text)).map fun l => ({ text := swap l, file } : Line)
  if endsOpen (swap text) then
    match lines.reverse with
    | l :: rest => ({ l with closed := false } :: rest).reverse
    | [] => []
  else lines

def usageText : String :=
  "Usage: sed [OPTION]... \x7bscript-only-if-no-other-script\x7d [input-file]...\n\n"

/-- Write what a script wrote to files. -/
def writeFiles (s : Editor.State) : Job Unit :=
  s.files.reverse.forM fun (path, out) => do
    if path == "/dev/stderr" then putError (String.ofList out.text.reverse)
    else
      change ((← disk).writeBytes (readable path) (contentOf out.text.reverse))
        fun e => "couldn\x27t open file " ++ path ++ ": " ++ e.reason

/-- What follows from how a run ended. -/
def conclude (e : Ending) : Job Unit :=
  match e with
  | .quit status _ => quit status
  | .stuck => throw .stuck
  | .failed m => failWith 1 ("-e expression #1, char 0: " ++ m)
  | _ => return ()

def sed : Program := do
  let a ← match parseArguments sedGrammar ((← get).arguments.length + 1) (← get).arguments with
    | .ok a => pure a
    | .error message => do
      complain message
      putError usageText
      quit 1
  let mut sources : List Source := []
  let mut index := 0
  for (k, v) in a.options do
    if k == 'e' then
      index := index + 1
      sources := sources ++ [.expression index v.toList]
    if k == 'f' then
      match ← readOperand v with
      | .ok text =>
        let text := if text.getLast? == some '\n' then text.dropLast else text
        sources := sources ++ [.file v text]
      | .error e => failWith 4 ("couldn\x27t open file " ++ v ++ ": " ++ e.reason)
  let operands ← if sources.isEmpty then
      match a.operands with
      | script :: files => do
        sources := [.expression 1 script.toList]
        pure files
      | [] => do
        putError usageText
        quit 1
    else pure a.operands
  let feed := if a.has 'z' then Char.ofNat 0 else '\n'
  let style : Style := { extended := a.has 'E' || a.has 'r' }
  let mut script : Array Editor.Command := #[]
  for source in joinSources sources do
    match (commands style (source.text.length + 1) script).run { rest := source.text } with
    | .ok cs _ => script := cs
    | .error m c => failWith 1 (source.place c ++ ": " ++ m)
  match openBlocks script with
  | some 0 => pure ()
  | _ => failWith 1 "-e expression #1, char 0: unmatched \x60\x7b\x27"
  match missingLabel? script with
  | some name => failWith 4 ("can\x27t find label for jump to \x60" ++ name ++ "\x27")
  | none => pure ()
  let linked := link script
  let first := ((sources.head?.map Source.text).getD [])
  let quiet := a.has 'n' || first.take 2 == ['#', 'n'] && (first.drop 2).headD '\n' == '\n'
  let files := (writtenFiles linked).eraseDups
  let start : Editor.State :=
    { input := [], out := { feed }, ranges := firstRanges linked,
      files := (files.filter (· != "/dev/stdout")).map fun f => (f, ({} : Output)) }
  let paths := if operands.isEmpty then ["-"] else operands
  let separate := a.has 's' || a.has 'i'
  let mut texts : List (String × Stream) := []
  let mut broken := false
  for path in paths do
    match ← openOperand path with
    | .ok s => unless broken do texts := texts ++ [(path, s)]
    | .error .isDirectory =>
      if a.has 'i' then
        complain ("couldn\x27t edit " ++ path ++ ": not a regular file")
        setStatus 4
      else unless broken do
        complain ("read error on " ++ path ++ ": Is a directory")
        broken := true
    | .error e =>
      complain ("can\x27t read " ++ path ++ ": " ++ e.reason)
      setStatus 2
  let options : Options := { quiet, disk := ← disk }
  let endless := texts.any (·.2.isEndless)
  if separate then
    let mut s := start
    for (path, stream) in texts do
      let (t, e) := cycles options linked (2 * stream.seen.length + 4) false
        { s with input := lineList feed path stream.seen, line := 0, out := { feed } }
      s := t
      if a.has 'i' then
        let suffix := (a.value? 'i').getD ""
        unless suffix.isEmpty do
          change ((← disk).writeBytes (readable (path ++ suffix)) (contentOf stream.text))
            fun e => "cannot rename " ++ path ++ ": " ++ e.reason
        let left := t.input.flatMap fun l => l.text ++ if l.closed then [feed] else []
        change ((← disk).writeBytes (readable path) (contentOf (t.out.text.reverse ++ left)))
          fun e => "couldn\x27t open file " ++ path ++ ": " ++ e.reason
      else put t.out.text.reverse
      match e with
      | .done => pure ()
      | e =>
        writeFiles s
        conclude e
    writeFiles s
  else
    let lines := texts.flatMap fun (path, stream) => lineList feed path stream.seen
    let joined := (lines.zip ((lines.drop 1).map (fun _ => true) ++ [false])).map
      fun (l, more) => if more then { l with closed := true } else l
    let total := texts.foldl (fun n (_, s) => n + s.seen.length) 0
    let (t, e) := cycles options linked (2 * total + 4) false { start with input := joined }
    put t.out.text.reverse
    writeFiles t
    conclude e
    if broken then quit 4
    if endless then throw .stuck

end Program
end Shell
end Unweave

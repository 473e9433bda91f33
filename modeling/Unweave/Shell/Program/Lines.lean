import Unweave.Shell.Program.Basic

/-!
# Programs that copy lines

Whole files, their beginnings and ends, lines in other orders, and columns of lines.
-/

namespace Unweave
namespace Shell
namespace Program

/-! ## Cat -/

structure CatStyle where
  number : Bool := false
  numberFilled : Bool := false
  squeeze : Bool := false
  showEnds : Bool := false
  showTabs : Bool := false
  showOthers : Bool := false

structure CatState where
  line : Nat := 0
  atStart : Bool := true
  blanks : Nat := 0

def CatStyle.isPlain (s : CatStyle) : Bool :=
  !(s.number || s.numberFilled || s.squeeze || s.showEnds || s.showTabs || s.showOthers)

/-- A byte as it is shown. -/
def CatStyle.shown (s : CatStyle) (c : Char) : List Char :=
  let n := c.toNat
  if c == '\t' then if s.showTabs then ['^', 'I'] else [c]
  else if !s.showOthers then [c]
  else if n < 32 then ['^', Char.ofNat (n + 64)]
  else if n < 127 then [c]
  else if n == 127 then ['^', '?']
  else if n < 160 then ['M', '-', '^', Char.ofNat (n - 64)]
  else if n < 255 then ['M', '-', Char.ofNat (n - 128)]
  else ['M', '-', '^', '?']

/-- One line with its feed, if it has one. -/
def catLine (s : CatStyle) (line : List Char) (closed : Bool) (t : CatState) :
    List Char × CatState :=
  let blank := line.isEmpty && closed && t.atStart
  if blank && s.squeeze && t.blanks ≥ 1 then ([], t)
  else
    let counts := t.atStart && (if s.numberFilled then !blank else s.number)
    let t := { t with blanks := if blank then t.blanks + 1 else 0,
                      line := if counts then t.line + 1 else t.line }
    let mark := if counts then (padLeft 6 ' ' (digitsIn 10 t.line)).toList ++ ['\t'] else []
    let finish := if closed then (if s.showEnds then ['$', '\n'] else ['\n']) else []
    let body := if s.showEnds && closed && line.getLast? == some '\r' && !s.showOthers then
        line.dropLast.flatMap s.shown ++ ['^', 'M']
      else line.flatMap s.shown
    (mark ++ body ++ finish, { t with atStart := closed })

def catLines (s : CatStyle) : List (List Char) → Bool → CatState → List Char × CatState
  | [], _, t => ([], t)
  | [line], opened, t => catLine s line (!opened) t
  | line :: lines, opened, t =>
    let (a, t) := catLine s line true t
    let (b, t) := catLines s lines opened t
    (a ++ b, t)

def catGrammar : Program.Grammar :=
  { shorts := "nbsETvAetu"
    longs :=
      [long "number" 'n', long "number-nonblank" 'b', long "squeeze-blank" 's', long "show-ends" 'E',
        long "show-tabs" 'T', long "show-nonprinting" 'v', long "show-all" 'A'] }

def cat : Program := do
  let a ← arguments catGrammar
  let has := fun (cs : List Char) => cs.any a.has
  let style : CatStyle :=
    { number := a.has 'n', numberFilled := a.has 'b', squeeze := a.has 's',
      showEnds := has ['E', 'e', 'A'], showTabs := has ['T', 't', 'A'],
      showOthers := has ['v', 'e', 't', 'A'] }
  let mut state : CatState := {}
  for path in (if a.operands.isEmpty then ["-"] else a.operands) do
    match ← openOperand path with
    | .error e =>
      complain (path ++ ": " ++ e.reason)
      setStatus 1
    | .ok s =>
      if style.isPlain then print s
      else
        let (text, next) := catLines style (linesOf s.seen) (endsOpen s.seen) state
        put text
        state := next
        if s.isEndless then throw .stuck

/-! ## Beginnings and ends -/

/-- A count with a unit after it. -/
def countOf? (cs : List Char) : Option Nat :=
  let ds := cs.takeWhile Char.isDigit
  let n := digitsValue 10 ds
  if ds.isEmpty then none
  else
    match String.ofList (cs.drop ds.length) with
    | "" => some n
    | "b" => some (n * 512)
    | "k" => some (n * 1024)
    | "K" => some (n * 1024)
    | "kB" => some (n * 1000)
    | "M" => some (n * 1048576)
    | "MB" => some (n * 1000000)
    | _ => none

/-- How a beginning or an end is measured. -/
structure Extract where
  bytes : Bool := false
  count : Nat := 10
  /-- A sign before the count. -/
  sign : Option Char := none

def extractOf? (bytes : Bool) (s : String) : Option Extract :=
  match s.toList with
  | '-' :: cs => (countOf? cs).map fun count => { bytes, count, sign := some '-' }
  | '+' :: cs => (countOf? cs).map fun count => { bytes, count, sign := some '+' }
  | cs => (countOf? cs).map fun count => { bytes, count }

/-- Where the first `n` lines of a text end. -/
def lengthOfLines : Nat → List Char → Nat → Nat
  | 0, _, k => k
  | _, [], k => k
  | n + 1, c :: cs, k => lengthOfLines (if c == '\n' then n else n + 1) cs (k + 1)

def lineCount (cs : List Char) : Nat := cs.count '\n' + if endsOpen cs then 1 else 0

/-- How many bytes a beginning takes. -/
def Extract.headLength (e : Extract) (cs : List Char) : Nat :=
  match e.bytes, e.sign with
  | true, some '-' => cs.length - e.count
  | true, _ => min e.count cs.length
  | false, some '-' => lengthOfLines (lineCount cs - e.count) cs 0
  | false, _ => lengthOfLines e.count cs 0

/-- How many bytes come before an end. -/
def Extract.tailStart (e : Extract) (cs : List Char) : Nat :=
  match e.bytes, e.sign with
  | true, some '+' => e.count - 1
  | true, _ => cs.length - e.count
  | false, some '+' => lengthOfLines (e.count - 1) cs 0
  | false, _ => lengthOfLines (lineCount cs - e.count) cs 0

/-- A number as first argument, such as `-3`, is a count of lines. -/
def oldCount (as : List String) : List String :=
  match as with
  | a :: rest =>
    match a.toList with
    | '-' :: c :: cs =>
      if c.isDigit then
        let ds := (c :: cs).takeWhile Char.isDigit
        let letters := (c :: cs).drop ds.length
        let kind := if letters.contains 'c' then "-c" else "-n"
        kind :: String.ofList ds ::
          ((letters.filter fun c => c == 'q' || c == 'v').map fun c => String.ofList ['-', c]) ++ rest
      else as
    | _ => as
  | [] => []

def extractGrammar : Program.Grammar :=
  { shorts := "n:c:qvfF"
    longs :=
      [long "lines" 'n' .value, long "bytes" 'c' .value, long "quiet" 'q', long "silent" 'q',
        long "verbose" 'v'] }

/-- The extract asked for, or a complaint. -/
def extractArgument (a : Arguments) : Job Extract := do
  match a.options.reverse.find? fun (k, _) => k == 'n' || k == 'c' with
  | none => return {}
  | some (k, v) =>
    match extractOf? (k == 'c') v with
    | some e => return e
    | none =>
      failWith 1 ("invalid number of " ++ (if k == 'c' then "bytes" else "lines") ++ ": " ++ quote v)

/-- Print the name of a file above its part. -/
def header (first : Bool) (path : String) : Job Unit :=
  putText ((if first then "" else "\n") ++ "==> " ++
    (if path == "-" then "standard input" else path) ++ " <==\n")

/-- A stream as text that is long enough for a beginning of it. -/
def enough (e : Extract) (s : Stream) : Job (List Char) := do
  if !s.isEndless then return s.text
  else if e.sign == some '-' || e.count > 100000000 then throw .stuck
  else if e.bytes then
    if s.cut && s.text.length < e.count then throw .stuck
    return s.take e.count
  else
    let text := s.unrolled (s.forever.length * e.count)
    if text.count '\n' < e.count then throw .stuck
    return text

def head : Program := do
  modify fun w => { w with arguments := oldCount w.arguments }
  let a ← arguments extractGrammar
  let e ← extractArgument a
  let operands := if a.operands.isEmpty then ["-"] else a.operands
  let titled := (operands.length > 1 || a.has 'v') && !a.has 'q'
  let mut first := true
  for path in operands do
    let input := (← get).input
    let opened ← openOperand path
    match opened with
    | .error .isDirectory =>
      if titled then header first path
      first := false
      complain ("error reading " ++ quote path ++ ": Is a directory")
      setStatus 1
    | .error e =>
      complain ("cannot open " ++ quote path ++ " for reading: " ++ e.reason)
      setStatus 1
    | .ok s =>
      if titled then header first path
      first := false
      let text ← enough e s
      let n := e.headLength text
      put (text.take n)
      if path == "-" && (← get).seekable then
        modify fun w => { w with input := input.drop n }

def tail : Program := do
  modify fun w => { w with arguments := oldCount w.arguments }
  let a ← arguments extractGrammar
  let e ← extractArgument a
  let operands := if a.operands.isEmpty then ["-"] else a.operands
  let titled := (operands.length > 1 || a.has 'v') && !a.has 'q'
  let mut first := true
  for path in operands do
    match ← readOperand path with
    | .error .isDirectory =>
      if titled then header first path
      first := false
      complain ("error reading " ++ quote path ++ ": Is a directory")
      setStatus 1
    | .error e =>
      complain ("cannot open " ++ quote path ++ " for reading: " ++ e.reason)
      setStatus 1
    | .ok text =>
      if titled then header first path
      first := false
      put (text.drop (e.tailStart text))
  if a.has 'f' || a.has 'F' then throw .stuck

/-! ## Other orders -/

/-- Lines with their feeds. -/
def fedLines (cs : List Char) : List (List Char) :=
  let lines := linesOf cs
  if endsOpen cs then
    match lines.reverse with
    | last :: before => (last :: before.map (· ++ ['\n'])).reverse
    | [] => []
  else lines.map (· ++ ['\n'])

def tac : Program := do
  let a ← arguments { shorts := "" }
  forOperands a.operands 1 (fun _ text => put (fedLines text).reverse.flatten) fun path e =>
    if e == .isDirectory then path ++ ": read error: Invalid argument"
    else "failed to open " ++ quote path ++ " for reading: " ++ e.reason

def rev : Program := do
  let a ← arguments { shorts := "" }
  let reversed := fun (text : List Char) =>
    let lines := (linesOf text).map List.reverse
    if endsOpen text then (unlines lines).dropLast else unlines lines
  forOperands a.operands 1 (fun _ text => put (reversed text)) fun path e =>
    "cannot open " ++ path ++ ": " ++ e.reason

/-! ## Numbered lines -/

structure Numbering where
  style : Char := 'n'
  width : Nat := 6
  separator : String := "\t"
  start : Int := 1
  step : Int := 1
  format : String := "rn"

def numberLines (n : Numbering) (style : String) : List (List Char) → Int → List Char
  | [], _ => []
  | line :: lines, k =>
    let counts := style == "a" || (style == "t" && !line.isEmpty)
    if counts then
      let text := toString k
      let text := match n.format with
        | "ln" => padRight n.width text
        | "rz" => padLeft n.width '0' text
        | _ => padLeft n.width ' ' text
      text.toList ++ n.separator.toList ++ line ++ '\n' :: numberLines n style lines (k + n.step)
    else
      List.replicate (n.width + n.separator.length) ' ' ++ line ++ '\n' :: numberLines n style lines k

def nl : Program := do
  let a ← arguments
    { shorts := "b:w:s:v:i:n:h:f:p"
      longs := [long "body-numbering" 'b' .value, long "number-width" 'w' .value,
        long "number-separator" 's' .value, long "starting-line-number" 'v' .value,
        long "line-increment" 'i' .value, long "number-format" 'n' .value] }
  let n : Numbering :=
    { width := ((a.value? 'w').bind natural?).getD 6, separator := (a.value? 's').getD "\t",
      start := ((a.value? 'v').bind integer?).getD 1, step := ((a.value? 'i').bind integer?).getD 1,
      format := (a.value? 'n').getD "rn" }
  let mut texts : List (List Char) := []
  let mut endless := false
  for path in (if a.operands.isEmpty then ["-"] else a.operands) do
    match ← openOperand path with
    | .ok s =>
      unless endless do texts := s.seen :: texts
      endless := endless || s.isEndless
    | .error e =>
      complain (path ++ ": " ++ e.reason)
      setStatus 1
  put (numberLines n ((a.value? 'b').getD "t") (linesOf texts.reverse.flatten) n.start)
  if endless then throw .stuck

/-! ## Copies -/

def tee : Program := do
  let a ← arguments { shorts := "aip", longs := [long "append" 'a', long "ignore-interrupts" 'i'] }
  let s ← takeInput
  for path in a.operands do
    let d ← disk
    let path := readable path
    let old := match d.readBytes path with
      | .ok content => if a.has 'a' then content else .empty
      | .error _ => .empty
    change (d.writeBytes path (old ++ contentOf s.seen)) fun e => octets path ++ ": " ++ e.reason
  put s.seen
  if s.isEndless then throw .stuck

/-! ## Columns -/

/-- A range of columns; one without end goes on. -/
structure Columns where
  first : Nat
  last : Option Nat

def Columns.has (c : Columns) (n : Nat) : Bool :=
  c.first ≤ n && (match c.last with
    | some l => n ≤ l
    | none => true)

/-- Cut a text at a character. -/
def splitAt (stop : Char) : List Char → List Char → List (List Char)
  | part, [] => [part.reverse]
  | part, c :: cs => if c == stop then part.reverse :: splitAt stop [] cs else splitAt stop (c :: part) cs

def columnsOf? (s : List Char) : Option Columns :=
  let low := s.takeWhile Char.isDigit
  match s.drop low.length with
  | [] => if low.isEmpty then none else some ⟨digitsValue 10 low, some (digitsValue 10 low)⟩
  | '-' :: high =>
    if !high.all Char.isDigit || (low.isEmpty && high.isEmpty) then none
    else
      some ⟨if low.isEmpty then 1 else digitsValue 10 low,
        if high.isEmpty then none else some (digitsValue 10 high)⟩
  | _ => none

/-- Consecutive runs of kept positions. -/
def keptRuns (keep : Nat → Bool) (xs : List (List Char)) : List (List (List Char)) :=
  let marked := xs.zipIdx 1
  let (runs, current) := marked.foldl
    (fun (runs, current) ((x, n) : List Char × Nat) =>
      if keep n then (runs, x :: current)
      else if current.isEmpty then (runs, [])
      else (current.reverse :: runs, []))
    (([] : List (List (List Char))), ([] : List (List Char)))
  (if current.isEmpty then runs else current.reverse :: runs).reverse

def cutGrammar : Program.Grammar :=
  { shorts := "b:c:f:d:snz"
    longs :=
      [long "bytes" 'b' .value, long "characters" 'c' .value, long "fields" 'f' .value,
        long "delimiter" 'd' .value, long "only-delimited" 's', long "complement" 'C',
        long "output-delimiter" 'o' .value, long "zero-terminated" 'z'] }

/-- Texts with a separator between them. -/
def joinWith (separator : List Char) (xs : List (List Char)) : List Char :=
  separator.intercalate xs

def cut : Program := do
  let a ← arguments cutGrammar
  match a.options.filter fun (k, _) => k == 'b' || k == 'c' || k == 'f' with
  | [] => failUsage 1 "you must specify a list of bytes, characters, or fields"
  | _ :: _ :: _ => failUsage 1 "only one list may be specified"
  | [(kind, list)] =>
    let parts := (splitAt ',' [] list.toList).flatMap (splitAt ' ' [])
    match parts.mapM columnsOf? with
    | none =>
      let bad := (parts.find? fun p => (columnsOf? p).isNone).getD []
      if kind == 'f' then failUsage 1 ("invalid field value " ++ quote (String.ofList bad))
      else failUsage 1 ("invalid byte/character position " ++ quote (String.ofList bad))
    | some columns =>
      if columns.any (·.first == 0) then
        if kind == 'f' then failUsage 1 "fields are numbered from 1"
        else failUsage 1 "byte/character positions are numbered from 1"
      if columns.any fun c => (c.last.map fun l => decide (l < c.first)).getD false then
        failUsage 1 "invalid decreasing range"
      let delimiter := (a.value? 'd').getD "\t"
      if delimiter.length > 1 then failUsage 1 "the delimiter must be a single character"
      if kind != 'f' && (a.value? 'd').isSome then
        failUsage 1 "an input delimiter may be specified only when operating on fields"
      let stop := delimiter.toList.headD (Char.ofNat 0)
      let keep := fun n => columns.any (·.has n) != a.has 'C'
      forOperands a.operands 1 fun _ text =>
        put (unlines ((linesOf text).filterMap fun line =>
          if kind == 'f' then
            if !line.contains stop then if a.has 's' then none else some line
            else
              let kept := (keptRuns keep (splitAt stop [] line)).flatten
              some (joinWith ((a.value? 'o').map (·.toList) |>.getD [stop]) kept)
          else
            let runs := (keptRuns keep (line.map ([·]))).map List.flatten
            some (joinWith ((a.value? 'o').map (·.toList) |>.getD []) runs)))

/-- The separators of pasted lines, with escapes. -/
def separators : Nat → List Char → List (List Char)
  | 0, _ => []
  | _ + 1, [] => []
  | n + 1, '\\' :: c :: cs =>
    (match c with
      | 'n' => ['\n']
      | 't' => ['\t']
      | '0' => []
      | c => [c]) :: separators n cs
  | n + 1, c :: cs => [c] :: separators n cs

/-- Put separators, used in turn, between texts. -/
def pasteWith (seps : List (List Char)) : Nat → List (List Char) → List Char
  | _, [] => []
  | _, [x] => x
  | k, x :: xs => x ++ (seps.getD (k % max 1 seps.length) []) ++ pasteWith seps (k + 1) xs

/-- Lines of several files side by side. -/
def pasteColumns (seps : List (List Char)) : Nat → List (List (List Char)) → List (List Char)
  | 0, _ => []
  | n + 1, columns =>
    if columns.all List.isEmpty then []
    else
      pasteWith seps 0 (columns.map fun c => c.headD []) ::
        pasteColumns seps n (columns.map (List.drop 1))

/-- Hand the lines of the input out to several readers in turn. -/
def dealt (readers : Nat) (lines : List (List Char)) : List (List (List Char)) :=
  (List.range readers).map fun r =>
    (lines.zipIdx.filter fun (_, i) => i % readers == r).map (·.1)

def paste : Program := do
  let a ← arguments
    { shorts := "d:sz", longs := [long "delimiters" 'd' .value, long "serial" 's'] }
  let given := (a.value? 'd').getD "\t"
  let seps := separators (given.length + 1) given.toList
  let operands := if a.operands.isEmpty then ["-"] else a.operands
  let dashes := operands.countP (· == "-")
  let input ← if dashes > 0 then readInput else pure []
  let mut columns : Array (List (List Char)) := #[]
  let shares := dealt (max 1 dashes) (linesOf input)
  let mut k := 0
  for path in operands do
    if path == "-" then
      columns := columns.push (if a.has 's' then (if k == 0 then linesOf input else []) else shares.getD k [])
      k := k + 1
    else
      match ← readOperand path with
      | .error e => failWith 1 (path ++ ": " ++ e.reason)
      | .ok text => columns := columns.push (linesOf text)
  if a.has 's' then columns.toList.forM fun c => put (pasteWith seps 0 c ++ ['\n'])
  else
    let longest := columns.toList.foldl (fun n c => max n c.length) 0
    put (unlines (pasteColumns seps (longest + 1) columns.toList))

/-! ## Widths -/

/-- A line cut into pieces of at most so many columns. -/
def foldLine (width : Nat) (blanks : Bool) : Nat → List Char → List (List Char)
  | 0, line => [line]
  | n + 1, line =>
    if line.length ≤ width then [line]
    else
      let piece := line.take width
      let kept := if blanks then
          let back := piece.reverse.dropWhile (!isBlankByte ·)
          if back.isEmpty then piece else back.reverse
        else piece
      kept :: foldLine width blanks n (line.drop kept.length)

def fold : Program := do
  let old := fun (s : String) =>
    match s.toList with
    | '-' :: cs => if !cs.isEmpty && cs.all Char.isDigit then ["-w", String.ofList cs] else [s]
    | _ => [s]
  modify fun w => { w with arguments := w.arguments.flatMap old }
  let a ← arguments
    { shorts := "w:sb", longs := [long "width" 'w' .value, long "spaces" 's', long "bytes" 'b'] }
  let width := ((a.value? 'w').bind natural?).getD 80
  forOperands a.operands 1 fun _ text =>
    let lines := (linesOf text).flatMap fun l => foldLine (max 1 width) (a.has 's') (l.length + 1) l
    put (if endsOpen text then (unlines lines).dropLast else unlines lines)

/-- Tabs as blanks up to the next stop. -/
def expandLine (stop : Nat) : Nat → List Char → List Char
  | _, [] => []
  | k, '\t' :: cs =>
    let n := stop - k % stop
    List.replicate n ' ' ++ expandLine stop (k + n) cs
  | k, c :: cs => c :: expandLine stop (k + 1) cs

def expand : Program := do
  let a ← arguments { shorts := "t:i", longs := [long "tabs" 't' .value, long "initial" 'i'] }
  let stop := max 1 (((a.value? 't').bind natural?).getD 8)
  forOperands a.operands 1 fun _ text =>
    let lines := (linesOf text).map (expandLine stop 0)
    put (if endsOpen text then (unlines lines).dropLast else unlines lines)

end Program
end Shell
end Unweave

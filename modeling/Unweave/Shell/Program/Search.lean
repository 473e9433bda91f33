import Unweave.Shell.Program.Lines
import Unweave.Shell.Regex

/-!
# Searching in lines
-/

namespace Unweave
namespace Shell
namespace Program

structure Search where
  matchers : List Matcher
  inverted : Bool := false
  /-- Whether a match has to be a whole line, or whole words. -/
  wholeLine : Bool := false
  wholeWord : Bool := false

namespace Search

/-- Whether a match stands between bytes that belong to no word. -/
def isWord (text : Array Char) (r : Match) : Bool :=
  let before := r.start > 0 && ((text[r.start - 1]?).map Regex.isWordByte).getD false
  let after := ((text[r.stop]?).map Regex.isWordByte).getD false
  !before && !after

/-- The matches of one expression that count. -/
def matchesOf (s : Search) (m : Matcher) (text : Array Char) : List Match :=
  if s.wholeLine then
    match (Regex.ends (m.subject text) m.regex 0 []).find? fun (j, _) => j == text.size with
    | some (j, groups) => [⟨0, j, groups⟩]
    | none => []
  else if s.wholeWord then
    (List.range (text.size + 1)).filterMap fun i =>
      ((Regex.ends (m.subject text) m.regex i []).map fun (j, groups) => (⟨i, j, groups⟩ : Match)).find?
        fun r => isWord text r && (r.stop > r.start || text.size == 0)
  else m.all text

/-- Whether a line holds a match. -/
def finds (s : Search) (line : List Char) : Bool :=
  let text := line.toArray
  s.matchers.any fun m =>
    if s.wholeLine || s.wholeWord then !(s.matchesOf m text).isEmpty
    else (m.search? text).isSome

def selects (s : Search) (line : List Char) : Bool := s.finds line != s.inverted

/-- Matches from left to right that do not overlap, longer ones of the same start first. -/
def merged (rs : List Match) : List Match :=
  let sorted := rs.mergeSort fun a b => a.start < b.start || (a.start == b.start && a.stop ≥ b.stop)
  (sorted.foldl (fun (kept : List Match) r =>
    match kept with
    | k :: _ => if r.start < k.stop then kept else r :: kept
    | [] => [r]) []).reverse

/-- The texts of a line that match. -/
def parts (s : Search) (line : List Char) : List (List Char) :=
  let text := line.toArray
  let rs := merged (s.matchers.flatMap fun m => s.matchesOf m text)
  (rs.filter fun r => r.stop > r.start).map fun r => Matcher.between text r.start r.stop

end Search

def grepGrammar : Grammar :=
  { shorts := "EFGPe:f:ivwxcLlqsnbHhom:A:B:C:rRzaIUuyTZ0123456789"
    longs :=
      [long "extended-regexp" 'E', long "fixed-strings" 'F', long "basic-regexp" 'G',
        long "perl-regexp" 'P', long "regexp" 'e' .value, long "file" 'f' .value,
        long "ignore-case" 'i', long "no-ignore-case" 'y', long "invert-match" 'v',
        long "word-regexp" 'w', long "line-regexp" 'x', long "count" 'c',
        long "files-without-match" 'L', long "files-with-matches" 'l', long "quiet" 'q',
        long "silent" 'q', long "no-messages" 's', long "line-number" 'n', long "byte-offset" 'b',
        long "with-filename" 'H', long "no-filename" 'h', long "only-matching" 'o',
        long "max-count" 'm' .value, long "after-context" 'A' .value,
        long "before-context" 'B' .value, long "context" 'C' .value, long "recursive" 'r',
        long "dereference-recursive" 'R', long "text" 'a', long "include" 'J' .value,
        long "exclude" 'X' .value, long "color" 'K' .maybe, long "colour" 'K' .maybe] }

/-- What is printed for a file, and how. -/
structure GrepStyle where
  named : Bool
  numbered : Bool
  offsets : Bool
  only : Bool
  after : Nat
  before : Nat
  most : Option Nat

/-- A line of a file with its number and offset. -/
structure Numbered where
  line : List Char
  number : Nat
  offset : Nat

def numberedLines (text : List Char) : List Numbered :=
  ((linesOf text).foldl (fun (acc : List Numbered × Nat × Nat) line =>
    let (out, n, offset) := acc
    (⟨line, n, offset⟩ :: out, n + 1, offset + line.length + 1)) ([], 1, 0)).1.reverse

def GrepStyle.lead (g : GrepStyle) (name : String) (x : Numbered) (mark : Char) : List Char :=
  (if g.named then name.toList ++ [mark] else []) ++
    (if g.numbered then (digitsIn 10 x.number).toList ++ [mark] else []) ++
    (if g.offsets then (digitsIn 10 x.offset).toList ++ [mark] else [])

/-- The lines to show around selected ones: each with whether it is selected, and a gap before it. -/
def contextLines (before after : Nat) (lines : List (Numbered × Bool)) :
    List (Numbered × Bool × Bool) :=
  let marked := lines.toArray
  let near := fun (i : Nat) =>
    let low := i - after
    (List.range (i + before + 1 - low)).any fun k => ((marked[low + k]?).map (·.2)).getD false
  let shown := (List.range marked.size).filter near
  (shown.zip (none :: shown.map some)).filterMap fun (i, previous) =>
    (marked[i]?).map fun (x, selected) =>
      let gap := match previous with
        | some p => p + 1 < i
        | none => false
      (x, selected, gap)

def isBinary (text : List Char) : Bool := text.contains (Char.ofNat 0)

/-- Selected lines up to a number of them, and what follows the last one. -/
def selectLines (s : Search) (most : Option Nat) (lines : List Numbered) : List (Numbered × Bool) :=
  let (out, _) := lines.foldl
    (fun (acc : List (Numbered × Bool) × Nat) x =>
      let (out, count) := acc
      let room := match most with
        | some m => count < m
        | none => true
      let hit := room && s.selects x.line
      ((x, hit) :: out, if hit then count + 1 else count))
    ([], 0)
  out.reverse

/-- The files that a recursive search looks at, in order. -/
def filesBelow (d : Disk) : Nat → String → List String
  | 0, _ => []
  | n + 1, path =>
    match d.find (readable path) with
    | .ok (l, .directory) =>
      let names := ((d.children l).map octets).mergeSort fun a b => a ≤ b
      names.flatMap fun name =>
        filesBelow d n (if path.endsWith "/" then path ++ name else path ++ "/" ++ name)
    | .ok _ => [path]
    | .error _ => [path]

def grepMatchers (a : Arguments) (patterns : List String) (extended fixed : Bool) :
    Job (List Matcher) := do
  let folded := a.has 'i' || a.has 'y'
  let lines := patterns.flatMap fun p => splitAt '\n' [] p.toList
  lines.mapM fun p =>
    if fixed then pure (Regex.ofText folded p)
    else
      match Regex.compile { extended } folded p with
      | .ok m => pure m
      | .error e => failWith 2 e

def grep : Program := do
  let name := (← get).name
  let a ← arguments grepGrammar 2
  let kind := a.last? ['E', 'F', 'G', 'P']
  let fixed := kind == some 'F' || (kind.isNone && name == "fgrep")
  let extended := kind == some 'E' || kind == some 'P' || (kind.isNone && name == "egrep")
  let given := a.values 'e'
  let mut fromFiles : List String := []
  for f in a.values 'f' do
    match ← readOperand f with
    | .ok text => fromFiles := fromFiles ++ (linesOf text).map String.ofList
    | .error e => failWith 2 (f ++ ": " ++ e.reason)
  let noPattern := given.isEmpty && (a.values 'f').isEmpty
  let (patterns, operands) ← if noPattern then
      match a.operands with
      | p :: files => pure ([p], files)
      | [] => do
        putError ("Usage: " ++ name ++ " [OPTION]... PATTERNS [FILE]...\n")
        hint
        quit 2
    else pure (given ++ fromFiles, a.operands)
  let matchers ← grepMatchers a patterns extended fixed
  let s : Search :=
    { matchers, inverted := a.has 'v', wholeLine := a.has 'x', wholeWord := a.has 'w' }
  let deep := a.has 'r' || a.has 'R'
  let d ← disk
  let operands := if deep && operands.isEmpty then ["."] else operands
  let strip := fun (f : String) =>
    if a.operands.length ≤ (if noPattern then 1 else 0) && deep then String.ofList (f.toList.drop 2)
    else f
  let files := if deep then
      (operands.flatMap (filesBelow d 64)).filter fun f =>
        let base := ((f.toList.reverse.takeWhile (· != '/')).reverse)
        let matched := fun (gs : List String) => gs.any fun g => Pattern.covers (Pattern.ofText g) base
        (!a.has 'J' || matched (a.values 'J')) && !matched (a.values 'X')
    else if operands.isEmpty then ["-"] else operands
  let number := fun (c : Char) => (a.value? c).bind natural?
  let digits := a.options.filterMap fun (k, _) => if k.isDigit then some k else none
  let around := if digits.isEmpty then (number 'C').getD 0 else digitsValue 10 digits
  let style : GrepStyle :=
    { named := match a.last? ['H', 'h'] with
        | some 'H' => true
        | some _ => false
        | none => files.length > 1 || (deep && !(operands.length == 1 && d.isFile (readable (operands.headD ""))))
      numbered := a.has 'n', offsets := a.has 'b', only := a.has 'o'
      after := (number 'A').getD around, before := (number 'B').getD around, most := number 'm' }
  let mut found := false
  let mut failed := false
  for f in files do
    let input := (← get).input
    let opened ← openOperand f
    match opened with
    | .error e =>
      unless a.has 's' do complain (f ++ ": " ++ e.reason)
      failed := true
    | .ok stream =>
      let shown := if f == "-" then "(standard input)" else strip f
      let limited := style.most.isSome || a.has 'q' || a.has 'l'
      let text := stream.seen
      let selection := selectLines s (if a.has 'q' || a.has 'l' then some 1 else style.most)
        (numberedLines text)
      let hits := selection.filter (·.2)
      if !hits.isEmpty != a.has 'L' then found := true
      if a.has 'q' then
        if found then
          if f == "-" && (← get).seekable then modify fun w => { w with input }
          quit 0
      else if a.has 'l' then unless hits.isEmpty do putText (shown ++ "\n")
      else if a.has 'L' then if hits.isEmpty then putText (shown ++ "\n")
      else if a.has 'c' then
        putText ((if style.named then shown ++ ":" else "") ++ toString hits.length ++ "\n")
      else if isBinary text && !a.has 'a' && !hits.isEmpty then
        putText (name ++ ": " ++ shown ++ ": binary file matches\n")
      else if style.only then
        unless s.inverted do
          for (x, _) in hits do
            for part in s.parts x.line do
              put (style.lead shown x ':' ++ part ++ ['\n'])
      else if style.after == 0 && style.before == 0 then
        put (hits.flatMap fun (x, _) => style.lead shown x ':' ++ x.line ++ ['\n'])
      else
        put ((contextLines style.before style.after selection).flatMap fun (x, hit, gap) =>
          (if gap then "--\n".toList else []) ++ style.lead shown x (if hit then ':' else '-') ++
            x.line ++ ['\n'])
      if stream.isEndless && !(limited && hits.length ≥ style.most.getD 1) then throw .stuck
  setStatus (if failed then 2 else if found then 0 else 1)

end Program
end Shell
end Unweave

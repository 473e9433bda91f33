import Unweave.Shell.Program.Lines

/-!
# Programs that order and compare lines

Lines are ordered by bytes, or by keys: fields and columns of a line, read as texts or as numbers.
-/

namespace Unweave
namespace Shell
namespace Program

/-! ## Orders -/

def compareChars : List Char → List Char → Ordering
  | [], [] => .eq
  | [], _ :: _ => .lt
  | _ :: _, [] => .gt
  | a :: as, b :: bs => if a < b then .lt else if b < a then .gt else compareChars as bs

/-- A decimal at the start of a text, as digits and a count of places. -/
def leadingDecimal (cs : List Char) : Int × Nat :=
  let cs := cs.dropWhile isBlankByte
  let (negative, body) := match cs with
    | '-' :: cs => (true, cs)
    | cs => (false, cs)
  let whole := body.takeWhile Char.isDigit
  let places := match body.drop whole.length with
    | '.' :: rest => rest.takeWhile Char.isDigit
    | _ => []
  let n := Int.ofNat (digitsValue 10 (whole ++ places))
  (if negative then -n else n, places.length)

def compareDecimals (a b : Int × Nat) : Ordering :=
  let scale := max a.2 b.2
  let at_ := fun (n : Int × Nat) => n.1 * Int.ofNat (Nat.pow 10 (scale - n.2))
  compare (at_ a) (at_ b)

/-- A decimal with a unit after it counts by its unit first. -/
def humanRank (cs : List Char) : Int :=
  let cs := cs.dropWhile isBlankByte
  let (negative, body) := match cs with
    | '-' :: cs => (true, cs)
    | cs => (false, cs)
  let rest := body.dropWhile fun c => c.isDigit || c == '.'
  let rank : Int := match rest with
    | c :: _ =>
      match ['K', 'M', 'G', 'T', 'P', 'E', 'Z', 'Y'].idxOf? c.toUpper with
      | some i => Int.ofNat (i + 1)
      | none => 0
    | [] => 0
  if negative then -rank else rank

def monthNames : List String :=
  ["JAN", "FEB", "MAR", "APR", "MAY", "JUN", "JUL", "AUG", "SEP", "OCT", "NOV", "DEC"]

def monthRank (cs : List Char) : Nat :=
  let name := ((cs.dropWhile isBlankByte).take 3).map Char.toUpper
  match monthNames.idxOf? (String.ofList name) with
  | some i => i + 1
  | none => 0

/-- The order of bytes in names with versions: letters before other bytes, a tilde before all. -/
def versionRank (c : Char) : Int :=
  if c == '~' then -1 else if c.isAlpha then Int.ofNat c.toNat else Int.ofNat c.toNat + 256

def compareUnversioned : List Char → List Char → Ordering
  | [], [] => .eq
  | [], b :: _ => if b == '~' then .gt else .lt
  | a :: _, [] => if a == '~' then .lt else .gt
  | a :: as, b :: bs =>
    if a == b then compareUnversioned as bs else compare (versionRank a) (versionRank b)

/-- Names with numbers in them, texts and numbers in turn. -/
def compareVersions : Nat → List Char → List Char → Ordering
  | 0, _, _ => .eq
  | _ + 1, [], [] => .eq
  | n + 1, as, bs =>
    let x := as.takeWhile (!Char.isDigit ·)
    let y := bs.takeWhile (!Char.isDigit ·)
    match compareUnversioned x y with
    | .eq =>
      let as := as.drop x.length
      let bs := bs.drop y.length
      let i := as.takeWhile Char.isDigit
      let j := bs.takeWhile Char.isDigit
      match compare (digitsValue 10 i) (digitsValue 10 j) with
      | .eq => compareVersions n (as.drop i.length) (bs.drop j.length)
      | o => o
    | o => o

/-! ## Keys -/

structure KeyStyle where
  numeric : Bool := false
  general : Bool := false
  human : Bool := false
  month : Bool := false
  version : Bool := false
  reversed : Bool := false
  folded : Bool := false
  dictionary : Bool := false
  printable : Bool := false
  /-- Whether blanks before the start or the end of a key are skipped. -/
  blanksStart : Bool := false
  blanksEnd : Bool := false

structure Key where
  field : Nat := 1
  column : Nat := 1
  /-- The last field, and the last column in it; none is the end of the field. -/
  last : Option (Nat × Nat) := none
  style : KeyStyle := {}
  /-- Whether the key has letters of its own. -/
  own : Bool := false

def KeyStyle.letter (s : KeyStyle) (atEnd : Bool) (c : Char) : Option KeyStyle :=
  match c with
  | 'n' => some { s with numeric := true }
  | 'g' => some { s with general := true }
  | 'h' => some { s with human := true }
  | 'M' => some { s with month := true }
  | 'V' => some { s with version := true }
  | 'r' => some { s with reversed := true }
  | 'f' => some { s with folded := true }
  | 'd' => some { s with dictionary := true }
  | 'i' => some { s with printable := true }
  | 'b' => some (if atEnd then { s with blanksEnd := true } else { s with blanksStart := true })
  | _ => none

def keyLetters (atEnd : Bool) : List Char → KeyStyle → Option KeyStyle
  | [], s => some s
  | c :: cs, s => (s.letter atEnd c).bind (keyLetters atEnd cs)

/-- A field, a column and letters. -/
def keyPlace (cs : List Char) : Option (Nat × Nat × Bool × List Char) :=
  let field := cs.takeWhile Char.isDigit
  if field.isEmpty then none
  else
    match cs.drop field.length with
    | '.' :: rest =>
      let column := rest.takeWhile Char.isDigit
      some (digitsValue 10 field, digitsValue 10 column, true, rest.drop column.length)
    | rest => some (digitsValue 10 field, 0, false, rest)

def keyOf? (s : String) : Option Key := do
  let parts := splitAt ',' [] s.toList
  let (field, column, given, letters) ← keyPlace (parts.headD [])
  let style ← keyLetters false letters {}
  let own := !letters.isEmpty
  match parts with
  | [_] => return { field, column := if given then column else 1, style, own }
  | [_, stop] =>
    let (lastField, lastColumn, _, letters) ← keyPlace stop
    let style ← keyLetters true letters style
    return { field, column := if given then column else 1, last := some (lastField, lastColumn),
             style, own := own || !letters.isEmpty }
  | _ => none

/-- Where fields start and end; blanks before a field belong to it unless a separator is given. -/
def fieldSpans (separator : Option Char) : Nat → Nat → List Char → List (Nat × Nat)
  | 0, _, _ => []
  | n + 1, i, cs =>
    match separator with
    | some s =>
      let field := cs.takeWhile (· != s)
      let stop := i + field.length
      match cs.drop field.length with
      | _ :: rest => (i, stop) :: fieldSpans separator n (stop + 1) rest
      | [] => [(i, stop)]
    | none =>
      let blanks := cs.takeWhile isBlankByte
      let body := (cs.drop blanks.length).takeWhile (!isBlankByte ·)
      let stop := i + blanks.length + body.length
      match cs.drop (blanks.length + body.length) with
      | [] => [(i, stop)]
      | rest => (i, stop) :: fieldSpans separator n stop rest

/-- The part of a line that a key looks at. -/
def keyText (separator : Option Char) (k : Key) (line : List Char) : List Char :=
  let spans := fieldSpans separator (line.length + 2) 0 line
  let skip := fun (i : Nat) => i + ((line.drop i).takeWhile isBlankByte).length
  let start := match spans[k.field - 1]? with
    | none => line.length
    | some (a, _) => (if k.style.blanksStart then skip a else a) + (k.column - 1)
  let stop := match k.last with
    | none => line.length
    | some (f, c) =>
      match spans[f - 1]? with
      | none => line.length
      | some (a, b) => if c = 0 then b else min line.length ((if k.style.blanksEnd then skip a else a) + c)
  (line.take stop).drop start

/-- The bytes of a text that its style compares. -/
def KeyStyle.view (s : KeyStyle) (cs : List Char) : List Char :=
  let cs := if s.blanksStart then cs.dropWhile isBlankByte else cs
  let cs := if s.dictionary then cs.filter fun c => c.isAlphanum || isBlankByte c else cs
  let cs := if s.printable then cs.filter fun c => ' ' ≤ c && c ≤ '~' else cs
  if s.folded then cs.map Char.toUpper else cs

def KeyStyle.compare (s : KeyStyle) (a b : List Char) : Ordering :=
  let o :=
    if s.numeric || s.general then compareDecimals (leadingDecimal a) (leadingDecimal b)
    else if s.human then
      match Ord.compare (humanRank a) (humanRank b) with
      | .eq => compareDecimals (leadingDecimal a) (leadingDecimal b)
      | o => o
    else if s.month then Ord.compare (monthRank a) (monthRank b)
    else if s.version then compareVersions (a.length + b.length + 1) a b
    else compareChars (s.view a) (s.view b)
  if s.reversed then o.swap else o

/-- Compare by the keys, one after the other. -/
def compareKeys (separator : Option Char) (a b : List Char) : List Key → Ordering
  | [] => .eq
  | k :: ks =>
    match k.style.compare (keyText separator k a) (keyText separator k b) with
    | .eq => compareKeys separator a b ks
    | o => o

/-! ## Sorting -/

def sortGrammar : Program.Grammar :=
  { shorts := "bdfghik:mMno:rsS:t:T:uVzcCR"
    longs :=
      [long "ignore-leading-blanks" 'b', long "dictionary-order" 'd', long "ignore-case" 'f',
        long "general-numeric-sort" 'g', long "human-numeric-sort" 'h',
        long "ignore-nonprinting" 'i', long "key" 'k' .value, long "merge" 'm',
        long "month-sort" 'M', long "numeric-sort" 'n', long "output" 'o' .value,
        long "reverse" 'r', long "stable" 's', long "field-separator" 't' .value,
        long "unique" 'u', long "version-sort" 'V', long "check" 'c'] }

/-- Keep the first of lines that compare as equal. -/
def distinctBy (same : List Char → List Char → Bool) : List (List Char) → List (List Char)
  | [] => []
  | [x] => [x]
  | x :: y :: rest =>
    if same x y then distinctBy same (x :: rest) else x :: distinctBy same (y :: rest)
termination_by xs => xs.length

/-- The first line that is out of order, with its number. -/
def disorder (bad : List Char → List Char → Bool) : Nat → List (List Char) → Option (Nat × List Char)
  | k, x :: y :: rest => if bad x y then some (k + 1, y) else disorder bad (k + 1) (y :: rest)
  | _, _ => none

def sort : Program := do
  let a ← arguments sortGrammar 2
  let separator ← match a.value? 't' with
    | none => pure none
    | some t =>
      match t.toList with
      | [c] => pure (some c)
      | ['\\', '0'] => pure (some (Char.ofNat 0))
      | [] => failWith 2 "empty tab"
      | _ => failWith 2 ("multi-character tab " ++ quote t)
  let letters := a.options.filterMap fun (k, _) =>
    if ['b', 'd', 'f', 'g', 'h', 'i', 'M', 'n', 'r', 'V'].contains k then some k else none
  let style : KeyStyle := { (keyLetters false letters {}).getD {} with blanksEnd := a.has 'b' }
  let keys ← (a.values 'k').mapM fun s => do
    match keyOf? s with
    | some k => pure (if k.own then k else { k with style })
    | none => failWith 2 ("invalid number at field start: invalid count at start of " ++ quote s)
  if keys.any (·.field == 0) then
    failWith 2 ("field number is zero: invalid field specification " ++
      quote ((a.value? 'k').getD ""))
  let byKeys := fun (x y : List Char) =>
    if keys.isEmpty then style.compare x y else compareKeys separator x y keys
  let full : List Char → List Char → Ordering := fun x y =>
    match byKeys x y with
    | .eq =>
      if a.has 's' || a.has 'u' then .eq
      else
        let o := compareChars x y
        if style.reversed then o.swap else o
    | o => o
  let mut lines : Array (List Char) := #[]
  for path in (if a.operands.isEmpty then ["-"] else a.operands) do
    match ← readOperand path with
    | .error .isDirectory => failWith 2 ("read failed: " ++ path ++ ": Is a directory")
    | .error e => failWith 2 ("cannot read: " ++ path ++ ": " ++ e.reason)
    | .ok text => lines := linesFrom [] lines text
  if a.has 'c' || a.has 'C' then
    let bad := fun x y =>
      match full x y with
      | .gt => true
      | .eq => a.has 'u'
      | .lt => false
    match disorder bad 1 lines.toList with
    | none => pure ()
    | some (n, line) =>
      if a.has 'c' then
        complain (a.operands.headD "-" ++ ":" ++ toString n ++ ": disorder: " ++ String.ofList line)
      setStatus 1
  else
    let sorted := lines.toList.mergeSort fun x y => full x y != .gt
    let sorted := if a.has 'u' then distinctBy (fun x y => byKeys x y == .eq) sorted else sorted
    match a.value? 'o' with
    | none => put (unlines sorted)
    | some path =>
      change ((← disk).writeBytes (readable path) (contentOf (unlines sorted)))
        fun e => "open failed: " ++ path ++ ": " ++ e.reason

/-! ## Repeated lines -/

/-- Runs of lines that are the same. -/
def runsBy (same : List Char → List Char → Bool) (lines : List (List Char)) :
    List (List (List Char)) :=
  let runs := lines.foldl (fun (runs : List (List (List Char))) line =>
    match runs with
    | (x :: xs) :: more => if same x line then (line :: x :: xs) :: more else [line] :: runs
    | _ => [line] :: runs) []
  (runs.map List.reverse).reverse

def uniq : Program := do
  let a ← arguments
    { shorts := "cdDuif:s:w:z"
      longs := [long "count" 'c', long "repeated" 'd', long "unique" 'u', long "ignore-case" 'i',
        long "skip-fields" 'f' .value, long "skip-chars" 's' .value, long "check-chars" 'w' .value] }
  let number := fun (c : Char) => (a.value? c).bind natural?
  let skipField := fun (cs : List Char) => (cs.dropWhile isBlankByte).dropWhile (!isBlankByte ·)
  let view := fun (line : List Char) =>
    let cs := Nat.repeat skipField ((number 'f').getD 0) line
    let cs := cs.drop ((number 's').getD 0)
    let cs := match number 'w' with
      | some n => cs.take n
      | none => cs
    if a.has 'i' then cs.map Char.toLower else cs
  let stream ← match ← openOperand (a.operands.headD "-") with
    | .ok s => pure s
    | .error e => failWith 1 (a.operands.headD "-" ++ ": " ++ e.reason)
  let runs := runsBy (fun x y => view x == view y) (linesOf stream.seen)
  let runs := if stream.isEndless then runs.dropLast else runs
  let kept := runs.filter fun run =>
    if a.has 'd' && a.has 'u' then false
    else if a.has 'd' || a.has 'D' then run.length > 1
    else if a.has 'u' then run.length == 1
    else true
  let out := kept.flatMap fun run =>
    let shown := if a.has 'D' then run else run.take 1
    shown.map fun line =>
      (if a.has 'c' then (padLeft 7 ' ' (digitsIn 10 run.length) ++ " ").toList else []) ++ line
  match a.operands with
  | [_, output] =>
    change ((← disk).writeBytes (readable output) (contentOf (unlines out)))
      fun e => output ++ ": " ++ e.reason
  | _ => put (unlines out)
  if stream.isEndless then throw .stuck

/-! ## Two sorted files -/

/-- Lines of two sorted files in one order, each with its column. -/
def commLines : Nat → List (List Char) → List (List Char) → List (Nat × List Char)
  | 0, _, _ => []
  | _ + 1, [], ys => ys.map (2, ·)
  | _ + 1, xs, [] => xs.map (1, ·)
  | n + 1, x :: xs, y :: ys =>
    match compareChars x y with
    | .lt => (1, x) :: commLines n xs (y :: ys)
    | .gt => (2, y) :: commLines n (x :: xs) ys
    | .eq => (3, x) :: commLines n xs ys

/-- Complain about a file that is not sorted. -/
def checkSorted (k : Nat) (lines : List (List Char)) : Job Bool := do
  if (disorder (fun x y => compareChars x y == .gt) 1 lines).isSome then
    complain ("file " ++ toString k ++ " is not in sorted order")
    return false
  else return true

def readLinesOf (path : String) : Job (List (List Char)) := do
  match ← readOperand path with
  | .ok text => return linesOf text
  | .error e => failWith 1 (path ++ ": " ++ e.reason)

def comm : Program := do
  let a ← arguments { shorts := "123" }
  match a.operands with
  | [x, y] =>
    let xs ← readLinesOf x
    let ys ← readLinesOf y
    let indent := fun (k : Nat) =>
      (List.range (k - 1)).foldl
        (fun n i => if a.has (Char.ofNat (49 + i)) then n else n + 1) 0
    let lines := commLines (xs.length + ys.length + 1) xs ys
    put (unlines (lines.filterMap fun (k, line) =>
      if a.has (Char.ofNat (48 + k)) then none else some (List.replicate (indent k) '\t' ++ line)))
    if lines.any (·.1 != 3) then
      let fine ← checkSorted 1 xs
      let fine' ← checkSorted 2 ys
      unless fine && fine' do
        complain "input is not in sorted order"
        setStatus 1
  | [] => failUsage 1 "missing operand"
  | [x] => failUsage 1 ("missing operand after " ++ quote x)
  | _ :: _ :: z :: _ => failUsage 1 ("extra operand " ++ quote z)

/-- Fields between blanks or at a separator. -/
def joinFields (separator : Option Char) (line : List Char) : List (List Char) :=
  match separator with
  | some c => splitAt c [] line
  | none => (splitAt ' ' [] (line.map fun c => if c == '\t' then ' ' else c)).filter (!·.isEmpty)

/-- A field of a joined line: that of one file, or the common one. -/
inductive JoinedField where
  | common
  | ofFile (file field : Nat)

/-- The fields that a list names. -/
def joinedFields? (s : String) : Option (List JoinedField) :=
  ((s.toList.map fun c => if c == ',' then ' ' else c) |> joinFields none).mapM fun word =>
    match word with
    | ['0'] => some .common
    | f :: '.' :: ds =>
      if f == '1' || f == '2' then (natural? (String.ofList ds)).map (.ofFile (f.toNat - 48))
      else none
    | _ => none

def join : Program := do
  let a ← arguments { shorts := "1:2:t:a:v:o:e:ij:" }
  match a.operands with
  | [x, y] =>
    let separator := (a.value? 't').bind (·.toList.head?)
    let common := ((a.value? 'j').bind natural?).getD 1
    let first := ((a.value? '1').bind natural?).getD common
    let second := ((a.value? '2').bind natural?).getD common
    let fields := fun lines => lines.map (joinFields separator)
    let xs := fields (← readLinesOf x)
    let ys := fields (← readLinesOf y)
    let gap := [separator.getD ' ']
    let without := fun (k : Nat) (fs : List (List Char)) => fs.eraseIdx (k - 1)
    let key := fun (k : Nat) (fs : List (List Char)) => fs.getD (k - 1) []
    let empty := ((a.value? 'e').getD "").toList
    let chosen ← match a.value? 'o' with
      | none => pure none
      | some s =>
        match joinedFields? s with
        | some fs => pure (some fs)
        | none => failWith 1 ("invalid field specifier: " ++ quote s)
    let shown := fun (common : List Char) (fs gs : List (List Char)) (rest : List (List Char)) =>
      match chosen with
      | none => (common, joinWith gap (common :: rest))
      | some picks =>
        (common, joinWith gap (picks.map fun (pick : JoinedField) =>
          match pick with
          | .common => common
          | .ofFile file field =>
            let value := (if file == 1 then fs else gs).getD (field - 1) []
            if value.isEmpty then empty else value))
    let paired := xs.flatMap fun fs =>
      (ys.filter fun gs => key second gs == key first fs).map fun gs =>
        shown (key first fs) fs gs (without first fs ++ without second gs)
    let lonely := fun (c : String) =>
      (a.values 'a').contains c || (a.values 'v').contains c
    let extra1 := if lonely "1" then
        (xs.filter fun fs => !ys.any fun gs => key second gs == key first fs).map fun fs =>
          shown (key first fs) fs [] (without first fs)
      else []
    let extra2 := if lonely "2" then
        (ys.filter fun gs => !xs.any fun fs => key second gs == key first fs).map fun gs =>
          shown (key second gs) [] gs (without second gs)
      else []
    let paired := if (a.values 'v').isEmpty then paired else []
    let lines := (paired ++ extra1 ++ extra2).mergeSort fun p q => compareChars p.1 q.1 != .gt
    put (unlines (lines.map (·.2)))
  | [] => failUsage 1 "missing operand"
  | [x] => failUsage 1 ("missing operand after " ++ quote x)
  | _ :: _ :: z :: _ => failUsage 1 ("extra operand " ++ quote z)

end Program
end Shell
end Unweave

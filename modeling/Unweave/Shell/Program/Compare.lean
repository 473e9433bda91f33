import Unweave.Shell.Program.Files

/-!
# Comparing files
-/

namespace Unweave
namespace Shell
namespace Program

/-! ## Bytes -/

/-- Where two texts first differ, as a count of bytes and of lines before it. -/
def firstDifference : List Char → List Char → Nat → Nat → Option (Nat × Nat × Option (Char × Char))
  | [], [], _, _ => none
  | a :: as, b :: bs, n, l =>
    if a == b then firstDifference as bs (n + 1) (if a == '\n' then l + 1 else l)
    else some (n, l, some (a, b))
  | _, _, n, l => some (n, l, none)

def differences : List Char → List Char → Nat → List (Nat × Char × Char)
  | a :: as, b :: bs, n =>
    if a == b then differences as bs (n + 1) else (n, a, b) :: differences as bs (n + 1)
  | _, _, _ => []

def compareText (path : String) : Job (List Char) := do
  match ← readOperand path with
  | .ok text => return text
  | .error e => failWith 2 (path ++ ": " ++ e.reason)

/-- A complaint and a hint that both carry the name. -/
def failNamed {α : Type} (message : String) : Job α := do
  complain message
  complain ("Try \x27" ++ (← get).name ++ " --help\x27 for more information.")
  quit 2

/-- A byte as a listing shows it. -/
def octalByte (c : Char) : String := padLeft 3 ' ' (digitsIn 8 c.toNat)

def cmp : Program := do
  let a ← arguments
    { shorts := "slbn:i:"
      longs := [long "silent" 's', long "quiet" 's', long "verbose" 'l', long "print-bytes" 'b',
        long "bytes" 'n' .value] } 2
  match a.operands with
  | [] => failNamed ("missing operand after " ++ quote (← get).name)
  | x :: rest =>
    let y := rest.headD "-"
    let xs ← compareText x
    let ys ← compareText y
    let limit := (a.value? 'n').bind natural?
    let cut := fun (cs : List Char) => match limit with
      | some n => cs.take n
      | none => cs
    let xs := cut xs
    let ys := cut ys
    let short := if xs.length < ys.length then x else y
    let shorter := min xs.length ys.length
    if a.has 'l' then
      let ds := differences xs ys 1
      let width := (digitsIn 10 shorter).length
      for (n, p, q) in ds do
        putLine (padLeft width ' ' (digitsIn 10 n) ++ " " ++ octalByte p ++ " " ++ octalByte q)
      if xs.length != ys.length then
        complain ("EOF on " ++ short ++
          (if shorter == 0 then " which is empty" else " after byte " ++ toString shorter))
        setStatus 1
      else unless ds.isEmpty do setStatus 1
    else
      match firstDifference xs ys 0 0 with
      | none => pure ()
      | some (n, l, some (p, q)) =>
        unless a.has 's' do
          if a.has 'b' then
            putLine (x ++ " " ++ y ++ " differ: byte " ++ toString (n + 1) ++ ", line " ++
              toString (l + 1) ++ " is " ++ octalByte p ++ " " ++ String.singleton p ++ " " ++
              octalByte q ++ " " ++ String.singleton q)
          else
            putLine (x ++ " " ++ y ++ " differ: char " ++ toString (n + 1) ++ ", line " ++
              toString (l + 1))
        setStatus 1
      | some (n, l, none) =>
        unless a.has 's' do
          let shared := if xs.length < ys.length then xs else ys
          complain ("EOF on " ++ short ++
            (if n == 0 then " which is empty"
            else " after byte " ++ toString n ++
              (if shared.getLast? == some '\n' then ", line " ++ toString l
              else ", in line " ++ toString (l + 1))))
        setStatus 1

/-! ## Lines -/

/-- A line with whether it has its feed. -/
abbrev DiffLine : Type := List Char × Bool

def diffLines (text : List Char) : Array DiffLine :=
  let lines := (linesOf text).map fun l => (l, true)
  if endsOpen text then
    match lines.reverse with
    | (l, _) :: rest => ((l, false) :: rest).reverse.toArray
    | [] => #[]
  else lines.toArray

/-- For each pair of places the length of the longest common sequence after them: one row. -/
def commonRow (same : DiffLine → DiffLine → Bool) (x : DiffLine) :
    List DiffLine → List Nat → List Nat
  | y :: ys, b :: b' :: bs =>
    let rest := commonRow same x ys (b' :: bs)
    let right := rest.headD 0
    (if same x y then b' + 1 else max b right) :: rest
  | _, _ => [0]

def commonTable (same : DiffLine → DiffLine → Bool) (ys : List DiffLine) :
    List DiffLine → List (Array Nat)
  | [] => [Array.replicate (ys.length + 1) 0]
  | x :: xs =>
    let below := commonTable same ys xs
    (commonRow same x ys (below.headD #[]).toList).toArray :: below

/-- A change: where it starts in both files, and how many lines go and come. -/
structure Change where
  left : Nat
  right : Nat
  removed : Nat
  added : Nat

/-- The lines that stay, as pairs of places. -/
def matches_ (same : DiffLine → DiffLine → Bool) (xs ys : Array DiffLine) (table : Array (Array Nat)) :
    Nat → Nat → Nat → List (Nat × Nat)
  | 0, _, _ => []
  | n + 1, i, j =>
    match xs[i]?, ys[j]? with
    | some x, some y =>
      let at_ := fun (i j : Nat) => ((table[i]?).bind (·[j]?)).getD 0
      if same x y then (i, j) :: matches_ same xs ys table n (i + 1) (j + 1)
      else if at_ (i + 1) j ≥ at_ i (j + 1) then matches_ same xs ys table n (i + 1) j
      else matches_ same xs ys table n i (j + 1)
    | _, _ => []

def changesBetween : List (Nat × Nat) → Nat → Nat → Nat → Nat → List Change
  | [], i, j, n, m => if i < n || j < m then [⟨i, j, n - i, m - j⟩] else []
  | (a, b) :: rest, i, j, n, m =>
    if i < a || j < b then ⟨i, j, a - i, b - j⟩ :: changesBetween rest (a + 1) (b + 1) n m
    else changesBetween rest (a + 1) (b + 1) n m

/-- Lines as they are compared. -/
structure DiffStyle where
  folded : Bool := false
  blanks : Bool := false
  allBlanks : Bool := false

def squeezeBlanks : List Char → List Char
  | c :: d :: cs =>
    if isBlankByte c && isBlankByte d then squeezeBlanks (' ' :: cs)
    else (if isBlankByte c then ' ' else c) :: squeezeBlanks (d :: cs)
  | [c] => if isBlankByte c then [] else [c]
  | [] => []
termination_by cs => cs.length

def DiffStyle.view (s : DiffStyle) (l : DiffLine) : DiffLine :=
  let cs := if s.allBlanks then l.1.filter fun c => !isSpaceByte c
    else if s.blanks then squeezeBlanks l.1
    else l.1
  (if s.folded then cs.map Char.toLower else cs, l.2 || s.blanks || s.allBlanks)

/-- Changes between two texts: equal lines at both ends are set aside first. -/
def changes (s : DiffStyle) (xs ys : Array DiffLine) : List Change :=
  let us := xs.map s.view
  let vs := ys.map s.view
  let same := fun (a b : DiffLine) => a == b
  let front := ((us.toList.zip vs.toList).takeWhile fun (a, b) => a == b).length
  let back := (((us.toList.drop front).reverse.zip (vs.toList.drop front).reverse).takeWhile
    fun (a, b) => a == b).length
  let us' := us.extract front (us.size - back)
  let vs' := vs.extract front (vs.size - back)
  let table := (commonTable same vs'.toList us'.toList).toArray
  let inner := matches_ same us' vs' table (us'.size + vs'.size + 1) 0 0
  let pairs := (List.range front).map (fun k => (k, k)) ++
    inner.map (fun (i, j) => (i + front, j + front)) ++
    (List.range back).map fun k => (us.size - back + k, vs.size - back + k)
  changesBetween pairs 0 0 us.size vs.size

def diffText (mark : String) (l : DiffLine) : String :=
  mark ++ String.ofList l.1 ++ "\n" ++ if l.2 then "" else "\\ No newline at end of file\n"

/-- A range of lines in a plain listing. -/
def plainRange (start count : Nat) : String :=
  if count = 0 then toString start
  else if count = 1 then toString (start + 1)
  else toString (start + 1) ++ "," ++ toString (start + count)

def plainChange (xs ys : Array DiffLine) (c : Change) : String :=
  let letter := if c.removed = 0 then "a" else if c.added = 0 then "d" else "c"
  plainRange c.left c.removed ++ letter ++ plainRange c.right c.added ++ "\n" ++
    String.join ((xs.extract c.left (c.left + c.removed)).toList.map (diffText "< ")) ++
    (if c.removed > 0 && c.added > 0 then "---\n" else "") ++
    String.join ((ys.extract c.right (c.right + c.added)).toList.map (diffText "> "))

/-- Changes that are so close that they are shown together. -/
def hunks (context : Nat) : List Change → List (List Change)
  | [] => []
  | c :: cs =>
    match hunks context cs with
    | (d :: ds) :: rest =>
      if d.left - (c.left + c.removed) ≤ 2 * context then (c :: d :: ds) :: rest
      else [c] :: (d :: ds) :: rest
    | rest => [c] :: rest

def unifiedRange (start count : Nat) : String :=
  if count = 1 then toString (start + 1)
  else if count = 0 then toString start ++ ",0"
  else toString (start + 1) ++ "," ++ toString count

/-- The lines of a hunk from a place in the first file on. -/
def hunkLines (xs ys : Array DiffLine) (stop : Nat) : Nat → List Change → String
  | i, [] => String.join ((xs.extract i stop).toList.map (diffText " "))
  | i, c :: cs =>
    String.join ((xs.extract i c.left).toList.map (diffText " ")) ++
      String.join ((xs.extract c.left (c.left + c.removed)).toList.map (diffText "-")) ++
      String.join ((ys.extract c.right (c.right + c.added)).toList.map (diffText "+")) ++
      hunkLines xs ys stop (c.left + c.removed) cs

def unifiedHunk (context : Nat) (xs ys : Array DiffLine) (cs : List Change) : String :=
  match cs.head?, cs.getLast? with
  | some first, some last =>
    let before := min context (min first.left first.right)
    let start := first.left - before
    let start' := first.right - before
    let after := min context (xs.size - (last.left + last.removed))
    let stop := last.left + last.removed + after
    let stop' := last.right + last.added + after
    "@@ -" ++ unifiedRange start (stop - start) ++ " +" ++ unifiedRange start' (stop' - start') ++
      " @@\n" ++ hunkLines xs ys stop start cs
  | _, _ => ""

structure DiffOptions where
  style : DiffStyle
  brief : Bool
  same : Bool
  context : Option Nat
  labels : List String
  deep : Bool
  /-- The options as they were given. -/
  given : List String

/-- Compare two texts; whether they differ. -/
def diffTexts (o : DiffOptions) (x y : String) (a b : List Char) : Job Bool := do
  let xs := diffLines a
  let ys := diffLines b
  let cs := changes o.style xs ys
  if cs.isEmpty then
    if o.same then putLine ("Files " ++ x ++ " and " ++ y ++ " are identical")
    return false
  else if o.brief then
    putLine ("Files " ++ x ++ " and " ++ y ++ " differ")
    return true
  else
    match o.context with
    | some n =>
      let stamp := "\t1970-01-01 00:00:00.000000000 +0000"
      let name := fun (k : Nat) (path : String) => (o.labels[k]?).getD (path ++ stamp)
      putText ("--- " ++ name 0 x ++ "\n+++ " ++ name 1 y ++ "\n")
      for h in hunks n cs do putText (unifiedHunk n xs ys h)
    | none => for c in cs do putText (plainChange xs ys c)
    return true

/-- Compare two directories; whether they differ. -/
def diffDirectories (o : DiffOptions) : Nat → String → String → Job Bool
  | 0, _, _ => return false
  | n + 1, x, y => do
    let d ← disk
    let names := fun (path : String) =>
      match d.find (readable path) with
      | .ok (l, _) => (d.children l).map octets
      | .error _ => []
    let left := names x
    let right := names y
    let all := (left ++ right.filter fun r => !left.contains r).mergeSort fun a b => a ≤ b
    let mut differ := false
    for name in all do
      if !left.contains name then
        putLine ("Only in " ++ y ++ ": " ++ name)
        differ := true
      else if !right.contains name then
        putLine ("Only in " ++ x ++ ": " ++ name)
        differ := true
      else
        let p := within x name
        let q := within y name
        match ← lookUp p, ← lookUp q with
        | .ok (_, .directory), .ok (_, .directory) =>
          if o.deep then
            if ← diffDirectories o n p q then differ := true
          else putLine ("Common subdirectories: " ++ p ++ " and " ++ q)
        | .ok (_, .file a), .ok (_, .file b) =>
          if a.data != b.data then
            unless o.brief do putLine (" ".intercalate ("diff" :: o.given ++ [p, q]))
            if ← diffTexts o p q (octetsOf a) (octetsOf b) then differ := true
          else if o.same then putLine ("Files " ++ p ++ " and " ++ q ++ " are identical")
        | .ok (_, .directory), .ok _ =>
          putLine ("File " ++ p ++ " is a directory while file " ++ q ++ " is a regular file")
          differ := true
        | .ok _, .ok (_, .directory) =>
          putLine ("File " ++ p ++ " is a regular file while file " ++ q ++ " is a directory")
          differ := true
        | _, _ => pure ()
    return differ

def diff : Program := do
  let w ← get
  let a ← arguments
    { shorts := "qsuU:riwbBcaNeyt"
      longs := [long "brief" 'q', long "report-identical-files" 's', long "unified" 'u' .maybe,
        long "recursive" 'r', long "ignore-case" 'i', long "ignore-all-space" 'w',
        long "ignore-space-change" 'b', long "label" 'L' .value, long "normal" 'n',
        long "text" 'a', long "new-file" 'N', long "ignore-blank-lines" 'B', long "color" 'K' .maybe] } 2
  let context := match (a.value? 'U').bind natural?, a.value? 'u' with
    | some n, _ => some n
    | none, some n => some ((natural? n).getD 3)
    | none, none => none
  let o : DiffOptions :=
    { style := { folded := a.has 'i', blanks := a.has 'b', allBlanks := a.has 'w' }
      brief := a.has 'q', same := a.has 's', context, labels := a.values 'L', deep := a.has 'r'
      given := w.arguments.filter fun x => x.startsWith "-" && x != "-" }
  match a.operands with
  | [] => failNamed ("missing operand after " ++ quote (w.arguments.getLastD w.name))
  | [x] => failNamed ("missing operand after " ++ quote x)
  | [x, y] =>
    let entry := fun (path : String) => do
      if path == "-" then pure (none : Option DiskEntry)
      else
        match ← lookUp path with
        | .ok (_, e) => pure (some e)
        | .error e =>
          if a.has 'N' then pure none
          else do
            complain (path ++ ": " ++ e.reason)
            setStatus 2
            pure none
    let p ← entry x
    let q ← entry y
    if (← get).status == 2 then quit 2
    match p, q with
    | some .directory, some .directory => if ← diffDirectories o 64 x y then setStatus 1
    | _, _ =>
      let x' := match p, q with
        | some .directory, some _ => within x (lastPart y)
        | _, _ => x
      let y' := match p, q with
        | some _, some .directory => within y (lastPart x)
        | _, _ => y
      let text := fun (path : String) => do
        if a.has 'N' && path != "-" && !(← disk).pathExists (readable path) then pure []
        else compareText path
      let s ← text x'
      let t ← text y'
      if s != t then
        if ← diffTexts o x' y' s t then setStatus 1
      else if o.same then putLine ("Files " ++ x' ++ " and " ++ y' ++ " are identical")
  | _ :: _ :: z :: _ => failNamed ("extra operand " ++ quote z)

end Program
end Shell
end Unweave

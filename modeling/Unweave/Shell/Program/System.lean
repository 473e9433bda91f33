import Unweave.Calendar
import Unweave.Shell.Program.Print
import Unweave.Shell.Signal

/-!
# Paths, variables, time and other programs

Small programs that tell about names, variables and the system, wait, or run other programs.
-/

namespace Unweave
namespace Shell
namespace Program

def succeed : Program := pure ()

def fail : Program := setStatus 1

/-! ## Names of paths -/

/-- A path without slashes at its end. -/
def withoutSlashes (path : String) : List Char :=
  (path.toList.reverse.dropWhile (· == '/')).reverse

/-- The last part of a path; the top is a slash. -/
def baseOf (path : String) : String :=
  let stem := withoutSlashes path
  if stem.isEmpty then (if path.isEmpty then "" else "/")
  else String.ofList (stem.reverse.takeWhile (· != '/')).reverse

/-- A name without an ending, unless nothing else is left. -/
def withoutEnding (name ending : String) : String :=
  if name.endsWith ending && name != ending && !ending.isEmpty then
    String.ofList (name.toList.take (name.length - ending.length))
  else name

/-- Everything before the last part of a path. -/
def directoryOf (path : String) : String :=
  let above := (withoutSlashes path).reverse.dropWhile (· != '/')
  let stem := (above.dropWhile (· == '/')).reverse
  if stem.isEmpty then (if path.startsWith "/" then "/" else ".") else String.ofList stem

/-- The end of a line of names. -/
def nameEnd (a : Arguments) : String := if a.has 'z' then "\x00" else "\n"

def basename : Program := do
  let a ← arguments
    { shorts := "as:z", longs := [long "multiple" 'a', long "suffix" 's' .value, long "zero" 'z']
      mixed := false }
  let several := a.has 'a' || a.has 's'
  match a.operands, several with
  | [], _ => failUsage 1 "missing operand"
  | _ :: _ :: extra :: _, false => failUsage 1 ("extra operand " ++ quote extra)
  | [path, ending], false => putText (withoutEnding (baseOf path) ending ++ nameEnd a)
  | paths, _ =>
    let ending := (a.value? 's').getD ""
    paths.forM fun path => putText (withoutEnding (baseOf path) ending ++ nameEnd a)

def dirname : Program := do
  let a ← arguments { shorts := "z", longs := [long "zero" 'z'] }
  if a.operands.isEmpty then failUsage 1 "missing operand"
  a.operands.forM fun path => putText (directoryOf path ++ nameEnd a)

/-- The current directory. -/
def pwd : Program := do
  let a ← arguments { shorts := "LP", longs := [long "logical" 'L', long "physical" 'P'] }
  unless a.operands.isEmpty do complain "ignoring non-option arguments"
  putLine (octets (Disk.pathOf (← disk).here))

/-! ## Variables -/

def assignmentOf? (word : String) : Option (String × String) :=
  if word.toList.contains '=' then
    let name := word.toList.takeWhile (· != '=')
    some (String.ofList name, String.ofList (word.toList.drop (name.length + 1)))
  else none

def setIn (environment : List (String × String)) (name value : String) : List (String × String) :=
  if environment.any (·.1 == name) then
    environment.map fun (n, v) => if n == name then (n, value) else (n, v)
  else environment ++ [(name, value)]

/-- The assignments at the start of words, and the words after them. -/
def leadingAssignments : List String → List (String × String) × List String
  | [] => ([], [])
  | w :: ws =>
    match assignmentOf? w with
    | none => ([], w :: ws)
    | some a =>
      let (as, rest) := leadingAssignments ws
      (a :: as, rest)

/-- Words with the texts of options that hold several words put in their place. -/
def unpacked : List String → List String
  | "-S" :: text :: ws => (text.splitOn " ").filter (· != "") ++ ws
  | ws => ws

def env : Program := do
  modify fun w => { w with arguments := unpacked w.arguments }
  let a ← arguments
    { shorts := "iu:0C:v", mixed := false
      longs := [long "ignore-environment" 'i', long "unset" 'u' .value, long "null" '0',
        long "chdir" 'C' .value] } 125
  let bare := a.operands.head? == some "-"
  let operands := if bare then a.operands.drop 1 else a.operands
  let inherited := (← get).environment
  let start := if bare || a.has 'i' then [] else inherited
  let kept := start.filter fun (n, _) => !(a.values 'u').contains n
  let (as, words) := leadingAssignments operands
  let environment := as.foldl (fun e (n, v) => setIn e n v) kept
  match a.value? 'C' with
  | none => pure ()
  | some path =>
    let d ← disk
    match d.find (readable path) with
    | .ok (l, .directory) => setDisk { d with here := l }
    | .ok _ => failWith 125 ("cannot change directory to " ++ quote path ++ ": Not a directory")
    | .error e => failWith 125 ("cannot change directory to " ++ quote path ++ ": " ++ e.reason)
  match words with
  | [] =>
    let ending := if a.has '0' then "\x00" else "\n"
    environment.forM fun (n, v) => putText (n ++ "=" ++ v ++ ending)
  | program :: _ => become words environment fun e => quote program ++ ": " ++ e.reason

def printenv : Program := do
  let a ← arguments { shorts := "0", longs := [long "null" '0'], mixed := false } 2
  let environment := (← get).environment
  let ending := if a.has '0' then "\x00" else "\n"
  match a.operands with
  | [] => environment.forM fun (n, v) => putText (n ++ "=" ++ v ++ ending)
  | names =>
    names.forM fun name => do
      match environment.lookup name with
      | some v => putText (v ++ ending)
      | none => setStatus 1

/-! ## Time -/

/-- The milliseconds of a number with a unit, and none for a time without end. -/
def interval? (s : String) : Option (Option Nat) :=
  let whole := s.toList.takeWhile Char.isDigit
  let rest := s.toList.drop whole.length
  let (places, rest) := match rest with
    | '.' :: ds => (ds.takeWhile Char.isDigit, ds.dropWhile Char.isDigit)
    | rest => ([], rest)
  let unit : Option Nat := match rest with
    | [] => some 1
    | ['s'] => some 1
    | ['m'] => some 60
    | ['h'] => some 3600
    | ['d'] => some 86400
    | _ => none
  if s == "infinity" || s == "inf" then some none
  else if whole.isEmpty && places.isEmpty then none
  else
    unit.map fun u =>
      let scale := Nat.pow 10 places.length
      some ((digitsValue 10 (whole ++ places) * u * 1000 + scale - 1) / scale)

def sleep : Program := do
  let a ← arguments { shorts := "" }
  if a.operands.isEmpty then failUsage 1 "missing operand"
  let times := a.operands.map interval?
  let faults := (a.operands.zip times).filter (·.2.isNone)
  unless faults.isEmpty do
    faults.forM fun (s, _) => complain ("invalid time interval " ++ quote s)
    hint
    quit 1
  times.forM fun t =>
    match t with
    | some (some n) => pass n
    | _ => throw .stuck

/-- The days of the week from the one that 1970 began with. -/
def weekdays : List String :=
  ["Thursday", "Friday", "Saturday", "Sunday", "Monday", "Tuesday", "Wednesday"]

def months : List String :=
  ["January", "February", "March", "April", "May", "June", "July", "August", "September", "October",
    "November", "December"]

def shortName (names : List String) (i : Nat) : String :=
  String.ofList (((names[i]?).getD "").toList.take 3)

/-- The number of a day in its year. -/
def dayOfYear (days : Nat) : Nat :=
  let year := (Calendar.dateOf days).year
  ((List.range 366).takeWhile fun k => k ≤ days && (Calendar.dateOf (days - k)).year = year).length

/-- A part of a date by its letter. -/
def datePart (seconds : Nat) (c : Char) : Option String :=
  let days := seconds / 86400
  let date := Calendar.dateOf days
  let hour := seconds / 3600 % 24
  let two := Calendar.padded 2
  let time := two hour ++ ":" ++ two (seconds / 60 % 60)
  let half := if hour % 12 = 0 then 12 else hour % 12
  match c with
  | 'Y' => some (toString date.year)
  | 'y' => some (two (date.year % 100))
  | 'C' => some (two (date.year / 100))
  | 'm' => some (two date.month)
  | 'd' => some (two date.day)
  | 'e' => some (padLeft 2 ' ' (toString date.day))
  | 'H' => some (two hour)
  | 'k' => some (padLeft 2 ' ' (toString hour))
  | 'I' => some (two half)
  | 'l' => some (padLeft 2 ' ' (toString half))
  | 'p' => some (if hour < 12 then "AM" else "PM")
  | 'M' => some (two (seconds / 60 % 60))
  | 'S' => some (two (seconds % 60))
  | 'N' => some "000000000"
  | 's' => some (toString seconds)
  | 'j' => some (Calendar.padded 3 (dayOfYear days))
  | 'u' => some (toString ((days + 3) % 7 + 1))
  | 'w' => some (toString ((days + 4) % 7))
  | 'a' => some (shortName weekdays (days % 7))
  | 'A' => weekdays[days % 7]?
  | 'b' => some (shortName months (date.month - 1))
  | 'h' => some (shortName months (date.month - 1))
  | 'B' => months[date.month - 1]?
  | 'F' => some (toString date.year ++ "-" ++ two date.month ++ "-" ++ two date.day)
  | 'D' => some (two date.month ++ "/" ++ two date.day ++ "/" ++ two (date.year % 100))
  | 'T' => some (time ++ ":" ++ two (seconds % 60))
  | 'R' => some time
  | 'Z' => some "UTC"
  | 'z' => some "+0000"
  | 'n' => some "\n"
  | 't' => some "\t"
  | '%' => some "%"
  | _ => none

def dateText (seconds : Nat) : List Char → List Char
  | '%' :: c :: cs =>
    match datePart seconds c with
    | some s => s.toList ++ dateText seconds cs
    | none => '%' :: c :: dateText seconds cs
  | c :: cs => c :: dateText seconds cs
  | [] => []

/-- The seconds that a date in text means. -/
def secondsOf? (s : String) : Option Nat :=
  match s.toList with
  | '@' :: ds => natural? (String.ofList ds)
  | _ => none

/-- The time that clocks show when nothing else is told. -/
def clockStart : Nat := 1767225600

def date : Program := do
  let a ← arguments
    { shorts := "ud:RI::", longs := [long "utc" 'u', long "universal" 'u', long "date" 'd' .value,
        long "rfc-email" 'R', long "iso-8601" 'I' .maybe] }
  let seconds ← match a.value? 'd' with
    | none => pure (clockStart + (← get).time / 1000)
    | some s =>
      match secondsOf? s with
      | some n => pure n
      | none => failWith 1 ("invalid date " ++ quote s)
  let usual := match a.last? ['R', 'I'] with
    | some 'R' => "%a, %d %b %Y %T %z"
    | some _ =>
      match a.value? 'I' with
      | some "seconds" => "%FT%T+00:00"
      | some "minutes" => "%FT%R+00:00"
      | some "hours" => "%FT%H+00:00"
      | _ => "%F"
    | none => "%a %b %e %T %Z %Y"
  let format ← match a.operands with
    | [] => pure usual
    | [f] =>
      if f.startsWith "+" then pure (String.ofList (f.toList.drop 1))
      else failWith 1 ("invalid date " ++ quote f)
    | _ :: extra :: _ => failUsage 1 ("extra operand " ++ quote extra)
  put (dateText seconds format.toList ++ ['\n'])

/-! ## The system -/

def noOperands (a : Arguments) : Job Unit :=
  match a.operands with
  | [] => pure ()
  | extra :: _ => failUsage 1 ("extra operand " ++ quote extra)

def uname : Program := do
  let a ← arguments
    { shorts := "asnrvmpio", longs := [long "all" 'a', long "kernel-name" 's', long "nodename" 'n',
        long "kernel-release" 'r', long "machine" 'm', long "operating-system" 'o'] }
  noOperands a
  let parts := [('s', "Linux"), ('n', "localhost"), ('r', "6.1.0"), ('v', "#1 SMP"), ('m', "x86_64"),
    ('o', "GNU/Linux")]
  let chosen := parts.filter fun (c, _) => a.has c || a.has 'a'
  putLine (" ".intercalate (if chosen.isEmpty then ["Linux"] else chosen.map (·.2)))

def arch : Program := do
  noOperands (← arguments { shorts := "" })
  putLine "x86_64"

def nproc : Program := putLine "1"

def hostname : Program := putLine "localhost"

def whoami : Program := do
  noOperands (← arguments { shorts := "" })
  putLine "root"

def groups : Program := putLine "root"

def id : Program := do
  let a ← arguments
    { shorts := "ugGnr", longs := [long "user" 'u', long "group" 'g', long "groups" 'G',
        long "name" 'n', long "real" 'r'] }
  match a.operands with
  | user :: _ =>
    unless user == "root" || user == "0" do failWith 1 (quote user ++ ": no such user")
  | [] => pure ()
  if a.has 'u' || a.has 'g' || a.has 'G' then putLine (if a.has 'n' then "root" else "0")
  else if a.has 'n' || a.has 'r' then
    failWith 1 "cannot print only names or real IDs in default format"
  else putLine "uid=0(root) gid=0(root) groups=0(root)"

def tty : Program := do
  let a ← arguments { shorts := "s", longs := [long "silent" 's', long "quiet" 's'] } 2
  unless a.has 's' do putLine "not a tty"
  setStatus 1

/-! ## Programs that run others -/

def nice : Program := do
  let a ← arguments
    { shorts := "n:", longs := [long "adjustment" 'n' .value], mixed := false } 125
  match a.value? 'n' with
  | some n => if (integer? n).isNone then failWith 125 ("invalid adjustment " ++ quote n)
  | none => pure ()
  match a.operands with
  | [] => putLine "0"
  | program :: _ =>
    become a.operands (← get).environment fun e => quote program ++ ": " ++ e.reason

def nohup : Program := do
  let a ← arguments { shorts := "", mixed := false } 125
  match a.operands with
  | [] => failUsage 125 "missing operand"
  | program :: _ =>
    become a.operands (← get).environment fun e =>
      "failed to run command " ++ quote program ++ ": " ++ e.reason

/-- Run a program for a time at most. -/
def timeout : Program := do
  let a ← arguments
    { shorts := "k:s:v", mixed := false
      longs := [long "kill-after" 'k' .value, long "signal" 's' .value, long "preserve-status" 'p',
        long "foreground" 'f', long "verbose" 'v'] } 125
  let signal ← match a.value? 's' with
    | none => pure 15
    | some s =>
      match Signal.parse? s with
      | some n => pure n
      | none => failUsage 125 (quote s ++ ": invalid signal")
  match a.operands with
  | time :: program :: words =>
    let some span := interval? time | failUsage 125 ("invalid time interval " ++ quote time)
    let w ← get
    let left := w.limit - w.time
    let granted := match span with
      | none => left
      | some n => if n = 0 then left else min n left
    let r := w.start granted (program :: words) w.environment w.input w.disk
    let printed := r.printed.map fun (c, s) => (c, ({ text := s.seen } : Stream))
    set { w with
      disk := r.disk, printed := printed.reverse ++ w.printed, time := w.time + r.time
      input := r.left }
    match r.refused, r.stop with
    | some e, _ =>
      failWith (refusedStatus e) ("failed to run command " ++ quote program ++ ": " ++ e.reason)
    | none, .ended => quit r.status
    | none, .killed n => throw (.killed n)
    | none, .stuck =>
      if granted = left then throw .stuck
      modify fun w' => { w' with time := w.time + granted }
      if signal = 9 then throw (.killed 9)
      quit (if a.has 'p' then 128 + signal else 124)
  | _ =>
    hint
    quit 125

end Program
end Shell
end Unweave

import Unweave.Shell.Format
import Unweave.Shell.Program.Basic

/-!
# Programs that print their arguments

Two dialects of printing are in use: that of the shell itself, and that of programs of their own.
-/

namespace Unweave
namespace Shell
namespace Program

/-! ## Escapes -/

/-- An escape of the shell's own dialect at the start of a text, whose backslash is read. -/
def shellEscape (cs : List Char) : Char × List Char :=
  match cs with
  | 'e' :: rest => ('\x1b', rest)
  | c :: rest =>
    match letterEscape c with
    | some b => (b, rest)
    | none =>
      if isOctal c then
        let (ds, rest) := takeUpTo isOctal 3 cs
        (byteOf 8 ds, rest)
      else ('\\', cs)
  | [] => ('\\', [])

/-- The bytes of a text with escapes in the shell's own dialect, and whether one of them ended all
output.  Octal digits may have a zero before them. -/
def shellEscaped : Nat → List Char → List Char → List Char × Bool
  | 0, _, out => (out.reverse, false)
  | _ + 1, [], out => (out.reverse, false)
  | n + 1, '\\' :: cs, out =>
    match cs with
    | 'c' :: _ => (out.reverse, true)
    | '0' :: d :: rest =>
      let (b, rest) := shellEscape (if isOctal d then d :: rest else cs)
      shellEscaped n rest (b :: out)
    | cs =>
      let (b, rest) := shellEscape cs
      shellEscaped n rest (b :: out)
  | n + 1, c :: cs, out => shellEscaped n cs (c :: out)

def shellText (s : String) : List Char × Bool := shellEscaped (s.length + 1) s.toList []

/-- An escape of a program's dialect, whose backslash is read: its bytes, and what follows. -/
def programEscape (zeroFirst : Bool) (cs : List Char) : Option (List Char × List Char) :=
  match cs with
  | 'e' :: rest => some (['\x1b'], rest)
  | 'x' :: rest =>
    let (ds, after) := takeUpTo (fun c => digitValue c < 16) 2 rest
    if ds.isEmpty then none else some ([byteOf 16 ds], after)
  | c :: rest =>
    match letterEscape c with
    | some b => some ([b], rest)
    | none =>
      if isOctal c then
        let (ds, after) :=
          if zeroFirst && c == '0' then takeUpTo isOctal 3 rest else takeUpTo isOctal 3 cs
        some ([byteOf 8 ds], after)
      else none
  | [] => none

/-- The bytes of a text with escapes in a program's dialect, and whether one ended all output. -/
def programEscaped : Nat → List Char → List Char → List Char × Bool
  | 0, _, out => (out.reverse, false)
  | _ + 1, [], out => (out.reverse, false)
  | _ + 1, '\\' :: 'c' :: _, out => (out.reverse, true)
  | n + 1, '\\' :: cs, out =>
    match programEscape true cs with
    | some (bs, rest) => programEscaped n rest (bs.reverse ++ out)
    | none => programEscaped n cs ('\\' :: out)
  | n + 1, c :: cs, out => programEscaped n cs (c :: out)

def programText (s : String) : List Char × Bool := programEscaped (s.length + 1) s.toList []

/-! ## Echo -/

/-- Print words with blanks between them; one of them may end all output. -/
def echoWords (silent : Bool) : List (List Char × Bool) → List Char
  | [] => if silent then [] else ['\n']
  | [(w, stop)] => w ++ if silent || stop then [] else ['\n']
  | (w, stop) :: ws => if stop then w else w ++ ' ' :: echoWords silent ws

/-- The shell's own echo, which always knows escapes. -/
def shellEcho : Program := do
  let as := (← get).arguments
  let silent := as.head? == some "-n"
  put (echoWords silent ((if silent then as.drop 1 else as).map shellText))

/-- Whether an argument is made of the options of echo. -/
def isEchoOption (a : String) : Bool :=
  match a.toList with
  | '-' :: c :: cs => (c :: cs).all fun c => c == 'n' || c == 'e' || c == 'E'
  | _ => false

def echo : Program := do
  let as := (← get).arguments
  let options := (as.takeWhile isEchoOption).flatMap fun a => a.toList.drop 1
  let words := as.dropWhile isEchoOption
  let knows := (options.filter (· != 'n')).getLast? == some 'e'
  put (echoWords (options.contains 'n')
    (words.map fun w => if knows then programText w else (w.toList, false)))

/-! ## Formatted printing -/

/-- What a format prints with and what is left of its arguments. -/
structure Printing where
  arguments : List String
  out : List Char := []
  /-- Whether an argument was asked for. -/
  asked : Bool := false
  complaints : List String := []
  /-- Whether an escape ended all output, or a fault did. -/
  stopped : Bool := false
  fault : Option String := none

/-- How a dialect of formatted printing differs. -/
structure Dialect where
  escape : List Char → List Char × List Char
  escaped : String → List Char × Bool
  notNumber : String → String
  notWhole : String → String
  outOfRange : String → String
  unknown : String → String
  /-- Significant bits of real numbers. -/
  bits : Nat
  /-- Whether a letter goes with its flags and extents. -/
  allows : Conversion → Bool

namespace Printing

def next (p : Printing) : Option String × Printing :=
  match p.arguments with
  | a :: as => (some a, { p with arguments := as, asked := true })
  | [] => (none, { p with asked := true })

def emit (p : Printing) (cs : List Char) : Printing := { p with out := cs.reverse ++ p.out }

def complain (p : Printing) (message : String) : Printing :=
  { p with complaints := message :: p.complaints }

/-- Complain about a number that is beyond a bound or too small. -/
def checkRange (d : Dialect) (p : Printing) (a : String) (bound i : Int) : Printing :=
  if i > bound || i < -greatest - 1 then p.complain (d.outOfRange a) else p

/-- Complain about what follows a number. -/
def check (d : Dialect) (p : Printing) (a : String) (found : Bool) (rest : List Char) : Printing :=
  if !found && !a.isEmpty then p.complain (d.notNumber a)
  else if !rest.isEmpty then p.complain (d.notWhole a)
  else p

/-- An argument that is one quoted character. -/
def characterCode? (a : String) : Option Nat :=
  match a.toList with
  | '"' :: c :: _ => some c.toNat
  | '\x27' :: c :: _ => some c.toNat
  | _ => none

/-- The greatest number without a sign. -/
def greatestUnsigned : Int := 18446744073709551615

/-- The next argument as an integer up to a bound. -/
def integer (d : Dialect) (bound : Int) (p : Printing) : Int × Printing :=
  match p.next with
  | (none, p) => (0, p)
  | (some a, p) =>
    match characterCode? a with
    | some n => (Int.ofNat n, p)
    | none =>
      let (negative, body) := signOf (a.toList.dropWhile isSpaceByte)
      let (n, rest, found) := readUnsigned 0 body
      let i := if negative then -(Int.ofNat n) else Int.ofNat n
      let p := if found then checkRange d p a bound i else p
      (if found then i else 0, check d p a found (if found then rest else []))

def real (d : Dialect) (p : Printing) : Real × Printing :=
  match p.next with
  | (none, p) => (.zero, p)
  | (some a, p) =>
    match characterCode? a with
    | some n => (.ofInt (Int.ofNat n), p)
    | none =>
      match Real.read? d.bits true a.toList with
      | some (x, rest) => (x, check d p a true rest)
      | none => (.zero, check d p a false [])

def extent (d : Dialect) (p : Printing) : Extent → Option Int × Printing
  | .argument =>
    let (i, p) := integer d greatest p
    (some i, p)
  | _ => (none, p)

/-- Print one argument by a conversion, written `source`. -/
def convert (d : Dialect) (c : Conversion) (source : String) (p : Printing) : Printing :=
  let (width, p) := extent d p c.width
  let (precision, p) := extent d p c.precision
  let s := Spec.ofConversion c width precision
  match c.letter with
  | 's' =>
    let (a, p) := p.next
    p.emit (s.text (a.getD "")).toList
  | 'b' =>
    let (a, p) := p.next
    let (cs, stop) := d.escaped (a.getD "")
    { p.emit (s.text (String.ofList cs)).toList with stopped := stop }
  | 'c' =>
    let (a, p) := p.next
    let cs := match a with
      | none => [Char.ofNat 0]
      | some a => if a.isEmpty then [Char.ofNat 0] else a.toList.take 1
    p.emit ({ s with precision := none }.text (String.ofList cs)).toList
  | k =>
    if k == 'd' || k == 'i' then
      let (i, p) := integer d greatest p
      p.emit (s.integer (clamped i)).toList
    else if k == 'o' || k == 'u' || k == 'x' || k == 'X' then
      let (i, p) := integer d greatestUnsigned p
      p.emit (s.unsigned k (UInt64.ofInt (min greatestUnsigned i)).toNat).toList
    else if ['e', 'E', 'f', 'F', 'g', 'G'].contains k then
      let (x, p) := real d p
      p.emit (s.real k x).toList
    else { p with fault := some (d.unknown source) }

/-- One pass over a format. -/
def pass (d : Dialect) : Nat → List Char → Printing → Printing
  | 0, _, p => p
  | _ + 1, [], p => p
  | n + 1, '\\' :: 'c' :: cs, p =>
    let (bs, rest) := d.escape ('c' :: cs)
    if bs.isEmpty then { p with stopped := true } else pass d n rest (p.emit bs)
  | n + 1, '\\' :: cs, p =>
    let (bs, rest) := d.escape cs
    pass d n rest (p.emit bs)
  | n + 1, '%' :: '%' :: cs, p => pass d n cs (p.emit ['%'])
  | n + 1, '%' :: cs, p =>
    let (c, rest) := Conversion.parse cs
    let rest := rest.dropWhile fun x => x == 'l' || x == 'h' || x == 'j' || x == 'z' || x == 't'
    match rest with
    | [] => { p with fault := some (d.unknown (String.ofList ('%' :: cs))) }
    | k :: rest =>
      let source := String.ofList ('%' :: cs.take (cs.length - rest.length))
      let c := { c with letter := k }
      let p := if d.allows c then convert d c source p else { p with fault := some (d.unknown source) }
      if p.stopped || p.fault.isSome then p else pass d n rest p
  | n + 1, c :: cs, p => pass d n cs (p.emit [c])

/-- Use a format as often as there are arguments for it. -/
def passes (d : Dialect) (format : List Char) : Nat → Printing → Printing
  | 0, p => p
  | n + 1, p =>
    let before := p.arguments.length
    let p := pass d (format.length + 1) format p
    if p.stopped || p.fault.isSome || p.arguments.isEmpty || p.arguments.length == before then p
    else passes d format n p

end Printing

def shellDialect : Dialect :=
  { escape := fun cs =>
      let (b, rest) := shellEscape cs
      ([b], rest)
    escaped := shellText
    notNumber := fun a => a ++ ": expected numeric value"
    notWhole := fun a => a ++ ": not completely converted"
    outOfRange := fun a => a ++ ": Numerical result out of range"
    unknown := fun s => if s.length ≤ 1 then "missing format character" else s ++ ": invalid directive"
    bits := 53, allows := fun _ => true }

/-- Whether a letter goes with its flags and extents in the program's dialect. -/
def programAllows (c : Conversion) : Bool :=
  let bare := c.flags.isEmpty && c.width == .none && c.precision == .none
  match c.letter with
  | 'b' => bare
  | 'q' => bare
  | 'c' => !c.has '#' && !c.has '0' && c.precision == .none
  | 's' => !c.has '#' && !c.has '0'
  | 'd' => !c.has '#'
  | 'i' => !c.has '#'
  | 'u' => !c.has '#'
  | _ => true

def programDialect : Dialect :=
  { escape := fun cs =>
      match cs with
      | 'c' :: _ => ([], [])
      | '"' :: rest => (['"'], rest)
      | cs =>
        match programEscape false cs with
        | some r => r
        | none => (['\\'], cs)
    escaped := programText
    notNumber := fun a => quote a ++ ": expected a numeric value"
    notWhole := fun a => quote a ++ ": value not completely converted"
    outOfRange := fun a => quote a ++ ": Numerical result out of range"
    unknown := fun s => s ++ ": invalid conversion specification"
    bits := 64, allows := programAllows }

/-- Print by a format; complaints are told first. -/
def printFormat (d : Dialect) (format : String) (as : List String) : Job Printing := do
  let p := Printing.passes d format.toList (as.length + 1) { arguments := as }
  return p

def printf : Program := do
  let as := (← get).arguments
  let as := if as.head? == some "--" then as.drop 1 else as
  match as with
  | [] => failUsage 1 "missing operand"
  | format :: as =>
    let p ← printFormat programDialect format as
    p.complaints.reverse.forM complain
    put p.out.reverse
    if !p.complaints.isEmpty then setStatus 1
    match p.fault with
    | some message => failWith 1 message
    | none =>
      match p.arguments with
      | a :: _ =>
        unless p.stopped do
          complain ("warning: ignoring excess arguments, starting with " ++ quote a)
      | [] => pure ()

/-! ## Endless and counted lines -/

def yes : Program := do
  let as := (← get).arguments
  let text := if as.isEmpty then "y" else " ".intercalate as
  print { forever := (text ++ "\n").toList }

/-- A decimal as a whole number and the count of its places. -/
def decimal? (s : String) : Option (Int × Nat) :=
  let (negative, body) := signOf s.toList
  let (digits, places, rest, found) := Real.readPlaces 10 body
  if found && rest.isEmpty then
    some (if negative then -(Int.ofNat digits) else Int.ofNat digits, places)
  else none

def renderDecimal (places : Nat) (i : Int) : String :=
  (if i < 0 then "-" else "") ++ Real.withPoint places i.natAbs false

/-- The numbers from one to another by a step. -/
def counted (step last : Int) : Nat → Int → List Int
  | 0, _ => []
  | n + 1, i =>
    if (step > 0 && i > last) || (step < 0 && i < last) then []
    else i :: counted step last n (i + step)

def seqGrammar : Grammar :=
  { shorts := "s:wf:", mixed := false,
    longs := [long "separator" 's' .value, long "equal-width" 'w', long "format" 'f' .value] }

/-- Whether an argument is a number with a sign, and no option. -/
def isSigned (a : String) : Bool :=
  match a.toList with
  | '-' :: c :: _ => c.isDigit || c == '.'
  | _ => false

/-- Keep signed numbers from being read as options. -/
def guardSigned : List String → List String
  | [] => []
  | a :: as =>
    if isSigned a then "--" :: a :: as
    else if (a.startsWith "-s" && a.length == 2) || (a.startsWith "-f" && a.length == 2) then
      match as with
      | v :: as => a :: v :: guardSigned as
      | [] => [a]
    else if a.startsWith "-" then a :: guardSigned as
    else a :: as

def seq : Program := do
  modify fun w => { w with arguments := guardSigned w.arguments }
  let a ← arguments seqGrammar
  let separator := (a.value? 's').getD "\n"
  match a.operands with
  | [] => failUsage 1 "missing operand"
  | operands =>
    if operands.length > 3 then failUsage 1 ("extra operand " ++ quote (operands.getD 3 ""))
    match operands.find? fun o => (decimal? o).isNone with
    | some o => failUsage 1 ("invalid floating point argument: " ++ quote o)
    | none =>
      let ns := operands.filterMap decimal?
      let (first, step, last) : (Int × Nat) × (Int × Nat) × (Int × Nat) := match ns with
        | [l] => ((1, 0), (1, 0), l)
        | [f, l] => (f, (1, 0), l)
        | f :: s :: l :: _ => (f, s, l)
        | [] => ((1, 0), (1, 0), (0, 0))
      let places := max first.2 step.2
      let scale := max places last.2
      let at_ := fun (n : Int × Nat) => n.1 * Int.ofNat (Nat.pow 10 (scale - n.2))
      if step.1 = 0 then failUsage 1 ("invalid Zero increment value: " ++ quote (operands.getD 1 ""))
      let span := ((at_ last - at_ first) / at_ step).toNat + 2
      let values := counted (at_ step) (at_ last) span (at_ first)
      let drop := Int.ofNat (Nat.pow 10 (scale - places))
      let texts := values.map fun i => renderDecimal places (Int.tdiv i drop)
      let texts := match a.value? 'f' with
        | some f => texts.map fun t =>
          String.ofList
            (Printing.passes programDialect f.toList 1 { arguments := [t] }).out.reverse
        | none =>
          if a.has 'w' then
            let width := texts.foldl (fun n t => max n t.length) 0
            texts.map fun t =>
              if t.startsWith "-" then "-" ++ padLeft (width - 1) '0' (String.ofList (t.toList.drop 1))
              else padLeft width '0' t
          else texts
      unless texts.isEmpty do putText (separator.intercalate texts ++ "\n")

end Program
end Shell
end Unweave

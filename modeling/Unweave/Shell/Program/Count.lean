import Unweave.Digest.Sha256
import Unweave.Shell.Program.Basic

/-!
# Programs that count, show and encode bytes
-/

namespace Unweave
namespace Shell
namespace Program

/-! ## Counting -/

/-- Lines, words, bytes and the length of the longest line. -/
structure Counts where
  lines : Nat := 0
  words : Nat := 0
  bytes : Nat := 0
  longest : Nat := 0

namespace Counts

def add (a b : Counts) : Counts :=
  ⟨a.lines + b.lines, a.words + b.words, a.bytes + b.bytes, max a.longest b.longest⟩

def ofText (cs : List Char) : Counts :=
  let step := fun (s : Counts × Bool × Nat) (c : Char) =>
    let (k, inWord, column) := s
    if c == '\n' then
      ({ k with lines := k.lines + 1, bytes := k.bytes + 1, longest := max k.longest column },
        false, 0)
    else if isSpaceByte c then
      ({ k with bytes := k.bytes + 1 }, false,
        if c == '\t' then column + 8 - column % 8 else if c == ' ' then column + 1 else column)
    else
      ({ k with bytes := k.bytes + 1, words := if inWord then k.words else k.words + 1 }, true,
        column + 1)
  let (k, _, column) := cs.foldl step ({}, false, 0)
  { k with longest := max k.longest column }

end Counts

def wcGrammar : Program.Grammar :=
  { shorts := "lwcmL"
    longs :=
      [long "lines" 'l', long "words" 'w', long "bytes" 'c', long "chars" 'm',
        long "max-line-length" 'L'] }

def wcLine (kinds : List Char) (width : Nat) (k : Counts) (name : String) : String :=
  let number := fun (c : Char) => match c with
    | 'l' => k.lines
    | 'w' => k.words
    | 'L' => k.longest
    | _ => k.bytes
  " ".intercalate (kinds.map fun c => padLeft width ' ' (digitsIn 10 (number c))) ++
    (if name.isEmpty then "" else " " ++ name) ++ "\n"

def wc : Program := do
  let a ← arguments wcGrammar
  let asked := ['l', 'w', 'm', 'c', 'L'].filter a.has
  let kinds := if asked.isEmpty then ['l', 'w', 'c'] else asked
  let operands := if a.operands.isEmpty then ["-"] else a.operands
  let d ← disk
  let w ← get
  let sizes := operands.map fun path =>
    if path == "-" then (if w.seekable then some w.input.text.length else none)
    else
      match d.find (readable path) with
      | .ok (_, .file content) => some content.size
      | _ => none
  let missing := fun (path : String) => path != "-" && !(d.pathExists (readable path))
  let total := sizes.foldl (fun n s => n + s.getD 0) 0
  let odd := (operands.zip sizes).any fun (path, s) => s.isNone && !missing path
  let width :=
    if operands.length == 1 && kinds.length == 1 then 1
    else max (digitsIn 10 total).length (if odd then 7 else 1)
  let mut sum : Counts := {}
  for path in operands do
    match ← readOperand path with
    | .error e =>
      complain (path ++ ": " ++ e.reason)
      setStatus 1
      if e == .isDirectory then putText (wcLine kinds width {} path)
    | .ok text =>
      let k := Counts.ofText text
      sum := sum.add k
      putText (wcLine kinds width k (if a.operands.isEmpty then "" else path))
  if operands.length > 1 then putText (wcLine kinds width sum "total")

/-! ## Dumps -/

/-- A byte as a dump of characters shows it. -/
def dumpedChar (c : Char) : String :=
  match c with
  | '\x00' => "\\0"
  | '\x07' => "\\a"
  | '\x08' => "\\b"
  | '\t' => "\\t"
  | '\n' => "\\n"
  | '\x0b' => "\\v"
  | '\x0c' => "\\f"
  | '\r' => "\\r"
  | c => if ' ' ≤ c && c ≤ '~' then String.singleton c else padLeft 3 '0' (digitsIn 8 c.toNat)

/-- The numbers that bytes make, a number of bytes each, the low one first. -/
def words (size : Nat) : Nat → List Char → List Nat
  | 0, _ => []
  | n + 1, cs =>
    if cs.isEmpty then []
    else
      (cs.take size).foldr (fun c m => c.toNat + 256 * m) 0 :: words size n (cs.drop size)

/-- How a row of bytes is shown. -/
structure DumpStyle where
  letter : Char := 'o'
  /-- Bytes in a number. -/
  size : Nat := 2
  /-- Whether the bytes are shown as text too. -/
  text : Bool := false

namespace DumpStyle

/-- The width of the greatest number of some bytes. -/
def widthOf (s : DumpStyle) : Nat :=
  let top := Nat.pow 256 s.size - 1
  match s.letter with
  | 'x' => 2 * s.size
  | 'u' => (digitsIn 10 top).length
  | 'd' => (digitsIn 10 (top / 2)).length + 1
  | _ => (digitsIn 8 top).length

/-- A number as the style shows it. -/
def shown (s : DumpStyle) (n : Nat) : String :=
  match s.letter with
  | 'x' => padLeft s.widthOf '0' (digitsIn 16 n)
  | 'u' => padLeft s.widthOf ' ' (digitsIn 10 n)
  | 'd' =>
    let all := Nat.pow 256 s.size
    let i : Int := if n < all / 2 then Int.ofNat n else Int.ofNat n - Int.ofNat all
    padLeft s.widthOf ' ' (toString i)
  | _ => padLeft s.widthOf '0' (digitsIn 8 n)

def row (s : DumpStyle) (cs : List Char) : String :=
  let numbers :=
    if s.letter == 'c' then String.join (cs.map fun c => padLeft 4 ' ' (dumpedChar c))
    else String.join ((words s.size (cs.length + 1) cs).map fun n => " " ++ s.shown n)
  if s.text then
    let full := (16 / s.size) * (s.widthOf + 1)
    let plain := cs.map fun c => if ' ' ≤ c && c ≤ '~' then c else '.'
    padRight full numbers ++ "  >" ++ String.ofList plain ++ "<"
  else numbers

/-- The style that a type names. -/
def parse? (s : String) : Option DumpStyle :=
  match s.toList with
  | [] => none
  | 'a' :: _ => some { letter := 'c', size := 1 }
  | 'c' :: rest => some { letter := 'c', size := 1, text := rest.contains 'z' }
  | letter :: rest =>
    let digits := rest.takeWhile Char.isDigit
    let size := match rest with
      | 'C' :: _ => 1
      | 'S' :: _ => 2
      | 'I' :: _ => 4
      | 'L' :: _ => 8
      | _ => if digits.isEmpty then 4 else digitsValue 10 digits
    if ['x', 'o', 'u', 'd'].contains letter && [1, 2, 4, 8].contains size then
      some { letter, size, text := rest.contains 'z' }
    else none

end DumpStyle

/-- Where a row starts. -/
def dumpAddress (radix : String) (offset : Nat) : String :=
  match radix with
  | "n" => ""
  | "d" => padLeft 7 '0' (digitsIn 10 offset)
  | "x" => padLeft 6 '0' (digitsIn 16 offset)
  | _ => padLeft 7 '0' (digitsIn 8 offset)

/-- Rows of sixteen bytes.  Rows that repeat the one before are left out behind a star, if asked. -/
def dumpRows (style : DumpStyle) (radix : String) (all : Bool) :
    Nat → Nat → Option (List Char) → Bool → List Char → List String
  | 0, _, _, _, _ => []
  | n + 1, offset, before, starred, cs =>
    let address := dumpAddress radix offset
    if cs.isEmpty then if radix == "n" then [] else [address ++ "\n"]
    else
      let row := cs.take 16
      let rest := cs.drop 16
      if !all && before == some row && !rest.isEmpty then
        (if starred then [] else ["*\n"]) ++
          dumpRows style radix all n (offset + 16) before true rest
      else
        (address ++ style.row row ++ "\n") ::
          dumpRows style radix all n (offset + row.length) (some row) false rest

def od : Program := do
  let a ← arguments
    { shorts := "A:t:cbxdosvN:j:w::"
      longs := [long "address-radix" 'A' .value, long "format" 't' .value,
        long "read-bytes" 'N' .value, long "skip-bytes" 'j' .value,
        long "output-duplicates" 'v'] }
  let asked := a.options.reverse.find? fun (k, _) =>
    ['c', 'b', 'x', 'd', 's', 't', 'o'].contains k
  let style ← match asked with
    | some ('c', _) => pure { letter := 'c', size := 1 }
    | some ('b', _) => pure { size := 1 }
    | some ('x', _) => pure { letter := 'x' }
    | some ('d', _) => pure { letter := 'u' }
    | some ('s', _) => pure { letter := 'd' }
    | some ('t', f) =>
      match DumpStyle.parse? f with
      | some s => pure s
      | none => failWith 1 ("invalid type string " ++ quote f)
    | _ => pure ({} : DumpStyle)
  let text ← joinedOperands a.operands 1
  let skipped := ((a.value? 'j').bind natural?).getD 0
  let text := text.drop skipped
  let text := match (a.value? 'N').bind natural? with
    | some n => text.take n
    | none => text
  (dumpRows style ((a.value? 'A').getD "o") (a.has 'v') (text.length / 16 + 2) skipped none false
    text).forM putText

/-! ## Base 64 -/

def base64Alphabet : Array Char :=
  "ABCDEFGHIJKLMNOPQRSTUVWXYZabcdefghijklmnopqrstuvwxyz0123456789+/".toList.toArray

def base64Digit (n : Nat) : Char := (base64Alphabet[n % 64]?).getD 'A'

def toBase64 : List Char → List Char
  | [] => []
  | [a] =>
    let n := a.toNat * 16
    [base64Digit (n / 64), base64Digit n, '=', '=']
  | [a, b] =>
    let n := (a.toNat * 256 + b.toNat) * 4
    [base64Digit (n / 4096), base64Digit (n / 64), base64Digit n, '=']
  | a :: b :: c :: cs =>
    let n := (a.toNat * 256 + b.toNat) * 256 + c.toNat
    base64Digit (n / 262144) :: base64Digit (n / 4096) :: base64Digit (n / 64) :: base64Digit n ::
      toBase64 cs

def base64Value? (c : Char) : Option Nat := base64Alphabet.toList.idxOf? c

def ofBase64 : List Char → Option (List Char)
  | [] => some []
  | [a, b, '=', '='] => do
    let n := (← base64Value? a) * 64 + (← base64Value? b)
    return [Char.ofNat (n / 16 % 256)]
  | [a, b, c, '='] => do
    let n := ((← base64Value? a) * 64 + (← base64Value? b)) * 64 + (← base64Value? c)
    return [Char.ofNat (n / 1024 % 256), Char.ofNat (n / 4 % 256)]
  | a :: b :: c :: d :: cs => do
    let n := (((← base64Value? a) * 64 + (← base64Value? b)) * 64 + (← base64Value? c)) * 64 +
      (← base64Value? d)
    let rest ← ofBase64 cs
    return Char.ofNat (n / 65536 % 256) :: Char.ofNat (n / 256 % 256) :: Char.ofNat (n % 256) :: rest
  | _ => none

/-- A text in rows of a width. -/
def rows (width : Nat) : Nat → List Char → List (List Char)
  | 0, _ => []
  | n + 1, cs => if cs.isEmpty then [] else cs.take width :: rows width n (cs.drop width)

def base64 : Program := do
  let a ← arguments
    { shorts := "dw:i", longs := [long "decode" 'd', long "wrap" 'w' .value,
        long "ignore-garbage" 'i'] }
  let text ← joinedOperands a.operands 1
  if a.has 'd' then
    match ofBase64 (text.filter fun c => c != '\n') with
    | some cs => put cs
    | none => failWith 1 "invalid input"
  else
    let coded := toBase64 text
    let width := ((a.value? 'w').bind natural?).getD 76
    if width = 0 then put coded else put (unlines (rows width (coded.length + 1) coded))

/-! ## Digests -/

def sha256sum : Program := do
  let a ← arguments { shorts := "btc" }
  forOperands a.operands 1 fun path text =>
    putLine (Sha256.hex (Sha256.digest (bytesOf text)) ++ "  " ++ path)

end Program
end Shell
end Unweave

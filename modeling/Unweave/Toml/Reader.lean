import Unweave.Json.Reader
import Unweave.Toml.Basic

/-!
# Reading TOML

Version 1.0 of the format.  A document is a sequence of lines: headers, and values under dotted
keys.  Each line is entered into the table that the last header opened as it is read.

Values recurse on a bound for the number of steps, and each of them takes a character.
-/

namespace Unweave
namespace Toml
namespace Reader

open Json.Reader (isDigit hexValue digitsValue)

/-! ## Blanks -/

def isSpace (c : Char) : Bool := c == ' ' || c == '\t'

def skip (cs : List Char) : List Char := cs.dropWhile isSpace

def newline? : List Char → Option (List Char)
  | '\n' :: cs => some cs
  | '\r' :: '\n' :: cs => some cs
  | _ => none

/-- No control character other than the tab. -/
def isPlain (c : Char) : Bool := c == '\t' || (0x20 ≤ c.toNat && c.toNat != 0x7F)

def skipComment : List Char → List Char
  | '#' :: cs => cs.dropWhile isPlain
  | cs => cs

/-- What follows a line of which only blanks and a comment are left. -/
def lineEnd? (cs : List Char) : Option (List Char) :=
  match skipComment (skip cs) with
  | [] => some []
  | cs => newline? cs

/-- Skip blanks, line ends and comments. -/
def skipLines (inComment : Bool) : List Char → List Char
  | '\n' :: cs => skipLines false cs
  | '\r' :: '\n' :: cs => skipLines false cs
  | c :: cs =>
    if inComment then if isPlain c then skipLines true cs else c :: cs
    else if isSpace c then skipLines false cs
    else if c == '#' then skipLines true cs
    else c :: cs
  | [] => []

/-! ## Strings -/

def apostrophe : Char := '\x27'

def plainEscape : Char → Option Char
  | '"' => some '"'
  | '\\' => some '\\'
  | 'b' => some '\x08'
  | 'f' => some '\x0c'
  | 'n' => some '\n'
  | 'r' => some '\r'
  | 't' => some '\t'
  | _ => none

/-- The character with a code in hexadecimal digits. -/
def coded? (ds : List Char) : Option Char := do
  let values ← ds.mapM hexValue
  let n := values.foldl (fun n v => 16 * n + v) 0
  if n.isValidChar then some (Char.ofNat n) else none

/-- A string in double quotes, the first of which is read. -/
def quoted : List Char → Option (List Char × List Char)
  | [] => none
  | '"' :: cs => some ([], cs)
  | '\\' :: 'u' :: a :: b :: c :: d :: cs => do
    let x ← coded? [a, b, c, d]
    let (s, rest) ← quoted cs
    return (x :: s, rest)
  | '\\' :: 'U' :: a :: b :: c :: d :: e :: f :: g :: h :: cs => do
    let x ← coded? [a, b, c, d, e, f, g, h]
    let (s, rest) ← quoted cs
    return (x :: s, rest)
  | '\\' :: e :: cs => do
    let x ← plainEscape e
    let (s, rest) ← quoted cs
    return (x :: s, rest)
  | c :: cs =>
    if isPlain c && c != '\\' then do
      let (s, rest) ← quoted cs
      return (c :: s, rest)
    else none

/-- A string between apostrophes, the first of which is read. -/
def literal : List Char → Option (List Char × List Char)
  | [] => none
  | c :: cs =>
    if c == apostrophe then some ([], cs)
    else if isPlain c then do
      let (s, rest) ← literal cs
      return (c :: s, rest)
    else none

/-- A string in triple double quotes.  Up to two quotes may stand right before the closing ones.  A
backslash at the end of a line swallows everything blank up to the next character. -/
def quotedLines (swallow : Bool) : List Char → Option (List Char × List Char)
  | [] => none
  | '"' :: '"' :: '"' :: '"' :: '"' :: cs => some (['"', '"'], cs)
  | '"' :: '"' :: '"' :: '"' :: cs => some (['"'], cs)
  | '"' :: '"' :: '"' :: cs => some ([], cs)
  | '\r' :: '\n' :: cs =>
    if swallow then quotedLines true cs
    else do
      let (s, rest) ← quotedLines false cs
      return ('\n' :: s, rest)
  | '\\' :: 'u' :: a :: b :: c :: d :: cs => do
    let x ← coded? [a, b, c, d]
    let (s, rest) ← quotedLines false cs
    return (x :: s, rest)
  | '\\' :: 'U' :: a :: b :: c :: d :: e :: f :: g :: h :: cs => do
    let x ← coded? [a, b, c, d, e, f, g, h]
    let (s, rest) ← quotedLines false cs
    return (x :: s, rest)
  | '\\' :: e :: cs =>
    if (newline? (skip (e :: cs))).isSome then quotedLines true (e :: cs)
    else do
      let x ← plainEscape e
      let (s, rest) ← quotedLines false cs
      return (x :: s, rest)
  | c :: cs =>
    if swallow && (isSpace c || c == '\n') then quotedLines true cs
    else if (isPlain c && c != '\\') || c == '\n' then do
      let (s, rest) ← quotedLines false cs
      return (c :: s, rest)
    else none

/-- A string in triple apostrophes. -/
def literalLines : List Char → Option (List Char × List Char)
  | [] => none
  | '\x27' :: '\x27' :: '\x27' :: '\x27' :: '\x27' :: cs => some ([apostrophe, apostrophe], cs)
  | '\x27' :: '\x27' :: '\x27' :: '\x27' :: cs => some ([apostrophe], cs)
  | '\x27' :: '\x27' :: '\x27' :: cs => some ([], cs)
  | '\r' :: '\n' :: cs => do
    let (s, rest) ← literalLines cs
    return ('\n' :: s, rest)
  | c :: cs =>
    if isPlain c || c == '\n' then do
      let (s, rest) ← literalLines cs
      return (c :: s, rest)
    else none

/-- A line end right after the opening quotes is not part of the string. -/
def dropNewline (cs : List Char) : List Char := (newline? cs).getD cs

/-- A string of any of the four forms. -/
def string? : List Char → Option (String × List Char)
  | '"' :: '"' :: '"' :: cs =>
    (quotedLines false (dropNewline cs)).map fun (s, rest) => (String.ofList s, rest)
  | '\x27' :: '\x27' :: '\x27' :: cs =>
    (literalLines (dropNewline cs)).map fun (s, rest) => (String.ofList s, rest)
  | '"' :: cs => (quoted cs).map fun (s, rest) => (String.ofList s, rest)
  | '\x27' :: cs => (literal cs).map fun (s, rest) => (String.ofList s, rest)
  | _ => none

/-! ## Keys -/

def isBare (c : Char) : Bool := c.isAlphanum || c == '_' || c == '-'

def keyPart? : List Char → Option (String × List Char)
  | '"' :: cs => (quoted cs).map fun (s, rest) => (String.ofList s, rest)
  | '\x27' :: cs => (literal cs).map fun (s, rest) => (String.ofList s, rest)
  | cs =>
    let word := cs.takeWhile isBare
    if word.isEmpty then none else some (String.ofList word, cs.dropWhile isBare)

/-- The parts of a dotted key, with the blanks around them. -/
def keyParts? : Nat → List Char → Option (List String × List Char)
  | 0, _ => none
  | fuel + 1, cs => do
    let (part, cs) ← keyPart? (skip cs)
    match skip cs with
    | '.' :: cs =>
      let (parts, rest) ← keyParts? fuel cs
      return (part :: parts, rest)
    | cs => return ([part], cs)

/-- How deep keys and values may go. -/
def depthLimit : Nat := 80

/-- A dotted key as the path and the last part. -/
def key? (cs : List Char) : Option ((List String × String) × List Char) := do
  let (parts, rest) ← keyParts? (cs.length + 1) cs
  let last ← parts.getLast?
  if parts.length < depthLimit then some ((parts.dropLast, last), rest) else none

/-! ## Dates and times -/

/-- A number of two digits within bounds. -/
def twoDigits? (lo hi : Nat) : List Char → Option (Nat × List Char)
  | a :: b :: cs =>
    let n := digitsValue [a, b]
    if isDigit a && isDigit b && lo ≤ n && n ≤ hi then some (n, cs) else none
  | _ => none

def isLeap (year : Nat) : Bool := year % 4 == 0 && (year % 100 != 0 || year % 400 == 0)

def daysIn (year month : Nat) : Nat :=
  if month = 2 then if isLeap year then 29 else 28
  else if month = 4 || month = 6 || month = 9 || month = 11 then 30
  else 31

def date? : List Char → Option (List Char)
  | a :: b :: c :: d :: '-' :: cs =>
    if [a, b, c, d].all isDigit then
      match twoDigits? 1 12 cs with
      | some (month, '-' :: cs) =>
        (twoDigits? 1 (daysIn (digitsValue [a, b, c, d]) month) cs).map (·.2)
      | _ => none
    else none
  | _ => none

def secondFraction : List Char → List Char
  | '.' :: c :: cs => if isDigit c then cs.dropWhile isDigit else '.' :: c :: cs
  | cs => cs

def time? (cs : List Char) : Option (List Char) :=
  match twoDigits? 0 23 cs with
  | some (_, ':' :: cs) =>
    match twoDigits? 0 59 cs with
    | some (_, ':' :: cs) => (twoDigits? 0 60 cs).map fun (_, cs) => secondFraction cs
    | _ => none
  | _ => none

def offset? : List Char → Option (List Char)
  | 'Z' :: cs => some cs
  | 'z' :: cs => some cs
  | c :: cs =>
    if c == '+' || c == '-' then
      match twoDigits? 0 23 cs with
      | some (_, ':' :: cs) => (twoDigits? 0 59 cs).map (·.2)
      | _ => none
    else none
  | [] => none

/-- What follows a date with a time, a date or a time. -/
def moment? (cs : List Char) : Option (List Char) :=
  match date? cs with
  | some (c :: cs) =>
    if c == 'T' || c == 't' || c == ' ' then
      match time? cs with
      | some rest => some ((offset? rest).getD rest)
      | none => some (c :: cs)
    else some (c :: cs)
  | some [] => some []
  | none => time? cs

/-! ## Numbers -/

/-- Digits after a first one, with single underscores between digits. -/
def moreDigits (isIn : Char → Bool) : List Char → List Char × List Char
  | [] => ([], [])
  | '_' :: c :: cs =>
    if isIn c then
      let (ds, rest) := moreDigits isIn cs
      (c :: ds, rest)
    else ([], '_' :: c :: cs)
  | c :: cs =>
    if isIn c then
      let (ds, rest) := moreDigits isIn cs
      (c :: ds, rest)
    else ([], c :: cs)

def digits? (isIn : Char → Bool) : List Char → Option (List Char × List Char)
  | [] => none
  | c :: cs =>
    if isIn c then
      let (ds, rest) := moreDigits isIn cs
      some (c :: ds, rest)
    else none

def sign : List Char → Bool × List Char
  | '-' :: cs => (true, cs)
  | '+' :: cs => (false, cs)
  | cs => (false, cs)

/-- Integers have sixty-four bits. -/
def integer? (i : Int) : Option Toml :=
  if -9223372036854775808 ≤ i ∧ i < 9223372036854775808 then some (integer i) else none

def radix? (radix : Nat) (cs : List Char) : Option (Toml × List Char) := do
  let isIn := fun c => ((hexValue c).map fun v => decide (v < radix)).getD false
  let (ds, rest) ← digits? isIn cs
  let n := ds.foldl (fun n d => radix * n + (hexValue d).getD 0) 0
  return (← integer? (Int.ofNat n), rest)

/-- The whole digits: a zero, or digits that do not start with one. -/
def whole? : List Char → Option (List Char × List Char)
  | '0' :: cs => some (['0'], cs)
  | cs => digits? isDigit cs

def fraction? : List Char → Option (Option (List Char) × List Char)
  | '.' :: cs => (digits? isDigit cs).map fun (ds, rest) => (some ds, rest)
  | cs => some (none, cs)

def exponent? : List Char → Option (Option Int × List Char)
  | c :: cs =>
    if c == 'e' || c == 'E' then do
      let (negative, cs) := sign cs
      let (ds, rest) ← digits? isDigit cs
      let n := Int.ofNat (digitsValue ds)
      return (some (if negative then -n else n), rest)
    else some (none, c :: cs)
  | [] => some (none, [])

/-- A decimal number.  One that is too large for a double is refused, unless it is negative. -/
def decimal? (cs : List Char) : Option (Toml × List Char) := do
  let (negative, cs) := sign cs
  match cs with
  | 'i' :: 'n' :: 'f' :: rest => return (real, rest)
  | 'n' :: 'a' :: 'n' :: rest => return (real, rest)
  | cs =>
    let (whole, cs) ← whole? cs
    let (fraction, cs) ← fraction? cs
    let (exponent, rest) ← exponent? cs
    if fraction.isNone && exponent.isNone then
      let n := Int.ofNat (digitsValue whole)
      return (← integer? (if negative then -n else n), rest)
    else
      let fraction := fraction.getD []
      let e := exponent.getD 0 - Int.ofNat fraction.length
      if !negative && Json.Range.exceeds (whole ++ fraction) e then none
      else return (real, rest)

def scalar? : List Char → Option (Toml × List Char)
  | 't' :: 'r' :: 'u' :: 'e' :: cs => some (truth true, cs)
  | 'f' :: 'a' :: 'l' :: 's' :: 'e' :: cs => some (truth false, cs)
  | '0' :: 'x' :: cs => radix? 16 cs
  | '0' :: 'o' :: cs => radix? 8 cs
  | '0' :: 'b' :: cs => radix? 2 cs
  | cs =>
    match string? cs with
    | some (s, rest) => some (text s, rest)
    | none =>
      match moment? cs with
      | some rest => some (moment, rest)
      | none => decimal? cs

/-! ## Values -/

mutual

/-- A value inside `depth` arrays and inline tables. -/
def value? (depth : Nat) : Nat → List Char → Option (Toml × List Char)
  | 0, _ => none
  | fuel + 1, '[' :: cs =>
    if depth + 1 < depthLimit then
      (items? (depth + 1) fuel (skipLines false cs)).map fun (ts, rest) => (array ts, rest)
    else none
  | fuel + 1, '{' :: cs =>
    if depth + 1 < depthLimit then
      match skip cs with
      | '}' :: rest => some (table .inline [], rest)
      | cs => entries? (depth + 1) fuel (table .inline []) cs
    else none
  | _ + 1, cs => scalar? cs

/-- The items of an array and the closing bracket, which a comma may precede. -/
def items? (depth : Nat) : Nat → List Char → Option (List Toml × List Char)
  | 0, _ => none
  | _ + 1, ']' :: rest => some ([], rest)
  | fuel + 1, cs =>
    match value? depth fuel cs with
    | none => none
    | some (t, rest) =>
      match skipLines false rest with
      | ']' :: rest => some ([t], rest)
      | ',' :: rest =>
        (items? depth fuel (skipLines false rest)).map fun (ts, rest) => (t :: ts, rest)
      | _ => none

/-- One or more entries of an inline table, all on one line, and the closing brace. -/
def entries? (depth : Nat) : Nat → Toml → List Char → Option (Toml × List Char)
  | 0, _, _ => none
  | fuel + 1, t, cs =>
    match key? cs with
    | some ((path, key), '=' :: cs) =>
      match value? depth fuel (skip cs) with
      | none => none
      | some (v, rest) =>
        match enter path key v t with
        | none => none
        | some t =>
          match skip rest with
          | '}' :: rest => some (t, rest)
          | ',' :: rest => entries? depth fuel t rest
          | _ => none
    | _ => none

end

/-! ## Documents -/

/-- A document so far: everything, and the path of the table that is open. -/
structure State where
  root : Toml
  here : List String

/-- A value under a key, entered into the open table. -/
def entryLine? (s : State) (cs : List Char) : Option (State × List Char) := do
  match ← key? cs with
  | ((path, key), '=' :: cs) =>
    let (v, rest) ← value? 0 (cs.length + 1) (skip cs)
    let root ← within false (enter path key v) s.here s.root
    return ({ s with root }, rest)
  | _ => none

def line? (s : State) : List Char → Option (State × List Char)
  | '[' :: '[' :: cs => do
    match ← key? cs with
    | ((path, key), ']' :: ']' :: rest) =>
      let root ← within false (openNext key) path s.root
      return (⟨root, path ++ [key]⟩, rest)
    | _ => none
  | '[' :: cs => do
    match ← key? cs with
    | ((path, key), ']' :: rest) =>
      let root ← within false (openTable key) path s.root
      return (⟨root, path ++ [key]⟩, rest)
    | _ => none
  | cs => entryLine? s cs

def lines? : Nat → State → List Char → Option Toml
  | 0, _, _ => none
  | fuel + 1, s, cs =>
    match skipLines false cs with
    | [] => some s.root
    | cs => do
      let (s, rest) ← line? s cs
      lines? fuel s (← lineEnd? rest)

/-- A byte order mark may come first. -/
def skipMark : List Char → List Char
  | c :: cs => if c.toNat = 0xFEFF then cs else c :: cs
  | [] => []

end Reader

/-- The table that a document describes. -/
def parse? (s : String) : Option Toml :=
  let cs := Reader.skipMark s.toList
  Reader.lines? (cs.length + 1) ⟨table .headed [], []⟩ cs

end Toml
end Unweave

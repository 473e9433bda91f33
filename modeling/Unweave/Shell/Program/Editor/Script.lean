import Unweave.Shell.Regex

/-!
# Scripts of the stream editor

A script is a list of commands, each for the lines that its addresses select.
-/

namespace Unweave
namespace Shell
namespace Editor

inductive Address where
  | line (n : Nat)
  | last
  /-- Every so many lines from a first one on. -/
  | step (first step : Nat)
  /-- Lines that match; without an expression the one used last. -/
  | holds (m : Option Matcher)

/-- Where a range ends. -/
inductive Bound where
  | at (a : Address)
  | after (count : Nat)
  /-- The next line whose number is a multiple. -/
  | multiple (n : Nat)

structure Selection where
  first : Option Address := none
  stop : Option Bound := none
  negated : Bool := false

/-- Changes of case in a replacement. -/
inductive Casing where
  | upper
  | lower
  | off
  | nextUpper
  | nextLower
deriving DecidableEq

inductive Piece where
  | text (cs : List Char)
  | group (k : Nat)
  | casing (c : Casing)

structure Substitution where
  matcher : Option Matcher
  replacement : List Piece
  /-- The match that is replaced first. -/
  from_ : Nat := 1
  all : Bool := false
  prints : Bool := false
  file : Option String := none

inductive Condition where
  | always
  | replaced
  | notReplaced
deriving DecidableEq

inductive Action where
  | open_ (close : Nat)
  | close
  | append (text : List Char)
  | insert (text : List Char)
  | change (text : List Char)
  | label (name : String)
  | branch (c : Condition) (name : String)
  | delete
  | deleteFirst
  | print
  | printFirst
  | number
  | list (width : Option Nat)
  | get
  | getAppend
  | hold
  | holdAppend
  | exchange
  | next
  | nextAppend
  | quit (status : Nat) (silent : Bool)
  | readFile (path : String)
  | readLine (path : String)
  | write (path : String)
  | writeFirst (path : String)
  | substitute (s : Substitution)
  | exchangeBytes (pairs : List (Char × Char))
  | zap
  | fileName
  | nothing

structure Command where
  selection : Selection
  action : Action

/-! ## Reading scripts -/

structure Cursor where
  rest : List Char
  /-- How many characters of the expression are read. -/
  read : Nat := 0
  line : Nat := 1

abbrev Parse : Type → Type := EStateM String Cursor

structure Style where
  extended : Bool := false

def peek : Parse (Option Char) := do
  return (← get).rest.head?

def next : Parse (Option Char) := do
  let s ← get
  match s.rest with
  | c :: rest =>
    set { s with rest, read := s.read + 1, line := if c == '\n' then s.line + 1 else s.line }
    return some c
  | [] => return none

/-- Take characters of a kind. -/
def takeMany (p : Char → Bool) : Parse (List Char) := do
  let s ← get
  let cs := s.rest.takeWhile p
  set { rest := s.rest.drop cs.length, read := s.read + cs.length,
        line := s.line + cs.count '\n' : Cursor }
  return cs

def skipBlanks : Parse Unit := do
  let _ ← takeMany fun c => isSpaceByte c && c != '\n'

def number : Parse Nat := do
  return digitsValue 10 (← takeMany Char.isDigit)

/-! ### Delimited texts -/

/-- The inside of a bracket up to its end, taken as it is. -/
def bracketText : Nat → Bool → List Char → List Char → Option (List Char × List Char)
  | 0, _, _, _ => none
  | _ + 1, _, _, [] => none
  | n + 1, first, out, c :: cs =>
    if c == '\n' then none
    else if c == ']' && !first then some ((c :: out).reverse, cs)
    else
      match c, cs with
      | '[', k :: cs =>
        if k == ':' || k == '.' || k == '=' then
          let name := cs.takeWhile (· != k)
          match cs.drop name.length with
          | _ :: ']' :: rest => bracketText n false (']' :: k :: name.reverse ++ k :: '[' :: out) rest
          | _ => bracketText n false ('[' :: out) (k :: cs)
        else bracketText n false ('[' :: out) (k :: cs)
      | c, cs => bracketText n false (c :: out) cs

/-- A text up to an unprotected mark.  A protected mark stands for itself. -/
def delimited (mark : Char) (regex : Bool) : Nat → List Char → List Char →
    Option (List Char × List Char)
  | 0, _, _ => none
  | _ + 1, _, [] => none
  | n + 1, out, c :: cs =>
    if c == mark then some (out.reverse, cs)
    else if c == '\\' then
      match cs with
      | d :: rest =>
        if d == mark then delimited mark regex n (d :: out) rest
        else if d == 'n' && regex then delimited mark regex n ('\n' :: out) rest
        else delimited mark regex n (d :: '\\' :: out) rest
      | [] => none
    else if c == '\n' && regex then none
    else if c == '[' && regex then
      let (lead, cs) : List Char × List Char := match cs with
        | '^' :: cs => (['^'], cs)
        | cs => ([], cs)
      match bracketText (cs.length + 1) true [] cs with
      | some (inside, rest) => delimited mark regex n (inside.reverse ++ lead ++ '[' :: out) rest
      | none => none
    else delimited mark regex n (c :: out) cs

def takeDelimited (mark : Char) (regex : Bool) (fault : String) : Parse (List Char) := do
  let s ← get
  match delimited mark regex (s.rest.length + 1) [] s.rest with
  | some (text, rest) =>
    let used := s.rest.length - rest.length
    set { rest, read := s.read + used, line := s.line + (s.rest.take used).count '\n' : Cursor }
    return text
  | none =>
    set { s with rest := [], read := s.read + s.rest.length }
    throw fault

/-- Escapes that stand for bytes in expressions, also inside brackets. -/
def plainEscapes : Nat → List Char → List Char
  | 0, cs => cs
  | _ + 1, [] => []
  | n + 1, '\\' :: c :: cs =>
    match c with
    | 'n' => '\n' :: plainEscapes n cs
    | 't' => '\t' :: plainEscapes n cs
    | 'f' => '\x0c' :: plainEscapes n cs
    | 'v' => '\x0b' :: plainEscapes n cs
    | 'a' => '\x07' :: plainEscapes n cs
    | 'r' => '\r' :: plainEscapes n cs
    | 'x' =>
      let (ds, rest) := takeUpTo (fun c => digitValue c < 16) 2 cs
      if ds.isEmpty then '\\' :: 'x' :: plainEscapes n cs
      else
        let b := byteOf 16 ds
        if isPunctuation b then '\\' :: b :: plainEscapes n rest else b :: plainEscapes n rest
    | c => '\\' :: c :: plainEscapes n cs
  | n + 1, c :: cs => c :: plainEscapes n cs

/-- An expression; an empty one means the one used last. -/
def matcherOf (style : Style) (source : List Char) (folded many : Bool) : Parse (Option Matcher) :=
  if source.isEmpty then return none
  else
    match Regex.compile { extended := style.extended, strict := true } folded
        (plainEscapes (source.length + 1) source) with
    | .ok m => return some { m with manyLines := many }
    | .error e => throw e

/-! ### Addresses -/

def regexFlags : Nat → Bool → Bool → Parse (Bool × Bool)
  | 0, folded, many => return (folded, many)
  | n + 1, folded, many => do
    match ← peek with
    | some 'I' =>
      let _ ← next
      regexFlags n true many
    | some 'M' =>
      let _ ← next
      regexFlags n folded true
    | _ => return (folded, many)

def regexAddress (style : Style) (mark : Char) : Parse Address := do
  let source ← takeDelimited mark true "unterminated address regex"
  let (folded, many) ← regexFlags 4 false false
  return .holds (← matcherOf style source folded many)

def address? (style : Style) : Parse (Option Address) := do
  match ← peek with
  | some '/' =>
    let _ ← next
    return some (← regexAddress style '/')
  | some '\\' =>
    let _ ← next
    match ← next with
    | some c => return some (← regexAddress style c)
    | none => throw "unterminated address regex"
  | some '$' =>
    let _ ← next
    return some .last
  | some c =>
    if c.isDigit then
      let n ← number
      skipBlanks
      if (← peek) == some '~' then
        let _ ← next
        return some (.step n (← number))
      else return some (.line n)
    else return none
  | none => return none

def bound (style : Style) : Parse Bound := do
  match ← peek with
  | some '+' =>
    let _ ← next
    return .after (← number)
  | some '~' =>
    let _ ← next
    return .multiple (← number)
  | _ =>
    match ← address? style with
    | some a => return .at a
    | none =>
      let _ ← next
      throw "unexpected \x60,\x27"

def selection (style : Style) : Parse Selection := do
  let first ← address? style
  skipBlanks
  let stop ← if first.isSome && (← peek) == some ',' then
      let _ ← next
      skipBlanks
      pure (some (← bound style))
    else pure none
  skipBlanks
  let negated ← if (← peek) == some '!' then
      let _ ← takeMany fun c => c == '!' || isBlankByte c
      pure true
    else pure false
  return { first, stop, negated }

/-! ### Commands -/

/-- The end of a command: nothing but a separator may follow. -/
def finish : Parse Unit := do
  skipBlanks
  match ← peek with
  | none => return ()
  | some c =>
    if c == '\n' || c == ';' then
      let _ ← next
    else if c == '\x7d' || c == '#' then return ()
    else
      let _ ← next
      throw "extra characters after command"

/-- The lines of a text to add, up to one that does not end in a backslash. -/
def addedText : Nat → List Char → Parse (List Char)
  | 0, out => return out.reverse
  | n + 1, out => do
    match ← next with
    | none => return out.reverse
    | some '\n' => return out.reverse
    | some '\\' =>
      match ← next with
      | none => return out.reverse
      | some c =>
        let b := match c with
          | 't' => '\t'
          | 'f' => '\x0c'
          | 'v' => '\x0b'
          | 'a' => '\x07'
          | c => c
        addedText n (b :: out)
    | some c => addedText n (c :: out)

/-- What stands after the letter of a command that adds text. -/
def textArgument : Parse (List Char) := do
  skipBlanks
  match ← peek with
  | none => throw "expected \\ after \x60a\x27, \x60c\x27 or \x60i\x27"
  | some '\\' =>
    let _ ← next
    let s ← get
    let rest := s.rest.dropWhile isBlankByte
    match rest with
    | '\n' :: after =>
      set { rest := after, read := s.read + (s.rest.length - after.length), line := s.line + 1 : Cursor }
      let text ← addedText (after.length + 1) []
      return if after.isEmpty then [] else text ++ ['\n']
    | [] =>
      set { s with rest := [] }
      return []
    | _ =>
      -- The first character after the backslash stands for itself.
      match s.rest with
      | c :: cs =>
        if c == '\\' then
          let text ← addedText (cs.length + 2) []
          return text ++ ['\n']
        else
          let _ ← next
          let text ← addedText (cs.length + 1) [c]
          return text ++ ['\n']
      | [] => return []
  | some _ =>
    let text ← addedText ((← get).rest.length + 1) []
    return text ++ ['\n']

/-- A name up to the end of the line. -/
def fileArgument : Parse String := do
  skipBlanks
  let name ← takeMany (· != '\n')
  let _ ← next
  if name.isEmpty then throw "missing filename in r/R/w/W commands"
  return String.ofList name

def labelArgument : Parse String := do
  skipBlanks
  let name ← takeMany fun c => !isSpaceByte c && c != ';' && c != '\x7d'
  finish
  return String.ofList name

/-- The pieces of a replacement. -/
def pieces : Nat → List Char → List Char → List Piece
  | 0, out, _ => [.text out.reverse]
  | _ + 1, out, [] => [.text out.reverse]
  | n + 1, out, '&' :: cs => .text out.reverse :: .group 0 :: pieces n [] cs
  | n + 1, out, '\\' :: c :: cs =>
    let shift := fun (k : Casing) => Piece.text out.reverse :: .casing k :: pieces n [] cs
    if c.isDigit then .text out.reverse :: .group (c.toNat - 48) :: pieces n [] cs
    else
      match c with
      | 'U' => shift .upper
      | 'L' => shift .lower
      | 'E' => shift .off
      | 'u' => shift .nextUpper
      | 'l' => shift .nextLower
      | 'n' => pieces n ('\n' :: out) cs
      | 't' => pieces n ('\t' :: out) cs
      | 'f' => pieces n ('\x0c' :: out) cs
      | 'v' => pieces n ('\x0b' :: out) cs
      | 'a' => pieces n ('\x07' :: out) cs
      | 'r' => pieces n ('\r' :: out) cs
      | 'x' =>
        let (ds, rest) := takeUpTo (fun c => digitValue c < 16) 2 cs
        if ds.isEmpty then pieces n ('x' :: out) cs else pieces n (byteOf 16 ds :: out) rest
      | c => pieces n (c :: out) cs
  | n + 1, out, c :: cs => pieces n (c :: out) cs

structure SubstitutionFlags where
  count : Option Nat := none
  all : Bool := false
  prints : Bool := false
  folded : Bool := false
  many : Bool := false
  file : Option String := none

def substitutionFlags : Nat → SubstitutionFlags → Parse SubstitutionFlags
  | 0, f => return f
  | n + 1, f => do
    match ← peek with
    | none => return f
    | some c =>
      if c == '\x7d' || c == '#' then return f
      else if c.isDigit then
        if f.count.isSome then
          let _ ← next
          throw "multiple number options to \x60s\x27 command"
        let k ← number
        if k == 0 then throw "number option to \x60s\x27 command may not be zero"
        substitutionFlags n { f with count := some k }
      else
        let _ ← next
        match c with
        | '\n' | ';' => return f
        | 'g' =>
          if f.all then throw "multiple \x60g\x27 options to \x60s\x27 command"
          substitutionFlags n { f with all := true }
        | 'p' =>
          if f.prints then throw "multiple \x60p\x27 options to \x60s\x27 command"
          substitutionFlags n { f with prints := true }
        | 'i' | 'I' => substitutionFlags n { f with folded := true }
        | 'm' | 'M' => substitutionFlags n { f with many := true }
        | 'w' => return { f with file := some (← fileArgument) }
        | ' ' | '\t' | '\r' => substitutionFlags n f
        | _ => throw "unknown option to \x60s\x27"

/-- The greatest group that a replacement asks for. -/
def greatestGroup (ps : List Piece) : Nat :=
  ps.foldl (fun k p =>
    match p with
    | .group j => max k j
    | _ => k) 0

def substitution (style : Style) : Parse Substitution := do
  match ← next with
  | none => throw "unterminated \x60s\x27 command"
  | some mark =>
    let source ← takeDelimited mark true "unterminated \x60s\x27 command"
    let right ← takeDelimited mark false "unterminated \x60s\x27 command"
    let f ← substitutionFlags ((← get).rest.length + 1) {}
    let replacement := pieces (right.length + 1) [] right
    let matcher ← matcherOf style source f.folded f.many
    let asked := greatestGroup replacement
    match matcher with
    | some m =>
      if asked > m.groups then
        throw ("invalid reference \\" ++ toString asked ++ " on \x60s\x27 command\x27s RHS")
    | none => pure ()
    return { matcher, replacement, from_ := f.count.getD 1, all := f.all, prints := f.prints,
             file := f.file }

/-- The bytes of one side of an exchange. -/
def exchangeSide : List Char → List Char
  | '\\' :: 'n' :: cs => '\n' :: exchangeSide cs
  | '\\' :: 't' :: cs => '\t' :: exchangeSide cs
  | '\\' :: '\\' :: cs => '\\' :: exchangeSide cs
  | c :: cs => c :: exchangeSide cs
  | [] => []

def exchange : Parse Action := do
  match ← next with
  | none => throw "unterminated \x60y\x27 command"
  | some mark =>
    let a ← takeDelimited mark false "unterminated \x60y\x27 command"
    let b ← takeDelimited mark false "unterminated \x60y\x27 command"
    let a := exchangeSide a
    let b := exchangeSide b
    if a.length != b.length then throw "strings for \x60y\x27 command are different lengths"
    finish
    return .exchangeBytes (a.zip b)

def simple (a : Action) : Parse Action := do
  finish
  return a

/-- The number after the letter of a command, if there is one. -/
def optionalNumber : Parse (Option Nat) := do
  skipBlanks
  match ← peek with
  | some c => if c.isDigit then return some (← number) else return none
  | none => return none

def action (style : Style) (s : Selection) : Parse Action := do
  match ← next with
  | none => throw "missing command"
  | some c =>
    match c with
    | '\x7b' => return .open_ 0
    | '\x7d' =>
      if s.first.isSome then throw "unexpected \x60\x7d\x27"
      finish
      return .close
    | '=' => simple .number
    | 'a' => return .append (← textArgument)
    | 'i' => return .insert (← textArgument)
    | 'c' => return .change (← textArgument)
    | ':' =>
      if s.first.isSome then throw ": doesn\x27t want any addresses"
      skipBlanks
      let name ← takeMany fun c => !isSpaceByte c && c != ';'
      if name.isEmpty then throw "\":\" lacks a label"
      return .label (String.ofList name)
    | 'b' => return .branch .always (← labelArgument)
    | 't' => return .branch .replaced (← labelArgument)
    | 'T' => return .branch .notReplaced (← labelArgument)
    | 'd' => simple .delete
    | 'D' => simple .deleteFirst
    | 'p' => simple .print
    | 'P' => simple .printFirst
    | 'g' => simple .get
    | 'G' => simple .getAppend
    | 'h' => simple .hold
    | 'H' => simple .holdAppend
    | 'x' => simple .exchange
    | 'n' => simple .next
    | 'N' => simple .nextAppend
    | 'z' => simple .zap
    | 'F' => simple .fileName
    | 'l' =>
      let width ← optionalNumber
      simple (.list width)
    | 'q' =>
      if s.stop.isSome then throw "command only uses one address"
      let status ← optionalNumber
      simple (.quit (status.getD 0) false)
    | 'Q' =>
      if s.stop.isSome then throw "command only uses one address"
      let status ← optionalNumber
      simple (.quit (status.getD 0) true)
    | 'r' => return .readFile (← fileArgument)
    | 'R' => return .readLine (← fileArgument)
    | 'w' => return .write (← fileArgument)
    | 'W' => return .writeFirst (← fileArgument)
    | 's' => return .substitute (← substitution style)
    | 'y' => exchange
    | 'v' =>
      let _ ← takeMany fun c => c != ';' && c != '\n'
      simple .nothing
    | '#' =>
      if s.first.isSome then throw "comments don\x27t accept any addresses"
      let _ ← takeMany (· != '\n')
      return .nothing
    | c => throw ("unknown command: \x60" ++ String.singleton c ++ "\x27")

/-- Line zero may only start a range that an expression ends. -/
def checkZero (s : Selection) : Parse Unit := do
  match s.first, s.stop with
  | some (.line 0), some (.at (.holds _)) => return ()
  | some (.line 0), _ => throw "invalid usage of line address 0"
  | _, _ => return ()

/-- How many blocks are open at the end, or that one is closed too often. -/
def openBlocks (cs : Array Command) : Option Nat :=
  cs.foldl (fun depth c =>
    depth.bind fun d =>
      match c.action with
      | .open_ _ => some (d + 1)
      | .close => if d = 0 then none else some (d - 1)
      | _ => some d) (some 0)

/-- The commands of a script, one after the other. -/
def commands (style : Style) : Nat → Array Command → Parse (Array Command)
  | 0, out => return out
  | n + 1, out => do
    let _ ← takeMany fun c => isSpaceByte c || c == ';'
    if (← peek).isNone then return out
    let s ← selection style
    let isZero ← pure (match s.first with
      | some (.line 0) => true
      | _ => false)
    if (← peek).isNone then throw "missing command"
    if (← peek) == some '\x7d' && openBlocks out == some 0 then
      let _ ← next
      throw "unexpected \x60\x7d\x27"
    let a ← action style s
    if isZero then checkZero s
    commands style n (out.push { selection := s, action := a })

/-- The index after the command that closes a block. -/
def closing : Nat → List (Nat × Command) → Option Nat
  | _, [] => none
  | depth, (i, c) :: rest =>
    match c.action with
    | .open_ _ => closing (depth + 1) rest
    | .close => if depth = 0 then some i else closing (depth - 1) rest
    | _ => closing depth rest

/-- Tell each block where it ends. -/
def link (cs : Array Command) : Array Command :=
  let indexed := (List.range cs.size).zip cs.toList
  (indexed.map fun (i, c) =>
    match c.action with
    | .open_ _ => { c with action := .open_ ((closing 0 (indexed.drop (i + 1))).getD cs.size) }
    | _ => c).toArray

/-- A label that is jumped to and does not stand in the script. -/
def missingLabel? (cs : Array Command) : Option String :=
  let labels := cs.toList.filterMap fun c =>
    match c.action with
    | .label name => some name
    | _ => none
  cs.toList.findSome? fun c =>
    match c.action with
    | .branch _ name => if name.isEmpty || labels.contains name then none else some name
    | _ => none

end Editor
end Shell
end Unweave

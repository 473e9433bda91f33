import Unweave.Shell.Number
import Unweave.Shell.Pattern

/-!
# Regular expressions

Expressions of the two usual dialects with their additions.  A match is the leftmost one, and
of those the longest; groups are numbered by their opening parentheses.
-/

namespace Unweave
namespace Shell

inductive Regex where
  | empty
  | char (c : Char)
  /-- Any byte; in some uses a line feed is none. -/
  | any
  | oneOf (negated : Bool) (members : List Pattern.Member)
  | kind (p : Char → Bool)
  | sequence (first second : Regex)
  | either (first second : Regex)
  | group (index : Nat) (body : Regex)
  | repeated (body : Regex) (least : Nat) (most : Option Nat)
  | lineStart
  | lineEnd
  | textStart
  | textEnd
  | wordStart
  | wordEnd
  | wordEdge (inside : Bool)
  /-- What a group matched. -/
  | back (index : Nat)

namespace Regex

/-! ## Reading expressions -/

structure Dialect where
  extended : Bool := false
  /-- Whether a backslash protects characters in brackets, and letters may stand for bytes. -/
  escapes : Bool := false
  /-- Whether a repetition with nothing to repeat is a fault. -/
  strict : Bool := false

structure Parser where
  rest : List Char
  groups : Nat := 0
  /-- Groups that are closed, and may be referred to. -/
  closed : List Nat := []
  referred : Bool := false

abbrev Parse : Type → Type := EStateM String Parser

def isWordByte (c : Char) : Bool := c.isAlphanum || c == '_'

/-- The name of a class, an equivalent or a collating element inside a bracket. -/
def bracketName (stop : Char) : Nat → List Char → List Char → Option (List Char × List Char)
  | 0, _, _ => none
  | _ + 1, _, [] => none
  | n + 1, name, c :: cs =>
    match c, cs with
    | c, ']' :: rest => if c == stop then some (name.reverse, rest) else bracketName stop n (c :: name) cs
    | c, cs => bracketName stop n (c :: name) cs

/-- The byte at the start of a bracket's member. -/
def memberByte (d : Dialect) (cs : List Char) : Char × List Char :=
  match cs with
  | '\\' :: c :: rest =>
    if d.escapes then
      match letterEscape c with
      | some b => (b, rest)
      | none => (c, rest)
    else ('\\', c :: rest)
  | '[' :: '.' :: c :: '.' :: ']' :: rest => (c, rest)
  | c :: rest => (c, rest)
  | [] => (Char.ofNat 0, [])

/-- The members of a bracket up to the one that closes it, which may not come first. -/
def bracketMembers (d : Dialect) : Nat → Bool → List Char →
    Except String (List Pattern.Member × List Char)
  | 0, _, _ => .error "Unmatched [, [^, [:, [., or [="
  | _ + 1, _, [] => .error "Unmatched [, [^, [:, [., or [="
  | n + 1, first, ']' :: cs =>
    if first then do
      let (xs, rest) ← bracketMembers d n false cs
      return (.range ']' ']' :: xs, rest)
    else .ok ([], cs)
  | n + 1, _, '[' :: ':' :: cs =>
    match bracketName ':' (cs.length + 1) [] cs with
    | none => .error "Unmatched [, [^, [:, [., or [="
    | some (name, rest) =>
      match classOf? (String.ofList name) with
      | none => .error "Invalid character class name"
      | some p => do
        let (xs, rest) ← bracketMembers d n false rest
        return (.kind p :: xs, rest)
  | n + 1, _, '[' :: '=' :: c :: '=' :: ']' :: cs => do
    let (xs, rest) ← bracketMembers d n false cs
    return (.range c c :: xs, rest)
  | n + 1, _, cs =>
    let (low, rest) := memberByte d cs
    match rest with
    | '-' :: ']' :: _ => do
      let (xs, rest) ← bracketMembers d n false rest
      return (.range low low :: xs, rest)
    | '-' :: rest =>
      if rest.isEmpty then .error "Unmatched [, [^, [:, [., or [="
      else
        let (high, rest) := memberByte d rest
        if high < low then .error "Invalid range end"
        else do
          let (xs, rest) ← bracketMembers d n false rest
          return (.range low high :: xs, rest)
    | rest => do
      let (xs, rest) ← bracketMembers d n false rest
      return (.range low low :: xs, rest)

def bracket (d : Dialect) : Parse Regex := do
  let s ← get
  let (negated, cs) := match s.rest with
    | '^' :: cs => (true, cs)
    | cs => (false, cs)
  match bracketMembers d (cs.length + 1) true cs with
  | .error e => throw e
  | .ok (xs, rest) =>
    set { s with rest }
    return .oneOf negated xs

/-- The bounds of a repetition and what follows them. -/
def bounds? (close : List Char) (cs : List Char) : Option (Nat × Option Nat × List Char) :=
  let low := cs.takeWhile Char.isDigit
  let rest := cs.drop low.length
  let stop := fun (least : Nat) (most : Option Nat) (rest : List Char) =>
    if close.isPrefixOf rest then some (least, most, rest.drop close.length) else none
  match rest with
  | ',' :: rest =>
    let high := rest.takeWhile Char.isDigit
    let rest := rest.drop high.length
    stop (digitsValue 10 low) (if high.isEmpty then none else some (digitsValue 10 high)) rest
  | rest =>
    if low.isEmpty then none
    else stop (digitsValue 10 low) (some (digitsValue 10 low)) rest

/-- The repetition that follows an item, if one does. -/
def repetition? (d : Dialect) (cs : List Char) :
    Except String (Option (Nat × Option Nat × List Char)) :=
  match d.extended, cs with
  | _, '*' :: rest => .ok (some (0, none, rest))
  | true, '+' :: rest => .ok (some (1, none, rest))
  | true, '?' :: rest => .ok (some (0, some 1, rest))
  | true, '{' :: rest => .ok (bounds? ['}'] rest)
  | false, '\\' :: '+' :: rest => .ok (some (1, none, rest))
  | false, '\\' :: '?' :: rest => .ok (some (0, some 1, rest))
  | false, '\\' :: '{' :: rest =>
    match bounds? ['\\', '}'] rest with
    | some b => .ok (some b)
    | none =>
      .error (if rest.contains '}' then "Invalid content of \\\x7b\\\x7d"
        else "Unmatched \\\x7b")
  | _, _ => .ok none

def repeats (d : Dialect) : Nat → Regex → Parse Regex
  | 0, r => return r
  | n + 1, r => do
    let s ← get
    match repetition? d s.rest with
    | .error e => throw e
    | .ok none => return r
    | .ok (some (least, most, rest)) =>
      set { s with rest }
      if d.strict && !d.extended && (rest.head? == some '*' || rest.take 2 == ['\\', '\x7b']) then
        throw "Invalid preceding regular expression"
      repeats d n (.repeated r least most)

/-- A character after a backslash that is no operator of the dialect. -/
def escaped (d : Dialect) (c : Char) (rest : List Char) : Parse Regex := do
  let s ← get
  set { s with rest }
  if c.isDigit && c != '0' && !d.escapes then
    let k := c.toNat - 48
    if s.closed.contains k then
      modify fun s => { s with referred := true }
      return .back k
    else throw "Invalid back reference"
  else
    match c with
    | 'w' => return .kind isWordByte
    | 'W' => return .kind fun c => !isWordByte c
    | 's' => return .kind isSpaceByte
    | 'S' => return .kind fun c => !isSpaceByte c
    | 'b' => if d.escapes then return .char '\x08' else return .wordEdge false
    | 'B' => return .wordEdge true
    | '<' => if d.escapes then return .char '<' else return .wordStart
    | '>' => if d.escapes then return .char '>' else return .wordEnd
    | '\x60' => return .textStart
    | '\x27' => if d.escapes then return .char c else return .textEnd
    | c =>
      if d.escapes then
        match letterEscape c with
        | some b => return .char b
        | none =>
          if isOctal c then
            let (ds, after) := takeUpTo isOctal 3 (c :: rest)
            modify fun s => { s with rest := after }
            return .char (byteOf 8 ds)
          else return .char c
      else return .char c

/-- Whether a dollar sign ends the line here: at the end of the expression or of a group. -/
def endsHere (d : Dialect) (rest : List Char) : Bool :=
  d.extended || rest.isEmpty ||
    (match rest with
    | '\\' :: ')' :: _ => true
    | '\\' :: '|' :: _ => true
    | _ => false)

/-- Whether an expression or a group is over. -/
def atClose (d : Dialect) (depth : Nat) (cs : List Char) : Bool :=
  match d.extended, cs with
  | _, [] => true
  | true, '|' :: _ => true
  | true, ')' :: _ => depth > 0
  | false, '\\' :: '|' :: _ => true
  | false, '\\' :: ')' :: _ => true
  | _, _ => false

/-- Anchors are not repeated. -/
def isAnchor : Regex → Bool
  | .lineStart | .lineEnd | .textStart | .textEnd | .wordStart | .wordEnd | .wordEdge _ => true
  | _ => false

mutual

def alternatives (d : Dialect) : Nat → Nat → Parse Regex
  | 0, _ => throw "Regular expression too big"
  | n + 1, depth => do
    let first ← items d n depth true
    let s ← get
    match d.extended, s.rest with
    | true, '|' :: rest =>
      set { s with rest }
      return .either first (← alternatives d n depth)
    | false, '\\' :: '|' :: rest =>
      set { s with rest }
      return .either first (← alternatives d n depth)
    | _, _ => return first

/-- Items one after the other; some characters are special only as the first. -/
def items (d : Dialect) : Nat → Nat → Bool → Parse Regex
  | 0, _, _ => throw "Regular expression too big"
  | n + 1, depth, first => do
    let s ← get
    if atClose d depth s.rest then return .empty
    else
      let r ← item d n depth first
      let r ← if isAnchor r then pure r else repeats d n r
      let more ← items d n depth (isAnchor r)
      return match more with
        | .empty => r
        | more => .sequence r more

def item (d : Dialect) : Nat → Nat → Bool → Parse Regex
  | 0, _, _ => throw "Regular expression too big"
  | n + 1, depth, first => do
    let s ← get
    match s.rest with
    | [] => return .empty
    | '[' :: rest =>
      set { s with rest }
      bracket d
    | '.' :: rest =>
      set { s with rest }
      return .any
    | '^' :: rest =>
      set { s with rest }
      return if d.extended || first then .lineStart else .char '^'
    | '$' :: rest =>
      set { s with rest }
      return if endsHere d rest then .lineEnd else .char '$'
    | '\\' :: '(' :: rest =>
      if d.extended then escaped d '(' rest else grouped d n depth rest
    | '(' :: rest => if d.extended then grouped d n depth rest else literal '(' rest
    | '\\' :: c :: rest => escaped d c rest
    | ['\\'] => throw "Trailing backslash"
    | c :: rest =>
      if d.extended && first && (c == '*' || c == '+' || c == '?') then
        if d.strict then throw "Invalid preceding regular expression"
        set { s with rest }
        return .empty
      else literal c rest

def literal (c : Char) (rest : List Char) : Parse Regex := do
  modify fun s => { s with rest }
  return .char c

/-- A group whose opening parenthesis is before the text. -/
def grouped (d : Dialect) : Nat → Nat → List Char → Parse Regex
  | 0, _, _ => throw "Regular expression too big"
  | n + 1, depth, rest => do
    let s ← get
    let index := s.groups + 1
    set { s with rest, groups := index }
    let body ← alternatives d n (depth + 1)
    let s ← get
    match d.extended, s.rest with
    | true, ')' :: rest =>
      set { s with rest, closed := index :: s.closed }
      return .group index body
    | false, '\\' :: ')' :: rest =>
      set { s with rest, closed := index :: s.closed }
      return .group index body
    | _, _ => throw "Unmatched ( or \\("

end

end Regex

/-- An expression that is ready to be searched for. -/
structure Matcher where
  regex : Regex
  groups : Nat
  /-- Whether matches depend on what groups matched. -/
  referring : Bool
  folded : Bool := false
  /-- Whether line anchors match inside of the text too. -/
  manyLines : Bool := false

namespace Regex

def compile (d : Dialect) (folded : Bool) (source : List Char) : Except String Matcher :=
  match (alternatives d (6 * source.length + 12) 0).run { rest := source } with
  | .error e _ => .error e
  | .ok r s =>
    if s.rest.isEmpty then .ok { regex := r, groups := s.groups, referring := s.referred, folded }
    else .error "Unmatched ) or \\)"

/-- The expression that matches a text and nothing else. -/
def ofText (folded : Bool) (source : List Char) : Matcher :=
  { regex := source.foldr (fun c r => .sequence (.char c) r) .empty, groups := 0, referring := false,
    folded }

/-! ## Matching -/

/-- Where groups matched: number, start and end, the last match first. -/
abbrev Captures : Type := List (Nat × Nat × Nat)

structure Subject where
  text : Array Char
  folded : Bool
  referring : Bool
  manyLines : Bool

namespace Subject

def at? (s : Subject) (i : Nat) : Option Char := s.text[i]?

def same (s : Subject) (a b : Char) : Bool :=
  a == b || (s.folded && a.toLower == b.toLower)

/-- Whether a byte belongs to one of the members, whatever its case if asked. -/
def hasMember (s : Subject) (xs : List Pattern.Member) (c : Char) : Bool :=
  xs.any (·.has c) || (s.folded && (xs.any (·.has c.toLower) || xs.any (·.has c.toUpper)))

def isWordAt (s : Subject) (i : Nat) : Bool := ((s.at? i).map isWordByte).getD false

/-- Whether a word byte stands before a place. -/
def isWordBefore (s : Subject) (i : Nat) : Bool := i > 0 && s.isWordAt (i - 1)

def isLineStart (s : Subject) (i : Nat) : Bool :=
  i == 0 || (s.manyLines && s.at? (i - 1) == some '\n')

def isLineEnd (s : Subject) (i : Nat) : Bool :=
  i == s.text.size || (s.manyLines && s.at? i == some '\n')

end Subject

/-- What an expression of one byte accepts. -/
def accepts? (s : Subject) : Regex → Option (Char → Bool)
  | .char x => some fun c => s.same x c
  | .any => some fun _ => true
  | .oneOf negated xs => some fun c => s.hasMember xs c != negated
  | .kind p => some p
  | _ => none

/-- Keep the first of the ends at each place. -/
def distinct (size : Nat) (ends : List (Nat × Captures)) : List (Nat × Captures) :=
  match ends with
  | [] => []
  | [e] => [e]
  | ends =>
    let (kept, _) := ends.foldl
      (fun (kept, seen) (e : Nat × Captures) =>
        if (seen[e.1]?).getD true then (kept, seen) else (e :: kept, seen.set! e.1 true))
      (([] : List (Nat × Captures)), Array.replicate (size + 1) false)
    kept.reverse

/-- How many bytes from a place on are accepted, at most so many. -/
def runLength (s : Subject) (p : Char → Bool) : Nat → Nat → Nat → Nat
  | 0, _, k => k
  | n + 1, i, k =>
    match s.at? i with
    | some c => if p c then runLength s p n (i + 1) (k + 1) else k
    | none => k

/-- Ends after repeating a step, longer repetitions first.  A repetition that matches nothing is not
repeated again. -/
def repeatedEnds (s : Subject) (step : Nat → Captures → List (Nat × Captures)) (least : Nat) :
    Nat → Option Nat → Nat → Nat → Captures → List (Nat × Captures)
  | 0, _, _, i, cs => [(i, cs)]
  | n + 1, most, count, i, cs =>
    let here := if count ≥ least then [(i, cs)] else []
    if most == some count then here
    else
      let ends := (step i cs).filter fun (j, _) => j > i || count < least
      let more := ends.flatMap fun (j, cs) => repeatedEnds s step least n most (count + 1) j cs
      if s.referring then more ++ here else distinct s.text.size (more ++ here)

/-- The places where a match that starts at a place may end, preferred ones first. -/
def ends (s : Subject) : Regex → Nat → Captures → List (Nat × Captures)
  | .empty, i, cs => [(i, cs)]
  | .char x, i, cs =>
    match s.at? i with
    | some c => if s.same x c then [(i + 1, cs)] else []
    | none => []
  | .any, i, cs => if i < s.text.size then [(i + 1, cs)] else []
  | .oneOf negated xs, i, cs =>
    match s.at? i with
    | some c => if s.hasMember xs c != negated then [(i + 1, cs)] else []
    | none => []
  | .kind p, i, cs =>
    match s.at? i with
    | some c => if p c then [(i + 1, cs)] else []
    | none => []
  | .sequence a b, i, cs =>
    match ends s a i cs with
    | [] => []
    | [(j, cs)] => ends s b j cs
    | js =>
      let all := js.flatMap fun (j, cs) => ends s b j cs
      if s.referring then all else distinct s.text.size all
  | .either a b, i, cs =>
    let all := ends s a i cs ++ ends s b i cs
    if s.referring then all else distinct s.text.size all
  | .group k r, i, cs => (ends s r i cs).map fun (j, cs) => (j, (k, i, j) :: cs)
  | .repeated r least most, i, cs =>
    match accepts? s r with
    | some p =>
      let longest := runLength s p (most.getD s.text.size) i 0
      if longest < least then []
      else (List.range (longest + 1 - least)).map fun k => (i + longest - k, cs)
    | none =>
      repeatedEnds s (fun j cs => ends s r j cs) least (s.text.size + least + 2) most 0 i cs
  | .lineStart, i, cs => if s.isLineStart i then [(i, cs)] else []
  | .lineEnd, i, cs => if s.isLineEnd i then [(i, cs)] else []
  | .textStart, i, cs => if i == 0 then [(i, cs)] else []
  | .textEnd, i, cs => if i == s.text.size then [(i, cs)] else []
  | .wordStart, i, cs => if s.isWordAt i && !s.isWordBefore i then [(i, cs)] else []
  | .wordEnd, i, cs => if !s.isWordAt i && s.isWordBefore i then [(i, cs)] else []
  | .wordEdge inside, i, cs => if (s.isWordAt i != s.isWordBefore i) != inside then [(i, cs)] else []
  | .back k, i, cs =>
    match cs.lookup k with
    | none => []
    | some (a, b) =>
      let length := b - a
      let equal := (List.range length).all fun n =>
        match s.at? (a + n), s.at? (i + n) with
        | some x, some y => s.same x y
        | _, _ => false
      if equal then [(i + length, cs)] else []

end Regex

/-- A place where an expression matches. -/
structure Match where
  start : Nat
  stop : Nat
  groups : Regex.Captures := []

namespace Matcher

def subject (m : Matcher) (text : Array Char) : Regex.Subject :=
  { text, folded := m.folded, referring := m.referring, manyLines := m.manyLines }

/-- The longest match that starts at a place. -/
def matchAt? (m : Matcher) (text : Array Char) (i : Nat) : Option Match :=
  (Regex.ends (m.subject text) m.regex i []).foldl
    (fun best (j, groups) =>
      match best with
      | some b => if j > b.stop then some ⟨i, j, groups⟩ else some b
      | none => some ⟨i, j, groups⟩)
    none

def searchFrom (m : Matcher) (text : Array Char) : Nat → Nat → Option Match
  | 0, _ => none
  | n + 1, i =>
    match m.matchAt? text i with
    | some r => some r
    | none => searchFrom m text n (i + 1)

/-- The first match from a place on. -/
def search? (m : Matcher) (text : Array Char) (start : Nat := 0) : Option Match :=
  m.searchFrom text (text.size + 1 - start) start

def isIn (m : Matcher) (text : List Char) : Bool := (m.search? text.toArray).isSome

/-- The text between two places. -/
def between (text : Array Char) (a b : Nat) : List Char := (text.extract a b).toList

/-- What a group matched; nothing if it did not take part. -/
def groupText (text : Array Char) (r : Match) (k : Nat) : List Char :=
  if k = 0 then between text r.start r.stop
  else
    match r.groups.lookup k with
    | some (a, b) => between text a b
    | none => []

/-- All matches that do not overlap, from left to right. -/
def allFrom (m : Matcher) (text : Array Char) : Nat → Nat → Option Nat → List Match
  | 0, _, _ => []
  | n + 1, i, last =>
    if i > text.size then []
    else
      match m.search? text i with
      | none => []
      | some r =>
        if r.stop == r.start then
          if last == some r.start then allFrom m text n (r.start + 1) none
          else r :: allFrom m text n (r.start + 1) none
        else r :: allFrom m text n r.stop (some r.stop)

def all (m : Matcher) (text : Array Char) : List Match := m.allFrom text (text.size + 2) 0 none

end Matcher
end Shell
end Unweave

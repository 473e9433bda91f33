import Unweave.Shell.Reader.Cursor

/-!
# Reading scripts: words

A word goes on to the next character that ends words.  Inside double quotes and inside braces other
characters end it, and commands whose output is wanted are read as lists of commands.  How those are
read is a parameter here, so that nesting is counted in one place.
-/

namespace Unweave
namespace Shell
namespace Reader

/-- What a part of a word is inside of. -/
inductive Inside where
  | quotes
  /-- The braces of a parameter, themselves in quotes or not. -/
  | braces (quoted : Bool)
  /-- The double parentheses of an expression. -/
  | sum

/-- How to read what is nested. -/
structure Grammar where
  /-- A list of commands that may be empty. -/
  list : Parse Command
  /-- A list of commands with at least one. -/
  body : Parse Command
  command : Parse Command
  inside : Inside → Parse Word

def apostrophe : Char := '\x27'

def backquote : Char := '\x60'

/-- Characters that end a word. -/
def endsWord (c : Char) : Bool :=
  c == ' ' || c == '\t' || c == '\n' || c == ';' || c == '&' || c == '|' || c == '<' || c == '>' ||
    c == '(' || c == ')'

/-- Parameters that the shell sets itself. -/
def isSpecial (c : Char) : Bool :=
  c == '@' || c == '*' || c == '#' || c == '?' || c == '-' || c == '$' || c == '!'

/-! ## Output of commands -/

/-- Read something on a text of its own. -/
def within {α : Type} (text : List Char) (line : Nat) (p : Parse α) : Parse α := do
  let outer ← get
  set { outer with rest := text, line, pushed := none, pending := [] }
  let a ← p
  modify fun c =>
    { c with rest := outer.rest, line := outer.line, pushed := outer.pushed,
             pending := outer.pending }
  return a

/-- The text between backquotes, where a backslash may protect some characters. -/
def backquoted (quoted : Bool) : Nat → List Char → Parse (List Char)
  | 0, _ => failWith "EOF in backquote substitution"
  | n + 1, cs => do
    match ← next with
    | none => failWith "EOF in backquote substitution"
    | some '\\' =>
      match ← nextRaw with
      | none => failWith "EOF in backquote substitution"
      | some c =>
        if c == '\\' || c == '$' || c == backquote || (quoted && c == '"') then
          backquoted quoted n (c :: cs)
        else backquoted quoted n (c :: '\\' :: cs)
    | some c => if c == backquote then return cs.reverse else backquoted quoted n (c :: cs)

/-- A list that has to be all there is. -/
def whole (g : Grammar) : Parse Command := do
  let body ← g.list
  match (← get).pushed with
  | some .finish => return body
  | some t => unexpected t
  | none => return body

def oldOutput (g : Grammar) (quoted : Bool) : Parse Part := do
  let line := (← get).line
  let text ← backquoted quoted (← stepsLeft) []
  let body ← within text line (whole g)
  return .output body quoted

/-- A list and the parenthesis after it. -/
def newOutput (g : Grammar) (quoted : Bool) : Parse Part := do
  let outer ← get
  set { outer with pushed := none, pending := [] }
  let body ← g.list
  match (← get).pushed with
  | some .closeParen =>
    modify fun c => { c with pushed := outer.pushed, pending := outer.pending }
    return .output body quoted
  | some t => unexpected t (some .closeParen)
  | none => unexpected .finish (some .closeParen)

/-! ## Parameters -/

def fallbackOf? : Char → Option Fallback
  | '-' => some .use
  | '=' => some .assign
  | '?' => some .fail
  | '+' => some .replace
  | _ => none

/-- What follows the name of a parameter in braces. -/
def formAfter (g : Grammar) (quoted : Bool) : Parse Form := do
  match ← next with
  | none => failWith (if quoted then "Unterminated quoted string" else "Missing \x27\x7d\x27")
  | some '}' => return .plain
  | some ':' =>
    match (← peek).bind fallbackOf? with
    | some kind =>
      advance
      return .fallback kind true (← g.inside (.braces quoted))
    | none => return .malformed (← g.inside (.braces quoted))
  | some c =>
    match fallbackOf? c with
    | some kind => return .fallback kind false (← g.inside (.braces quoted))
    | none =>
      if c == '%' || c == '#' then
        let longest := (← peek) == some c
        if longest then advance
        return .trim (c == '%') longest (← g.inside (.braces false))
      else return .malformed (← g.inside (.braces quoted))

/-- The length of a parameter, whose braces have to end here. -/
def lengthOf (g : Grammar) (name : String) (quoted : Bool) : Parse Part := do
  match ← next with
  | some '}' => return .value name .length quoted
  | _ => return .value name (.malformed (← g.inside (.braces quoted))) quoted

/-- A name or the number of a parameter. -/
def parameterName (c : Char) : Parse String := do
  if isNameStart c then runOf isNameByte else runOf Char.isDigit

/-- A parameter whose opening brace is read. -/
def braced (g : Grammar) (quoted : Bool) : Parse Part := do
  match ← peek with
  | some '#' =>
    advance
    match ← peek with
    | some c =>
      if c.isAlphanum || c == '_' then lengthOf g (← parameterName c) quoted
      else
        match (← get).rest with
        | x :: '}' :: _ =>
          if isSpecial x then
            advance
            lengthOf g (String.singleton x) quoted
          else return .value "#" (← formAfter g quoted) quoted
        | _ => return .value "#" (← formAfter g quoted) quoted
    | none => return .value "#" (← formAfter g quoted) quoted
  | some c =>
    if isNameStart c || c.isDigit then
      let name ← parameterName c
      return .value name (← formAfter g quoted) quoted
    else if isSpecial c then
      advance
      return .value (String.singleton c) (← formAfter g quoted) quoted
    else return .value "" (.malformed (← g.inside (.braces quoted))) quoted
  | none => failWith (if quoted then "Unterminated quoted string" else "Missing \x27\x7d\x27")

/-- What a dollar sign starts. -/
def dollar (g : Grammar) (quoted : Bool) : Parse Part := do
  match ← peek with
  | some '(' =>
    advance
    if (← peek) == some '(' then
      advance
      return .number (← g.inside .sum) quoted
    else newOutput g quoted
  | some '{' =>
    advance
    braced g quoted
  | some c =>
    if isNameStart c then return .value (← runOf isNameByte) .plain quoted
    else if c.isDigit || isSpecial c then
      advance
      return .value (String.singleton c) .plain quoted
    else return .literal "$" quoted
  | none => return .literal "$" quoted

/-! ## Words and what is inside of them -/

/-- A character after a backslash; at the end the backslash stands for itself. -/
def escapedChar (parts : List Part) : Parse (List Part) := do
  match ← nextRaw with
  | none => return addQuoted "\\" parts
  | some c => return addQuoted (String.singleton c) parts

/-- A character after a backslash in double quotes, where it protects only some. -/
def escapedInQuotes (protects : Char → Bool) (parts : List Part) : Parse (List Part) := do
  match ← nextRaw with
  | none => return addQuoted "\\" parts
  | some c =>
    return addQuoted (if protects c then String.singleton c else String.ofList ['\\', c]) parts

/-- Characters that a backslash protects in double quotes. -/
def isProtected (c : Char) : Bool := c == '\\' || c == '$' || c == '"' || c == backquote

/-- A word up to the character that ends it, which stays.  The parts are held in reverse. -/
def bare (g : Grammar) : Nat → List Part → Parse Word
  | 0, parts => return parts.reverse
  | n + 1, parts => do
    match ← peek with
    | none => return parts.reverse
    | some c =>
      if endsWord c then return parts.reverse
      else
        advance
        if c == '\\' then bare g n (← escapedChar parts)
        else if c == apostrophe then
          let text ← upTo apostrophe (← stepsLeft) []
          bare g n (addQuoted text parts)
        else if c == '"' then
          let inner ← g.inside .quotes
          bare g n (inner.reverse ++ addQuoted "" parts)
        else if c == '$' then
          let part ← dollar g false
          bare g n (part :: parts)
        else if c == backquote then
          let part ← oldOutput g false
          bare g n (part :: parts)
        else bare g n (addChar c false parts)

/-- The inside of double quotes, with the closing one. -/
def inQuotes (g : Grammar) : Nat → List Part → Parse Word
  | 0, _ => failWith "Unterminated quoted string"
  | n + 1, parts => do
    match ← next with
    | none => failWith "Unterminated quoted string"
    | some '"' => return parts.reverse
    | some c =>
      if c == '\\' then inQuotes g n (← escapedInQuotes isProtected parts)
      else if c == '$' then
        let part ← dollar g true
        inQuotes g n (part :: parts)
      else if c == backquote then
        let part ← oldOutput g true
        inQuotes g n (part :: parts)
      else inQuotes g n (addChar c true parts)

/-- The inside of braces, with the closing one. -/
def inBraces (g : Grammar) (quoted : Bool) : Nat → List Part → Parse Word
  | 0, _ => failWith "Missing \x27\x7d\x27"
  | n + 1, parts => do
    match ← next with
    | none => failWith (if quoted then "Unterminated quoted string" else "Missing \x27\x7d\x27")
    | some '}' => return parts.reverse
    | some c =>
      if c == '\\' then
        if quoted then inBraces g quoted n (← escapedInQuotes (fun c => isProtected c || c == '}') parts)
        else inBraces g quoted n (← escapedChar parts)
      else if c == apostrophe && !quoted then
        let text ← upTo apostrophe (← stepsLeft) []
        inBraces g quoted n (addQuoted text parts)
      else if c == '"' then
        let inner ← g.inside .quotes
        inBraces g quoted n (inner.reverse ++ addQuoted "" parts)
      else if c == '$' then
        let part ← dollar g quoted
        inBraces g quoted n (part :: parts)
      else if c == backquote then
        let part ← oldOutput g quoted
        inBraces g quoted n (part :: parts)
      else inBraces g quoted n (addChar c quoted parts)

/-- An expression, with the two parentheses that close it. -/
def inSum (g : Grammar) : Nat → Nat → List Part → Parse Word
  | 0, _, _ => failWith "Missing \x27))\x27"
  | n + 1, opened, parts => do
    match ← next with
    | none => failWith "Missing \x27))\x27"
    | some '(' => inSum g n (opened + 1) (addChar '(' true parts)
    | some ')' =>
      match opened with
      | opened + 1 => inSum g n opened (addChar ')' true parts)
      | 0 =>
        if (← peek) == some ')' then
          advance
          return parts.reverse
        else inSum g n 0 (addChar ')' true parts)
    | some '"' => inSum g n opened parts
    | some c =>
      if c == '\\' then inSum g n opened (← escapedInQuotes isProtected parts)
      else if c == '$' then
        let part ← dollar g true
        inSum g n opened (part :: parts)
      else if c == backquote then
        let part ← oldOutput g true
        inSum g n opened (part :: parts)
      else inSum g n opened (addChar c true parts)

/-- The text of a document, in which values are put. -/
def inDocument (g : Grammar) : Nat → List Part → Parse Word
  | 0, parts => return parts.reverse
  | n + 1, parts => do
    match ← next with
    | none => return parts.reverse
    | some c =>
      if c == '\\' then
        inDocument g n (← escapedInQuotes (fun c => c == '\\' || c == '$' || c == backquote) parts)
      else if c == '$' then
        let part ← dollar g true
        inDocument g n (part :: parts)
      else if c == backquote then
        let part ← oldOutput g true
        inDocument g n (part :: parts)
      else inDocument g n (addChar c true parts)

/-- What is inside of quotes, braces or parentheses. -/
def inside (g : Grammar) (place : Inside) : Parse Word := do
  let n ← stepsLeft
  match place with
  | .quotes => inQuotes g n []
  | .braces quoted => inBraces g quoted n []
  | .sum => inSum g n 0 []

/-! ## Documents -/

/-- Lines up to the one that ends a document. -/
def documentLines (p : Pending) : Nat → List Char → Parse (List Char)
  | 0, text => return text
  | n + 1, text => do
    let rest := (← get).rest
    if rest.isEmpty then return text
    else
      let line := rest.takeWhile (· != '\n')
      let after := rest.drop line.length
      modify fun c => { c with rest := after.drop 1, line := c.line + 1 }
      let line := if p.stripped then line.dropWhile (· == '\t') else line
      if String.ofList line == p.mark then return text
      else documentLines p n (text ++ line ++ after.take 1)

def readDocument (g : Grammar) (p : Pending) : Parse Unit := do
  let line := (← get).line
  let text ← documentLines p (← stepsLeft) []
  let body ←
    if p.verbatim then pure [.literal (String.ofList text) true]
    else within text line (inDocument g (text.length + 2) [])
  modify fun c => { c with documents := (p.index, body) :: c.documents }

/-- Read the documents that start here. -/
def readPending (g : Grammar) : Parse Unit := do
  let waiting := (← get).pending
  modify fun c => { c with pending := [] }
  waiting.forM (readDocument g)

end Reader
end Shell
end Unweave

import Unweave.Shell.Reader.Word

/-!
# Reading scripts: commands

Words that start or end a compound command are recognised only where a command may start.
-/

namespace Unweave
namespace Shell
namespace Reader

/-! ## Tokens -/

/-- The arrow that follows. -/
def arrow : Parse Arrow := do
  match ← next with
  | some '>' =>
    match ← peek with
    | some '>' =>
      advance
      return .file .append
    | some '|' =>
      advance
      return .file .clobber
    | some '&' =>
      advance
      return .copy 1
    | _ => return .file .write
  | _ =>
    match ← peek with
    | some '<' =>
      advance
      if (← peek) == some '-' then
        advance
        return .document true
      else return .document false
    | some '>' =>
      advance
      return .file .both
    | some '&' =>
      advance
      return .copy 0
    | _ => return .file .read

/-- One of two tokens, by whether a character follows once more. -/
def doubled (c : Char) (twice once : Token) : Parse Token := do
  if (← peek) == some c then
    advance
    return twice
  else return once

def skipComment : Nat → Parse Unit
  | 0 => return
  | n + 1 => do
    match (← get).rest with
    | [] => return
    | '\n' :: _ => return
    | _ :: _ =>
      advance
      skipComment n

/-- The next token of the text. -/
def lex (g : Grammar) : Nat → Parse Token
  | 0 => return .finish
  | n + 1 => do
    match ← peek with
    | none =>
      readPending g
      return .finish
    | some c =>
      match c with
      | ' ' =>
        advance
        lex g n
      | '\t' =>
        advance
        lex g n
      | '#' =>
        skipComment (← stepsLeft)
        lex g n
      | '\n' =>
        advance
        readPending g
        return .newline
      | '&' =>
        advance
        doubled '&' .andIf .ampersand
      | '|' =>
        advance
        doubled '|' .orIf .bar
      | ';' =>
        advance
        doubled ';' .caseEnd .semicolon
      | '(' =>
        advance
        return .openParen
      | ')' =>
        advance
        return .closeParen
      | '<' => return .arrow none (← arrow)
      | '>' => return .arrow none (← arrow)
      | _ =>
        match (← get).rest with
        | d :: '<' :: _ =>
          if d.isDigit then
            advance
            return .arrow (some (d.toNat - 48)) (← arrow)
          else return .word (← bare g (← stepsLeft) [])
        | d :: '>' :: _ =>
          if d.isDigit then
            advance
            return .arrow (some (d.toNat - 48)) (← arrow)
          else return .word (← bare g (← stepsLeft) [])
        | _ => return .word (← bare g (← stepsLeft) [])

/-- What a token may be where it is read. -/
structure Expecting where
  /-- Whether line ends are skipped. -/
  newlines : Bool := false
  keywords : Bool := false
  aliases : Bool := false

def commandStart : Expecting := { newlines := true, keywords := true, aliases := true }

/-- The alias that a word is, unless its text is being read. -/
def aliasOf? (c : Cursor) (name : String) : Option String :=
  let left := c.rest.length
  if c.expanding.any fun (n, length) => n == name && left ≥ length then none
  else c.aliases.lookup name

/-- The token put back, or the next one. -/
def lexOrPushed (g : Grammar) : Parse Token := do
  match (← get).pushed with
  | some t =>
    modify fun c => { c with pushed := none }
    return t
  | none => lex g (← stepsLeft)

def readToken (g : Grammar) (e : Expecting) : Nat → Parse Token
  | 0 => return .finish
  | n + 1 => do
    match ← lexOrPushed g with
    | .newline => if e.newlines then readToken g e n else return .newline
    | .word parts =>
      match plainText? parts with
      | none => return .word parts
      | some text =>
        if e.keywords && keywords.contains text then return .keyword text
        else if e.aliases then
          let c ← get
          match aliasOf? c text with
          | none => return .word parts
          | some value =>
            set { c with rest := value.toList ++ c.rest,
                         expanding := (text, c.rest.length) ::
                           c.expanding.filter (·.2 ≤ c.rest.length) }
            readToken g e n
        else return .word parts
    | t => return t

def token (g : Grammar) (e : Expecting := {}) : Parse Token := do
  readToken g e (2 * (← get).rest.length + 64)

/-- Read a keyword or fail. -/
def expectKeyword (g : Grammar) (k : String) (e : Expecting := {}) : Parse Unit := do
  let t ← token g e
  unless t.isKeyword k do unexpected t (some (.keyword k))

/-! ## Redirections -/

/-- The redirection whose arrow is read. -/
def redirection (g : Grammar) (channel : Option Nat) (kind : Arrow) : Parse Redirection := do
  match ← token g with
  | .word parts =>
    match kind with
    | .file .read => return .file (channel.getD 0) .read parts
    | .file .both => return .file (channel.getD 0) .both parts
    | .file access => return .file (channel.getD 1) access parts
    | .copy usual => return .copy (channel.getD usual) parts
    | .document stripped =>
      let mark := String.join (parts.map fun
        | .literal text _ => text
        | _ => "")
      let c ← get
      let p := { index := c.fresh, mark, verbatim := parts.any Part.isQuoted, stripped : Pending }
      set { c with fresh := c.fresh + 1, pending := c.pending ++ [p] }
      return .document (channel.getD 0) c.fresh
  | t => unexpected t

/-- Redirections that follow a compound command. -/
def redirections (g : Grammar) : Nat → List Redirection → Parse (List Redirection)
  | 0, rs => return rs.reverse
  | n + 1, rs => do
    match ← token g { keywords := true, aliases := true } with
    | .arrow channel kind => redirections g n ((← redirection g channel kind) :: rs)
    | t =>
      pushBack t
      return rs.reverse

/-! ## Simple commands -/

/-- Builtins that cannot be functions. -/
def reservedNames : List String :=
  [".", ":", "break", "continue", "eval", "exec", "exit", "export", "readonly", "return", "set",
    "shift", "times", "trap", "unset"]

/-- A function whose name and opening parenthesis are read. -/
def functionBody (g : Grammar) (name : Word) : Parse Command := do
  match ← token g with
  | .closeParen =>
    match plainText? name with
    | some name =>
      if isName name && !reservedNames.contains name then
        let t ← token g commandStart
        pushBack t
        return .define name (← g.command)
      else failWith "Bad function name"
    | none => failWith "Bad function name"
  | t => unexpected t (some .closeParen)

/-- The rest of a simple command, whose parts so far are held in reverse. -/
def simple (g : Grammar) (line : Nat) :
    Nat → List (String × Word) → List Word → List Redirection → Parse Command
  | 0, _, _, _ => failWith "command too long"
  | n + 1, as, ws, rs => do
    match ← token g { aliases := ws.isEmpty } with
    | .word parts =>
      match if ws.isEmpty then assignment? parts else none with
      | some a => simple g line n (a :: as) ws rs
      | none => simple g line n as (parts :: ws) rs
    | .arrow channel kind => simple g line n as ws ((← redirection g channel kind) :: rs)
    | .openParen =>
      match ws with
      | [name] =>
        if as.isEmpty && rs.isEmpty then functionBody g name
        else
          pushBack .openParen
          return .simple line as.reverse ws.reverse rs.reverse
      | _ =>
        pushBack .openParen
        return .simple line as.reverse ws.reverse rs.reverse
    | t =>
      pushBack t
      return .simple line as.reverse ws.reverse rs.reverse

/-! ## Compound commands -/

/-- Words up to the token that ends them. -/
def wordsOf (g : Grammar) : Nat → List Word → Parse (List Word × Token)
  | 0, ws => return (ws.reverse, .finish)
  | n + 1, ws => do
    match ← token g with
    | .word parts => wordsOf g n (parts :: ws)
    | t => return (ws.reverse, t)

/-- The rest of a conditional after its first word. -/
def conditional (g : Grammar) : Nat → Parse Command
  | 0 => failWith "command too long"
  | n + 1 => do
    let condition ← g.body
    expectKeyword g "then"
    let consequence ← g.body
    let t ← token g
    if t.isKeyword "elif" then return .branch condition consequence (← conditional g n)
    else if t.isKeyword "else" then
      let alternative ← g.body
      expectKeyword g "fi"
      return .branch condition consequence alternative
    else if t.isKeyword "fi" then return .branch condition consequence .skip
    else unexpected t (some (.keyword "fi"))

def loop (g : Grammar) (success : Bool) : Parse Command := do
  let condition ← g.body
  expectKeyword g "do"
  let body ← g.body
  expectKeyword g "done"
  return .loop success condition body

def forEach (g : Grammar) (line : Nat) : Parse Command := do
  match ← token g with
  | .word parts =>
    match plainText? parts with
    | none => failWith "Bad for loop variable"
    | some name =>
      if !isName name then failWith "Bad for loop variable"
      else
        let t ← token g commandStart
        let words ←
          if t.isKeyword "in" then do
            let (words, t) ← wordsOf g (← stepsLeft) []
            match t with
            | .newline => pure words
            | .semicolon => pure words
            | t => unexpected t
          else do
            match t with
            | .semicolon => pure ()
            | t => pushBack t
            pure [[.value "@" .plain true]]
        expectKeyword g "do" commandStart
        let body ← g.body
        expectKeyword g "done"
        return .forEach line name words body
  | _ => failWith "Bad for loop variable"

/-- The patterns of a case, the first of which is read. -/
def patterns (g : Grammar) : Nat → Token → List Word → Parse (List Word)
  | 0, _, ws => return ws.reverse
  | n + 1, t, ws => do
    let w : Word ← match t with
      | .word parts => pure parts
      | .keyword k => pure [.literal k false]
      | _ => pure []
    match ← token g with
    | .bar => patterns g n (← token g) (w :: ws)
    | .closeParen => return (w :: ws).reverse
    | t => unexpected t (some .closeParen)

/-- The cases of a selection up to its last word. -/
def clauses (g : Grammar) : Nat → List Clause → Parse (List Clause)
  | 0, cs => return cs.reverse
  | n + 1, cs => do
    let t ← token g { newlines := true, keywords := true }
    if t.isKeyword "esac" then return cs.reverse
    else
      let t ← match t with
        | .openParen => token g
        | t => pure t
      let ps ← patterns g (← stepsLeft) t []
      let body ← g.list
      let cs := .mk ps body :: cs
      match ← token g { newlines := true, keywords := true } with
      | .caseEnd => clauses g n cs
      | t =>
        if t.isKeyword "esac" then return cs.reverse else unexpected t (some .caseEnd)

def selection (g : Grammar) (line : Nat) : Parse Command := do
  match ← token g with
  | .word parts =>
    expectKeyword g "in" commandStart
    return .select line parts (← clauses g (← stepsLeft) [])
  | t => unexpected t (some (.word []))

/-- The redirections of a compound command around it. -/
def withRedirections (g : Grammar) (line : Nat) (c : Command) : Parse Command := do
  let rs ← redirections g (← stepsLeft) []
  match c, rs with
  | .subshell line body _, rs => return .subshell line body rs
  | c, [] => return c
  | c, rs => return .redirected line c rs

/-- One command: a compound one or a simple one. -/
def command (g : Grammar) : Parse Command := do
  let t ← token g
  let line := (← get).line
  match t with
  | .keyword "if" => withRedirections g line (← conditional g (← stepsLeft))
  | .keyword "while" => withRedirections g line (← loop g true)
  | .keyword "until" => withRedirections g line (← loop g false)
  | .keyword "for" => withRedirections g line (← forEach g line)
  | .keyword "case" => withRedirections g line (← selection g line)
  | .keyword "\x7b" =>
    let body ← g.body
    expectKeyword g "\x7d"
    withRedirections g line body
  | .openParen =>
    let body ← g.body
    match ← token g with
    | .closeParen => withRedirections g line (.subshell line body [])
    | t => unexpected t (some .closeParen)
  | .word _ =>
    pushBack t
    simple g line (← stepsLeft) [] [] []
  | .arrow .. =>
    pushBack t
    simple g line (← stepsLeft) [] [] []
  | t => unexpected t

/-! ## Pipelines and lists -/

def stages (g : Grammar) : Nat → List Command → Parse (List Command)
  | 0, cs => return cs.reverse
  | n + 1, cs => do
    match ← token g with
    | .bar =>
      let t ← token g commandStart
      pushBack t
      stages g n ((← command g) :: cs)
    | t =>
      pushBack t
      return cs.reverse

/-- A pipeline whose first token was read where a command may start, and put back. -/
def pipeline (g : Grammar) : Parse Command := do
  let t ← token g
  let negated := t.isKeyword "!"
  if negated then
    let t ← token g { keywords := true, aliases := true }
    pushBack t
  else pushBack t
  let first ← command g
  let all ← stages g (← stepsLeft) [first]
  let c := match all with
    | [c] => c
    | cs => .pipeline cs
  return if negated then .negation c else c

def andOrRest (g : Grammar) : Nat → Command → Parse Command
  | 0, c => return c
  | n + 1, c => do
    let t ← token g
    match t with
    | .andIf =>
      pushBack (← token g commandStart)
      andOrRest g n (.both c (← pipeline g))
    | .orIf =>
      pushBack (← token g commandStart)
      andOrRest g n (.either c (← pipeline g))
    | t =>
      pushBack t
      return c

def andOr (g : Grammar) : Parse Command := do
  andOrRest g (← stepsLeft) (← pipeline g)

/-- Where a list of commands stands. -/
inductive Place where
  /-- The script itself: the list ends with the line. -/
  | line
  /-- A place that asks for a command. -/
  | body
  /-- A place where the list may be empty. -/
  | inner
deriving DecidableEq

def sequenceOf : Option Command → Command → Command
  | none, c => c
  | some b, c => .sequence b c

/-- Commands up to a token that ends the list, which is put back. -/
def listFrom (g : Grammar) (place : Place) : Nat → Bool → Option Command → Parse (Option Command)
  | 0, _, acc => return acc
  | n + 1, mayEnd, acc => do
    let top := place == .line
    match ← token g { newlines := !top, keywords := true, aliases := true } with
    | .newline => return acc
    | .finish =>
      pushBack .finish
      return acc
    | t =>
      pushBack t
      if mayEnd && t.endsList then return acc
      else
        let line := (← get).line
        let c ← andOr g
        match ← token g with
        | .finish =>
          pushBack .finish
          return some (sequenceOf acc c)
        | .newline =>
          pushBack .newline
          listFrom g place n (!top) (some (sequenceOf acc c))
        | .semicolon => listFrom g place n (!top) (some (sequenceOf acc c))
        | .ampersand => listFrom g place n (!top) (some (sequenceOf acc (.background line c)))
        | t =>
          if top then unexpected t
          else
            pushBack t
            return some (sequenceOf acc c)

def listIn (g : Grammar) (place : Place) : Parse Command := do
  return (← listFrom g place (← stepsLeft) (place == .inner) none).getD .skip

/-- The grammar for nesting of a given depth. -/
def grammar : Nat → Grammar
  | 0 =>
    { list := failWith "nested too deeply", body := failWith "nested too deeply"
      command := failWith "nested too deeply", inside := fun _ => failWith "nested too deeply" }
  | n + 1 =>
    { list := do listIn (grammar n) .inner
      body := do listIn (grammar n) .body
      command := do command (grammar n)
      inside := fun place => do inside (grammar n) place }

end Reader

/-- What the next line of a script holds. -/
inductive ScriptLine where
  | finished
  | blank
  | command (c : Command)

/-- Read the next line of a script, or as many as its command takes. -/
def readLine : Reader.Parse ScriptLine := do
  modify fun c => { c with pushed := none, pending := [] }
  let n ← Reader.stepsLeft
  match ← Reader.listFrom (Reader.grammar n) .line n false none with
  | some c => return .command c
  | none =>
    match (← get).pushed with
    | some .finish => return .finished
    | _ => return .blank

end Shell
end Unweave

import Unweave.Shell.Program.Awk.Value

/-!
# Reading programs
-/

namespace Unweave
namespace Shell
namespace Awk
namespace Reader

inductive Token where
  | finish
  | newline
  | number (x : Float)
  | text (s : String)
  | name (s : String)
  /-- A name right before a parenthesis. -/
  | called (s : String)
  | builtin (s : String)
  | keyword (s : String)
  | mark (s : String)
  | unknown (c : Char)

namespace Token

/-- How a token is called in a message. -/
def shown : Token → String
  | finish => "end of file"
  | newline => "end of line"
  | number x => numberText "%.6g" x
  | text s => "\"" ++ s ++ "\""
  | name s => s
  | called s => s
  | builtin s => s
  | keyword s => s
  | mark s => s
  | unknown c => String.singleton c

def isMark (t : Token) (s : String) : Bool :=
  match t with
  | mark m => m == s
  | _ => false

def isKeyword (t : Token) (s : String) : Bool :=
  match t with
  | keyword k => k == s
  | _ => false

end Token

structure Cursor where
  rest : List Char
  line : Nat := 1

abbrev Parse : Type → Type := EStateM String Cursor

/-- Marks, longer ones before those they start with. -/
def marks : List String :=
  ["**=", "+=", "-=", "*=", "/=", "%=", "^=", "==", "<=", ">=", "!=", "++", "--", "&&", "||", ">>", "!~",
    "\x7b", "\x7d", "(", ")", "[", "]", ";", ",", "+", "-", "*", "/", "%", "^", "!", ">", "<", "|", "?",
    ":", "~", "$", "="]

/-- Blanks, comments and joined lines. -/
def skipBlanks : Nat → List Char → Nat → List Char × Nat
  | 0, cs, k => (cs, k)
  | n + 1, cs, k =>
    match cs with
    | ' ' :: rest => skipBlanks n rest k
    | '\t' :: rest => skipBlanks n rest k
    | '\r' :: rest => skipBlanks n rest k
    | '\\' :: '\n' :: rest => skipBlanks n rest (k + 1)
    | '\\' :: '\r' :: '\n' :: rest => skipBlanks n rest (k + 1)
    | '#' :: rest => skipBlanks n (rest.dropWhile (· != '\n')) k
    | cs => (cs, k)

/-- The text of a string whose quote is read, reversed, and what follows it. -/
def stringText : Nat → List Char → List Char → Option (List Char × List Char)
  | 0, _, _ => none
  | _ + 1, _, [] => none
  | n + 1, out, c :: cs =>
    if c == '"' then some (out, cs)
    else if c == '\n' then none
    else if c == '\\' then
      match cs with
      | '"' :: rest => stringText n ('"' :: out) rest
      | '\n' :: rest => stringText n out rest
      | 'x' :: rest =>
        let (ds, after) := takeUpTo (fun c => digitValue c < 16) 2 rest
        if ds.isEmpty then stringText n ('x' :: '\\' :: out) rest
        else stringText n (byteOf 16 ds :: out) after
      | d :: rest =>
        match letterEscape d with
        | some b => stringText n (b :: out) rest
        | none =>
          if isOctal d then
            let (ds, after) := takeUpTo isOctal 3 cs
            stringText n (byteOf 8 ds :: out) after
          else stringText n (d :: '\\' :: out) rest
      | [] => none
    else stringText n (c :: out) cs

/-- A number at the start of a text. -/
def readNumber (cs : List Char) : Float × List Char :=
  match Real.read? 53 false cs with
  | some (r, rest) => (floatOf r, rest)
  | none => (0.0, cs.drop 1)

/-- The token at the start of a text, and what follows it. -/
def lex (cs : List Char) : Token × List Char :=
  match cs with
  | [] => (.finish, [])
  | '\n' :: rest => (.newline, rest)
  | '"' :: rest =>
    match stringText (rest.length + 1) [] rest with
    | some (out, after) => (.text (String.ofList out.reverse), after)
    | none => (.unknown '"', rest)
  | c :: rest =>
    if c.isDigit || (c == '.' && (rest.head?.map Char.isDigit).getD false) then
      let (x, after) := readNumber cs
      (.number x, after)
    else if isNameStart c then
      let name := cs.takeWhile isNameByte
      let after := cs.drop name.length
      let s := String.ofList name
      if keywords.contains s then (.keyword s, after)
      else if builtins.contains s then (.builtin s, after)
      else if after.head? == some '(' then (.called s, after)
      else (.name s, after)
    else
      match marks.find? fun m => m.toList.isPrefixOf cs with
      | some m => (.mark m, cs.drop m.length)
      | none => (.unknown c, rest)

/-- The next token, without taking it. -/
def peek : Parse Token := do
  let s ← get
  let (rest, _) := skipBlanks (s.rest.length + 1) s.rest 0
  return (lex rest).1

def advance : Parse Token := do
  let s ← get
  let (rest, skipped) := skipBlanks (s.rest.length + 1) s.rest 0
  let (t, after) := lex rest
  let more := match t with
    | .newline => 1
    | _ => 0
  set { s with rest := after, line := s.line + skipped + more }
  return t

/-- The token after the next one. -/
def peekSecond : Parse Token := do
  let s ← get
  let _ ← advance
  let t ← peek
  set s
  return t

def fault {α : Type} : Parse α := do
  match ← peek with
  | .unknown '"' => throw ("line " ++ toString (← get).line ++ ": runaway string constant \"")
  | .unknown c => throw (toString (← get).line ++ ": unexpected character \x27" ++ String.singleton c ++ "\x27")
  | t => throw ("line " ++ toString (← get).line ++ ": syntax error at or near " ++ t.shown)

def isMark (s : String) : Parse Bool := do
  return (← peek).isMark s

def isKeyword (s : String) : Parse Bool := do
  return (← peek).isKeyword s

/-- Take a mark if it is next. -/
def accept (s : String) : Parse Bool := do
  if ← isMark s then
    let _ ← advance
    return true
  else return false

def expect (s : String) : Parse Unit := do
  unless ← accept s do
    if s == ")" then
      throw ("line " ++ toString (← get).line ++ ": missing ) near " ++ (← peek).shown)
    else fault

def skipNewlines : Nat → Parse Unit
  | 0 => return ()
  | n + 1 => do
    match ← peek with
    | .newline =>
      let _ ← advance
      skipNewlines n
    | _ => return ()

def skipLines : Parse Unit := do skipNewlines ((← get).rest.length + 1)

/-- The text of an expression to search for, whose slash is read, reversed. -/
def regexText : Nat → Bool → List Char → List Char → Option (List Char × List Char)
  | 0, _, _, _ => none
  | _ + 1, _, _, [] => none
  | n + 1, bracket, out, c :: cs =>
    if c == '/' && !bracket then some (out, cs)
    else if c == '\n' then none
    else if c == '\\' then
      match cs with
      | '/' :: rest => regexText n bracket ('/' :: out) rest
      | d :: rest => regexText n bracket (d :: '\\' :: out) rest
      | [] => none
    else if c == '[' && !bracket then
      match cs with
      | '^' :: ']' :: rest => regexText n true (']' :: '^' :: '[' :: out) rest
      | ']' :: rest => regexText n true (']' :: '[' :: out) rest
      | cs => regexText n true ('[' :: out) cs
    else if c == ']' && bracket then regexText n false (c :: out) cs
    else regexText n bracket (c :: out) cs

def regexDialect : Regex.Dialect := { extended := true, escapes := true }

/-- An expression to search for, whose slash is next. -/
def regexLiteral : Parse Expression := do
  let s ← get
  let (rest, skipped) := skipBlanks (s.rest.length + 1) s.rest 0
  match regexText rest.length false [] (rest.drop 1) with
  | none => throw ("line " ++ toString s.line ++ ": runaway regular expression /")
  | some (out, after) =>
    set { s with rest := after, line := s.line + skipped }
    match Regex.compile regexDialect false out.reverse with
    | .ok m => return .regex m
    | .error e => throw ("line " ++ toString s.line ++ ": regular expression compile failed (" ++ e ++ ")")

/-- What an expression may not hold here. -/
structure Mode where
  noGreater : Bool := false
  noIn : Bool := false

def isTarget : Expression → Bool
  | .variable _ => true
  | .element .. => true
  | .field _ => true
  | _ => false

/-- Whether a token may start an operand that is joined to the one before. -/
def startsOperand : Token → Bool
  | .number _ => true
  | .text _ => true
  | .name _ => true
  | .called _ => true
  | .builtin _ => true
  | .mark m => m == "(" || m == "$" || m == "!" || m == "-" || m == "+" || m == "++" || m == "--"
  | _ => false

def assignmentOperator? (t : Token) : Option (Option Operator) :=
  match t with
  | .mark "=" => some none
  | .mark "+=" => some (some .add)
  | .mark "-=" => some (some .subtract)
  | .mark "*=" => some (some .multiply)
  | .mark "/=" => some (some .divide)
  | .mark "%=" => some (some .remainder)
  | .mark "^=" => some (some .power)
  | _ => none

def comparison? (m : Mode) (t : Token) : Option Comparison :=
  match t with
  | .mark "<" => some .less
  | .mark "<=" => some .lessEqual
  | .mark "==" => some .equal
  | .mark "!=" => some .notEqual
  | .mark ">" => if m.noGreater then none else some .greater
  | .mark ">=" => some .greaterEqual
  | _ => none

mutual

/-- An expression with assignments and choices. -/
def expression (m : Mode) : Nat → Parse Expression
  | 0 => fault
  | n + 1 => do
    let a ← disjunction m n
    match assignmentOperator? (← peek) with
    | some o =>
      if isTarget a then
        let _ ← advance
        skipLines
        return .assign a o (← expression m n)
      else fault
    | none =>
      if ← accept "?" then
        skipLines
        let b ← expression m n
        skipLines
        expect ":"
        skipLines
        return .conditional a b (← expression m n)
      else return a

def disjunction (m : Mode) : Nat → Parse Expression
  | 0 => fault
  | n + 1 => do
    let a ← conjunction m n
    disjunctionAfter m n a

def disjunctionAfter (m : Mode) : Nat → Expression → Parse Expression
  | 0, a => return a
  | n + 1, a => do
    if ← accept "||" then
      skipLines
      let b ← conjunction m n
      disjunctionAfter m n (.or a b)
    else return a

def conjunction (m : Mode) : Nat → Parse Expression
  | 0 => fault
  | n + 1 => do
    let a ← membership m n
    conjunctionAfter m n a

def conjunctionAfter (m : Mode) : Nat → Expression → Parse Expression
  | 0, a => return a
  | n + 1, a => do
    if ← accept "&&" then
      skipLines
      let b ← membership m n
      conjunctionAfter m n (.and a b)
    else return a

def membership (m : Mode) : Nat → Parse Expression
  | 0 => fault
  | n + 1 => do
    let a ← matching m n
    membershipAfter m n a

def membershipAfter (m : Mode) : Nat → Expression → Parse Expression
  | 0, a => return a
  | n + 1, a => do
    if !m.noIn && (← isKeyword "in") then
      let _ ← advance
      match ← advance with
      | .name array =>
        let index := match a with
          | .tuple es => es
          | e => [e]
        membershipAfter m n (.isIn index array)
      | _ => fault
    else return a

def matching (m : Mode) : Nat → Parse Expression
  | 0 => fault
  | n + 1 => do
    let a ← comparison m n
    matchingAfter m n a

def matchingAfter (m : Mode) : Nat → Expression → Parse Expression
  | 0, a => return a
  | n + 1, a => do
    if ← accept "~" then
      let b ← comparison m n
      matchingAfter m n (.holds false a b)
    else if ← accept "!~" then
      let b ← comparison m n
      matchingAfter m n (.holds true a b)
    else return a

def comparison (m : Mode) : Nat → Parse Expression
  | 0 => fault
  | n + 1 => do
    let a ← joined m n
    comparisonAfter m n a

def comparisonAfter (m : Mode) : Nat → Expression → Parse Expression
  | 0, a => return a
  | n + 1, a => do
    match comparison? m (← peek) with
    | some c =>
      let _ ← advance
      let b ← joined m n
      comparisonAfter m n (.compare c a b)
    | none =>
      if (← isMark "|") && (← peekSecond).isKeyword "getline" then
        let _ ← advance
        let _ ← advance
        let target ← optionalTarget n
        comparisonAfter m n (.getline .command (some a) target)
      else return a

def joined (m : Mode) : Nat → Parse Expression
  | 0 => fault
  | n + 1 => do
    let a ← sum m n
    joinedAfter m n a

def joinedAfter (m : Mode) : Nat → Expression → Parse Expression
  | 0, a => return a
  | n + 1, a => do
    let t ← peek
    let starts := startsOperand t && !(t.isMark "-" || t.isMark "+")
    if starts then
      let b ← sum m n
      joinedAfter m n (.join a b)
    else return a

def sum (m : Mode) : Nat → Parse Expression
  | 0 => fault
  | n + 1 => do
    let a ← product m n
    sumAfter m n a

def sumAfter (m : Mode) : Nat → Expression → Parse Expression
  | 0, a => return a
  | n + 1, a => do
    if ← accept "+" then
      let b ← product m n
      sumAfter m n (.binary .add a b)
    else if ← accept "-" then
      let b ← product m n
      sumAfter m n (.binary .subtract a b)
    else return a

def product (m : Mode) : Nat → Parse Expression
  | 0 => fault
  | n + 1 => do
    let a ← signed m n
    productAfter m n a

def productAfter (m : Mode) : Nat → Expression → Parse Expression
  | 0, a => return a
  | n + 1, a => do
    if ← accept "*" then
      let b ← signed m n
      productAfter m n (.binary .multiply a b)
    else if ← accept "/" then
      let b ← signed m n
      productAfter m n (.binary .divide a b)
    else if ← accept "%" then
      let b ← signed m n
      productAfter m n (.binary .remainder a b)
    else return a

def signed (m : Mode) : Nat → Parse Expression
  | 0 => fault
  | n + 1 => do
    if ← accept "!" then return .not (← signed m n)
    else if ← accept "-" then return .negate (← signed m n)
    else if ← accept "+" then return .plus (← signed m n)
    else powered m n

def powered (m : Mode) : Nat → Parse Expression
  | 0 => fault
  | n + 1 => do
    let a ← stepped m n
    if ← accept "^" then
      let b ← exponent m n
      return .binary .power a b
    else return a

/-- An exponent may have a sign. -/
def exponent (m : Mode) : Nat → Parse Expression
  | 0 => fault
  | n + 1 => do
    if ← accept "-" then return .negate (← exponent m n)
    else if ← accept "+" then exponent m n
    else if ← accept "!" then return .not (← exponent m n)
    else powered m n

def stepped (m : Mode) : Nat → Parse Expression
  | 0 => fault
  | n + 1 => do
    let a ← primary m n
    if isTarget a then
      if ← accept "++" then return .step false 1.0 a
      else if ← accept "--" then return .step false (-1.0) a
      else return a
    else return a

/-- Expressions between commas. -/
def expressions (m : Mode) : Nat → Parse (List Expression)
  | 0 => fault
  | n + 1 => do
    let a ← expression m n
    if ← accept "," then
      skipLines
      return a :: (← expressions m n)
    else return [a]

/-- The arguments of a call, whose parenthesis is next. -/
def callArguments : Nat → Parse (List Expression)
  | 0 => fault
  | n + 1 => do
    expect "("
    skipLines
    if ← accept ")" then return []
    let es ← expressions {} n
    skipLines
    expect ")"
    return es

/-- A variable, element or field that follows, if one does. -/
def optionalTarget : Nat → Parse (Option Expression)
  | 0 => fault
  | n + 1 => do
    match ← peek with
    | .name _ => return some (← primary {} n)
    | .mark "$" => return some (← primary {} n)
    | _ => return none

def primary (m : Mode) : Nat → Parse Expression
  | 0 => fault
  | n + 1 => do
    match ← peek with
    | .number x =>
      let _ ← advance
      return .number x
    | .text s =>
      let _ ← advance
      return .text s
    | .mark "/" => regexLiteral
    | .mark "/=" => regexLiteral
    | .mark "$" =>
      let _ ← advance
      if ← accept "++" then
        return .field (.step true 1.0 (← primary m n))
      else if ← accept "--" then
        return .field (.step true (-1.0) (← primary m n))
      else if ← accept "-" then return .field (.negate (← primary m n))
      else return .field (← primary m n)
    | .mark "++" =>
      let _ ← advance
      return .step true 1.0 (← primary m n)
    | .mark "--" =>
      let _ ← advance
      return .step true (-1.0) (← primary m n)
    | .mark "-" =>
      let _ ← advance
      return .negate (← signed m n)
    | .mark "+" =>
      let _ ← advance
      return .plus (← signed m n)
    | .mark "!" =>
      let _ ← advance
      return .not (← signed m n)
    | .mark "(" =>
      let _ ← advance
      skipLines
      let es ← expressions {} n
      skipLines
      expect ")"
      match es with
      | [e] => return .group e
      | es => return .tuple es
    | .builtin name =>
      let _ ← advance
      if ← isMark "(" then return .builtin name (← callArguments n)
      else if name == "length" then return .builtin name []
      else fault
    | .called name =>
      let _ ← advance
      return .call name (← callArguments n)
    | .name name =>
      let _ ← advance
      if ← accept "[" then
        let es ← expressions {} n
        expect "]"
        return .element name es
      else return .variable name
    | .keyword "getline" =>
      let _ ← advance
      let target ← optionalTarget n
      if ← accept "<" then
        let source ← source n
        return .getline .file (some source) target
      else return .getline .records none target
    | _ => fault

/-- The name of a file that is read from, which is not joined with what follows. -/
def source : Nat → Parse Expression
  | 0 => fault
  | n + 1 => do stepped {} n

end

/-! ## Statements -/

/-- The end of a simple statement. -/
def terminate : Parse Unit := do
  match ← peek with
  | .newline =>
    let _ ← advance
  | .mark ";" =>
    let _ ← advance
  | .mark "\x7d" => return ()
  | .finish => return ()
  | _ => fault

/-- Lines and semicolons that say nothing. -/
def skipTerminators : Nat → Parse Unit
  | 0 => return ()
  | n + 1 => do
    match ← peek with
    | .newline =>
      let _ ← advance
      skipTerminators n
    | .mark ";" =>
      let _ ← advance
      skipTerminators n
    | _ => return ()

def outlet (n : Nat) : Parse (Option (Outlet × Expression)) := do
  if ← accept ">" then return some (.file, ← joined { noGreater := true } n)
  else if ← accept ">>" then return some (.append, ← joined { noGreater := true } n)
  else if ← accept "|" then return some (.command, ← joined { noGreater := true } n)
  else return none

/-- The operands of a printing statement. -/
def printed (n : Nat) : Parse (List Expression) := do
  match ← peek with
  | .newline => return []
  | .finish => return []
  | .mark m =>
    if [";", "\x7d", ">", ">>", "|"].contains m then return []
    else
      let es ← expressions { noGreater := true } n
      match es with
      | [.tuple es] => return es
      | es => return es
  | _ => expressions { noGreater := true } n

/-- A statement without blocks or loops. -/
def simple (n : Nat) : Parse Statement := do
  match ← peek with
  | .keyword "print" =>
    let _ ← advance
    let es ← printed n
    return .print es (← outlet n)
  | .keyword "printf" =>
    let _ ← advance
    let es ← printed n
    return .printf es (← outlet n)
  | .keyword "delete" =>
    let _ ← advance
    match ← advance with
    | .name array =>
      if ← accept "[" then
        let es ← expressions {} n
        expect "]"
        return .delete array (some es)
      else return .delete array none
    | _ => fault
  | _ => return .expression (← expression {} n)

/-- Whether the head of a loop goes over an array. -/
def loopsOverArray : Parse (Option (String × String)) := do
  let s ← get
  let first ← advance
  let second ← advance
  let third ← advance
  let fourth ← advance
  match first, third with
  | .name v, .name a =>
    if second.isKeyword "in" && fourth.isMark ")" then return some (v, a)
    else
      set s
      return none
  | _, _ =>
    set s
    return none

mutual

def statement : Nat → Parse Statement
  | 0 => fault
  | n + 1 => do
    match ← peek with
    | .mark "\x7b" =>
      let _ ← advance
      return .block (← block n)
    | .mark ";" =>
      let _ ← advance
      return .block []
    | .keyword "if" =>
      let _ ← advance
      expect "("
      let c ← expression {} n
      expect ")"
      skipLines
      let yes ← statement n
      let s ← get
      skipTerminators (s.rest.length + 1)
      if ← isKeyword "else" then
        let _ ← advance
        skipLines
        return .branch c yes (some (← statement n))
      else
        set s
        return .branch c yes none
    | .keyword "while" =>
      let _ ← advance
      expect "("
      let c ← expression {} n
      expect ")"
      if ← accept ";" then return .loop c (.block [])
      skipLines
      return .loop c (← statement n)
    | .keyword "do" =>
      let _ ← advance
      skipLines
      let body ← statement n
      skipTerminators ((← get).rest.length + 1)
      unless ← isKeyword "while" do fault
      let _ ← advance
      expect "("
      let c ← expression {} n
      expect ")"
      terminate
      return .doLoop body c
    | .keyword "for" =>
      let _ ← advance
      expect "("
      match ← loopsOverArray with
      | some (v, a) =>
        skipLines
        return .forIn v a (← statement n)
      | none =>
        let first ← if ← isMark ";" then pure none else pure (some (← simple n))
        expect ";"
        skipLines
        let c ← if ← isMark ";" then pure none else pure (some (← expression {} n))
        expect ";"
        skipLines
        let step ← if ← isMark ")" then pure none else pure (some (← simple n))
        expect ")"
        if ← accept ";" then return .forLoop first c step (.block [])
        skipLines
        return .forLoop first c step (← statement n)
    | .keyword "next" =>
      let _ ← advance
      terminate
      return .next
    | .keyword "nextfile" =>
      let _ ← advance
      terminate
      return .nextFile
    | .keyword "break" =>
      let _ ← advance
      terminate
      return .break_
    | .keyword "continue" =>
      let _ ← advance
      terminate
      return .continue_
    | .keyword "exit" =>
      let _ ← advance
      let value ← optionalValue n
      terminate
      return .exit value
    | .keyword "return" =>
      let _ ← advance
      let value ← optionalValue n
      terminate
      return .returns value
    | _ =>
      let s ← simple n
      terminate
      return s

def optionalValue : Nat → Parse (Option Expression)
  | 0 => return none
  | n + 1 => do
    match ← peek with
    | .newline => return none
    | .finish => return none
    | .mark ";" => return none
    | .mark "\x7d" => return none
    | _ => return some (← expression {} n)

/-- Statements up to a closing brace. -/
def block : Nat → Parse (List Statement)
  | 0 => fault
  | n + 1 => do
    skipTerminators ((← get).rest.length + 1)
    match ← peek with
    | .mark "\x7d" =>
      let _ ← advance
      return []
    | .finish =>
      throw ("line " ++ toString ((← get).line + 1) ++ ": missing \x7d near end of file")
    | _ =>
      let s ← statement n
      return s :: (← block n)

end

/-! ## Programs -/

def parameters : Nat → Parse (List String)
  | 0 => fault
  | n + 1 => do
    match ← peek with
    | .name p =>
      let _ ← advance
      if ← accept "," then
        skipLines
        return p :: (← parameters n)
      else return [p]
    | _ => return []

def action (n : Nat) : Parse (Option Statement) := do
  if ← accept "\x7b" then return some (.block (← block n)) else return none

def items : Nat → Source → Parse Source
  | 0, p => return p
  | n + 1, p => do
    skipTerminators ((← get).rest.length + 1)
    match ← peek with
    | .finish => return p
    | .keyword "BEGIN" =>
      let _ ← advance
      match ← action n with
      | some a => items n { p with rules := p.rules.push ⟨.begin, some a⟩ }
      | none => fault
    | .keyword "END" =>
      let _ ← advance
      match ← action n with
      | some a => items n { p with rules := p.rules.push ⟨.finish, some a⟩ }
      | none => fault
    | .keyword k =>
      if k == "function" || k == "func" then
        let _ ← advance
        let name ← match ← advance with
          | .name f => pure f
          | .called f => pure f
          | _ => fault
        expect "("
        let ps ← parameters n
        expect ")"
        skipLines
        match ← action n with
        | some body =>
          items n { p with functions := p.functions ++ [⟨name, ps, body⟩] }
        | none => fault
      else if k == "getline" then
        let e ← expression {} n
        let a ← action n
        items n { p with rules := p.rules.push ⟨.when e, a⟩ }
      else fault
    | .mark "\x7b" =>
      let a ← action n
      items n { p with rules := p.rules.push ⟨.always, a⟩ }
    | _ =>
      let e ← expression {} n
      if ← accept "," then
        skipLines
        let last ← expression {} n
        let a ← action n
        items n { p with rules := p.rules.push ⟨.between e last, a⟩ }
      else
        let a ← action n
        if a.isNone then
          match ← peek with
          | .newline => pure ()
          | .finish => pure ()
          | .mark ";" => pure ()
          | _ => fault
        items n { p with rules := p.rules.push ⟨.when e, a⟩ }

def program (text : List Char) : Except String Source :=
  match (items (40 * text.length + 200) {}).run { rest := text } with
  | .ok p _ => .ok p
  | .error e _ => .error e

end Reader
end Awk
end Shell
end Unweave

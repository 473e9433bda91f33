import Unweave.Shell.Builtin.Basic

/-!
# Builtins for variables and parameters
-/

namespace Unweave
namespace Shell
namespace Builtin

open Act

/-- A variable as a command that sets it. -/
def declaration (word : String) (name : String) (v : Variable) : String :=
  word ++ (if word.isEmpty then "" else " ") ++ name ++
    (match v.value with
    | some value => "=" ++ quoted value
    | none => "") ++ "\n"

/-- Variables by name. -/
def sortedVariables : Act (List (String × Variable)) := do
  return (← process).bindings.mergeSort fun a b => !decide (b.1 < a.1)

/-- Set the variables that arguments name and mark them. -/
def mark (word : String) (shown : Variable → Bool) (marked : Variable → Variable) : Builtin :=
  fun _ as => do
    let (letters, names) ← options "p" as
    if letters.contains 'p' || names.isEmpty then
      for (name, v) in ← sortedVariables do
        if shown v then say (declaration word name v)
    else
      for a in names do
        let (name, value) := halves a
        unless isName name do fail (name ++ ": bad variable name")
        match value with
        | some value => assign name value
        | none => pure ()
        putVariable name (marked ((← lookupVariable name).getD {}))
    return 0

def exportVariables : Builtin := mark "export" (·.exported) fun v => { v with exported := true }

def fixVariables : Builtin := mark "readonly" (·.fixed) fun v => { v with fixed := true }

def unset : Builtin := fun _ as => do
  let (letters, names) ← options "vf" as
  for name in names do
    if letters.contains 'f' then
      modifyProcess fun p => { p with functions := p.functions.filter (·.1 != name) }
    else
      unless isName name do fail (name ++ ": bad variable name")
      if ((← lookupVariable name).map (·.fixed)).getD false then fail (name ++ ": is read only")
      removeVariable name
  return 0

def localVariables : Builtin := fun _ as => do
  if (← process).depth = 0 then fail "not in a function"
  for a in as do
    let (name, value) := halves a
    unless isName name do fail (name ++ ": bad variable name")
    keepVariable name
    match value with
    | some value => assign name value
    | none => pure ()
  return 0

/-! ## Options of the shell -/

def optionNames : List (String × Char) :=
  [("errexit", 'e'), ("noglob", 'f'), ("ignoreeof", 'I'), ("interactive", 'i'), ("monitor", 'm'),
    ("noexec", 'n'), ("stdin", 's'), ("xtrace", 'x'), ("verbose", 'v'), ("vi", 'V'), ("emacs", 'E'),
    ("noclobber", 'C'), ("allexport", 'a'), ("notify", 'b'), ("nounset", 'u'), ("privileged", 'p'),
    ("nolog", 'l'), ("debug", 'd')]

def optionLetters : List Char := "efIimnsxvVECabup".toList

def setFlag (on : Bool) (c : Char) : Act Unit :=
  modifyProcess fun p =>
    { p with flags := (if on then [c] else []) ++ p.flags.filter (· != c) }

/-- Tell which options are set, as a list or as commands. -/
def showOptions (on : Bool) : Act Unit := do
  let flags := (← process).flags
  if on then say "Current option settings\n"
  for (name, c) in optionNames do
    if on then say (padRight 16 name ++ (if flags.contains c then "on" else "off") ++ "\n")
    else say ("set " ++ (if flags.contains c then "-o " else "+o ") ++ name ++ "\n")

/-- Set or clear options by the letters of an argument; one of them may take the next argument. -/
def setLetters (on : Bool) : List Char → List String → Act (List String)
  | [], as => return as
  | 'o' :: cs, as => do
    match as with
    | [] =>
      showOptions on
      setLetters on cs []
    | name :: as =>
      match optionNames.lookup name with
      | some c => setFlag on c
      | none => fail ("Illegal option " ++ (if on then "-" else "+") ++ "o " ++ name)
      setLetters on cs as
  | c :: cs, as => do
    unless optionLetters.contains c do
      fail ("Illegal option " ++ (if on then "-" else "+") ++ String.singleton c)
    setFlag on c
    setLetters on cs as

/-- Options at the start of arguments: what follows them, and whether that was told apart. -/
def setOptions : Nat → List String → Act (List String × Bool)
  | 0, as => return (as, false)
  | _ + 1, [] => return ([], false)
  | n + 1, a :: as => do
    match a.toList with
    | ['-', '-'] => return (as, true)
    | ['-'] =>
      setFlag false 'x'
      setFlag false 'v'
      return (as, !as.isEmpty)
    | '-' :: cs => setOptions n (← setLetters true cs as)
    | '+' :: cs => setOptions n (← setLetters false cs as)
    | _ => return (a :: as, true)

def setShell : Builtin := fun _ as => do
  if as.isEmpty then
    for (name, v) in ← sortedVariables do
      if v.value.isSome then say (declaration "" name v)
  else
    let (parameters, given) ← setOptions (as.length + 1) as
    if given then
      modifyProcess fun p => { p with parameters, optionOffset := 0 }
  return 0

def shift : Builtin := fun _ as => do
  let n ← match as with
    | [] => pure 1
    | a :: _ => number a
  let parameters := (← process).parameters
  if n > parameters.length then fail "can\x27t shift that many"
  modifyProcess fun p => { p with parameters := p.parameters.drop n }
  return 0

/-! ## Reading lines -/

/-- A line of text: its characters with those that a backslash protects, and whether it ended. -/
def lineMarks (raw : Bool) : List Char → List Mark → List Mark × List Char × Bool
  | [], ms => (ms.reverse, [], false)
  | c :: cs, ms =>
    if c == '\n' then (ms.reverse, cs, true)
    else if c == '\\' && !raw then
      match cs with
      | [] => (ms.reverse, [], false)
      | d :: cs => lineMarks raw cs (if d == '\n' then ms else (d, true) :: ms)
    else if c == Char.ofNat 0 then lineMarks raw cs ms
    else lineMarks raw cs ((c, false) :: ms)

def isWhite (c : Char) : Bool := c == ' ' || c == '\t' || c == '\n'

/-- Whether a character is a separator, and whether it is a blank one. -/
def separates (separators : List Char) (m : Mark) : Bool := !m.2 && separators.contains m.1

def blankSeparates (separators : List Char) (m : Mark) : Bool :=
  separates separators m && isWhite m.1

/-- Pass one separator with the blanks around it. -/
def passSeparator (separators : List Char) (ms : List Mark) : List Mark :=
  let rest := ms.dropWhile (blankSeparates separators)
  match rest with
  | m :: after =>
    if separates separators m then after.dropWhile (blankSeparates separators) else rest
  | [] => []

/-- Where the text of the last variable ends: at separators that no plain character follows.  One that
is not blank counts only behind blanks, and quoted characters do not count. -/
def lastEnd (separators : List Char) : Nat → Option Nat → Bool → List Mark → Option Nat
  | _, stop, _, [] => stop
  | k, stop, blank, m :: ms =>
    if m.2 then lastEnd separators (k + 1) stop false ms
    else if blankSeparates separators m then lastEnd separators (k + 1) (stop <|> some k) blank ms
    else
      lastEnd separators (k + 1) (if separates separators m && blank then stop else none) false ms

/-- The text of the last variable: all that is left, unless that is one field. -/
def lastValue (separators : List Char) (ms : List Mark) : List Mark :=
  let field := ms.takeWhile fun m => !separates separators m
  match ms.drop field.length with
  | [] => field
  | m :: rest =>
    match lastEnd separators (field.length + 1) (some field.length) (blankSeparates separators m)
        rest with
    | some n => ms.take n
    | none => ms

/-- The values that a line gives to variables. -/
def readValues (separators : List Char) : List String → List Mark → List (String × String)
  | [], _ => []
  | [name], ms => [(name, Field.text (lastValue separators ms))]
  | name :: names, ms =>
    let field := ms.takeWhile fun m => !separates separators m
    (name, Field.text field) ::
      readValues separators names (passSeparator separators (ms.drop field.length))

/-- How much of a file is looked at first for the end of a line. -/
def window : Nat := 4096

/-- Take a line from a file, and tell where it ends. -/
def fileLine (raw : Bool) (content : ByteArray) (offset : Nat) : List Mark × Nat × Bool :=
  let part := octetsOf (content.extract offset (offset + window))
  let (ms, rest, ended) := lineMarks raw part []
  if ended || offset + window ≥ content.size then
    (ms, min (offset + window) content.size - rest.length, ended)
  else
    let (ms, rest, ended) := lineMarks raw (octetsOf (content.extract offset content.size)) []
    (ms, content.size - rest.length, ended)

/-- Take a line from a handle. -/
def takeLine (raw : Bool) (index : Nat) : Act (List Mark × Bool) := do
  match ← handle? index with
  | .file place offset appends =>
    match (← disk).at? place with
    | some (.file content) =>
      let (ms, stop, ended) := fileLine raw content offset
      setHandle index (.file place (max offset stop) appends)
      return (ms, ended)
    | _ => return ([], false)
  | _ =>
    let s ← contentOfHandle index
    let (ms, rest, ended) := lineMarks raw s.seen []
    if !ended && s.isEndless then throw .stuck
    leave index { s with text := if s.forever.isEmpty then rest else s.text.drop (ms.length + 1) }
    return (ms, ended)

def read : Builtin := fun _ as => do
  let (letters, as) ← options "rp" as
  let names := if letters.contains 'p' then as.drop 1 else as
  if names.isEmpty then fail "arg count"
  for name in names do
    unless isName name do fail (name ++ ": bad variable name")
  let some index ← handleOf? 0 | return 1
  let (ms, ended) ← takeLine (letters.contains 'r') index
  let separators ← separators
  for (name, value) in readValues separators names (ms.dropWhile (blankSeparates separators)) do
    assign name value
  return if ended then 0 else 1

/-! ## Options of scripts -/

/-- Tell of a wrong option. -/
def wrongOption (quiet : Bool) (variable_ : String) (c : Char) (sign message : String) :
    Act Unit := do
  if quiet then
    assign "OPTARG" (String.singleton c)
    assign variable_ sign
  else
    putError (message ++ "\n")
    removeVariable "OPTARG"
    assign variable_ "?"

/-- Set the number of the next argument, and how far it is read. -/
def setOptionIndex (index offset : Nat) : Act Unit := do
  assign "OPTIND" (toString index)
  modifyProcess fun p => { p with optionOffset := offset }

def getopts : Builtin := fun _ as => do
  match as with
  | letters :: variable_ :: words =>
    let p ← process
    let words := if words.isEmpty then p.parameters else words
    let next := ((← valueOf? "OPTIND").bind natural?).getD 1
    let index := if p.optionOffset > 0 then next - 1 else next
    let quiet := letters.startsWith ":"
    let finished := do
      setOptionIndex index 0
      assign variable_ "?"
      return (1 : Nat)
    match (words[index - 1]?).map String.toList with
    | some ('-' :: c :: cs) =>
      if c == '-' && cs.isEmpty then
        setOptionIndex (index + 1) 0
        assign variable_ "?"
        return 1
      let offset := max p.optionOffset 1
      match ('-' :: c :: cs).drop offset with
      | [] => finished
      | x :: rest =>
        let offset := if rest.isEmpty then 0 else offset + 1
        match letters.toList.dropWhile (· != x) with
        | _ :: after =>
          if x == ':' then
            wrongOption quiet variable_ x "?" ("Illegal option -" ++ String.singleton x)
            setOptionIndex (index + 1) offset
          else if after.head? == some ':' then
            if rest.isEmpty then
              match words[index]? with
              | some value =>
                assign "OPTARG" value
                assign variable_ (String.singleton x)
                setOptionIndex (index + 2) 0
              | none =>
                wrongOption quiet variable_ x ":" ("No arg for -" ++ String.singleton x ++ " option")
                setOptionIndex (index + 1) 0
            else
              assign "OPTARG" (String.ofList rest)
              assign variable_ (String.singleton x)
              setOptionIndex (index + 1) 0
          else
            assign "OPTARG" ""
            assign variable_ (String.singleton x)
            setOptionIndex (index + 1) offset
        | [] =>
          wrongOption quiet variable_ x "?" ("Illegal option -" ++ String.singleton x)
          setOptionIndex (index + 1) offset
        return 0
    | _ => finished
  | _ => fail "Usage: getopts optstring var [arg...]"

end Builtin
end Shell
end Unweave

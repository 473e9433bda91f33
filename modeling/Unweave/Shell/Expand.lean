import Unweave.Shell.Arithmetic
import Unweave.Shell.Fields

/-!
# Words and their values

Parameters, outputs of commands and expressions in a word are replaced by their values.
-/

namespace Unweave
namespace Shell
namespace Act

/-! ## Processes that run commands -/

/-- Tell of a process that a signal ended. -/
def report (e : Ending) : Act Unit := do
  match e with
  | .signal n => unless (Signal.message n).isEmpty do putError (Signal.message n ++ "\n")
  | .status _ => pure ()

/-- Do what was asked for the end of the process.  The status stays unless that ends it again. -/
def exitTrap (r : Runner) : Act Unit := do
  match (← process).traps.lookup 0 with
  | none => pure ()
  | some text =>
    modifyProcess fun p => { p with traps := p.traps.filter (·.1 != 0), command := none }
    let before ← status
    r.script text
    setStatus before

/-- Run something to the end of a process. -/
def finish (r : Runner) (act : Act Unit) : Act Unit := do
  try act
  catch i =>
    match i with
    | .stuck => throw .stuck
    | .killed n => throw (.killed n)
    | _ => pure ()
  exitTrap r

/-- Run a command in a process of its own. -/
def subshell (r : Runner) (act : Act Unit) : Act Ending := fork (finish r act)

/-- What a command prints, without the line ends at its end. -/
def capture (r : Runner) (c : Command) : Act (List Char) := do
  let index ← newHandle (.pipe {} [])
  let e ← subshell r do
    connect 1 index
    r.run { last := true } c
  report e
  let s ← contentOfHandle index
  setHandle index .null
  if s.isEndless then throw .stuck
  modifyProcess fun p => { p with taken := some e.code }
  let kept := s.text.filter (· != Char.ofNat 0)
  return (kept.reverse.dropWhile (· == '\n')).reverse

end Act

namespace Expand

open Act

/-- The letters of options in the order they are shown. -/
def flagLetters : List Char := "ubaCEVvxsnmiIfe".toList

/-- What stands between parameters that are joined. -/
def between : Act (List Char) := do
  return (← separators).take 1

/-- The value of a parameter other than all of them. -/
def parameter? (name : String) : Act (Option String) := do
  let p ← process
  match name with
  | "?" => return some (toString p.status)
  | "$" => return some (toString p.shell)
  | "!" => return p.background.map toString
  | "#" => return some (toString p.parameters.length)
  | "-" => return some (String.ofList (flagLetters.filter p.flags.contains))
  | "0" => return some p.name
  | _ =>
    match natural? name with
    | some n => return if n = 0 then some p.name else p.parameters[n - 1]?
    | none => valueOf? name

def isAll (name : String) : Bool := name == "@" || name == "*"

/-- All parameters as pieces, with the places between them. -/
def allPieces (quoted : Bool) : List String → List Piece
  | [] => []
  | [p] => [.text p.toList quoted (!quoted)]
  | p :: ps => .text p.toList quoted (!quoted) :: .gap :: allPieces quoted ps

/-- The value of a parameter, which has to be set if that is asked for. -/
def plain (name : String) (quoted : Bool) : Act (List Piece) := do
  let parameters := (← process).parameters
  if name == "@" then
    return if quoted && parameters.isEmpty then [.nothing] else allPieces quoted parameters
  else if name == "*" then
    if quoted then
      let mid := String.ofList (← between)
      return [.text (mid.intercalate parameters).toList true false]
    else return allPieces false parameters
  else
    match ← parameter? name with
    | some v => return [.text v.toList quoted (!quoted)]
    | none =>
      if ← hasFlag 'u' then fail (name ++ ": parameter not set")
      return [.text [] quoted (!quoted)]

/-- A parameter as one text, if it is set. -/
def joined? (name : String) : Act (Option String) := do
  if isAll name then
    let mid := String.ofList (← between)
    return some ((if name == "*" then mid else " ").intercalate (← process).parameters)
  else parameter? name

/-- The text of pieces that stay together. -/
def textOf (ps : List Piece) : Act String := do
  return (Fields.marks (← between) ps).text

/-- Set a parameter that is a variable. -/
def assignParameter (name value : String) : Act Unit := do
  unless isName name do fail (name ++ ": bad variable name")
  assign name value

/-- The value of a parameter after its form. -/
def valuePieces (r : Runner) (name : String) (form : Form) (quoted : Bool) : Act (List Piece) := do
  match form with
  | .plain => plain name quoted
  | .length =>
    let some v ← joined? name
      | if ← hasFlag 'u' then fail (name ++ ": parameter not set")
        return [.text ['0'] quoted (!quoted)]
    return [.text (toString v.length).toList quoted (!quoted)]
  | .fallback kind orEmpty word =>
    let v ← joined? name
    let good := match v with
      | none => false
      | some v => !orEmpty || !v.isEmpty
    match kind with
    | .use => if good then plain name quoted else r.pieces (!quoted) word
    | .replace => if good then r.pieces (!quoted) word else return [.text [] quoted false]
    | .assign =>
      if good then plain name quoted
      else
        let value ← textOf (← r.pieces false word)
        assignParameter name value
        return [.text value.toList quoted (!quoted)]
    | .fail =>
      if good then plain name quoted
      else
        let message ← textOf (← r.pieces false word)
        fail (name ++ ": " ++
          if !word.isEmpty then message
          else if orEmpty then "parameter not set or null" else "parameter not set")
  | .trim atEnd longest word =>
    let marks := Fields.marks (← between) (← r.pieces false word)
    match ← joined? name with
    | none =>
      if ← hasFlag 'u' then fail (name ++ ": parameter not set")
      return [.text [] quoted (!quoted)]
    | some v =>
      return [.text (Pattern.trim (Pattern.ofMarks marks) atEnd longest v.toList) quoted (!quoted)]
  | .malformed _ => fail "Bad substitution"

/-- The value of an expression, whose assignments are done. -/
def arithmetic (text : String) : Act Int := do
  let p ← process
  let lookup := fun (name : String) => (p.bindings.lookup name).bind (·.value)
  match evaluate lookup text with
  | .error message => fail message
  | .ok (value, changes) =>
    changes.forM fun (name, v) => assign name (toString v)
    return value

/-- The pieces of a part of a word. -/
def partPieces (r : Runner) (nested : Bool) : Part → Act (List Piece)
  | .literal text quoted => return [.text text.toList quoted (nested && !quoted)]
  | .value name form quoted => valuePieces r name form quoted
  | .output body quoted => do return [.text (← capture r body) quoted (!quoted)]
  | .number expression quoted => do
    let value ← arithmetic (← textOf (← r.pieces false expression))
    return [.text (toString value).toList quoted (!quoted)]

def pieces (r : Runner) (nested : Bool) (w : Word) : Act (List Piece) := do
  let parts ← w.mapM (partPieces r nested)
  return parts.flatten

/-! ## Home directories -/

/-- The directory that a tilde with a name stands for. -/
def home? (user : String) : Act (Option String) := do
  if user.isEmpty then valueOf? "HOME"
  else return if user == "root" then some "/root" else none

/-- A text with the tilde at its start replaced; the text goes on if more of the word follows. -/
def tildeText (goesOn : Bool) (text : String) : Act (Option (String × String)) := do
  match text.toList with
  | '~' :: cs =>
    let user := cs.takeWhile (· != '/')
    let rest := cs.drop user.length
    if rest.isEmpty && goesOn then return none
    match ← home? (String.ofList user) with
    | some h => return some (h, String.ofList rest)
    | none => return none
  | _ => return none

/-- Replace the tilde at the start of a word. -/
def tilde (w : Word) : Act Word := do
  match w with
  | .literal text false :: parts =>
    match ← tildeText (!parts.isEmpty) text with
    | some (h, rest) => return .literal h true :: .literal rest false :: parts
    | none => return w
  | _ => return w

/-- The texts of a value between its colons, with tildes replaced. -/
def tildeAfterColons (goesOn : Bool) : List String → Act (List Part)
  | [] => return []
  | [text] => do
    match ← tildeText goesOn text with
    | some (h, rest) => return [.literal h true, .literal rest false]
    | none => return [.literal text false]
  | text :: texts => do
    let more ← tildeAfterColons goesOn texts
    match ← tildeText false text with
    | some (h, rest) => return .literal h true :: .literal (rest ++ ":") false :: more
    | none => return .literal (text ++ ":") false :: more

/-- Replace the tildes of a value that is assigned. -/
def assignedTilde (w : Word) : Act Word := do
  match w with
  | .literal text false :: parts =>
    if text.toList.contains '~' then
      return (← tildeAfterColons (!parts.isEmpty) (text.splitOn ":")) ++ parts
    else return w
  | _ => return w

/-! ## Whole words -/

/-- The fields that a word stands for. -/
def fields (r : Runner) (w : Word) : Act (List String) := do
  match plainText? w with
  | some text =>
    if !(text.startsWith "~" || Pattern.isActive (text.toList.map (·, false))) then return [text]
  | none => pure ()
  let ps ← r.pieces false (← tilde w)
  let fs := Fields.ofPieces (← separators) ps
  if ← hasFlag 'f' then return fs.map Field.text
  let d ← disk
  return fs.flatMap (Fields.paths d)

def allFields (r : Runner) (ws : List Word) : Act (List String) := do
  let fs ← ws.mapM (fields r)
  return fs.flatten

/-- A word as one text. -/
def single (r : Runner) (w : Word) : Act String := do
  textOf (← r.pieces false (← tilde w))

/-- A value that is assigned. -/
def assigned (r : Runner) (w : Word) : Act String := do
  textOf (← r.pieces false (← assignedTilde w))

/-- A word as a pattern. -/
def pattern (r : Runner) (w : Word) : Act (List Pattern.Item) := do
  let ps ← r.pieces false (← tilde w)
  return Pattern.ofMarks (Fields.marks (← between) ps)

end Expand
end Shell
end Unweave

import Unweave.Shell.Machine

/-!
# Fields

The pieces of a word become fields: text that may be split is cut at separators, of which blanks
only count between other text, and what is quoted is kept together.  A field that is a pattern
stands for the paths that it matches, if there are any.
-/

namespace Unweave
namespace Shell

/-- The text of a field with what was quoted. -/
abbrev Field : Type := List Mark

def Field.text (f : Field) : String := String.ofList (f.map (·.1))

namespace Fields

/-- What was last passed on the way through pieces. -/
inductive Passed where
  | start
  | blank
  | separator

/-- Fields so far, the last first, with the open one held in reverse if there is one. -/
structure State where
  done : List Field := []
  current : Option Field := none
  passed : Passed := .start

def State.close (s : State) : State :=
  match s.current with
  | none => s
  | some f => { s with done := f.reverse :: s.done, current := none }

def State.push (s : State) (c : Char) (quoted : Bool) : State :=
  { s with current := some ((c, quoted) :: s.current.getD []) }

/-- A separator: blanks end a field, and any other ends one even if it is empty. -/
def State.separate (s : State) (c : Char) : State :=
  if c == ' ' || c == '\t' || c == '\n' then
    match s.current with
    | some _ => { s.close with passed := .blank }
    | none => s
  else
    match s.current, s.passed with
    | some _, _ => { s.close with passed := .separator }
    | none, .blank => { s with passed := .separator }
    | none, _ => { s with done := [] :: s.done, passed := .separator }

def State.add (separators : List Char) (s : State) : Piece → State
  | .text cs quoted split =>
    let s := if quoted && s.current.isNone then { s with current := some [] } else s
    cs.foldl (fun s c => if split && separators.contains c then s.separate c else s.push c quoted) s
  | .gap => { s.close with passed := .start }
  | .nothing =>
    match s.current with
    | some [] => { s with current := none }
    | _ => s

/-- The fields of a word. -/
def ofPieces (separators : List Char) (ps : List Piece) : List Field :=
  (ps.foldl (State.add separators) {}).close.done.reverse

/-- The text of pieces that stay together, with what stands between parameters. -/
def marks (between : List Char) (ps : List Piece) : Field :=
  ps.flatMap fun
    | .text cs quoted _ => cs.map (·, quoted)
    | .gap => between.map (·, true)
    | .nothing => []

/-! ## Paths that patterns match -/

/-- Cut at slashes. -/
def components : Field → List Field
  | [] => [[]]
  | m :: ms =>
    match components ms with
    | [] => [[m]]
    | c :: cs => if m.1 == '/' then [] :: c :: cs else (m :: c) :: cs

/-- The names in a directory that a pattern matches.  A dot at the start has to be asked for. -/
def namesIn (d : Disk) (l : Location) (f : Field) : List String :=
  let p := Pattern.ofMarks f
  let hidden := match f with
    | (c, _) :: _ => c == '.'
    | [] => false
  let names := (d.children l).map octets ++ if hidden then [".", ".."] else []
  names.filter fun n => Pattern.covers p n.toList && (hidden || !n.startsWith ".")

/-- The paths that the parts of a pattern match, after a start that is known. -/
def matchFrom (d : Disk) : String → List Field → List String
  | start, [] => if d.pathExists (readable start) then [start] else []
  | start, [f] =>
    if Pattern.isActive f then
      match d.find (if start.isEmpty then "." else readable start) with
      | .ok (l, .directory) => (namesIn d l f).map (start ++ ·)
      | _ => []
    else
      let path := start ++ f.text
      if d.pathExists (readable path) then [path] else []
  | start, f :: fs =>
    if Pattern.isActive f then
      match d.find (if start.isEmpty then "." else readable start) with
      | .ok (l, .directory) =>
        (namesIn d l f).flatMap fun n =>
          if d.isDirectory (readable (start ++ n)) then matchFrom d (start ++ n ++ "/") fs else []
      | _ => []
    else matchFrom d (start ++ f.text ++ "/") fs

/-- The paths that a field stands for. -/
def paths (d : Disk) (f : Field) : List String :=
  if Pattern.isActive f then
    match matchFrom d "" (components f) with
    | [] => [f.text]
    | found => found.mergeSort fun a b => !decide (b < a)
  else [f.text]

end Fields
end Shell
end Unweave

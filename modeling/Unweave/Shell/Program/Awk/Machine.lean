import Std.Data.HashMap
import Unweave.Shell.Program.Basic
import Unweave.Shell.Program.Awk.Reader

/-!
# The state of a running program

Variables, arrays, the current record with its fields, and the files and commands that are read from
and written to.
-/

namespace Unweave
namespace Shell
namespace Awk

/-- An array: each element with when it was made. -/
structure Table where
  entries : Std.HashMap String (Nat × Value) := {}
  made : Nat := 0

namespace Table

def get? (t : Table) (key : String) : Option Value := (t.entries[key]?).map (·.2)

def insert (t : Table) (key : String) (v : Value) : Table :=
  match t.entries[key]? with
  | some (k, _) => { t with entries := t.entries.insert key (k, v) }
  | none => { entries := t.entries.insert key (t.made, v), made := t.made + 1 }

def erase (t : Table) (key : String) : Table := { t with entries := t.entries.erase key }

def size (t : Table) : Nat := t.entries.size

/-- A hash of a text's bytes in thirty-two bits. -/
def hash (s : String) : Nat :=
  s.toList.foldl (fun h c => (h ^^^ c.toNat) * 16777619 % 4294967296) 2166136261

/-- How many lists the elements are kept in: more of them as there are more elements. -/
def lists (size : Nat) : Nat → Nat → Nat
  | 0, n => n
  | k + 1, n => if size > 2 * n then lists size k (2 * n) else n

/-- The keys in the order in which a loop meets them: by their lists, later ones first. -/
def keys (t : Table) : List String :=
  let n := lists t.size 32 64
  let all := t.entries.toList.map fun (key, (made, _)) => (hash key % n, made, key)
  let sorted := all.mergeSort fun a b => a.1 < b.1 || (a.1 == b.1 && a.2.1 ≥ b.2.1)
  sorted.map (·.2.2)

end Table

/-- What a parameter of a function stands for. -/
inductive Binding where
  | scalar (v : Value)
  | array (id : Nat)

/-- How a run of statements ends early. -/
inductive Signal where
  | next
  | nextFile
  | exit
  | returns (v : Value)
  | break_
  | continue_
  | stop (s : Stop)

/-- A text that records are read from. -/
structure Intake where
  text : List Char
  /-- Whether more would follow without end. -/
  endless : Bool := false

structure Output where
  outlet : Outlet
  /-- What was written, reversed. -/
  text : List Char := []

structure Machine where
  work : Work
  globals : Std.HashMap String Value := {}
  arrays : Std.HashMap Nat Table := {}
  /-- The arrays that names stand for. -/
  named : Std.HashMap String Nat := {}
  nextArray : Nat := 1
  frame : List (String × Binding) := []
  record : String := ""
  fields : Array Value := #[]
  /-- Operands that are still to be read. -/
  operands : List String := []
  /-- Whether any operand named a file. -/
  opened : Bool := false
  input : Option Intake := none
  intakes : List (String × Intake) := []
  outputs : List (String × Output) := []
  /-- What is printed and not yet given out, reversed. -/
  pending : List Char := []
  status : Nat := 0
  /-- Ranges of rules that have started. -/
  active : List Nat := []
  functions : List Function := []
  /-- Which parameters of functions are arrays. -/
  arrayParameters : List (String × List Bool) := []

abbrev Run : Type → Type := EStateM Signal Machine

def liftJob {α : Type} (j : Job α) : Run α := do
  let m ← get
  match j.run m.work with
  | .ok a w =>
    set { m with work := w }
    return a
  | .error e w =>
    set { m with work := w }
    throw (.stop e)

/-! ## Output -/

def emit (cs : List Char) : Run Unit := modify fun m => { m with pending := cs.reverse ++ m.pending }

/-- Give out what is printed. -/
def flush : Run Unit := do
  let m ← get
  set { m with pending := [] }
  liftJob (Program.put m.pending.reverse)

/-! ## Variables -/

def global (name : String) : Run Value := do
  return ((← get).globals[name]?).getD .unset

def setGlobal (name : String) (v : Value) : Run Unit :=
  modify fun m => { m with globals := m.globals.insert name v }

def converting : Run String := do
  match (← get).globals["CONVFMT"]? with
  | some v => return v.toText "%.6g"
  | none => return "%.6g"

def textOf (v : Value) : Run String := do
  return v.toText (← converting)

/-- A variable of the program itself, as text. -/
def setting (name : String) : Run String := do
  textOf (← global name)

/-- A fault while running. -/
def fail {α : Type} (message : String) : Run α := do
  let file ← setting "FILENAME"
  let fnr ← setting "FNR"
  let nr ← setting "NR"
  flush
  liftJob (do
    Program.putError ((← get).name ++ ": run time error: " ++ message ++ "\n\tFILENAME=\"" ++ file ++
      "\" FNR=" ++ fnr ++ " NR=" ++ nr ++ "\n")
    Program.quit 2)

/-- A fault that is told without where it is. -/
def failPlain {α : Type} (message : String) : Run α := do
  flush
  liftJob (Program.failWith 2 message)

/-! ## Arrays -/

/-- The array that a name stands for; a new one if it stands for none. -/
def arrayId (name : String) : Run Nat := do
  let m ← get
  match m.frame.lookup name with
  | some (.array id) => return id
  | some (.scalar _) => fail ("illegal reference to variable " ++ name)
  | none =>
    match m.named[name]? with
    | some id => return id
    | none =>
      set { m with named := m.named.insert name m.nextArray, nextArray := m.nextArray + 1 }
      return m.nextArray

def table (id : Nat) : Run Table := do
  return ((← get).arrays[id]?).getD {}

def setTable (id : Nat) (t : Table) : Run Unit :=
  modify fun m => { m with arrays := m.arrays.insert id t }

/-! ## Fields -/

/-- Matches that are not empty. -/
def separators (m : Matcher) (text : Array Char) : List Match :=
  (m.all text).filter fun r => r.stop > r.start

def piecesBetween (text : Array Char) : Nat → List Match → List String
  | i, [] => [String.ofList (Matcher.between text i text.size)]
  | i, r :: rs => String.ofList (Matcher.between text i r.start) :: piecesBetween text r.stop rs

def splitBlanks (cs : List Char) : List String :=
  (cs.foldr (fun c (acc : List (List Char)) =>
    if isSpaceByte c then [] :: acc
    else
      match acc with
      | w :: ws => (c :: w) :: ws
      | [] => [[c]]) [[]]).filterMap fun w => if w.isEmpty then none else some (String.ofList w)

def splitChar (s : Char) (cs : List Char) : List String :=
  let (last, done) := cs.foldl
    (fun (acc : List Char × List String) c =>
      if c == s then ([], String.ofList acc.1.reverse :: acc.2) else (c :: acc.1, acc.2)) ([], [])
  (String.ofList last.reverse :: done).reverse

/-- The fields of a text by a separator; a feed may separate too. -/
def fieldsOf (separator : String) (lines : Bool) (text : String) : Except String (List String) :=
  if text.isEmpty then .ok []
  else
    match separator.toList with
    | [' '] => .ok (splitBlanks text.toList)
    | [] => .ok (text.toList.map String.singleton)
    | [c] =>
      if lines && c != '\n' then
        .ok ((splitChar '\n' text.toList).flatMap fun l => splitChar c l.toList)
      else .ok (splitChar c text.toList)
    | cs =>
      match Regex.compile Reader.regexDialect false (if lines then cs ++ ['|', '\n'] else cs) with
      | .ok m =>
        let subject := text.toList.toArray
        .ok (piecesBetween subject 0 (separators m subject))
      | .error e => .error e

def setRecord (text : String) : Run Unit := do
  let fs ← setting "FS"
  let rs ← setting "RS"
  match fieldsOf fs rs.isEmpty text with
  | .ok fields => modify fun m => { m with record := text, fields := (fields.map ofOutside).toArray }
  | .error e => fail ("regular expression compile failed (" ++ e ++ ")")

/-- Make the record from its fields. -/
def rebuild : Run Unit := do
  let ofs ← setting "OFS"
  let format ← converting
  modify fun m => { m with record := ofs.intercalate (m.fields.toList.map (Value.toText format)) }

def fieldIndex (v : Value) : Run Nat := do
  let x := v.toNumber
  if x < 0.0 then fail ("negative field index $" ++ numberText "%.6g" x)
  else return (truncated x).toNat

def getField (i : Nat) : Run Value := do
  let m ← get
  if i = 0 then return ofOutside m.record else return (m.fields[i - 1]?).getD .unset

def setField (i : Nat) (v : Value) : Run Unit := do
  if i = 0 then setRecord (← textOf v)
  else
    modify fun m =>
      let missing := i - m.fields.size
      let fields := m.fields ++ Array.replicate missing (Value.text "")
      { m with fields := fields.set! (i - 1) v }
    rebuild

def setFieldCount (n : Nat) : Run Unit := do
  modify fun m =>
    { m with fields := (m.fields ++ Array.replicate (n - m.fields.size) (Value.text "")).extract 0 n }
  rebuild

/-! ## Reading variables -/

def getVariable (name : String) : Run Value := do
  let m ← get
  match m.frame.lookup name with
  | some (.scalar v) => return v
  | some (.array _) => fail ("illegal reference to array " ++ name)
  | none => if name == "NF" then return .ofNat m.fields.size else global name

def setLocal (name : String) (v : Value) : List (String × Binding) → List (String × Binding)
  | [] => []
  | (k, b) :: rest => if k == name then (k, .scalar v) :: rest else (k, b) :: setLocal name v rest

def setVariable (name : String) (v : Value) : Run Unit := do
  let m ← get
  match m.frame.lookup name with
  | some _ => set { m with frame := setLocal name v m.frame }
  | none => if name == "NF" then setFieldCount (truncated v.toNumber).toNat else setGlobal name v

/-! ## Records -/

/-- A record that ends at an empty line, and what follows the empty lines. -/
def cutParagraph : List Char → List Char → List Char × List Char
  | out, '\n' :: '\n' :: rest => (out.reverse, rest.dropWhile (· == '\n'))
  | out, ['\n'] => (out.reverse, [])
  | out, c :: rest => cutParagraph (c :: out) rest
  | out, [] => (out.reverse, [])

/-- The next record of a text by a separator, and what follows it. -/
def cutRecord (separator : String) (text : List Char) : Except String (Option (List Char × List Char)) :=
  match separator.toList with
  | [] =>
    let body := text.dropWhile (· == '\n')
    .ok (if body.isEmpty then none else some (cutParagraph [] body))
  | [c] =>
    if text.isEmpty then .ok none
    else
      let record := text.takeWhile (· != c)
      .ok (some (record, text.drop (record.length + 1)))
  | cs =>
    if text.isEmpty then .ok none
    else
      match Regex.compile Reader.regexDialect false cs with
      | .error e => .error e
      | .ok m =>
        let subject := text.toArray
        match m.search? subject with
        | some r =>
          if r.stop > r.start then
            .ok (some (Matcher.between subject 0 r.start, text.drop r.stop))
          else .ok (some (text, []))
        | none => .ok (some (text, []))

/-- Read a record from an intake. -/
def readFrom (i : Intake) : Run (Option (String × Intake)) := do
  match cutRecord (← setting "RS") i.text with
  | .error e => fail ("regular expression compile failed (" ++ e ++ ")")
  | .ok (some (record, rest)) => return some (String.ofList record, { i with text := rest })
  | .ok none => if i.endless then throw (.stop .stuck) else return none

/-- Set a variable from an operand or an option. -/
def assignOutside (name value : String) : Run Unit := do
  let (cs, _) := (Reader.stringText (value.length + 2) [] (value.toList ++ ['"'])).getD
    (value.toList.reverse, [])
  setVariable name (ofOutside (String.ofList cs.reverse))

/-- An operand that sets a variable. -/
def assignment? (operand : String) : Option (String × String) :=
  let name := operand.toList.takeWhile (· != '=')
  match operand.toList.drop name.length with
  | _ :: value =>
    if isName (String.ofList name) then some (String.ofList name, String.ofList value) else none
  | [] => none

/-- Open the next operand that names a file. -/
def openNext : Nat → Run (Option Intake)
  | 0 => return none
  | n + 1 => do
    let m ← get
    match m.operands with
    | [] =>
      if m.opened then return none
      else
        set { m with opened := true }
        setGlobal "FILENAME" (.text "-")
        setGlobal "FNR" (.number 0.0)
        let s ← liftJob Program.takeInput
        return some { text := s.seen, endless := s.isEndless }
    | path :: rest =>
      set { m with operands := rest }
      match assignment? path with
      | some (name, value) =>
        assignOutside name value
        openNext n
      | none =>
        if path.isEmpty then openNext n
        else
          modify fun m => { m with opened := true }
          setGlobal "FILENAME" (.text path)
          setGlobal "FNR" (.number 0.0)
          match ← liftJob (Program.openOperand path) with
          | .ok s => return some { text := s.seen, endless := s.isEndless }
          | .error .isDirectory => openNext n
          | .error e => failPlain ("cannot open \"" ++ path ++ "\" (" ++ e.reason ++ ")")

/-- The next record of the operands. -/
def readRecord : Nat → Run (Option String)
  | 0 => return none
  | n + 1 => do
    let m ← get
    let opened ← match m.input with
      | some i => pure (some i)
      | none => openNext (m.operands.length + 2)
    match opened with
    | none => return none
    | some i =>
      match ← readFrom i with
      | some (record, rest) =>
        modify fun m => { m with input := some rest }
        return some record
      | none =>
        modify fun m => { m with input := none }
        readRecord n

/-- Count a record that was read. -/
def countRecord (own : Bool) : Run Unit := do
  setGlobal "NR" (.number ((← global "NR").toNumber + 1.0))
  if own then setGlobal "FNR" (.number ((← global "FNR").toNumber + 1.0))

/-! ## Files and commands -/

def environment : Run (List (String × String)) := do
  return (← get).work.environment

def runCommand (command : String) (input : Stream) : Run Nat := do
  let env ← environment
  return (← liftJob (Program.startOther ["sh", "-c", command] env input)).toOption.getD 127

/-- Give out what was written to a file or command. -/
def closeOutput (name : String) (o : Output) : Run Nat := do
  let text := o.text.reverse
  match o.outlet with
  | .command => runCommand name { text }
  | outlet => liftJob do
    let path := readable name
    let d ← Program.disk
    let old := match d.readBytes path with
      | .ok content => if outlet == .append then content else .empty
      | .error _ => .empty
    match d.writeBytes path (old ++ contentOf text) with
    | .ok d =>
      Program.setDisk d
      return 0
    | .error e =>
      Program.failWith 2 ("cannot open \"" ++ name ++ "\" for output (" ++ e.reason ++ ")")

/-- Write to a file or command, which is opened if it is not. -/
def writeTo (outlet : Outlet) (name : String) (cs : List Char) : Run Unit := do
  if outlet != .command && (name == "/dev/stdout" || name == "-") then emit cs
  else if outlet != .command && name == "/dev/stderr" then
    liftJob (Program.putError (String.ofList cs))
  else
    match (← get).outputs.lookup name with
    | some o =>
      modify fun m =>
        { m with outputs := m.outputs.map fun (k, x) =>
            if k == name then (k, { o with text := cs.reverse ++ o.text }) else (k, x) }
    | none =>
      if outlet == .command then flush
      else
        match (← get).work.disk.locateFile (readable name) with
        | .error e => failPlain ("cannot open \"" ++ name ++ "\" for output (" ++ e.reason ++ ")")
        | .ok l =>
          match (← get).work.disk.at? l with
          | some .directory => failPlain ("cannot open \"" ++ name ++ "\" for output (Is a directory)")
          | _ => pure ()
      modify fun m =>
        { m with outputs := m.outputs ++ [(name, { outlet, text := cs.reverse : Output })] }

/-- Close a file or command; negative if it is not open. -/
def closeNamed (name : String) : Run Float := do
  let m ← get
  match m.outputs.lookup name with
  | some o =>
    set { m with outputs := m.outputs.filter (·.1 != name) }
    return Float.ofNat (← closeOutput name o)
  | none =>
    if (m.intakes.lookup name).isSome then
      set { m with intakes := m.intakes.filter (·.1 != name) }
      return 0.0
    else return -1.0

/-- Close everything at the end. -/
def closeAll : Run Unit := do
  let outputs := (← get).outputs
  modify fun m => { m with outputs := [] }
  for (name, o) in outputs do
    let _ ← closeOutput name o
  flush

/-- The intake of a file or command; nothing if there is no such file. -/
def intake (origin : Origin) (name : String) : Run (Option Intake) := do
  match (← get).intakes.lookup name with
  | some i => return some i
  | none =>
    if origin == .command then
      flush
      let env ← environment
      let (s, _) ← liftJob (Program.captureOther ["sh", "-c", name] env {})
      return some { text := s.seen, endless := s.isEndless }
    else
      match ← liftJob (Program.openOperand name) with
      | .ok s => return some { text := s.seen, endless := s.isEndless }
      | .error _ => return none

def keepIntake (name : String) (i : Intake) : Run Unit :=
  modify fun m => { m with intakes := (name, i) :: m.intakes.filter (·.1 != name) }

end Awk
end Shell
end Unweave

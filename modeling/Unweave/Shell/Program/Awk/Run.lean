import Unweave.Shell.Program.Awk.Machine

/-!
# Running programs of patterns and actions
-/

namespace Unweave
namespace Shell
namespace Awk

/-! ## Formatted text -/

structure Formatting where
  arguments : List Value
  out : List Char := []
  /-- Whether arguments were asked for that are not there. -/
  short : Bool := false

namespace Formatting

def next (f : Formatting) : Value × Formatting :=
  match f.arguments with
  | v :: vs => (v, { f with arguments := vs })
  | [] => (.unset, { f with short := true })

def extent (f : Formatting) : Extent → Option Int × Formatting
  | .argument =>
    let (v, f) := f.next
    (some (truncated v.toNumber), f)
  | _ => (none, f)

def emit (f : Formatting) (cs : List Char) : Formatting := { f with out := cs.reverse ++ f.out }

def convert (format : String) (c : Conversion) (source : List Char) (f : Formatting) : Formatting :=
  let (width, f) := f.extent c.width
  let (precision, f) := f.extent c.precision
  let s := Spec.ofConversion c width precision
  let k := c.letter
  if k == 's' then
    let (v, f) := f.next
    if f.short then f else f.emit (s.text (v.toText format)).toList
  else if k == 'c' then
    let (v, f) := f.next
    let shown := match v with
      | .number x => String.singleton (Char.ofNat ((truncated x) % 256).toNat)
      | .either _ x => String.singleton (Char.ofNat ((truncated x) % 256).toNat)
      | v =>
        match (v.toText format).toList with
        | c :: _ => String.singleton c
        | [] => String.singleton (Char.ofNat 0)
    if f.short then f else f.emit ({ s with precision := none }.text shown).toList
  else if k == 'd' || k == 'i' then
    let (v, f) := f.next
    if f.short then f else f.emit (s.integer (truncated v.toNumber)).toList
  else if k == 'o' || k == 'u' || k == 'x' || k == 'X' then
    let (v, f) := f.next
    if f.short then f
    else f.emit (s.unsigned k (UInt64.ofInt (truncated v.toNumber)).toNat).toList
  else if ['e', 'E', 'f', 'F', 'g', 'G'].contains k then
    let (v, f) := f.next
    if f.short then f else f.emit (s.real k (Real.ofFloat v.toNumber)).toList
  else f.emit source

def run (format : String) : Nat → List Char → Formatting → Formatting
  | 0, _, f => f
  | _ + 1, [], f => f
  | n + 1, '%' :: '%' :: cs, f => run format n cs (f.emit ['%'])
  | n + 1, '%' :: cs, f =>
    let (c, rest) := Conversion.parse cs
    let rest := rest.dropWhile fun x => x == 'l' || x == 'h'
    match rest with
    | [] => f.emit ('%' :: cs)
    | k :: rest =>
      let source := '%' :: cs.take (cs.length - rest.length)
      let f := convert format { c with letter := k } source f
      if f.short then f else run format n rest f
  | n + 1, c :: cs, f => run format n cs (f.emit [c])

end Formatting

/-- The text of a format with its arguments. -/
def formatted (name format : String) (arguments : List Value) (partly : List Char → Run Unit) :
    Run (List Char) := do
  let f := Formatting.run (← converting) (format.length + 1) format.toList { arguments }
  if f.short then
    partly f.out.reverse
    fail ("not enough arguments passed to " ++ name ++ "(\"" ++ format ++ "\")")
  else return f.out.reverse

/-! ## Replacing -/

/-- The text that replaces a match: an ampersand is the match, unless a backslash protects it. -/
def replacement (found : List Char) : List Char → List Char
  | '\\' :: '\\' :: cs => '\\' :: replacement found cs
  | '\\' :: '&' :: cs => '&' :: replacement found cs
  | '&' :: cs => found ++ replacement found cs
  | c :: cs => c :: replacement found cs
  | [] => []

def replaceMatches (by_ : List Char) (text : Array Char) : Nat → List Match → List Char
  | i, [] => Matcher.between text i text.size
  | i, r :: rs =>
    Matcher.between text i r.start ++ replacement (Matcher.between text r.start r.stop) by_ ++
      replaceMatches by_ text r.stop rs

/-- Replace the first match or all of them; how many were replaced. -/
def replaceIn (m : Matcher) (all : Bool) (by_ : List Char) (text : String) : Nat × String :=
  let subject := text.toList.toArray
  let found := if all then m.all subject else (m.search? subject).toList
  (found.length, String.ofList (replaceMatches by_ subject 0 found))

/-! ## Arrays as parameters -/

mutual

/-- Names that an expression uses as arrays. -/
def arraysIn (known : List (String × List Bool)) : Expression → List String
  | .element name index => name :: arraysInAll known index
  | .field e => arraysIn known e
  | .group e => arraysIn known e
  | .tuple es => arraysInAll known es
  | .assign t _ v => arraysIn known t ++ arraysIn known v
  | .conditional c a b => arraysIn known c ++ arraysIn known a ++ arraysIn known b
  | .or a b => arraysIn known a ++ arraysIn known b
  | .and a b => arraysIn known a ++ arraysIn known b
  | .not e => arraysIn known e
  | .isIn index array => array :: arraysInAll known index
  | .holds _ a b => arraysIn known a ++ arraysIn known b
  | .compare _ a b => arraysIn known a ++ arraysIn known b
  | .join a b => arraysIn known a ++ arraysIn known b
  | .binary _ a b => arraysIn known a ++ arraysIn known b
  | .negate e => arraysIn known e
  | .plus e => arraysIn known e
  | .step _ _ e => arraysIn known e
  | .call name es =>
    let flags := (known.lookup name).getD []
    (es.zip flags).filterMap (fun (e, isArray) =>
      match e, isArray with
      | .variable v, true => some v
      | _, _ => none) ++ arraysInAll known es
  | .builtin "split" es =>
    (match es with
    | _ :: .variable a :: _ => [a]
    | _ => []) ++ arraysInAll known es
  | .builtin _ es => arraysInAll known es
  | .getline _ _ (some t) => arraysIn known t
  | _ => []

def arraysInAll (known : List (String × List Bool)) : List Expression → List String
  | [] => []
  | e :: es => arraysIn known e ++ arraysInAll known es

end

def arraysInOption (known : List (String × List Bool)) : Option Expression → List String
  | some e => arraysIn known e
  | none => []

def arraysInOutlet (known : List (String × List Bool)) : Option (Outlet × Expression) → List String
  | some (_, e) => arraysIn known e
  | none => []

mutual

def arraysOf (known : List (String × List Bool)) : Statement → List String
  | .expression e => arraysIn known e
  | .print es o => arraysInAll known es ++ arraysInOutlet known o
  | .printf es o => arraysInAll known es ++ arraysInOutlet known o
  | .block ss => arraysOfAll known ss
  | .branch c yes no => arraysIn known c ++ arraysOf known yes ++ arraysOfOption known no
  | .loop c body => arraysIn known c ++ arraysOf known body
  | .doLoop body c => arraysOf known body ++ arraysIn known c
  | .forLoop first c step body =>
    arraysOfOption known first ++ arraysInOption known c ++ arraysOfOption known step ++
      arraysOf known body
  | .forIn _ array body => array :: arraysOf known body
  | .exit e => arraysInOption known e
  | .returns e => arraysInOption known e
  | .delete array index => array :: (match index with
    | some es => arraysInAll known es
    | none => [])
  | _ => []

def arraysOfAll (known : List (String × List Bool)) : List Statement → List String
  | [] => []
  | s :: ss => arraysOf known s ++ arraysOfAll known ss

def arraysOfOption (known : List (String × List Bool)) : Option Statement → List String
  | some s => arraysOf known s
  | none => []

end

/-- Which parameters of functions are arrays, by looking at them as often as there are functions. -/
def arrayParametersOf (fs : List Function) : List (String × List Bool) :=
  let step := fun (known : List (String × List Bool)) =>
    fs.map fun f =>
      let used := arraysOf known f.body
      (f.name, f.parameters.map used.contains)
  Nat.repeat step (fs.length + 1) []

/-! ## Evaluation -/

/-- A key of an array with several parts. -/
def keyOf (vs : List Value) : Run String := do
  let format ← converting
  let subsep ← setting "SUBSEP"
  return subsep.intercalate (vs.map fun v =>
    match v with
    | .number x => numberText format x
    | v => v.toText format)

/-- An expression to search for, from a value. -/
def matcherOf (v : Value) : Run Matcher := do
  match Regex.compile Reader.regexDialect false (← textOf v).toList with
  | .ok m => return m
  | .error e => fail ("regular expression compile failed (" ++ e ++ ")")

def substring (s : String) (start : Float) (length : Option Float) : String :=
  let round := fun (x : Float) =>
    let f := x.floor
    let d := x - f
    if d > 0.5 || (d == 0.5 && remainder f 2.0 != 0.0) then f + 1.0 else f
  let first := truncated (round start)
  let stop : Int := match length with
    | none => Int.ofNat s.length + 1
    | some l => truncated (round start + round l)
  let from_ := max first 1
  let until_ := min stop (Int.ofNat s.length + 1)
  if until_ ≤ from_ then ""
  else String.ofList ((s.toList.drop (from_.toNat - 1)).take (until_ - from_).toNat)

/-- The first place of a text in another, from one. -/
def placeOf (needle : List Char) : Nat → List Char → Nat
  | k, [] => if needle.isEmpty then k else 0
  | k, c :: cs => if needle.isPrefixOf (c :: cs) then k else placeOf needle (k + 1) cs

/-- Repeat as long as a step asks for it. -/
def iterate : Nat → Run Bool → Run Unit
  | 0, _ => throw (.stop .stuck)
  | n + 1, step => do if ← step then iterate n step else return ()

/-- How often a loop may go round. -/
def patience : Nat := 5000000

/-- Run the body of a loop; whether the loop goes on. -/
def inLoop (body : Run Unit) : Run Bool :=
  tryCatch (do
    body
    return true) fun s =>
    match s with
    | .break_ => return false
    | .continue_ => return true
    | s => throw s

def setTableFrom (id : Nat) (vs : List Value) : Run Unit :=
  setTable id ((vs.zip (List.range vs.length)).foldl
    (fun (t : Table) (v, i) => t.insert (toString (i + 1)) v) {})

mutual

def eval : Nat → Expression → Run Value
  | 0, _ => throw (.stop .stuck)
  | n + 1, e =>
    match e with
    | .number x => return .number x
    | .text s => return .text s
    | .regex m => do
      return .ofBool (m.isIn (← get).record.toList)
    | .variable name => getVariable name
    | .element name index => do
      let key ← keyOf (← evalAll n index)
      let id ← arrayId name
      let t ← table id
      match t.get? key with
      | some v => return v
      | none =>
        setTable id (t.insert key .unset)
        return .unset
    | .field e => do getField (← fieldIndex (← eval n e))
    | .group e => eval n e
    | .tuple es => do
      let vs ← evalAll n es
      return .text (← keyOf vs)
    | .assign target o e => do
      let v ← eval n e
      let v ← match o with
        | none => pure v
        | some o => do
          let old ← eval n target
          pure (.number (operate o old.toNumber v.toNumber))
      assign n target v
      return v
    | .conditional c a b => do if (← eval n c).isTrue then eval n a else eval n b
    | .or a b => do
      if (← eval n a).isTrue then return .ofBool true else return .ofBool (← eval n b).isTrue
    | .and a b => do
      if (← eval n a).isTrue then return .ofBool (← eval n b).isTrue else return .ofBool false
    | .not e => do
      return .ofBool (!(← eval n e).isTrue)
    | .isIn index array => do
      let key ← keyOf (← evalAll n index)
      return .ofBool ((← table (← arrayId array)).get? key).isSome
    | .holds negated e r => do
      let s ← textOf (← eval n e)
      let m ← evalMatcher n r
      return .ofBool (m.isIn s.toList != negated)
    | .compare c a b => do
      let x ← eval n a
      let y ← eval n b
      return .ofBool (compareValues (← converting) c x y)
    | .join a b => do
      let x ← textOf (← eval n a)
      let y ← textOf (← eval n b)
      return .text (x ++ y)
    | .binary o a b => do
      let x ← eval n a
      let y ← eval n b
      return .number (operate o x.toNumber y.toNumber)
    | .negate e => do
      return .number (-(← eval n e).toNumber)
    | .plus e => do
      return .number (← eval n e).toNumber
    | .step before delta target => do
      let old := (← eval n target).toNumber
      let new := old + delta
      assign n target (.number new)
      return .number (if before then new else old)
    | .call name es => call n name es
    | .builtin name es => builtin n name es
    | .getline origin source target => do
      let name ← match source with
        | some e => textOf (← eval n e)
        | none => pure ""
      getline n origin name target

def evalAll : Nat → List Expression → Run (List Value)
  | 0, _ => throw (.stop .stuck)
  | _ + 1, [] => return []
  | n + 1, e :: es => do
    let v ← eval n e
    let vs ← evalAll n es
    return v :: vs

/-- An operand that is searched for. -/
def evalMatcher : Nat → Expression → Run Matcher
  | 0, _ => throw (.stop .stuck)
  | n + 1, e =>
    match e with
    | .regex m => return m
    | .group (.regex m) => return m
    | e => do matcherOf (← eval n e)

def assign : Nat → Expression → Value → Run Unit
  | 0, _, _ => throw (.stop .stuck)
  | n + 1, target, v =>
    match target with
    | .variable name => setVariable name v
    | .element name index => do
      let key ← keyOf (← evalAll n index)
      let id ← arrayId name
      setTable id ((← table id).insert key v)
    | .field e => do setField (← fieldIndex (← eval n e)) v
    | .group e => assign n e v
    | _ => return ()

/-- Read a line: one, zero at the end, and less if there is no such file. -/
def getline : Nat → Origin → String → Option Expression → Run Value
  | 0, _, _, _ => throw (.stop .stuck)
  | n + 1, origin, name, target => do
    let line ← match origin with
      | .records => readRecord ((← get).operands.length + 3)
      | origin =>
        match ← intake origin name with
        | none => return .number (-1.0)
        | some i =>
          match ← readFrom i with
          | some (record, rest) =>
            keepIntake name rest
            pure (some record)
          | none =>
            keepIntake name i
            pure none
    match line with
    | none => return .number 0.0
    | some line =>
      if origin == .records then countRecord true
      match target with
      | some t => assign n t (ofOutside line)
      | none => setRecord line
      return .number 1.0

def call : Nat → String → List Expression → Run Value
  | 0, _, _ => throw (.stop .stuck)
  | n + 1, name, es => do
    let m ← get
    match m.functions.find? (·.name == name) with
    | none => fail ("function " ++ name ++ " never defined")
    | some f =>
      let flags := (m.arrayParameters.lookup name).getD []
      let bindings ← bind n f.parameters flags es
      let outer := (← get).frame
      modify fun m => { m with frame := bindings }
      let result ← tryCatch (do
        exec n f.body
        return Value.unset) fun s =>
        match s with
        | .returns v => return v
        | s => throw s
      modify fun m => { m with frame := outer }
      return result

/-- Bind parameters to arguments; arrays are shared. -/
def bind : Nat → List String → List Bool → List Expression → Run (List (String × Binding))
  | 0, _, _, _ => throw (.stop .stuck)
  | _ + 1, [], _, _ => return []
  | n + 1, p :: ps, flags, es => do
    let isArray := flags.headD false
    let b ← match es.head?, isArray with
      | some (.variable v), true => pure (Binding.array (← arrayId v))
      | some e, false => pure (.scalar (← eval n e))
      | _, true => do
        let m ← get
        set { m with nextArray := m.nextArray + 1 }
        pure (.array m.nextArray)
      | none, false => pure (.scalar .unset)
    let more ← bind n ps (flags.drop 1) (es.drop 1)
    return (p, b) :: more

def builtin : Nat → String → List Expression → Run Value
  | 0, _, _ => throw (.stop .stuck)
  | n + 1, name, es => do
    match name, es with
    | "length", [] => return .ofNat (← get).record.length
    | "length", [.variable v] =>
      let m ← get
      match m.frame.lookup v with
      | some (.array id) => return .ofNat (← table id).size
      | some (.scalar x) => return .ofNat (← textOf x).length
      | none =>
        match m.named[v]? with
        | some id => return .ofNat (← table id).size
        | none => return .ofNat (← textOf (← getVariable v)).length
    | "length", e :: _ => return .ofNat (← textOf (← eval n e)).length
    | "split", s :: .variable a :: rest =>
      let text ← textOf (← eval n s)
      let parts ← match rest with
        | [] => do
          match fieldsOf (← setting "FS") false text with
          | .ok ps => pure ps
          | .error e => fail e
        | .regex m :: _ =>
          let subject := text.toList.toArray
          pure (if text.isEmpty then [] else piecesBetween subject 0 (separators m subject))
        | e :: _ => do
          match fieldsOf (← textOf (← eval n e)) false text with
          | .ok ps => pure ps
          | .error e => fail e
      let id ← arrayId a
      setTableFrom id (parts.map ofOutside)
      return .ofNat parts.length
    | "sub", r :: by_ :: rest => replace n false r by_ (rest.headD (.field (.number 0.0)))
    | "gsub", r :: by_ :: rest => replace n true r by_ (rest.headD (.field (.number 0.0)))
    | "match", s :: r :: _ =>
      let text ← textOf (← eval n s)
      let m ← evalMatcher n r
      match m.search? text.toList.toArray with
      | some r =>
        setGlobal "RSTART" (.ofNat (r.start + 1))
        setGlobal "RLENGTH" (.ofNat (r.stop - r.start))
        return .ofNat (r.start + 1)
      | none =>
        setGlobal "RSTART" (.ofNat 0)
        setGlobal "RLENGTH" (.number (-1.0))
        return .ofNat 0
    | name, es =>
      let vs ← evalAll n es
      plainBuiltin n name vs

/-- Functions of values alone. -/
def plainBuiltin : Nat → String → List Value → Run Value
  | 0, _, _ => throw (.stop .stuck)
  | _ + 1, name, vs => do
    match name, vs with
    | "substr", s :: start :: rest =>
      return .text (substring (← textOf s) start.toNumber (rest.head?.map Value.toNumber))
    | "index", s :: t :: _ =>
      return .ofNat (placeOf (← textOf t).toList 1 (← textOf s).toList)
    | "sprintf", f :: vs =>
      return .text (String.ofList (← formatted "sprintf" (← textOf f) vs fun _ => return ()))
    | "sin", v :: _ => return .number (Float.sin v.toNumber)
    | "cos", v :: _ => return .number (Float.cos v.toNumber)
    | "atan2", y :: x :: _ => return .number (Float.atan2 y.toNumber x.toNumber)
    | "exp", v :: _ => return .number (Float.exp v.toNumber)
    | "log", v :: _ => return .number (Float.log v.toNumber)
    | "sqrt", v :: _ => return .number (Float.sqrt v.toNumber)
    | "int", v :: _ =>
      let x := v.toNumber
      return .number (if x < 0.0 then x.ceil else x.floor)
    | "rand", _ => return .number 0.5
    | "srand", vs =>
      let old ← global "srand"
      setGlobal "srand" (vs.headD (.number 0.0))
      return old
    | "systime", _ => return .number 0.0
    | "tolower", v :: _ => return .text ((← textOf v).map Char.toLower)
    | "toupper", v :: _ => return .text ((← textOf v).map Char.toUpper)
    | "system", v :: _ =>
      flush
      return .ofNat (← runCommand (← textOf v) {})
    | "close", v :: _ => return .number (← closeNamed (← textOf v))
    | "fflush", _ =>
      flush
      return .number 0.0
    | name, _ => failPlain ("line 1: wrong number of arguments in call to " ++ name)

def replace : Nat → Bool → Expression → Expression → Expression → Run Value
  | 0, _, _, _, _ => throw (.stop .stuck)
  | n + 1, all, r, by_, target => do
    let m ← evalMatcher n r
    let new ← textOf (← eval n by_)
    let text ← textOf (← eval n target)
    let (count, result) := replaceIn m all new.toList text
    if count > 0 then assign n target (.text result)
    return .ofNat count

/-- The values of a printing statement as text. -/
def printedText : Nat → List Expression → Run (List Char)
  | 0, _ => throw (.stop .stuck)
  | n + 1, es => do
    let ors ← setting "ORS"
    match es with
    | [] => return (← get).record.toList ++ ors.toList
    | es =>
      let vs ← evalAll n es
      let ofmt ← setting "OFMT"
      let ofs ← setting "OFS"
      return (ofs.intercalate (vs.map (Value.toText ofmt))).toList ++ ors.toList

def give : Nat → Option (Outlet × Expression) → List Char → Run Unit
  | 0, _, _ => throw (.stop .stuck)
  | n + 1, o, cs =>
    match o with
    | none => emit cs
    | some (outlet, e) => do writeTo outlet (← textOf (← eval n e)) cs

def exec : Nat → Statement → Run Unit
  | 0, _ => throw (.stop .stuck)
  | n + 1, s =>
    match s with
    | .expression e => do
      let _ ← eval n e
    | .print es o => do give n o (← printedText n es)
    | .printf es o => do
      match ← evalAll n es with
      | [] => failPlain "line 1: no arguments in call to printf"
      | f :: vs =>
        let cs ← formatted "printf" (← textOf f) vs (give n o)
        give n o cs
    | .block ss => execAll n ss
    | .branch c yes no => do
      if (← eval n c).isTrue then exec n yes
      else
        match no with
        | some s => exec n s
        | none => return ()
    | .loop c body =>
      iterate patience do
        if (← eval n c).isTrue then inLoop (exec n body) else return false
    | .doLoop body c =>
      iterate patience do
        if ← inLoop (exec n body) then return (← eval n c).isTrue else return false
    | .forLoop first c step body => do
      match first with
      | some s => exec n s
      | none => pure ()
      iterate patience do
        let holds ← match c with
          | some c => do pure (← eval n c).isTrue
          | none => pure true
        if holds then
          if ← inLoop (exec n body) then
            match step with
            | some s => exec n s
            | none => pure ()
            return true
          else return false
        else return false
    | .forIn name array body => do
      let keys := (← table (← arrayId array)).keys
      forKeys n name body keys
    | .next => throw .next
    | .nextFile => throw .nextFile
    | .exit e => do
      match e with
      | some e =>
        let v ← eval n e
        modify fun m => { m with status := ((truncated v.toNumber) % 256).toNat }
      | none => pure ()
      throw .exit
    | .returns e => do
      match e with
      | some e => throw (.returns (← eval n e))
      | none => throw (.returns .unset)
    | .break_ => throw .break_
    | .continue_ => throw .continue_
    | .delete array index => do
      let id ← arrayId array
      match index with
      | some es =>
        let key ← keyOf (← evalAll n es)
        setTable id ((← table id).erase key)
      | none => setTable id {}

def execAll : Nat → List Statement → Run Unit
  | 0, _ => throw (.stop .stuck)
  | _ + 1, [] => return ()
  | n + 1, s :: ss => do
    exec n s
    execAll n ss

def forKeys : Nat → String → Statement → List String → Run Unit
  | 0, _, _, _ => throw (.stop .stuck)
  | _ + 1, _, _, [] => return ()
  | n + 1, name, body, key :: keys => do
    setVariable name (ofOutside key)
    if ← inLoop (exec n body) then forKeys n name body keys else return ()

end

/-- How deep programs nest. -/
def depth : Nat := 100000

/-! ## Whole programs -/

/-- Whether a rule is for the current record. -/
def applies (k : Nat) (r : Rule) : Run Bool := do
  match r.trigger with
  | .begin | .finish => return false
  | .always => return true
  | .when e => return (← eval depth e).isTrue
  | .between first last =>
    let isActive := (← get).active.contains k
    if isActive || (← eval depth first).isTrue then
      let ends := (← eval depth last).isTrue
      modify fun m =>
        { m with active := if ends then m.active.filter (· != k)
            else if isActive then m.active else k :: m.active }
      return true
    else return false

def perform (r : Rule) : Run Unit :=
  match r.action with
  | some s => exec depth s
  | none => do give depth none (← printedText depth [])

/-- All rules for the current record. -/
def rulesFor (rules : List (Nat × Rule)) : Run Unit :=
  rules.forM fun (k, r) => do if ← applies k r then perform r

/-- Run rules over all records; whether more of them may follow. -/
def records (rules : List (Nat × Rule)) : Run Unit :=
  iterate patience do
    match ← readRecord ((← get).operands.length + 3) with
    | none => return false
    | some line =>
      countRecord true
      setRecord line
      tryCatch (do
        rulesFor rules
        return true) fun s =>
        match s with
        | .next => return true
        | .nextFile => do
          modify fun m => { m with input := none }
          return true
        | s => throw s

def isBegin (r : Rule) : Bool :=
  match r.trigger with
  | .begin => true
  | _ => false

def isFinish (r : Rule) : Bool :=
  match r.trigger with
  | .finish => true
  | _ => false

/-- Run a part that may be left early. -/
def orExit (r : Run Unit) : Run Bool :=
  tryCatch (do
    r
    return true) fun s =>
    match s with
    | .exit => return false
    | .stop e => throw (.stop e)
    | _ => return true

def runAll (p : Source) : Run Unit := do
  let rules := p.rules.toList
  let main := ((List.range rules.length).zip rules).filter fun (_, r) => !isBegin r && !isFinish r
  let finish := rules.filter isFinish
  let goesOn ← orExit ((rules.filter isBegin).forM perform)
  if goesOn && (!main.isEmpty || !finish.isEmpty) then
    let _ ← orExit (records main)
  let _ ← orExit (finish.forM perform)
  closeAll

/-! ## Arguments -/

structure Arguments where
  separator : Option String := none
  assignments : List String := []
  files : List String := []
  rest : List String := []

def parseArguments : Nat → List String → Arguments → Except String Arguments
  | 0, as, a => .ok { a with rest := as }
  | _ + 1, [], a => .ok a
  | n + 1, x :: xs, a =>
    match x.toList with
    | ['-', '-'] => .ok { a with rest := xs }
    | ['-', 'F'] =>
      match xs with
      | v :: xs => parseArguments n xs { a with separator := some v }
      | [] => .error "option -F lacks argument"
    | '-' :: 'F' :: v => parseArguments n xs { a with separator := some (String.ofList v) }
    | ['-', 'v'] =>
      match xs with
      | v :: xs => parseArguments n xs { a with assignments := a.assignments ++ [v] }
      | [] => .error "option -v lacks argument"
    | '-' :: 'v' :: v => parseArguments n xs { a with assignments := a.assignments ++ [String.ofList v] }
    | ['-', 'f'] =>
      match xs with
      | v :: xs => parseArguments n xs { a with files := a.files ++ [v] }
      | [] => .error "option -f lacks argument"
    | '-' :: 'f' :: v => parseArguments n xs { a with files := a.files ++ [String.ofList v] }
    | '-' :: _ :: _ => .error ("not an option: " ++ x)
    | _ => .ok { a with rest := x :: xs }

/-- The first call in a text of a function that is not among those defined. -/
def strangeCall? (defined : List String) : Nat → List Char → Option String
  | 0, _ => none
  | n + 1, cs =>
    let (cs, _) := Reader.skipBlanks (cs.length + 1) cs 0
    match Reader.lex cs with
    | (.finish, _) => none
    | (.called f, rest) => if defined.contains f then strangeCall? defined n rest else some f
    | (_, rest) => strangeCall? defined n rest

/-- The first function that a program calls and does not define. -/
def undefinedFunction? (p : Source) (text : String) : Option String :=
  strangeCall? (p.functions.map (·.name)) (text.length + 1) text.toList

/-- The variables that are set before a program starts. -/
def initial : List (String × Value) :=
  [("FS", .text " "), ("OFS", .text " "), ("ORS", .text "\n"), ("RS", .text "\n"),
    ("NR", .number 0.0), ("FNR", .number 0.0), ("SUBSEP", .text "\x1c"), ("OFMT", .text "%.6g"),
    ("CONVFMT", .text "%.6g"), ("RSTART", .number 0.0), ("RLENGTH", .number (-1.0)),
    ("FILENAME", .text "")]

def prepare (a : Arguments) (operands : List String) : Run Unit := do
  let env ← environment
  let argv ← arrayId "ARGV"
  let name := (← get).work.name
  setTable argv (((name :: operands).zip (List.range (operands.length + 1))).foldl
    (fun (t : Table) (v, i) => t.insert (toString i) (ofOutside v)) {})
  setGlobal "ARGC" (.ofNat (operands.length + 1))
  let environ ← arrayId "ENVIRON"
  setTable environ (env.foldl (fun (t : Table) (k, v) => t.insert k (ofOutside v)) {})
  match a.separator with
  | some s => assignOutside "FS" s
  | none => pure ()
  for x in a.assignments do
    match assignment? x with
    | some (k, v) => assignOutside k v
    | none => failPlain ("improper assignment: -v " ++ x)

end Awk

namespace Program

open Awk in
def awk : Program := do
  let w ← get
  match Awk.parseArguments (w.arguments.length + 1) w.arguments {} with
  | .error e => failWith 2 e
  | .ok a =>
    let mut text : List Char := []
    for f in a.files do
      match ← readOperand f with
      | .ok t => text := text ++ t ++ ['\n']
      | .error e => failWith 2 ("cannot open \"" ++ f ++ "\" (" ++ e.reason ++ ")")
    let (source, operands) ← if a.files.isEmpty then
        match a.rest with
        | p :: rest => pure (p.toList, rest)
        | [] => do
          putError "Usage: mawk [Options] [Program] [file ...]\n"
          quit 0
      else pure (text, a.rest)
    match Reader.program source with
    | .error e => failWith 2 e
    | .ok p =>
      match undefinedFunction? p (String.ofList source) with
      | some f => failWith 2 ("line 2: function " ++ f ++ " never defined")
      | none => pure ()
      let start : Machine :=
        { work := ← get, operands, functions := p.functions,
          arrayParameters := arrayParametersOf p.functions,
          globals := initial.foldl (fun m (k, v) => m.insert k v) {} }
      match (do
          prepare a operands
          runAll p : Run Unit).run start with
      | .ok _ m =>
        set m.work
        setStatus m.status
      | .error s m =>
        set m.work
        put m.pending.reverse
        match s with
        | .stop e => throw e
        | _ => setStatus m.status

end Program
end Shell
end Unweave

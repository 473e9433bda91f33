import Unweave.Task

/-!
# The command line

A call names a task and a solution.  Options may stand anywhere after the task's name, the common
ones also before it; each is given at most once on either side, and of a common option given on both
sides the later one counts.  After a double dash nothing is an option.
-/

namespace Unweave
namespace CommandLine

/-- How much is logged; the answers do not depend on it. -/
inductive LogLevel where
  | trace
  | debug
  | info
  | warn
  | error
deriving DecidableEq, Repr

def LogLevel.names : List (String × LogLevel) :=
  [("trace", .trace), ("debug", .debug), ("info", .info), ("warn", .warn), ("error", .error)]

inductive TaskName where
  | build
  | extensions
  | check
deriving DecidableEq, Repr

def TaskName.names : List (String × TaskName) :=
  [("build", .build), ("extensions", .extensions), ("check", .check)]

/-- Options as they were given. -/
structure Options where
  logLevel : Option LogLevel := none
  config : Option String := none
  output : Option String := none
  showTree : Bool := false
  compiler : Option CompilerMode := none

structure Invocation where
  task : TaskName
  solution : String
  options : Options

/-- The paths that a call looks at. -/
def Invocation.paths (i : Invocation) : List String :=
  [i.solution,
    i.options.config.getD (Path.join (Path.directoryOf i.solution) Task.configName)] ++
    i.options.output.toList

inductive Request where
  | run (i : Invocation)
  | version
  | help
  | invalid

/-! ## Reading the arguments -/

/-- A value that is missing or looks like an option is none. -/
def isValue (a : String) : Bool := !a.startsWith "-" || a == "-"

/-- The name of a long option, and the value written with it. -/
def splitLong (a : String) : String × Option String :=
  let cs := a.toList.drop 2
  match cs.dropWhile (· != '=') with
  | [] => (String.ofList cs, none)
  | _ :: value => (String.ofList (cs.takeWhile (· != '=')), some (String.ofList value))

/-- A value that comes with the option or after it, and the arguments that are left. -/
def valueOf (given : Option String) : List String → Option (String × List String)
  | as =>
    match given, as with
    | some v, as => some (v, as)
    | none, a :: as => if isValue a then some (a, as) else none
    | none, [] => none

/-- A path must not be empty. -/
def path? (v : String) : Option String := if v.isEmpty then none else some v

/-- Set an option that was not given before. -/
def setOnce {α : Type} (old : Option α) (new : Option α) : Option α :=
  match old with
  | none => new
  | some _ => none

/-- Take in an option that has a value; `task` is none before the task's name. -/
def withValue (task : Option TaskName) (o : Options) (name value : String) : Option Options :=
  match name with
  | "log-level" =>
    (setOnce o.logLevel (LogLevel.names.lookup value)).map fun v => { o with logLevel := some v }
  | "config" => (setOnce o.config (path? value)).map fun v => { o with config := some v }
  | "output" =>
    if task = some .build then
      (setOnce o.output (path? value)).map fun v => { o with output := some v }
    else none
  | "compiler" =>
    if task = some .build || task = some .check then
      (setOnce o.compiler (CompilerMode.names.lookup value)).map fun v =>
        { o with compiler := some v }
    else none
  | _ => none

/-- Options of the task win over those given before its name. -/
def Options.over (inner outer : Options) : Options :=
  { inner with
    logLevel := inner.logLevel <|> outer.logLevel
    config := inner.config <|> outer.config }

/-- The end of the arguments: a solution must have been given. -/
def finish (task : TaskName) (outer o : Options) : Option String → Request
  | some solution => .run { task, solution, options := o.over outer }
  | none => .invalid

/-- The arguments after a double dash: at most the solution. -/
def operands (task : TaskName) (outer o : Options) (solution : Option String) :
    List String → Request
  | [] => finish task outer o solution
  | a :: as =>
    match setOnce solution (path? a) with
    | some s => operands task outer o (some s) as
    | none => .invalid

/-- The arguments after the task's name.  The bound is their number. -/
def taskArguments (task : TaskName) (outer : Options) :
    Nat → Options → Option String → List String → Request
  | 0, _, _, _ => .invalid
  | _ + 1, o, solution, [] => finish task outer o solution
  | n + 1, o, solution, a :: as =>
    if a == "--" then operands task outer o solution as
    else if a.startsWith "--" then
      match splitLong a with
      | ("help", none) => .help
      | ("show-tree", none) =>
        if task = .build && !o.showTree then
          taskArguments task outer n { o with showTree := true } solution as
        else .invalid
      | (name, given) =>
        match valueOf given as with
        | none => .invalid
        | some (value, as) =>
          match withValue (some task) o name value with
          | none => .invalid
          | some o => taskArguments task outer n o solution as
    else if isValue a then
      match setOnce solution (path? a) with
      | some s => taskArguments task outer n o (some s) as
      | none => .invalid
    else if a.startsWith "-h" then .help
    else .invalid

/-- A request for help, possibly on a task. -/
def helpOn : List String → Request
  | [] => .help
  | [a] => if a == "help" || (TaskName.names.lookup a).isSome then .help else .invalid
  | _ => .invalid

/-- The arguments up to the task's name. -/
def leadingArguments : Nat → Options → List String → Request
  | 0, _, _ => .invalid
  | _ + 1, _, [] => .invalid
  | n + 1, o, a :: as =>
    if a == "--" then .invalid
    else if a.startsWith "--" then
      match splitLong a with
      | ("version", none) => .version
      | ("help", none) => .help
      | (name, given) =>
        match valueOf given as with
        | none => .invalid
        | some (value, as) =>
          match withValue none o name value with
          | none => .invalid
          | some o => leadingArguments n o as
    else if isValue a then
      match TaskName.names.lookup a with
      | some task => taskArguments task o (as.length + 1) {} none as
      | none => if a == "help" then helpOn as else .invalid
    else if a.startsWith "-V" then .version
    else if a.startsWith "-h" then .help
    else .invalid

def parse (arguments : List String) : Request :=
  leadingArguments (arguments.length + 1) {} arguments

/-! ## Running -/

/-- What a call answers. -/
structure Answer where
  exit : Nat
  stdout : String := ""
  stderr : String := ""

def versionText : String := "paketti 0.1.0\n"

def usage : String := "Usage: paketti [OPTIONS] <build|extensions|check> <SOLUTION>\n"

def ofReport (r : Report) : Answer := { exit := 0, stdout := r.render }

def ofError (e : Error) : Answer := { exit := e.code, stdout := (Report.ofError e).render }

/-- The configuration, with the compiler that the call asks for. -/
def configFor (d : Disk) (i : Invocation) : Except Error Config := do
  let c ← Task.loadConfig d i.options.config i.solution
  match i.options.compiler with
  | none => return c
  | some mode => return { c with compiler := { c.compiler with mode } }

def execute (now : String) (i : Invocation) (d : Disk) : Answer × Disk :=
  match configFor d i with
  | .error e => (ofError e, d)
  | .ok c =>
    match i.task with
    | .build =>
      match Task.build c now i.solution i.options.output d with
      | (.ok (report, finished), d) =>
        ({ ofReport report with
            stderr := if i.options.showTree then Task.tree (Task.layoutOf c) finished else "" }, d)
      | (.error e, d) => (ofError e, d)
    | .extensions =>
      match Task.extensions c i.solution d with
      | .ok report => (ofReport report, d)
      | .error e => (ofError e, d)
    | .check =>
      match Task.check c i.solution d with
      | (.ok report, d) => (ofReport report, d)
      | (.error e, d) => (ofError e, d)

/-- Answer a call at a given time. -/
def run (now : String) (arguments : List String) (d : Disk) : Answer × Disk :=
  match parse arguments with
  | .run i => execute now i d
  | .version => ({ exit := 0, stdout := versionText }, d)
  | .help => ({ exit := 0, stdout := usage }, d)
  | .invalid => ({ exit := 2, stderr := usage }, d)

end CommandLine
end Unweave

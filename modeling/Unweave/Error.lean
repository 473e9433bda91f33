/-!
# Errors

Every failure of the program has a cause, a text and an exit code.
-/

namespace Unweave

inductive Error where
  | invalidArguments (message : String)
  /-- The path of a solution has another extension. -/
  | invalidSolutionPath (path : String)
  | solutionNotFound (path : String)
  /-- A project did not compile to begin with. -/
  | preconditionFailed (project diagnostics : String)
  | cleanUpFailed (cleanUp document message : String)
  /-- A project stopped compiling. -/
  | compileFailed (project stage diagnostics : String)
  | commitRejected (reason : String)
  | invariant (message : String)
  | config (path message : String)
  | io (message : String)
  | json (message : String)
  | internal (message : String)
deriving DecidableEq, Repr

namespace Error

def message : Error → String
  | invalidArguments message => "invalid arguments: " ++ message
  | invalidSolutionPath path => "The specified solution file does not end with .sln: " ++ path
  | solutionNotFound path => "Solution file " ++ path ++ " doesn't exist."
  | preconditionFailed _ diagnostics =>
    "Project didn't compile before rewriting anything: " ++ diagnostics
  | cleanUpFailed cleanUp document message =>
    "rewriter '" ++ cleanUp ++ "' failed on " ++ document ++ ": " ++ message
  | compileFailed project stage diagnostics =>
    "project '" ++ project ++ "' failed to compile after " ++ stage ++ ": " ++ diagnostics
  | commitRejected reason => "Workspace.TryApplyChanges() failed: " ++ reason
  | invariant message => "invariant violated: " ++ message
  | config path message => "config error in " ++ path ++ ": " ++ message
  | io message => "IO error: " ++ message
  | json message => "JSON error: " ++ message
  | internal message => "internal error: " ++ message

/-- The exit code: bad arguments, no solution, a refused commit, a failed compile, or a defect. -/
def code : Error → Nat
  | invalidArguments _ => 2
  | config .. => 2
  | invalidSolutionPath _ => 3
  | solutionNotFound _ => 3
  | commitRejected _ => 4
  | preconditionFailed .. => 5
  | cleanUpFailed .. => 5
  | compileFailed .. => 5
  | invariant _ => 10
  | io _ => 10
  | json _ => 10
  | internal _ => 10

/-- The name of the cause. -/
def kind : Error → String
  | invalidArguments _ => "InvalidArguments"
  | invalidSolutionPath _ => "InvalidSolutionPath"
  | solutionNotFound _ => "SolutionNotFound"
  | preconditionFailed .. => "PreconditionFailed"
  | cleanUpFailed .. => "RewriteFailed"
  | compileFailed .. => "CompileFailed"
  | commitRejected _ => "CommitRejected"
  | invariant _ => "Invariant"
  | config .. => "Config"
  | io _ => "Io"
  | json _ => "Json"
  | internal _ => "Internal"

end Error
end Unweave

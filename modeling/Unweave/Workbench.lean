import Unweave.Check.Structural
import Unweave.Error

/-!
# Workbenches

A pipeline works on a solution that something else holds: it reads the solution, hands in a new one,
which may be refused, and asks whether a project compiles.  A workbench is these three operations
over a state, so a compiler may count its calls, write files or run programs, and a refusal may
depend on what else happened.
-/

namespace Unweave

/-- A computation that may fail, and whose effects on the state stay when it does. -/
abbrev Job (σ α : Type) : Type := ExceptT Error (StateM σ) α

/-- A compiler, with its effects on a state. -/
abbrev Compiler (σ : Type) : Type := Project → σ → Except CompileFailure Unit × σ

/-- A compiler that is a function of the project. -/
def Compiler.ofFunction {σ : Type} (f : Project → Except CompileFailure Unit) : Compiler σ :=
  fun p s => (f p, s)

/-- The built-in compiler. -/
def Compiler.structural {σ : Type} : Compiler σ :=
  .ofFunction Check.structural

structure Workbench (σ : Type) where
  solution : σ → Solution
  /-- Take a new solution, or refuse it and keep the old. -/
  commit : Solution → σ → Except Error Unit × σ
  compile : Compiler σ

namespace Workbench

variable {σ : Type} (b : Workbench σ)

def current : Job σ Solution := fun s => (.ok (b.solution s), s)

def commitSolution (solution : Solution) : Job σ Unit := b.commit solution

/-- Ask whether a project compiles; a failure becomes an error. -/
def requireCompiles (onFailure : CompileFailure → Error) (p : Project) : Job σ Unit := fun s =>
  match b.compile p s with
  | (.ok (), s) => (.ok (), s)
  | (.error f, s) => (.error (onFailure f), s)

/-- Require that a project compiles after a stage. -/
def ensureCompiles (p : Project) (stage : String) : Job σ Unit :=
  b.requireCompiles (fun f => .compileFailed p.name stage f.text) p

end Workbench

/-- The identifiers of a list, distinct and in order. -/
def ProjectId.sortedSet (ids : List ProjectId) : Sorted Nat := .ofList (ids.map (·.val.toNat))

/-- A set of project identifiers as a refusal shows it. -/
def ProjectId.renderSet (ids : List Nat) : String :=
  "\x7b" ++ ", ".intercalate (ids.map fun n => "ProjectId(" ++ toString n ++ ")") ++ "\x7d"

/-- A new solution must have the projects of the old one. -/
def Solution.requireSameProjects (old new : Solution) : Except Error Unit :=
  let before := ProjectId.sortedSet old.projectIds
  let after := ProjectId.sortedSet new.projectIds
  if before = after then .ok ()
  else
    .error (.commitRejected
      ("change set adds or removes projects (had " ++ ProjectId.renderSet before ++ ", got " ++
        ProjectId.renderSet after ++ ")"))

/-- A workbench that holds the solution itself, beside the compiler's state. -/
def Workbench.inMemory {τ : Type} (compiler : Compiler τ) : Workbench (Solution × τ) where
  solution s := s.1
  commit new s :=
    match s.1.requireSameProjects new with
    | .ok () => (.ok (), (new, s.2))
    | .error e => (.error e, s)
  compile p s :=
    let (answer, t) := compiler p s.2
    (answer, (s.1, t))

end Unweave

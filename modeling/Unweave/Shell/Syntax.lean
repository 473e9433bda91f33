/-!
# Shell commands

The language of the scripts that a compile command may hold: simple commands with redirections,
pipelines, lists, groups, conditionals, loops and functions.
-/

namespace Unweave
namespace Shell

/-- What stands for a parameter that is not set, or done about it. -/
inductive Fallback where
  | use
  | assign
  | fail
  /-- Stands for a parameter that is set. -/
  | replace
deriving DecidableEq

/-- How a redirection opens its file. -/
inductive Access where
  | read
  | write
  /-- Write even to a file that is protected from it. -/
  | clobber
  | append
  | both
deriving DecidableEq

mutual

/-- A part of a word. -/
inductive Part where
  | literal (text : String) (quoted : Bool)
  /-- The value of a parameter. -/
  | value (name : String) (form : Form) (quoted : Bool)
  /-- What a command prints. -/
  | output (body : Command) (quoted : Bool)
  /-- The value of an expression. -/
  | number (expression : List Part) (quoted : Bool)

/-- What is done with the value of a parameter. -/
inductive Form where
  | plain
  | length
  /-- Look at a word if the parameter is not set or, if asked, empty. -/
  | fallback (kind : Fallback) (orEmpty : Bool) (word : List Part)
  /-- Cut off what a pattern matches. -/
  | trim (atEnd longest : Bool) (pattern : List Part)
  | malformed (word : List Part)

/-- Where a channel of a command leads. -/
inductive Redirection where
  | file (channel : Nat) (access : Access) (name : List Part)
  /-- One channel becomes a copy of another, or is closed. -/
  | copy (channel : Nat) (origin : List Part)
  /-- The text of a document that stands in the script. -/
  | document (channel index : Nat)

/-- A case of a selection. -/
inductive Clause where
  | mk (patterns : List (List Part)) (body : Command)

inductive Command where
  | skip
  | simple (line : Nat) (assignments : List (String × List Part)) (words : List (List Part))
      (redirections : List Redirection)
  | pipeline (stages : List Command)
  | negation (body : Command)
  | both (first second : Command)
  | either (first second : Command)
  | sequence (first second : Command)
  | background (line : Nat) (body : Command)
  /-- A list in a shell of its own. -/
  | subshell (line : Nat) (body : Command) (redirections : List Redirection)
  | redirected (line : Nat) (body : Command) (redirections : List Redirection)
  | branch (condition consequence alternative : Command)
  /-- A loop that goes on while the condition's success is as asked. -/
  | loop (success : Bool) (condition body : Command)
  | forEach (line : Nat) (name : String) (words : List (List Part)) (body : Command)
  | select (line : Nat) (word : List Part) (clauses : List Clause)
  | define (name : String) (body : Command)

end

abbrev Word : Type := List Part

/-- The text of a word that has no quotes and no values. -/
def plainText? : Word → Option String
  | [.literal text false] => some text
  | _ => none

/-- Whether any part of a word is quoted. -/
def Part.isQuoted : Part → Bool
  | .literal _ quoted => quoted
  | .value _ _ quoted => quoted
  | .output _ quoted => quoted
  | .number _ quoted => quoted

/-- A word that sets a variable, as the variable and the value. -/
def assignment? : Word → Option (String × Word)
  | .literal text false :: parts =>
    let name := text.toList.takeWhile (· != '=')
    match text.toList.dropWhile (· != '=') with
    | _ :: value =>
      match name with
      | c :: cs =>
        if (c.isAlpha || c == '_') && cs.all (fun c => c.isAlphanum || c == '_') then
          some (String.ofList name,
            if value.isEmpty then parts else .literal (String.ofList value) false :: parts)
        else none
      | [] => none
    | [] => none
  | _ => none

end Shell
end Unweave

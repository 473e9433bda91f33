import Unweave.Shell.Builtin.Names
import Unweave.Shell.Builtin.Signals
import Unweave.Shell.Builtin.Variables

/-!
# Scripts

A script is read and run line by line, or as many lines as a command takes: what one line does may
change how the next is read.
-/

namespace Unweave
namespace Shell
namespace Script

open Act

/-- Read the next line, with the aliases that are set by now. -/
def nextLine (c : Reader.Cursor) : Act (ScriptLine × Reader.Cursor) := do
  let m ← get
  let start := { c with aliases := m.process.aliases, documents := [], fresh := m.fresh }
  match readLine.run start with
  | .ok line c =>
    set { m with documents := c.documents ++ m.documents, fresh := c.fresh }
    return (line, c)
  | .error e _ =>
    modifyProcess fun p => { p with line := e.line }
    fail ("Syntax error: " ++ e.message)

/-- Run the lines of a script. -/
def runLines (r : Runner) (context : Context) : Nat → Reader.Cursor → Act Unit
  | 0, _ => return
  | n + 1, c => do
    match ← nextLine c with
    | (.finished, _) => return
    | (.blank, c) => runLines r context n c
    | (.command command, c) =>
      let atEnd := match c.pushed with
        | some .finish => true
        | _ => false
      unless ← hasFlag 'n' do
        r.run { context with last := context.last && atEnd } command
      if atEnd then return else runLines r context n c

/-- Run a text as a script in this process. -/
def run (r : Runner) (context : Context) (text : String) : Act Unit :=
  runLines r context (text.length + 1) { rest := text.toList }

end Script
end Shell
end Unweave

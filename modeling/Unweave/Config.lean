import Unweave.Json.Decode
import Unweave.Json.Encode
import Unweave.Policy
import Unweave.Toml.Reader

/-!
# Configuration

What the user may set: the trusted runtime, the compiler, and the layout.  Everything has a default
and unknown settings are ignored.  The one thing asked of a well-formed configuration is that the
compiler's command is not empty.
-/

namespace Unweave

open Json (field)

namespace InterweaveConfig

def fieldNames : List String :=
  ["trusted_assemblies", "always_foreign_assemblies", "tuples_always_foreign"]

def toJson (c : InterweaveConfig) : Json :=
  .obj (field "trusted_assemblies" (.strings c.trusted) ++
    field "always_foreign_assemblies" (.strings c.alwaysForeign) ++
    field "tuples_always_foreign" (.bool c.tuplesForeign))

def decode : Json.Decoder InterweaveConfig := fun scope j => do
  let d : InterweaveConfig := {}
  let r ← Json.record fieldNames scope j
  let trusted ← r.default "trusted_assemblies" d.trusted (Json.list Json.text)
  let alwaysForeign ← r.default "always_foreign_assemblies" d.alwaysForeign (Json.list Json.text)
  let tuplesForeign ← r.default "tuples_always_foreign" d.tuplesForeign Json.flag
  return { trusted, alwaysForeign, tuplesForeign }

def ofToml? (t : Toml) : Option InterweaveConfig := do
  let d : InterweaveConfig := {}
  let fields ← t.fields? fieldNames
  let trusted ← Toml.fieldOr fields "trusted_assemblies" d.trusted Toml.texts?
  let alwaysForeign ← Toml.fieldOr fields "always_foreign_assemblies" d.alwaysForeign Toml.texts?
  let tuplesForeign ← Toml.fieldOr fields "tuples_always_foreign" d.tuplesForeign Toml.truth?
  return { trusted, alwaysForeign, tuplesForeign }

end InterweaveConfig

inductive CompilerMode where
  /-- The built-in check. -/
  | structural
  /-- An external program. -/
  | command
deriving DecidableEq, Repr

namespace CompilerMode

def names : List (String × CompilerMode) := [("structural", structural), ("command", command)]

def render : CompilerMode → String
  | structural => "structural"
  | command => "command"

end CompilerMode

/-- Where a command names the directory it runs on. -/
def directoryMark : String := "\x7bdir\x7d"

structure CompilerConfig where
  mode : CompilerMode := .structural
  command : List String := ["dotnet", "build", directoryMark]
  timeoutSeconds : Nat := 300
  keepOnFailure : Bool := false
deriving DecidableEq

namespace CompilerConfig

def fieldNames : List String := ["mode", "command", "timeout_secs", "keep_sandbox_on_failure"]

def toJson (c : CompilerConfig) : Json :=
  .obj (field "mode" (.str c.mode.render) ++ field "command" (.strings c.command) ++
    field "timeout_secs" (.ofNat c.timeoutSeconds) ++
    field "keep_sandbox_on_failure" (.bool c.keepOnFailure))

def decode : Json.Decoder CompilerConfig := fun scope j => do
  let d : CompilerConfig := {}
  let r ← Json.record fieldNames scope j
  let mode ← r.default "mode" d.mode (Json.choice CompilerMode.names)
  let command ← r.default "command" d.command (Json.list Json.text)
  let timeoutSeconds ← r.default "timeout_secs" d.timeoutSeconds Json.long
  let keepOnFailure ← r.default "keep_sandbox_on_failure" d.keepOnFailure Json.flag
  return { mode, command, timeoutSeconds, keepOnFailure }

def ofToml? (t : Toml) : Option CompilerConfig := do
  let d : CompilerConfig := {}
  let fields ← t.fields? fieldNames
  let mode ← Toml.fieldOr fields "mode" d.mode (Toml.choice? CompilerMode.names)
  let command ← Toml.fieldOr fields "command" d.command Toml.texts?
  let timeoutSeconds ← Toml.fieldOr fields "timeout_secs" d.timeoutSeconds Toml.nat?
  let keepOnFailure ← Toml.fieldOr fields "keep_sandbox_on_failure" d.keepOnFailure Toml.truth?
  return { mode, command, timeoutSeconds, keepOnFailure }

end CompilerConfig

structure FormatConfig where
  /-- What a nested line starts with. -/
  indent : String := "    "
deriving DecidableEq

namespace FormatConfig

def toJson (c : FormatConfig) : Json := .obj (field "indent" (.str c.indent))

def decode : Json.Decoder FormatConfig := fun scope j => do
  let r ← Json.record ["indent"] scope j
  let indent ← r.default "indent" ({} : FormatConfig).indent Json.text
  return { indent }

def ofToml? (t : Toml) : Option FormatConfig := do
  let fields ← t.fields? ["indent"]
  let indent ← Toml.fieldOr fields "indent" ({} : FormatConfig).indent Toml.text?
  return { indent }

end FormatConfig

structure Config where
  interweave : InterweaveConfig := {}
  compiler : CompilerConfig := {}
  format : FormatConfig := {}
deriving DecidableEq

namespace Config

def fieldNames : List String := ["interweave", "compiler", "format"]

def toJson (c : Config) : Json :=
  .obj (field "interweave" c.interweave.toJson ++ field "compiler" c.compiler.toJson ++
    field "format" c.format.toJson)

def decode : Json.Decoder Config := fun scope j => do
  let r ← Json.record fieldNames scope j
  let interweave ← r.default "interweave" {} InterweaveConfig.decode
  let compiler ← r.default "compiler" {} CompilerConfig.decode
  let format ← r.default "format" {} FormatConfig.decode
  return { interweave, compiler, format }

def ofToml? (t : Toml) : Option Config := do
  let fields ← t.fields? fieldNames
  let interweave ← Toml.fieldOr fields "interweave" {} InterweaveConfig.ofToml?
  let compiler ← Toml.fieldOr fields "compiler" {} CompilerConfig.ofToml?
  let format ← Toml.fieldOr fields "format" {} FormatConfig.ofToml?
  return { interweave, compiler, format }

/-- What is wrong with the text of a configuration. -/
inductive Fault where
  /-- It is no document of the format, or a setting has the wrong type. -/
  | malformed
  | emptyCommand
deriving DecidableEq, Repr

def Fault.message : Fault → String
  | malformed => "malformed configuration"
  | emptyCommand => "compiler.command must not be empty"

/-- The configuration that a text describes. -/
def parse (s : String) : Except Fault Config :=
  match (Toml.parse? s).bind ofToml? with
  | none => .error .malformed
  | some c => if c.compiler.command.isEmpty then .error .emptyCommand else .ok c

end Config
end Unweave

import Unweave.Json.Decode
import Unweave.Json.Encode
import Unweave.Codec.Symbol

/-!
# Diagnostics
-/

namespace Unweave

inductive Severity where
  | hidden
  | warning
  | error
deriving DecidableEq, Repr

namespace Severity

def names : List (String × Severity) := [("hidden", .hidden), ("warning", .warning), ("error", .error)]

def render : Severity → String
  | .hidden => "hidden"
  | .warning => "warning"
  | .error => "error"

end Severity

structure Diagnostic where
  code : String
  severity : Severity
  message : String
  /-- The name of the document. -/
  document : String
  node : Option NodeId := none
deriving DecidableEq

namespace Diagnostic

/-- A using directive that stood before. -/
def duplicateUsing : String := "CS0105"

/-- A using directive that nothing needs. -/
def unnecessaryUsing : String := "CS8019"

/-- A reference to a declaration that is gone. -/
def unresolvedReference : String := "CS0103"

/-- A type of the project that it does not declare. -/
def missingType : String := "CS0246"

/-- A type declared twice. -/
def duplicateType : String := "CS0101"

def isError (d : Diagnostic) : Bool := d.severity == .error

def render (d : Diagnostic) : String :=
  d.document ++ ": " ++ d.severity.render ++ " " ++ d.code ++ ": " ++ d.message

def toJson (d : Diagnostic) : Json :=
  .obj (Json.field "id" (.str d.code) ++ Json.field "severity" (.str d.severity.render) ++
    Json.field "message" (.str d.message) ++ Json.field "document" (.str d.document) ++
    Json.fieldIfSome "node" (d.node.map NodeId.toJson))

def decode : Json.Decoder Diagnostic := fun scope j => do
  let r ← Json.record ["id", "severity", "message", "document", "node"] scope j
  let code ← r.required "id" Json.text
  let severity ← r.required "severity" (Json.choice Severity.names)
  let message ← r.required "message" Json.text
  let document ← r.required "document" Json.text
  let node ← r.optional "node" NodeId.decode
  return { code, severity, message, document, node }

end Diagnostic
end Unweave

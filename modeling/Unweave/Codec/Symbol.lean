import Unweave.Json.Decode
import Unweave.Json.Encode
import Unweave.Symbol

/-!
# JSON form of symbols
-/

namespace Unweave

open Json (field fieldIfSome listUnlessEmpty)

namespace NodeId

def toJson (id : NodeId) : Json := .ofWord id.val

def decode : Json.Decoder NodeId := fun scope j => (Json.word scope j).map NodeId.mk

end NodeId

namespace SymbolKind

def names : List (String × SymbolKind) :=
  [("named", .named), ("tuple", .tuple), ("array", .array), ("type_parameter", .typeParameter),
    ("error", .error)]

def render : SymbolKind → String
  | .named => "named"
  | .tuple => "tuple"
  | .array => "array"
  | .typeParameter => "type_parameter"
  | .error => "error"

end SymbolKind

namespace TypeSymbol

mutual

def toJson : TypeSymbol → Json
  | ⟨kind, name, space, assembly, arguments⟩ =>
    .obj (field "kind" (.str kind.render) ++ field "name" (.str name) ++
      fieldIfSome "namespace" (space.map .str) ++ field "assembly" (.str assembly) ++
      listUnlessEmpty "type_arguments" (toJsons arguments))

def toJsons : List TypeSymbol → List Json
  | [] => []
  | s :: ss => toJson s :: toJsons ss

end

/-- A symbol whose arguments `argument` decodes. -/
def decodeWith (argument : Json → Option TypeSymbol) : Json.Decoder TypeSymbol :=
  fun scope j => do
    let r ← Json.record ["kind", "name", "namespace", "assembly", "type_arguments"] scope j
    let kind ← r.required "kind" (Json.choice SymbolKind.names)
    let name ← r.required "name" Json.text
    let space ← r.optional "namespace" Json.text
    let assembly ← r.default "assembly" "" Json.text
    let arguments ← r.default "type_arguments" [] (Json.list fun _ => argument)
    return { kind, name, space, assembly, arguments }

/-- A symbol opens a level for itself and one for its arguments. -/
def decodeFrom (whole : Bool) : Nat → Json → Option TypeSymbol
  | 0, _ => none
  | 1, j => decodeWith (fun _ => none) ⟨1, whole⟩ j
  | level + 2, j => decodeWith (decodeFrom whole level) ⟨level + 2, whole⟩ j

def decode : Json.Decoder TypeSymbol := fun scope j => decodeFrom scope.whole scope.level j

end TypeSymbol

namespace SymbolRef

def toJson (r : SymbolRef) : Json :=
  .obj (field "name" (.str r.name) ++ fieldIfSome "container" (r.container.map .str) ++
    fieldIfSome "namespace" (r.space.map .str) ++
    fieldIfSome "declaration" (r.declaration.map NodeId.toJson))

def decode : Json.Decoder SymbolRef := fun scope j => do
  let r ← Json.record ["name", "container", "namespace", "declaration"] scope j
  let name ← r.required "name" Json.text
  let container ← r.optional "container" Json.text
  let space ← r.optional "namespace" Json.text
  let declaration ← r.optional "declaration" NodeId.decode
  return { name, container, space, declaration }

end SymbolRef
end Unweave

import Unweave.Codec.Symbol
import Unweave.Tree.Basic

/-!
# JSON form of trees

A member carries the name of its kind in the field `decl`, an accessor list in the field `style`.
Members nest, so decoding one recurs on the levels that it may still open.
-/

namespace Unweave

open Json (field fieldIfSome listUnlessEmpty)

namespace TriviaKind

def names : List (String × TriviaKind) :=
  [("whitespace", .whitespace), ("comment", .comment), ("region_directive", .regionDirective),
    ("end_region_directive", .endRegionDirective), ("directive", .directive)]

def render : TriviaKind → String
  | .whitespace => "whitespace"
  | .comment => "comment"
  | .regionDirective => "region_directive"
  | .endRegionDirective => "end_region_directive"
  | .directive => "directive"

end TriviaKind

namespace Trivia

def toJson (t : Trivia) : Json :=
  .obj (field "kind" (.str t.kind.render) ++ field "text" (.str t.text))

def decode : Json.Decoder Trivia := fun scope j => do
  let r ← Json.record ["kind", "text"] scope j
  let kind ← r.required "kind" (Json.choice TriviaKind.names)
  let text ← r.required "text" Json.text
  return { kind, text }

end Trivia

namespace TypeSyntax

def toJson (t : TypeSyntax) : Json :=
  .obj (field "text" (.str t.text) ++ field "symbol" t.symbol.toJson)

def decode : Json.Decoder TypeSyntax := fun scope j => do
  let r ← Json.record ["text", "symbol"] scope j
  let text ← r.required "text" Json.text
  let symbol ← r.required "symbol" TypeSymbol.decode
  return { text, symbol }

end TypeSyntax

namespace Expression

def toJson (e : Expression) : Json :=
  .obj (field "text" (.str e.text) ++ fieldIfSome "resolved_type" (e.type.map TypeSymbol.toJson) ++
    fieldIfSome "symbol" (e.symbol.map SymbolRef.toJson))

def decode : Json.Decoder Expression := fun scope j => do
  let r ← Json.record ["text", "resolved_type", "symbol"] scope j
  let text ← r.required "text" Json.text
  let type ← r.optional "resolved_type" TypeSymbol.decode
  let symbol ← r.optional "symbol" SymbolRef.decode
  return { text, type, symbol }

end Expression

def BodyKind.names : List (String × BodyKind) := [("block", .block), ("arrow", .arrow)]

def BodyKind.render : BodyKind → String
  | .block => "block"
  | .arrow => "arrow"

namespace Body

def toJson (b : Body) : Json :=
  .obj (field "kind" (.str b.kind.render) ++ field "text" (.str b.text) ++
    listUnlessEmpty "expressions" (b.expressions.map Expression.toJson))

def decode : Json.Decoder Body := fun scope j => do
  let r ← Json.record ["kind", "text", "expressions"] scope j
  let kind ← r.required "kind" (Json.choice BodyKind.names)
  let text ← r.required "text" Json.text
  let expressions ← r.default "expressions" [] (Json.list Expression.decode)
  return { kind, text, expressions }

end Body

def leadingJson (ts : List Trivia) : List (String × Json) :=
  listUnlessEmpty "leading_trivia" (ts.map Trivia.toJson)

def closingJson (ts : List Trivia) : List (String × Json) :=
  listUnlessEmpty "close_trivia" (ts.map Trivia.toJson)

def decodeId (r : Json.Record) : Option NodeId := r.default "id" .unassigned NodeId.decode

def decodeLeading (r : Json.Record) : Option (List Trivia) :=
  r.default "leading_trivia" [] (Json.list Trivia.decode)

def decodeClosing (r : Json.Record) : Option (List Trivia) :=
  r.default "close_trivia" [] (Json.list Trivia.decode)

namespace Using

def toJson (u : Using) : Json :=
  .obj (field "id" u.id.toJson ++ leadingJson u.leading ++ field "name" (.str u.name) ++
    fieldIfSome "alias" (u.shorthand.map .str) ++ field "is_static" (.bool u.isStatic))

def decode : Json.Decoder Using := fun scope j => do
  let r ← Json.record ["id", "leading_trivia", "name", "alias", "is_static"] scope j
  let id ← decodeId r
  let leading ← decodeLeading r
  let name ← r.required "name" Json.text
  let shorthand ← r.optional "alias" Json.text
  let isStatic ← r.default "is_static" false Json.flag
  return { id, leading, name, shorthand, isStatic }

end Using

def TypeKind.names : List (String × TypeKind) := [("class", .classKind), ("struct", .structKind)]

namespace Parameter

def toJson (p : Parameter) : Json :=
  .obj (field "name" (.str p.name) ++ field "ty" p.type.toJson ++
    field "is_this" (.bool p.isThis))

def decode : Json.Decoder Parameter := fun scope j => do
  let r ← Json.record ["name", "ty", "is_this"] scope j
  let name ← r.required "name" Json.text
  let type ← r.required "ty" TypeSyntax.decode
  let isThis ← r.default "is_this" false Json.flag
  return { name, type, isThis }

end Parameter

namespace Accessors

def toJson : Accessors → Json
  | auto setter => .obj (field "style" (.str "auto") ++ field "setter" (.bool setter))
  | arrow body => .obj (field "style" (.str "arrow") ++ field "body" body.toJson)
  | explicit getter setter =>
    .obj (field "style" (.str "explicit") ++ field "getter" (.orNull (getter.map Body.toJson)) ++
      field "setter" (.orNull (setter.map Body.toJson)))

def decode : Json.Decoder Accessors := fun scope j => do
  let (style, rest) ← Json.tagged "style" ["auto", "arrow", "explicit"] scope j
  match style with
  | "auto" =>
    let r ← Json.record ["setter"] scope rest
    return auto (← r.required "setter" Json.flag)
  | "arrow" =>
    let r ← Json.record ["body"] scope rest
    return arrow (← r.required "body" Body.decode)
  | _ =>
    let r ← Json.record ["getter", "setter"] scope rest
    return explicit (← r.nullableField "getter" Body.decode) (← r.nullableField "setter" Body.decode)

end Accessors

namespace Variable

def toJson (v : Variable) : Json :=
  .obj (field "name" (.str v.name) ++ fieldIfSome "initializer" (v.initializer.map Body.toJson))

def decode : Json.Decoder Variable := fun scope j => do
  let r ← Json.record ["name", "initializer"] scope j
  let name ← r.required "name" Json.text
  let initializer ← r.optional "initializer" Body.decode
  return { name, initializer }

end Variable

namespace Form

def tag : Form → String
  | delegate .. => "delegate"
  | method .. => "method"
  | property .. => "property"
  | constructor .. => "constructor"
  | field .. => "field"

def fields : Form → List (String × Json)
  | delegate name tps result ps =>
    Json.field "name" (.str name) ++ listUnlessEmpty "type_parameters" (tps.map .str) ++
      Json.field "return_type" result.toJson ++
      Json.field "parameters" (.arr (ps.map Parameter.toJson))
  | method name tps result ps body =>
    Json.field "name" (.str name) ++ listUnlessEmpty "type_parameters" (tps.map .str) ++
      Json.field "return_type" result.toJson ++
      Json.field "parameters" (.arr (ps.map Parameter.toJson)) ++
      fieldIfSome "body" (body.map Body.toJson)
  | property name type accessors =>
    Json.field "name" (.str name) ++ Json.field "ty" type.toJson ++
      Json.field "accessors" accessors.toJson
  | constructor name ps body =>
    Json.field "name" (.str name) ++ Json.field "parameters" (.arr (ps.map Parameter.toJson)) ++
      fieldIfSome "body" (body.map Body.toJson)
  | field type vs =>
    Json.field "ty" type.toJson ++ Json.field "variables" (.arr (vs.map Variable.toJson))

/-- The fields a leaf of this kind has of its own. -/
def fieldNames : String → List String
  | "delegate" => ["name", "type_parameters", "return_type", "parameters"]
  | "method" => ["name", "type_parameters", "return_type", "parameters", "body"]
  | "property" => ["name", "ty", "accessors"]
  | "constructor" => ["name", "parameters", "body"]
  | _ => ["ty", "variables"]

def decode (tag : String) (r : Json.Record) : Option Form :=
  match tag with
  | "delegate" => do
    let name ← r.required "name" Json.text
    let tps ← r.default "type_parameters" [] (Json.list Json.text)
    let result ← r.required "return_type" TypeSyntax.decode
    let ps ← r.default "parameters" [] (Json.list Parameter.decode)
    return delegate name tps result ps
  | "method" => do
    let name ← r.required "name" Json.text
    let tps ← r.default "type_parameters" [] (Json.list Json.text)
    let result ← r.required "return_type" TypeSyntax.decode
    let ps ← r.default "parameters" [] (Json.list Parameter.decode)
    let body ← r.optional "body" Body.decode
    return method name tps result ps body
  | "property" => do
    let name ← r.required "name" Json.text
    let type ← r.required "ty" TypeSyntax.decode
    let accessors ← r.required "accessors" Accessors.decode
    return property name type accessors
  | "constructor" => do
    let name ← r.required "name" Json.text
    let ps ← r.default "parameters" [] (Json.list Parameter.decode)
    let body ← r.optional "body" Body.decode
    return constructor name ps body
  | _ => do
    let type ← r.required "ty" TypeSyntax.decode
    let vs ← r.required "variables" (Json.list Variable.decode)
    return field type vs

end Form

namespace Leaf

def toJson (l : Leaf) : Json :=
  .obj (field "decl" (.str l.form.tag) ++ field "id" l.id.toJson ++ leadingJson l.leading ++
    field "modifiers" (.strings l.modifiers) ++ l.form.fields)

def decode (tag : String) : Json.Decoder Leaf := fun scope j => do
  let r ← Json.record (["id", "leading_trivia", "modifiers"] ++ Form.fieldNames tag) scope j
  let id ← decodeId r
  let leading ← decodeLeading r
  let modifiers ← r.default "modifiers" [] (Json.list Json.text)
  let form ← Form.decode tag r
  return { id, leading, modifiers, form }

end Leaf

namespace Member

mutual

def toJson : Member → Json
  | block head members =>
    .obj (field "decl" (.str "namespace") ++ field "id" head.id.toJson ++
      leadingJson head.leading ++ field "name" (.str head.name) ++
      field "usings" (.arr (head.usings.map Using.toJson)) ++
      field "members" (.arr (toJsons members)) ++ closingJson head.closing)
  | type head members =>
    .obj (field "decl" (.str "type") ++ field "id" head.id.toJson ++ leadingJson head.leading ++
      field "kind" (.str head.kind.keyword) ++ field "modifiers" (.strings head.modifiers) ++
      field "name" (.str head.name) ++
      listUnlessEmpty "type_parameters" (head.typeParameters.map .str) ++
      listUnlessEmpty "base_list" (head.bases.map TypeSyntax.toJson) ++
      field "members" (.arr (toJsons members)) ++ closingJson head.closing)
  | leaf l => l.toJson

def toJsons : List Member → List Json
  | [] => []
  | m :: ms => toJson m :: toJsons ms

end

def decodeBlock (inner : Json → Option Member) : Json.Decoder Member := fun scope j => do
  let r ← Json.record ["id", "leading_trivia", "name", "usings", "members", "close_trivia"] scope j
  let id ← decodeId r
  let leading ← decodeLeading r
  let name ← r.required "name" Json.text
  let usings ← r.default "usings" [] (Json.list Using.decode)
  let members ← r.default "members" [] (Json.list fun _ => inner)
  let closing ← decodeClosing r
  return block { id, leading, name, usings, closing } members

/-- The head of a type and its members. -/
def decodeType (inner : Json → Option Member) : Json.Decoder (TypeHead × List Member) :=
  fun scope j => do
    let r ← Json.record
      ["id", "leading_trivia", "kind", "modifiers", "name", "type_parameters", "base_list",
        "members", "close_trivia"] scope j
    let id ← decodeId r
    let leading ← decodeLeading r
    let kind ← r.required "kind" (Json.choice TypeKind.names)
    let modifiers ← r.default "modifiers" [] (Json.list Json.text)
    let name ← r.required "name" Json.text
    let typeParameters ← r.default "type_parameters" [] (Json.list Json.text)
    let bases ← r.default "base_list" [] (Json.list TypeSyntax.decode)
    let members ← r.default "members" [] (Json.list fun _ => inner)
    let closing ← decodeClosing r
    return ({ id, leading, kind, modifiers, name, typeParameters, bases, closing }, members)

def tags : List String :=
  ["namespace", "type", "delegate", "method", "property", "constructor", "field"]

/-- A member whose own members `inner` decodes.  Its tag is looked for in the value as a whole. -/
def decodeWith (inner : Json → Option Member) : Json.Decoder Member := fun scope j => do
  let (tag, rest) ← Json.tagged "decl" tags scope j
  let scope := { scope with whole := true }
  match tag with
  | "namespace" => decodeBlock inner scope rest
  | "type" => (decodeType inner scope rest).map fun (head, members) => type head members
  | _ => (Leaf.decode tag scope rest).map leaf

/-- A member opens a level for itself and one for its members. -/
def decodeFrom : Nat → Bool → Json → Option Member
  | 0, _, _ => none
  | 1, whole, j => decodeWith (fun _ => none) ⟨1, whole⟩ j
  | level + 2, whole, j => decodeWith (decodeFrom level true) ⟨level + 2, whole⟩ j

def decode : Json.Decoder Member := fun scope j => decodeFrom scope.level scope.whole j

end Member

namespace Root

def toJson (r : Root) : Json :=
  .obj (field "usings" (.arr (r.usings.map Using.toJson)) ++
    field "members" (.arr (Member.toJsons r.members)) ++
    listUnlessEmpty "end_trivia" (r.ending.map Trivia.toJson))

def decode : Json.Decoder Root := fun scope j => do
  let r ← Json.record ["usings", "members", "end_trivia"] scope j
  let usings ← r.default "usings" [] (Json.list Using.decode)
  let members ← r.default "members" [] (Json.list Member.decode)
  let ending ← r.default "end_trivia" [] (Json.list Trivia.decode)
  return { usings, members, ending }

end Root
end Unweave

import Unweave.Codec.Tree
import Unweave.Proofs.Decoding
import Unweave.Proofs.Trees

/-!
# What is written of a tree is read back

Every part of a tree has a plain JSON form, and its decoder gives the part back from that form
(`TypeSymbol.gives`, …, `Root.gives`).  For most parts this reads the fields off one by one.

Symbols and members nest.  Their decoders recur on levels, two of them for each step down: one for
the object and one for the list in it.  A value with a list inside it is at least that deep, so the
recursion ends at a level too low for a list only where there is no list.
-/

namespace Unweave

open Json (Decoder Fits Gives Plain)

/-! ## Symbols -/

namespace NodeId

@[simp]
theorem plain_toJson (id : NodeId) : Plain id.toJson := Json.plain_ofWord id.val

theorem gives (id : NodeId) : Gives decode id.toJson id := (Gives.word id.val).map NodeId.mk

end NodeId

namespace TypeSymbol

theorem toJsons_eq_map (ss : List TypeSymbol) : toJsons ss = ss.map toJson := by
  induction ss with
  | nil => rfl
  | cons s ss ih => rw [toJsons, ih, List.map_cons]

theorem argumentInduction {P : TypeSymbol → Prop}
    (step : ∀ s : TypeSymbol, (∀ a ∈ s.arguments, P a) → P s) (s : TypeSymbol) : P s := by
  cases s
  exact step _ fun a _ => argumentInduction step a

@[simp]
theorem plain_toJson (s : TypeSymbol) : Plain s.toJson := by
  induction s using argumentInduction with
  | step s ih =>
    obtain ⟨kind, name, space, assembly, arguments⟩ := s
    simpa [toJson, toJsons_eq_map] using ih

theorem lookup_names (kind : SymbolKind) : SymbolKind.names.lookup kind.render = some kind := by
  cases kind <;> rfl

/-- A symbol is decoded if its arguments are. -/
theorem decodeWith_toJson {argument : Json → Option TypeSymbol} {level : Nat} {whole : Bool}
    (s : TypeSymbol) (hdepth : s.toJson.depth ≤ level + 1)
    (hargs : ∀ fields, Json.Record.Within ⟨⟨level, whole⟩, false, fields⟩ →
      fields.lookup "type_arguments" = Json.unlessEmpty (s.arguments.map toJson) →
      Json.Record.default ⟨⟨level, whole⟩, false, fields⟩ "type_arguments" []
        (Json.list fun _ => argument) = some s.arguments) :
    decodeWith argument ⟨level + 1, whole⟩ s.toJson = some s := by
  obtain ⟨kind, name, space, assembly, arguments⟩ := s
  refine Json.record_bind (by decide)
    (.append (.append (.append (.append (.field ..) (.field ..)) (.ifSome ..)) (.field ..))
      (.listed ..)) hdepth fun hr => ?_
  rw [hr.required "kind" (.choice (lookup_names kind)) (by simp),
    hr.required "name" (.text name) (by simp),
    hr.optional "namespace" space .text (fun _ => nofun) (by simp),
    hr.default "assembly" (.text assembly) (by simp),
    hargs _ hr (by simp [toJsons_eq_map])]
  rfl

theorem gives (s : TypeSymbol) : Gives decode s.toJson s := by
  induction s using argumentInduction with
  | step s ih =>
    rintro ⟨level, whole⟩ hdepth
    match level with
    | 0 =>
      cases s
      exact absurd hdepth (Nat.not_succ_le_zero _)
    | 1 =>
      refine decodeWith_toJson s hdepth fun fields hr hj => ?_
      -- There is no level left for a list, so there are no arguments.
      cases hargs : s.arguments with
      | nil =>
        rw [hargs] at hj
        rw [Json.Record.default, hj]
        rfl
      | cons a as =>
        rw [hargs] at hj
        have hle : (Json.arr ((a :: as).map toJson)).depth ≤ 0 :=
          Nat.le_trans (Json.depth_le_depthFields hj) hr
        simp [Json.depth] at hle
    | level + 2 =>
      refine decodeWith_toJson s hdepth fun fields hr hj => ?_
      have hsame : (fun _ => decodeFrom whole level : Decoder TypeSymbol) ⟨level, whole⟩ =
          decode ⟨level, whole⟩ := rfl
      rw [Json.Record.default_list_congr hsame]
      exact hr.defaultList "type_arguments" s.arguments ih hj

end TypeSymbol

namespace SymbolRef

@[simp]
theorem plain_toJson (s : SymbolRef) : Plain s.toJson := by simp [toJson]

theorem gives (s : SymbolRef) : Gives decode s.toJson s := by
  refine .record (by decide)
    (.append (.append (.append (.field ..) (.ifSome ..)) (.ifSome ..)) (.ifSome ..))
    fun scope hr => ?_
  rw [hr.required "name" (.text s.name) (by simp),
    hr.optional "container" s.container .text (fun _ => nofun) (by simp),
    hr.optional "namespace" s.space .text (fun _ => nofun) (by simp),
    hr.optional "declaration" s.declaration NodeId.gives (fun _ => nofun) (by simp)]
  rfl

end SymbolRef

/-! ## Parts of declarations -/

namespace Trivia

@[simp]
theorem plain_toJson (t : Trivia) : Plain t.toJson := by simp [toJson]

theorem gives (t : Trivia) : Gives decode t.toJson t := by
  refine .record (by decide) (.append (.field ..) (.field ..)) fun scope hr => ?_
  have hkind : TriviaKind.names.lookup t.kind.render = some t.kind := by cases t.kind <;> rfl
  rw [hr.required "kind" (.choice hkind) (by simp), hr.required "text" (.text t.text) (by simp)]
  rfl

end Trivia

namespace TypeSyntax

@[simp]
theorem plain_toJson (t : TypeSyntax) : Plain t.toJson := by simp [toJson]

theorem gives (t : TypeSyntax) : Gives decode t.toJson t := by
  refine .record (by decide) (.append (.field ..) (.field ..)) fun scope hr => ?_
  rw [hr.required "text" (.text t.text) (by simp),
    hr.required "symbol" t.symbol.gives (by simp)]
  rfl

end TypeSyntax

namespace Expression

@[simp]
theorem plain_toJson (e : Expression) : Plain e.toJson := by simp [toJson]

theorem gives (e : Expression) : Gives decode e.toJson e := by
  refine .record (by decide) (.append (.append (.field ..) (.ifSome ..)) (.ifSome ..))
    fun scope hr => ?_
  rw [hr.required "text" (.text e.text) (by simp),
    hr.optional "resolved_type" e.type TypeSymbol.gives (fun s h => by cases s; cases h) (by simp),
    hr.optional "symbol" e.symbol SymbolRef.gives (fun _ h => by cases h) (by simp)]
  rfl

end Expression

namespace Body

@[simp]
theorem plain_toJson (b : Body) : Plain b.toJson := by simp [toJson]

theorem gives (b : Body) : Gives decode b.toJson b := by
  refine .record (by decide) (.append (.append (.field ..) (.field ..)) (.listed ..))
    fun scope hr => ?_
  have hkind : BodyKind.names.lookup b.kind.render = some b.kind := by cases b.kind <;> rfl
  rw [hr.required "kind" (.choice hkind) (by simp), hr.required "text" (.text b.text) (by simp),
    hr.defaultList "expressions" b.expressions (fun e _ => e.gives) (by simp)]
  rfl

end Body

namespace Parameter

@[simp]
theorem plain_toJson (p : Parameter) : Plain p.toJson := by simp [toJson]

theorem gives (p : Parameter) : Gives decode p.toJson p := by
  refine .record (by decide) (.append (.append (.field ..) (.field ..)) (.field ..))
    fun scope hr => ?_
  rw [hr.required "name" (.text p.name) (by simp), hr.required "ty" p.type.gives (by simp),
    hr.default "is_this" (.flag p.isThis) (by simp)]
  rfl

end Parameter

namespace Variable

@[simp]
theorem plain_toJson (v : Variable) : Plain v.toJson := by simp [toJson]

theorem gives (v : Variable) : Gives decode v.toJson v := by
  refine .record (by decide) (.append (.field ..) (.ifSome ..)) fun scope hr => ?_
  rw [hr.required "name" (.text v.name) (by simp),
    hr.optional "initializer" v.initializer Body.gives (fun _ => nofun) (by simp)]
  rfl

end Variable

namespace Accessors

@[simp]
theorem plain_toJson (a : Accessors) : Plain a.toJson := by
  cases a <;> simp [toJson]

theorem gives (a : Accessors) : Gives decode a.toJson a := by
  intro scope hdepth
  cases a with
  | auto setter =>
    refine Json.tagged_bind (by decide) (by decide) (.field "setter" _) (by simp) hdepth
      fun hle => ?_
    refine Gives.record (by decide) (.field "setter" _) (fun scope hr => ?_) scope hle
    rw [hr.required "setter" (.flag setter) (by simp)]
    rfl
  | arrow body =>
    refine Json.tagged_bind (by decide) (by decide) (.field "body" _) (by simp) hdepth
      fun hle => ?_
    refine Gives.record (by decide) (.field "body" _) (fun scope hr => ?_) scope hle
    rw [hr.required "body" body.gives (by simp)]
    rfl
  | explicit getter setter =>
    refine Json.tagged_bind (by decide) (by decide)
      (.append (.field "getter" _) (.field "setter" _)) (by simp) hdepth fun hle => ?_
    refine Gives.record (by decide) (.append (.field "getter" _) (.field "setter" _))
      (fun scope hr => ?_) scope hle
    rw [hr.nullableField "getter" getter Body.gives (fun _ => nofun) (by simp),
      hr.nullableField "setter" setter Body.gives (fun _ => nofun) (by simp)]
    rfl

end Accessors

/-! ## Declarations -/

section Common

variable {r : Json.Record} (hr : r.Within)
include hr

theorem decodeId_eq (id : NodeId) (hj : r.fields.lookup "id" = some id.toJson) :
    decodeId r = some id :=
  hr.default "id" id.gives hj

theorem decodeLeading_eq (ts : List Trivia)
    (hj : r.fields.lookup "leading_trivia" = Json.unlessEmpty (ts.map Trivia.toJson)) :
    decodeLeading r = some ts :=
  hr.defaultList "leading_trivia" ts (fun t _ => t.gives) hj

theorem decodeClosing_eq (ts : List Trivia)
    (hj : r.fields.lookup "close_trivia" = Json.unlessEmpty (ts.map Trivia.toJson)) :
    decodeClosing r = some ts :=
  hr.defaultList "close_trivia" ts (fun t _ => t.gives) hj

end Common

namespace Using

@[simp]
theorem plain_toJson (u : Using) : Plain u.toJson := by simp [toJson, leadingJson]

theorem gives (u : Using) : Gives decode u.toJson u := by
  refine .record (by decide)
    (.append (.append (.append (.append (.field ..) (.listed ..)) (.field ..)) (.ifSome ..))
      (.field ..)) fun scope hr => ?_
  rw [decodeId_eq hr u.id (by simp [leadingJson]),
    decodeLeading_eq hr u.leading (by simp [leadingJson]),
    hr.required "name" (.text u.name) (by simp [leadingJson]),
    hr.optional "alias" u.shorthand .text (fun _ => nofun) (by simp [leadingJson]),
    hr.default "is_static" (.flag u.isStatic) (by simp [leadingJson])]
  rfl

end Using

namespace Form

@[simp]
theorem plainFields (f : Form) : Json.PlainFields f.fields := by
  cases f <;> simp [fields]

theorem fits (f : Form) : Fits (fieldNames f.tag) f.fields := by
  cases f with
  | delegate =>
    exact .append (.append (.append (.field ..) (.listed ..)) (.field ..)) (.field ..)
  | method =>
    exact .append (.append (.append (.append (.field ..) (.listed ..)) (.field ..)) (.field ..))
      (.ifSome ..)
  | property => exact .append (.append (.field ..) (.field ..)) (.field ..)
  | constructor => exact .append (.append (.field ..) (.field ..)) (.ifSome ..)
  | field => exact .append (.field ..) (.field ..)

/-- The form of a leaf is found by the fields of that form, whatever the others are. -/
theorem decode_eq (f : Form) {r : Json.Record} (hr : r.Within)
    (h : ∀ name ∈ fieldNames f.tag, r.fields.lookup name = f.fields.lookup name) :
    decode f.tag r = some f := by
  cases f with
  | delegate name tps result ps =>
    simp only [tag, fieldNames, List.forall_mem_cons] at h
    obtain ⟨hname, htps, hresult, hps, -⟩ := h
    rw [tag, decode, hr.required "name" (.text name) (by simp [hname, fields]),
      hr.defaultList "type_parameters" tps (fun p _ => .text p) (by simp [htps, fields]),
      hr.required "return_type" result.gives (by simp [hresult, fields]),
      hr.default "parameters" (.list ps fun p _ => p.gives) (by simp [hps, fields])]
    rfl
  | method name tps result ps body =>
    simp only [tag, fieldNames, List.forall_mem_cons] at h
    obtain ⟨hname, htps, hresult, hps, hbody, -⟩ := h
    rw [tag, decode, hr.required "name" (.text name) (by simp [hname, fields]),
      hr.defaultList "type_parameters" tps (fun p _ => .text p) (by simp [htps, fields]),
      hr.required "return_type" result.gives (by simp [hresult, fields]),
      hr.default "parameters" (.list ps fun p _ => p.gives) (by simp [hps, fields]),
      hr.optional "body" body Body.gives (fun _ => nofun) (by simp [hbody, fields])]
    rfl
  | property name type accessors =>
    simp only [tag, fieldNames, List.forall_mem_cons] at h
    obtain ⟨hname, htype, haccessors, -⟩ := h
    rw [tag, decode, hr.required "name" (.text name) (by simp [hname, fields]),
      hr.required "ty" type.gives (by simp [htype, fields]),
      hr.required "accessors" accessors.gives (by simp [haccessors, fields])]
    rfl
  | constructor name ps body =>
    simp only [tag, fieldNames, List.forall_mem_cons] at h
    obtain ⟨hname, hps, hbody, -⟩ := h
    rw [tag, decode, hr.required "name" (.text name) (by simp [hname, fields]),
      hr.default "parameters" (.list ps fun p _ => p.gives) (by simp [hps, fields]),
      hr.optional "body" body Body.gives (fun _ => nofun) (by simp [hbody, fields])]
    rfl
  | field type vs =>
    have hnames : fieldNames "field" = ["ty", "variables"] := rfl
    simp only [tag, hnames, List.forall_mem_cons] at h
    obtain ⟨htype, hvs, -⟩ := h
    simp only [tag, decode]
    rw [hr.required "ty" type.gives (by simp [htype, fields]),
      hr.required "variables" (.list vs fun v _ => v.gives) (by simp [hvs, fields])]
    rfl

theorem tag_mem (f : Form) : f.tag ∈ Member.tags := by
  cases f <;> simp [tag, Member.tags]

theorem tag_ne_namespace (f : Form) : f.tag ≠ "namespace" := by
  cases f <;> simp [tag]

theorem tag_ne_type (f : Form) : f.tag ≠ "type" := by
  cases f <;> simp [tag]

end Form

namespace Leaf

/-- The fields that every leaf has. -/
def commonNames : List String := ["id", "leading_trivia", "modifiers"]

theorem nodup_names : ∀ tag ∈ Member.tags, (commonNames ++ Form.fieldNames tag).Nodup := by
  decide

theorem decl_not_mem : ∀ tag ∈ Member.tags, "decl" ∉ commonNames ++ Form.fieldNames tag := by
  decide

/-- What is written of a leaf but for its tag. -/
def ownFields (l : Leaf) : List (String × Json) :=
  Json.field "id" l.id.toJson ++ leadingJson l.leading ++
    Json.field "modifiers" (.strings l.modifiers) ++ l.form.fields

theorem fits (l : Leaf) : Fits (commonNames ++ Form.fieldNames l.form.tag) l.ownFields :=
  .append (.append (.append (.field ..) (.listed ..)) (.field ..)) l.form.fits

theorem gives_ownFields (l : Leaf) : Gives (decode l.form.tag) (.obj l.ownFields) l := by
  have hnodup := nodup_names l.form.tag l.form.tag_mem
  have hdisjoint := List.disjoint_of_nodup_append hnodup
  have hnone : l.form.fields.lookup "leading_trivia" = none :=
    l.form.fits.lookup_eq_none (hdisjoint (by decide))
  refine .record hnodup l.fits fun scope hr => ?_
  have hform : Form.decode l.form.tag _ = some l.form := l.form.decode_eq hr fun name hname => by
    have hne : name ∉ commonNames := fun h => hdisjoint h hname
    simp only [commonNames, List.mem_cons, List.not_mem_nil, or_false, not_or] at hne
    simp [ownFields, leadingJson, hne]
  rw [decodeId_eq hr l.id (by simp [ownFields]),
    decodeLeading_eq hr l.leading (by simp [ownFields, leadingJson, hnone]),
    hr.default "modifiers" (.list l.modifiers fun s _ => .text s)
      (by simp [ownFields, leadingJson]; rfl),
    hform]
  rfl

theorem plainFields (l : Leaf) : Json.PlainFields l.ownFields := by
  simp [ownFields, leadingJson]

end Leaf

namespace Member

theorem toJsons_eq_map (ms : List Member) : toJsons ms = ms.map toJson := by
  induction ms with
  | nil => rfl
  | cons m ms ih => rw [toJsons, ih, List.map_cons]

/-- What is written of a block but for its tag. -/
def blockFields (head : BlockHead) (members : List Member) : List (String × Json) :=
  Json.field "id" head.id.toJson ++ leadingJson head.leading ++
    Json.field "name" (.str head.name) ++
    Json.field "usings" (.arr (head.usings.map Using.toJson)) ++
    Json.field "members" (.arr (members.map toJson)) ++ closingJson head.closing

/-- What is written of a type but for its tag. -/
def typeFields (head : TypeHead) (members : List Member) : List (String × Json) :=
  Json.field "id" head.id.toJson ++ leadingJson head.leading ++
    Json.field "kind" (.str head.kind.keyword) ++
    Json.field "modifiers" (.strings head.modifiers) ++ Json.field "name" (.str head.name) ++
    Json.listUnlessEmpty "type_parameters" (head.typeParameters.map .str) ++
    Json.listUnlessEmpty "base_list" (head.bases.map TypeSyntax.toJson) ++
    Json.field "members" (.arr (members.map toJson)) ++ closingJson head.closing

theorem toJson_block (head : BlockHead) (members : List Member) :
    (block head members).toJson =
      .obj (("decl", .str "namespace") :: blockFields head members) := by
  rw [toJson, toJsons_eq_map]
  rfl

theorem toJson_type (head : TypeHead) (members : List Member) :
    (type head members).toJson = .obj (("decl", .str "type") :: typeFields head members) := by
  rw [toJson, toJsons_eq_map]
  rfl

theorem toJson_leaf (l : Leaf) :
    (leaf l).toJson = .obj (("decl", .str l.form.tag) :: l.ownFields) := by
  rw [toJson]
  rfl

theorem plain_blockFields {head : BlockHead} {members : List Member}
    (h : ∀ m ∈ members, Plain m.toJson) : Json.PlainFields (blockFields head members) := by
  simpa [blockFields, leadingJson, closingJson] using h

theorem plain_typeFields {head : TypeHead} {members : List Member}
    (h : ∀ m ∈ members, Plain m.toJson) : Json.PlainFields (typeFields head members) := by
  simpa [typeFields, leadingJson, closingJson] using h

theorem plain_toJson (ms : List Member) : ∀ m ∈ ms, Plain m.toJson := by
  induction ms using listInduction with
  | nil => exact nofun
  | block head inner ms hinner ih =>
    refine List.forall_mem_cons.2 ⟨?_, ih⟩
    rw [toJson_block]
    simpa using plain_blockFields hinner
  | type head inner ms hinner ih =>
    refine List.forall_mem_cons.2 ⟨?_, ih⟩
    rw [toJson_type]
    simpa using plain_typeFields hinner
  | leaf l ms ih =>
    refine List.forall_mem_cons.2 ⟨?_, ih⟩
    rw [toJson_leaf]
    simpa using l.plainFields

theorem fits_blockFields (head : BlockHead) (members : List Member) :
    Fits ["id", "leading_trivia", "name", "usings", "members", "close_trivia"]
      (blockFields head members) :=
  .append (.append (.append (.append (.append (.field ..) (.listed ..)) (.field ..)) (.field ..))
    (.field ..)) (.listed ..)

theorem fits_typeFields (head : TypeHead) (members : List Member) :
    Fits ["id", "leading_trivia", "kind", "modifiers", "name", "type_parameters", "base_list",
      "members", "close_trivia"] (typeFields head members) :=
  .append (.append (.append (.append (.append (.append (.append (.append (.field ..) (.listed ..))
    (.field ..)) (.field ..)) (.field ..)) (.listed ..)) (.listed ..)) (.field ..)) (.listed ..)

section Step

variable {members : List Member} {level : Nat}

/-- The members of a block or type are decoded two levels down, if every one can be. -/
theorem default_members (h : ∀ m ∈ members, Gives decode m.toJson m)
    {fields : List (String × Json)}
    (hr : Json.Record.Within ⟨⟨level + 1, true⟩, false, fields⟩)
    (hj : fields.lookup "members" = some (.arr (members.map toJson))) :
    Json.Record.default ⟨⟨level + 1, true⟩, false, fields⟩ "members" []
      (Json.list fun _ => decodeFrom level true) = some members := by
  have hsame : (fun _ => decodeFrom level true : Decoder Member) ⟨level, true⟩ =
      decode ⟨level, true⟩ := rfl
  rw [Json.Record.default_list_congr hsame]
  exact hr.default "members" (.list members h) hj

theorem decodeBlock_blockFields (head : BlockHead) (h : ∀ m ∈ members, Gives decode m.toJson m)
    (hdepth : (Json.obj (blockFields head members)).depth ≤ level + 2) :
    decodeBlock (decodeFrom level true) ⟨level + 2, true⟩ (.obj (blockFields head members)) =
      some (block head members) := by
  refine Json.record_bind (by decide) (fits_blockFields head members) hdepth fun hr => ?_
  rw [decodeId_eq hr head.id (by simp [blockFields]),
    decodeLeading_eq hr head.leading (by simp [blockFields, leadingJson, closingJson]),
    hr.required "name" (.text head.name) (by simp [blockFields, leadingJson]),
    hr.default "usings" (.list head.usings fun u _ => u.gives)
      (by simp [blockFields, leadingJson]),
    default_members h hr (by simp [blockFields, leadingJson]),
    decodeClosing_eq hr head.closing (by simp [blockFields, leadingJson, closingJson])]
  rfl

theorem decodeType_typeFields (head : TypeHead) (h : ∀ m ∈ members, Gives decode m.toJson m)
    (hdepth : (Json.obj (typeFields head members)).depth ≤ level + 2) :
    decodeType (decodeFrom level true) ⟨level + 2, true⟩ (.obj (typeFields head members)) =
      some (head, members) := by
  have hkind : TypeKind.names.lookup head.kind.keyword = some head.kind := by
    cases head.kind <;> rfl
  refine Json.record_bind (by decide) (fits_typeFields head members) hdepth fun hr => ?_
  rw [decodeId_eq hr head.id (by simp [typeFields]),
    decodeLeading_eq hr head.leading (by simp [typeFields, leadingJson, closingJson]),
    hr.required "kind" (.choice hkind) (by simp [typeFields, leadingJson]),
    hr.default "modifiers" (.list head.modifiers fun s _ => .text s)
      (by simp [typeFields, leadingJson]; rfl),
    hr.required "name" (.text head.name) (by simp [typeFields, leadingJson]),
    hr.defaultList "type_parameters" head.typeParameters (fun s _ => .text s)
      (by simp [typeFields, leadingJson, closingJson]),
    hr.defaultList "base_list" head.bases (fun t _ => t.gives)
      (by simp [typeFields, leadingJson, closingJson]),
    default_members h hr (by simp [typeFields, leadingJson]),
    decodeClosing_eq hr head.closing (by simp [typeFields, leadingJson, closingJson])]
  rfl

end Step

/-- A member has a list in it, so two levels can be taken off. -/
theorem exists_level {tag t name : String} {items : List Json} {fields : List (String × Json)}
    {level : Nat} (hlist : fields.lookup name = some (.arr items))
    (hdepth : (Json.obj ((tag, .str t) :: fields)).depth ≤ level) : ∃ l, level = l + 2 := by
  have hle := Json.depth_le_depthFields hlist
  simp only [Json.depth, Json.depthFields] at hle hdepth
  exact Nat.exists_eq_add_of_le' (by omega)

theorem gives_block (head : BlockHead) {members : List Member}
    (h : ∀ m ∈ members, Gives decode m.toJson m) :
    Gives decode (block head members).toJson (block head members) := by
  rintro ⟨level, whole⟩ hdepth
  rw [toJson_block] at hdepth ⊢
  have hlist : (blockFields head members).lookup "members" =
      some (.arr (members.map toJson)) := by
    simp [blockFields, leadingJson]
  obtain ⟨level, rfl⟩ := exists_level hlist hdepth
  exact Json.tagged_bind (by decide) (by decide) (fits_blockFields head members)
    (plain_blockFields (plain_toJson members)) hdepth (decodeBlock_blockFields head h)

theorem gives_type (head : TypeHead) {members : List Member}
    (h : ∀ m ∈ members, Gives decode m.toJson m) :
    Gives decode (type head members).toJson (type head members) := by
  rintro ⟨level, whole⟩ hdepth
  rw [toJson_type] at hdepth ⊢
  have hlist : (typeFields head members).lookup "members" =
      some (.arr (members.map toJson)) := by
    simp [typeFields, leadingJson]
  obtain ⟨level, rfl⟩ := exists_level hlist hdepth
  refine Json.tagged_bind (by decide) (by decide) (fits_typeFields head members)
    (plain_typeFields (plain_toJson members)) hdepth fun hle => ?_
  have htype := decodeType_typeFields head h hle
  show (decodeType _ _ _).map _ = _
  rw [htype]
  rfl

theorem gives_leaf (l : Leaf) : Gives decode (leaf l).toJson (leaf l) := by
  rintro ⟨level, whole⟩ hdepth
  rw [toJson_leaf] at hdepth ⊢
  have hlist : l.ownFields.lookup "modifiers" = some (.arr (l.modifiers.map .str)) := by
    simp [Leaf.ownFields, leadingJson]
    rfl
  obtain ⟨level, rfl⟩ := exists_level hlist hdepth
  refine Json.tagged_bind l.form.tag_mem (Leaf.decl_not_mem l.form.tag l.form.tag_mem) l.fits
    l.plainFields hdepth fun hle => ?_
  have hleaf : Leaf.decode l.form.tag ⟨level + 2, true⟩ (.obj l.ownFields) = some l :=
    l.gives_ownFields _ hle
  dsimp only
  split
  · next htag => exact absurd htag l.form.tag_ne_namespace
  · next htag => exact absurd htag l.form.tag_ne_type
  · rw [hleaf]
    rfl

theorem gives_all (ms : List Member) : ∀ m ∈ ms, Gives decode m.toJson m := by
  induction ms using listInduction with
  | nil => exact nofun
  | block head inner ms hinner ih => exact List.forall_mem_cons.2 ⟨gives_block head hinner, ih⟩
  | type head inner ms hinner ih => exact List.forall_mem_cons.2 ⟨gives_type head hinner, ih⟩
  | leaf l ms ih => exact List.forall_mem_cons.2 ⟨gives_leaf l, ih⟩

theorem gives (m : Member) : Gives decode m.toJson m := gives_all [m] m (List.mem_singleton_self m)

end Member

namespace Root

@[simp]
theorem plain_toJson (r : Root) : Plain r.toJson := by
  simpa [toJson, Member.toJsons_eq_map] using Member.plain_toJson r.members

theorem gives (r : Root) : Gives decode r.toJson r := by
  refine .record (by decide) (.append (.append (.field ..) (.field ..)) (.listed ..))
    fun scope hr => ?_
  rw [hr.default "usings" (.list r.usings fun u _ => u.gives) (by simp),
    hr.default "members" (.list r.members fun m _ => m.gives)
      (by simp [Member.toJsons_eq_map]),
    hr.defaultList "end_trivia" r.ending (fun t _ => t.gives) (by simp)]
  rfl

end Root
end Unweave

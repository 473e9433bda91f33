import Unweave.Proofs.Completeness
import Unweave.Proofs.KeyContents

/-!
# Which members share a package

The package of an interwoven member is named after the type around it: namespace, name and arity,
but not the types around that type.  If names of types hold no dot, bracket or blank, and no
namespace block stands in a type, then members that share a package stand in types that agree in
namespace, name and arity (`Extraction.members_share_owner`).  The types around these may differ,
and without these conditions so may the rest (`Extraction.members_share_across_types`).
-/

namespace Unweave

/-! ## The type around a declaration -/

namespace Entry

/-- The entry is the type around another one. -/
def IsAround (house e : Entry) : Prop :=
  match house.declaration with
  | .type head _ => e.container = some head
  | .leaf _ => False

instance (house e : Entry) : Decidable (house.IsAround e) :=
  match h : house.declaration with
  | .type head _ => decidable_of_iff (e.container = some head) (by rw [IsAround, h])
  | .leaf _ => isFalse (by rw [IsAround, h]; exact not_false)

/-- Namespace, name and arity of a type. -/
def typeName? (e : Entry) : Option TypeName :=
  match e.declaration with
  | .type head _ => some ⟨e.space, head.name, head.arity⟩
  | .leaf _ => none

/-- The type around a declaration is among some entries, in the same namespace. -/
def HousedIn (es : List Entry) (e : Entry) : Prop :=
  ∃ house ∈ es, house.IsAround e ∧ house.space = e.space

theorem HousedIn.mono {es es' : List Entry} {e : Entry} (hsub : es ⊆ es') (h : e.HousedIn es) :
    e.HousedIn es' := by
  obtain ⟨house, hhouse, haround⟩ := h
  exact ⟨house, hsub hhouse, haround⟩

theorem IsAround.exists_head {house e : Entry} (h : house.IsAround e) :
    ∃ head, e.container = some head ∧ house.id = head.id ∧
      house.typeName? = some ⟨house.space, head.name, head.arity⟩ := by
  obtain ⟨declaration, document, container, space, depth⟩ := house
  cases declaration with
  | type head members => exact ⟨head, h, rfl, rfl⟩
  | leaf l => cases h

end Entry

namespace Member

mutual

/-- The namespace blocks that stand in types. -/
def innerBlocks : Member → List NodeId
  | block _ members => innerBlocksAll members
  | type _ members => blockIdsAll members
  | leaf _ => []

def innerBlocksAll : List Member → List NodeId
  | [] => []
  | m :: ms => innerBlocks m ++ innerBlocksAll ms

end

theorem innerBlocksAll_subset (ms : List Member) : innerBlocksAll ms ⊆ blockIdsAll ms := by
  unfold blockIdsAll
  induction ms using listInduction with
  | nil => exact List.nil_subset _
  | block head inner ms ihInner ih =>
    rw [innerBlocksAll, innerBlocks, gatherAll, gather]
    refine List.append_subset.mpr ⟨?_, List.subset_append_of_subset_right _ ih⟩
    exact List.subset_append_of_subset_left _ (List.subset_append_of_subset_right _ ihInner)
  | type head inner ms _ ih =>
    rw [innerBlocksAll, innerBlocks, gatherAll, gather]
    refine List.append_subset.mpr ⟨?_, List.subset_append_of_subset_right _ ih⟩
    exact List.subset_append_left _ _
  | leaf l ms ih =>
    rw [innerBlocksAll, innerBlocks, gatherAll, gather]
    exact List.subset_append_of_subset_right _ ih

end Member

namespace Catalogue

variable {document : DocumentId} {space : String} {container : Option TypeHead} {depth : Nat}
  {ms : List Member} {e : Entry}

/-- Without blocks, all declarations are in one namespace. -/
theorem space_of_mem_collectAll (hblocks : Member.blockIdsAll ms = [])
    (he : e ∈ collectAll document space container depth ms) : e.space = space := by
  unfold Member.blockIdsAll at hblocks
  induction ms using Member.listInduction generalizing container depth with
  | nil => cases he
  | block head inner ms _ _ => cases hblocks
  | type head inner ms ihInner ih =>
    rw [Member.gatherAll, Member.gather, List.nil_append] at hblocks
    obtain ⟨hinner, hms⟩ := List.append_eq_nil_iff.mp hblocks
    rw [collectAll, collect, List.mem_append, List.mem_cons] at he
    rcases he with (rfl | he) | he
    · rfl
    · exact ihInner hinner he
    · exact ih hms he
  | leaf l ms ih =>
    rw [Member.gatherAll, Member.gather, List.nil_append] at hblocks
    rw [collectAll, collect, List.mem_append, List.mem_singleton] at he
    rcases he with rfl | he
    · rfl
    · exact ih hblocks he

/-- A declaration is in the namespace of the type around it, if no block stands in a type. -/
theorem housedIn_of_mem_collectAll (hblocks : Member.innerBlocksAll ms = [])
    (he : e ∈ collectAll document space container depth ms) :
    e.container = container ∨ e.HousedIn (collectAll document space container depth ms) := by
  induction ms using Member.listInduction generalizing space container depth with
  | nil => cases he
  | block head inner ms ihInner ih =>
    rw [Member.innerBlocksAll, Member.innerBlocks] at hblocks
    obtain ⟨hinner, hms⟩ := List.append_eq_nil_iff.mp hblocks
    rw [collectAll, collect] at he ⊢
    rcases List.mem_append.mp he with he | he
    · exact (ihInner hinner he).imp_right (.mono (List.subset_append_left _ _))
    · exact (ih hms he).imp_right (.mono (List.subset_append_right _ _))
  | type head inner ms ihInner ih =>
    rw [Member.innerBlocksAll, Member.innerBlocks] at hblocks
    obtain ⟨hinner, hms⟩ := List.append_eq_nil_iff.mp hblocks
    rw [collectAll, collect] at he ⊢
    rcases List.mem_append.mp he with he | he
    · rcases List.mem_cons.mp he with rfl | he
      · exact .inl rfl
      · right
        refine Entry.HousedIn.mono (List.subset_append_left _ _) ?_
        have hnone : Member.innerBlocksAll inner = [] :=
          List.subset_nil.mp (hinner ▸ Member.innerBlocksAll_subset inner)
        rcases ihInner hnone he with hself | hhoused
        · exact ⟨_, List.mem_cons_self, hself, (space_of_mem_collectAll hinner he).symm⟩
        · exact hhoused.mono (List.subset_cons_self _ _)
    · exact (ih hms he).imp_right (.mono (List.subset_append_right _ _))
  | leaf l ms ih =>
    rw [Member.innerBlocksAll, Member.innerBlocks, List.nil_append] at hblocks
    rw [collectAll, collect] at he ⊢
    rcases List.mem_append.mp he with he | he
    · rw [List.mem_singleton.mp he]
      exact .inl rfl
    · exact (ih hblocks he).imp_right (.mono (List.subset_append_right _ _))

end Catalogue

namespace Project

def innerBlocks (p : Project) : List NodeId :=
  p.documents.flatMap fun d => Member.innerBlocksAll d.root.members

/-- The names of types with members can be told from what stands around them in a key. -/
def TypesNamed (p : Project) : Prop :=
  ∀ e ∈ p.entries, ∀ head ∈ e.container, ' ' ∉ e.space.toList ∧
    '.' ∉ head.name.toList ∧ '<' ∉ head.name.toList ∧ ' ' ∉ head.name.toList
deriving Decidable

/-- The type around a declaration is one, and it is in the same namespace. -/
theorem existsUnique_isAround {p : Project} (hids : p.nodeIds.Nodup) (hblocks : p.innerBlocks = [])
    {e : Entry} (he : e ∈ p.entries) {head : TypeHead} (hhead : e.container = some head) :
    ∃ house, (house ∈ p.entries ∧ house.IsAround e) ∧
      house.typeName? = some ⟨e.space, head.name, head.arity⟩ ∧
      ∀ other, other ∈ p.entries ∧ other.IsAround e → other = house := by
  obtain ⟨d, hd, he⟩ := mem_entries_iff.mp he
  have hnone : Member.innerBlocksAll d.root.members = [] :=
    List.flatMap_eq_nil_iff.mp hblocks d hd
  rcases Catalogue.housedIn_of_mem_collectAll hnone he with htop | ⟨house, hhouse, haround, hspace⟩
  · rw [hhead] at htop
    cases htop
  · have hmem : house ∈ p.entries := mem_entries_iff.mpr ⟨d, hd, hhouse⟩
    obtain ⟨head₁, hhead₁, hid₁, hname₁⟩ := haround.exists_head
    rw [hhead, Option.some.injEq] at hhead₁
    subst hhead₁
    refine ⟨house, ⟨hmem, haround⟩, ?_, ?_⟩
    · rw [hname₁, hspace]
    · rintro other ⟨hother, haround'⟩
      obtain ⟨head₂, hhead₂, hid₂, -⟩ := haround'.exists_head
      rw [hhead, Option.some.injEq] at hhead₂
      subst hhead₂
      exact eq_of_id hids hother hmem (hid₂.trans hid₁.symm)

end Project

/-! ## Keys -/

theorem not_mem_openTypeName {space name : String} (hspace : ' ' ∉ space.toList)
    (hname : ' ' ∉ name.toList) (arity : Nat) :
    ' ' ∉ (openTypeName space name arity).toList := by
  rw [toList_openTypeName, toList_qualify, List.mem_append, List.mem_append]
  rintro ((h | h) | h)
  · rw [spaceLead] at h
    split at h
    · cases h
    · rcases List.mem_append.mp h with h | h
      · exact hspace h
      · cases List.mem_singleton.mp h
  · exact hname h
  · rcases mem_arityMarks h with h | h | h <;> cases h

namespace Extraction

variable {policy : InterweaveConfig} {layout : Layout} {p : Project} {x : Extracted}

theorem exists_selected {w : Walker} (h : members policy layout w = .ok x) :
    ∃ selected, (policy.selectMembers w).1 = .ok selected ∧
      selected.mapM (memberPackage policy layout) = .ok x.packages := by
  obtain ⟨selected, hselected, h⟩ := (exceptBind_eq_ok_iff _ _ _).mp h
  obtain ⟨packages, hpackages, h⟩ := (exceptBind_eq_ok_iff _ _ _).mp h
  obtain ⟨project, -, h⟩ := (exceptBind_eq_ok_iff _ _ _).mp h
  cases h
  exact ⟨selected, hselected, hpackages⟩

theorem exists_container_of_memberPackage {s : Selected} {k : Package}
    (h : memberPackage policy layout s = .ok k) :
    ∃ head, s.entry.container = some head ∧
      k = .interwovenTypeMembers (openTypeName s.entry.space head.name head.arity)
        (layout.member s.entry.declaration.toMember)
        (describe (policy.interweaves s.dependencies)) := by
  rw [memberPackage, Entry.containerOpenName] at h
  cases hcontainer : s.entry.container with
  | none =>
    rw [hcontainer] at h
    cases h
  | some head =>
    rw [hcontainer] at h
    exact ⟨head, rfl, (Except.ok.inj h).symm⟩

theorem mem_entries_of_selectMembers (hids : p.nodeIds.Nodup) {selected : List Selected}
    (h : (policy.selectMembers (Walker.ofProject p)).1 = .ok selected) :
    ∀ s ∈ selected, s.entry ∈ p.entries := by
  obtain ⟨-, rfl⟩ := (InterweaveConfig.selectMembers_eq_ok_iff selected).mp h
  intro s hs
  obtain ⟨a, ha, rfl⟩ := List.mem_map.mp hs
  have hmem := Walker.mem_of_answer _ (List.mem_filter.mp ha).1
  rw [Catalogue.typeMembers, Project.declarations_eq hids] at hmem
  exact (List.mem_filter.mp hmem).1

/-- A package of members is named after the one type around its member. -/
theorem exists_owner (hids : p.nodeIds.Nodup) (hblocks : p.innerBlocks = []) {s : Selected}
    {k : Package} (hs : s.entry ∈ p.entries) (hk : memberPackage policy layout s = .ok k) :
    ∃ head text ns, s.entry.container = some head ∧
      k = .interwovenTypeMembers (openTypeName s.entry.space head.name head.arity) text ns ∧
      (∃! house, house ∈ p.entries ∧ house.IsAround s.entry) ∧
      ∀ house ∈ p.entries, house.IsAround s.entry →
        house.typeName? = some ⟨s.entry.space, head.name, head.arity⟩ := by
  obtain ⟨head, hhead, rfl⟩ := exists_container_of_memberPackage hk
  obtain ⟨house, hhouse, hname, hunique⟩ := Project.existsUnique_isAround hids hblocks hs hhead
  refine ⟨head, _, _, hhead, rfl, ⟨house, hhouse, hunique⟩, ?_⟩
  intro other hother haround
  rw [hunique other ⟨hother, haround⟩, hname]

/-- Members that share a package stand in types of one namespace, name and arity. -/
theorem members_share_owner (policy : InterweaveConfig) (layout : Layout) (p : Project)
    (hids : p.nodeIds.Nodup) (hnames : p.TypesNamed) (hblocks : p.innerBlocks = [])
    (x : Extracted) (hx : members policy layout (Walker.ofProject p) = .ok x) :
    ∃ selected, (policy.selectMembers (Walker.ofProject p)).1 = .ok selected ∧
      selected.length = x.packages.length ∧
      (∀ s ∈ selected, ∃! house, house ∈ p.entries ∧ house.IsAround s.entry) ∧
      ∀ a ∈ selected.zip x.packages, ∀ b ∈ selected.zip x.packages,
        ∀ house ∈ p.entries, ∀ house' ∈ p.entries,
          house.IsAround a.1.entry → house'.IsAround b.1.entry →
            (a.2.key = b.2.key → house.typeName? = house'.typeName?) ∧
            (house.typeName? = house'.typeName? → a.2.dependencies = b.2.dependencies →
              a.2.key = b.2.key) := by
  obtain ⟨selected, hselected, hpackages⟩ := exists_selected hx
  have hentries := mem_entries_of_selectMembers hids hselected
  obtain ⟨hlength, hpairs⟩ := List.forall₂_iff_zip.mp (forall₂_of_mapM hpackages)
  refine ⟨selected, hselected, hlength, ?_, ?_⟩
  · intro s hs
    obtain ⟨k, hk⟩ := exists_of_mapM hpackages s hs
    obtain ⟨_, _, _, _, _, hunique, _⟩ := exists_owner hids hblocks (hentries s hs) hk
    exact hunique
  · rintro ⟨s, k⟩ ha ⟨s', k'⟩ hb house hhouse house' hhouse' haround haround'
    have hs := hentries s (List.of_mem_zip ha).1
    have hs' := hentries s' (List.of_mem_zip hb).1
    obtain ⟨head, text, ns, hhead, rfl, -, hname⟩ := exists_owner hids hblocks hs (hpairs ha)
    obtain ⟨head', text', ns', hhead', rfl, -, hname'⟩ := exists_owner hids hblocks hs' (hpairs hb)
    obtain ⟨hspace, hdot, hbracket, hblank⟩ := hnames s.entry hs head hhead
    obtain ⟨hspace', hdot', hbracket', hblank'⟩ := hnames s'.entry hs' head' hhead'
    rw [hname house hhouse haround, hname' house' hhouse' haround']
    constructor
    · intro hkey
      -- The owner is read back from the key, and the name's parts from the owner.
      obtain ⟨howner, -⟩ := Package.owner_of_interwovenTypeMembers_key
        (not_mem_openTypeName hspace hblank _) (not_mem_openTypeName hspace' hblank' _) hkey
      obtain ⟨hsp, hn, har⟩ := openTypeName_injective hdot hbracket hdot' hbracket' howner
      rw [hsp, hn, har]
    · intro heq hdependencies
      obtain ⟨hsp, hn, har⟩ := TypeName.mk.inj (Option.some.inj heq)
      have hns : ns = ns' := hdependencies
      rw [hsp, hn, har, hns]
      rfl

/-- Projects of two types with one member each. -/
def lookalike (left right : List Member) : Project :=
  { id := ⟨1⟩, name := "Demo", assembly := "Demo"
    documents := [{ id := ⟨1⟩, name := "Demo.cs", root := { members := left ++ right } }] }

namespace lookalike

def method (id : UInt32) (name : String) (space : String := "Foreign.Lib")
    (type : String := "Widget") : Member :=
  .leaf
    { id := ⟨id⟩
      form := .method name [] .void [⟨"w", .ofSymbol (.named "Foreign" space type), false⟩] none }

def type (id : UInt32) (name : String) (members : List Member) : Member :=
  .type { id := ⟨id⟩, kind := .classKind, name } members

def block (id : UInt32) (name : String) (members : List Member) : Member :=
  .block { id := ⟨id⟩, name } members

/-- Types of one name in two others. -/
def nested : Project :=
  lookalike [block 1 "Demo" [type 2 "A" [type 3 "Inner" [method 4 "Left"]],
    type 5 "B" [type 6 "Inner" [method 7 "Right"]]]] []

/-- A dot in the name of a type. -/
def dotted : Project :=
  lookalike [block 1 "A" [type 2 "B.C" [method 3 "Left"]]]
    [block 4 "A.B" [type 5 "C" [method 6 "Right"]]]

/-- A bracket in the name of a type. -/
def bracketed : Project :=
  lookalike [type 1 "C<>" [method 2 "Left"]]
    [.type { id := ⟨3⟩, kind := .classKind, name := "C", typeParameters := ["T"] }
      [method 4 "Right"]]

/-- A blank in the name of a type. -/
def blank : Project :=
  lookalike [type 1 "C X" [method 2 "Left"]]
    [type 3 "C" [method 4 "Right" "" "X Foreign.Lib.Widget"]]

/-- A blank in the name of a namespace. -/
def blankSpace : Project :=
  lookalike [block 1 "A B" [type 2 "C" [method 3 "Left"]]]
    [type 4 "A" [method 5 "Right" "" "B.C Foreign.Lib.Widget"]]

/-- A namespace block in a type. -/
def walled : Project :=
  lookalike [block 1 "N" [type 2 "C" [block 3 "M" [method 4 "Left"]]]]
    [block 5 "N.M" [type 6 "C" [method 7 "Right"]]]

end lookalike

theorem members_share_owner_nested :
    lookalike.nested.nodeIds.Nodup ∧ lookalike.nested.TypesNamed ∧
    lookalike.nested.innerBlocks = [] ∧
    ∃ x, members {} {} (Walker.ofProject lookalike.nested) = .ok x ∧
      (x.packages.map (·.key)) = ["InterwovenTypeMembers Demo.Inner Foreign.Lib.Widget",
        "InterwovenTypeMembers Demo.Inner Foreign.Lib.Widget"] ∧
      ∃ selected, (InterweaveConfig.selectMembers {} (Walker.ofProject lookalike.nested)).1 =
          .ok selected ∧
        selected.length = x.packages.length ∧
        (∀ s ∈ selected, ∃! house, house ∈ lookalike.nested.entries ∧ house.IsAround s.entry) ∧
        ∀ a ∈ selected.zip x.packages, ∀ b ∈ selected.zip x.packages,
          ∀ house ∈ lookalike.nested.entries, ∀ house' ∈ lookalike.nested.entries,
            house.IsAround a.1.entry → house'.IsAround b.1.entry →
              (a.2.key = b.2.key → house.typeName? = house'.typeName?) ∧
              (house.typeName? = house'.typeName? → a.2.dependencies = b.2.dependencies →
                a.2.key = b.2.key) := by
  have hids : lookalike.nested.nodeIds.Nodup := by decide +kernel
  have hnames : lookalike.nested.TypesNamed := by decide +kernel
  have hkeys : (members {} {} (Walker.ofProject lookalike.nested)).map
      (fun x => x.packages.map (·.key)) =
        .ok ["InterwovenTypeMembers Demo.Inner Foreign.Lib.Widget",
          "InterwovenTypeMembers Demo.Inner Foreign.Lib.Widget"] := by decide +kernel
  cases hx : members {} {} (Walker.ofProject lookalike.nested) with
  | error e =>
    rw [hx] at hkeys
    cases hkeys
  | ok x =>
    rw [hx] at hkeys
    exact ⟨hids, hnames, rfl, x, rfl, Except.ok.inj hkeys,
      members_share_owner {} {} lookalike.nested hids hnames rfl x hx⟩

/-- Two members have packages of one key, and the types around them look different. -/
def SharesAcross {β : Type} [DecidableEq β] (view : Entry → β) (p : Project) : Prop :=
  ∃ x ∈ (members {} {} (Walker.ofProject p)).toOption,
    ∃ selected ∈ (InterweaveConfig.selectMembers {} (Walker.ofProject p)).1.toOption,
      ∃ a ∈ selected.zip x.packages, ∃ b ∈ selected.zip x.packages, a.2.key = b.2.key ∧
        ∃ house ∈ p.entries, ∃ house' ∈ p.entries, house.IsAround a.1.entry ∧
          house'.IsAround b.1.entry ∧ view house ≠ view house'
deriving Decidable

/-- Members of types in different types share a package, and each condition on names and blocks is
needed for the rest. -/
theorem members_share_across_types :
    (lookalike.nested.nodeIds.Nodup ∧ lookalike.nested.TypesNamed ∧
      lookalike.nested.innerBlocks = [] ∧
      SharesAcross (fun house => house.container.map (·.name)) lookalike.nested) ∧
    (∀ p ∈ [lookalike.dotted, lookalike.bracketed, lookalike.blank, lookalike.blankSpace],
      p.nodeIds.Nodup ∧ p.innerBlocks = [] ∧ SharesAcross Entry.typeName? p) ∧
    lookalike.walled.nodeIds.Nodup ∧ lookalike.walled.TypesNamed ∧
      SharesAcross Entry.typeName? lookalike.walled := by
  decide +kernel

end Extraction
end Unweave

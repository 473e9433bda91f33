import Unweave.Proofs.Numbers
import Unweave.Proofs.TypeReports

/-!
# What references are bound to

An open reference of a draft is bound to the first declaration, in the order of the text, that has
its name and stands where the reference looks: right inside a type of the name that it gives, or, if
it gives none, right inside a type of the name of the type around it, and then outside of types
(`ProjectDraft.references_bound`).  So a draft without bound references has no dangling ones.

Types are known by their simple names, so a reference to a sibling may be bound to a member of
another type of that name.  It is bound to a sibling exactly if the first declaration of the name in
types of that simple name is one (`ProjectDraft.siblings_bound`).
-/

namespace Unweave

/-! ## Looking up -/

namespace Spot

theorem within_of_around {s : Spot} {type : TypeName} (h : s.around = some type) :
    s.within = some type.name := by
  rw [within, h, Option.map_some]

/-- Whether a declaration of the name stands right inside a type of this simple name. -/
def declares (type : Option String) (name : String) (s : Spot) : Bool :=
  s.within == type && s.leaf.form.names.contains name

theorem declares_iff (type : Option String) (name : String) (s : Spot) :
    s.declares type name = true ↔ s.within = type ∧ name ∈ s.leaf.form.names := by
  rw [declares, Bool.and_eq_true, beq_iff_eq, List.contains_iff_mem]

theorem lookup_entries (type : Option String) (name : String) (s : Spot) :
    s.entries.lookup (type, name) = if s.declares type name then some s.leaf.id else none := by
  rw [entries, declares]
  induction s.leaf.form.names with
  | nil => simp
  | cons first rest ih =>
    rw [List.map_cons, List.lookup_cons, ih, List.contains_cons]
    by_cases htype : s.within = type <;> by_cases hname : name = first <;> grind

/-- Whether a reference that stands in a type of this simple name may mean the declaration. -/
def InReach (within : Option String) (r : SymbolRef) (s : Spot) : Prop :=
  r.name ∈ s.leaf.form.names ∧
    match r.container with
    | some type => s.within = some type
    | none => s.within = none ∨ s.within = within

end Spot

namespace Binding

/-- The first declaration of a name right inside a type of this simple name, or outside of types. -/
def first? (spots : List Spot) (type : Option String) (name : String) : Option Spot :=
  spots.find? (·.declares type name)

/-- What an open reference that stands in a type of this simple name is bound to. -/
def target? (spots : List Spot) (within : Option String) (r : SymbolRef) : Option Spot :=
  match r.container with
  | some type => first? spots (some type) r.name
  | none => (within.bind fun type => first? spots (some type) r.name).or (first? spots none r.name)

theorem lookup_entries (spots : List Spot) (type : Option String) (name : String) :
    (spots.flatMap Spot.entries).lookup (type, name) =
      (first? spots type name).map (·.leaf.id) := by
  rw [first?]
  induction spots with
  | nil => rfl
  | cons s rest ih =>
    rw [List.flatMap_cons, List.lookup_append, s.lookup_entries, ih, List.find?_cons]
    cases s.declares type name <;> rfl

theorem resolve_entries (spots : List Spot) (within : Option String) (r : SymbolRef) :
    resolve (spots.flatMap Spot.entries) within r = (target? spots within r).map (·.leaf.id) := by
  simp only [resolve, target?, lookup_entries]
  cases r.container with
  | some type => rfl
  | none =>
    cases within with
    | none => rfl
    | some type =>
      simp only [Option.bind_some]
      cases first? spots (some type) r.name <;> rfl

theorem first?_eq_none_iff {spots : List Spot} {type : Option String} {name : String} :
    first? spots type name = none ↔
      ∀ s ∈ spots, name ∈ s.leaf.form.names → s.within ≠ type := by
  rw [first?, List.find?_eq_none]
  refine forall₂_congr fun s _ => ?_
  rw [Spot.declares_iff, not_and']

theorem target?_eq_none_iff {spots : List Spot} {within : Option String} {r : SymbolRef} :
    target? spots within r = none ↔ ∀ s ∈ spots, ¬ s.InReach within r := by
  simp only [target?, Spot.InReach, not_and]
  cases r.container with
  | some type => exact first?_eq_none_iff
  | none =>
    cases within with
    | none =>
      simp only [or_self]
      exact first?_eq_none_iff
    | some type =>
      simp only [Option.bind_some, Option.or_eq_none_iff, first?_eq_none_iff]
      grind

theorem mem_of_target? {spots : List Spot} {within : Option String} {r : SymbolRef} {s : Spot}
    (h : target? spots within r = some s) : s ∈ spots := by
  rw [target?] at h
  split at h
  · exact List.mem_of_find?_eq_some h
  · rcases Option.or_eq_some_iff.mp h with h | ⟨-, h⟩
    · obtain ⟨type, -, h⟩ := Option.bind_eq_some_iff.mp h
      exact List.mem_of_find?_eq_some h
    · exact List.mem_of_find?_eq_some h

/-- What becomes of a reference that stands in a type of this simple name, among the declarations of
a project. -/
structure Bound (spots : List Spot) (within : Option String) (r r' : SymbolRef) : Prop where
  kept : r.declaration ≠ none → r' = r
  found : r.declaration = none →
    r' = { r with declaration := (target? spots within r).map (·.leaf.id) }
  unbound : r'.declaration = none ↔ r.declaration = none ∧ ∀ s ∈ spots, ¬ s.InReach within r

theorem bound_bindRef (spots : List Spot) (within : Option String) (r : SymbolRef) :
    Bound spots within r (bindRef (spots.flatMap Spot.entries) within r) := by
  rw [bindRef, resolve_entries]
  cases hr : r.declaration with
  | some id =>
    have hne : r.declaration ≠ none := hr ▸ Option.some_ne_none id
    exact ⟨fun _ => rfl, fun h => absurd h hne, fun h => absurd h hne, fun h => absurd h.1 hne⟩
  | none =>
    refine ⟨fun h => absurd hr h, fun _ => rfl, ?_⟩
    rw [Option.map_eq_none_iff, target?_eq_none_iff]
    exact ⟨fun h => ⟨hr, h⟩, And.right⟩

end Binding

/-! ## Built projects -/

theorem Check.reports_unresolvedReference (p : Project) :
    reports p Diagnostic.unresolvedReference = danglingReferences p := by
  rw [reports_eq_append, if_pos rfl, if_neg (by decide), if_neg (by decide), List.append_nil,
    List.append_nil]

namespace ProjectDraft

open Binding

theorem mem_declared_of_target? {q : Project} {within : Option String} {r : SymbolRef} {s : Spot}
    (h : target? q.spots within r = some s) : s.leaf.id ∈ q.declared :=
  q.map_id_spots_sublist.subset (List.mem_map_of_mem (mem_of_target? h))

theorem danglingReferences_eq_nil_of_open {n : Nat} {p : ProjectDraft}
    (hopen : ∀ r ∈ p.references, r.declaration = none) :
    Check.danglingReferences (p.buildFrom n).2 = [] := by
  have hbound : List.Forall₂
      (fun r r' => r.declaration = none → ∀ id, r'.declaration = some id →
        id ∈ (p.buildFrom n).2.declared)
      p.references (p.buildFrom n).2.references := by
    refine forall₂_references n p fun within r hr id hid => ?_
    rw [(bound_bindRef _ within r).found hr] at hid
    obtain ⟨s, hs, rfl⟩ := Option.map_eq_some_iff.mp hid
    exact mem_declared_of_target? hs
  rw [Check.danglingReferences_eq_nil_iff, ← List.forall_mem_flatMap, ← Project.flatMap_references]
  intro id hid
  obtain ⟨d, hd, hid⟩ := List.mem_flatMap.mp hid
  obtain ⟨r', hr', hid⟩ := List.mem_filterMap.mp hid
  obtain ⟨i, rfl⟩ := List.get_of_mem (List.mem_flatMap.mpr ⟨d, hd, hr'⟩ :
    r' ∈ (p.buildFrom n).2.references)
  have hi : i.1 < p.references.length := lt_of_lt_of_eq i.2 hbound.length_eq.symm
  exact hbound.get hi i.2 (hopen _ (List.get_mem _ _)) id hid

/-- Leaf by leaf and in order, each reference of a draft is bound to the first declaration of the
built project that has its name and stands where it looks, unless it is bound already.  If none is
bound in the draft, then none is reported as dangling. -/
theorem references_bound (n : Nat) (p : ProjectDraft) :
    List.Forall₂
      (fun s t => t.around = s.around ∧
        List.Forall₂ (Bound (p.buildFrom n).2.spots s.within) s.leaf.references t.leaf.references)
      p.spots (p.buildFrom n).2.spots ∧
    ((∀ r ∈ p.references, r.declaration = none) →
      Check.reports (p.buildFrom n).2 Diagnostic.unresolvedReference = []) := by
  refine ⟨(references_buildFrom n p).imp ?_, fun hopen => ?_⟩
  · rintro s t ⟨haround, hreferences⟩
    refine ⟨haround, ?_⟩
    rw [hreferences, List.forall₂_map_right_iff, List.forall₂_same]
    exact fun r _ => bound_bindRef _ s.within r
  · rw [Check.reports_unresolvedReference, danglingReferences_eq_nil_of_open hopen]

/-- A method whose body makes these calls. -/
def caller (name : String) (calls : List SymbolRef) : Member :=
  .leaf
    { form := .method name [] .void []
        (some { kind := .block, text := "{ }",
                expressions := calls.map fun r => { text := r.name, symbol := some r } }) }

/-- Calls of a sibling, of a delegate outside of types, of nothing and of another type's member. -/
def yard : ProjectDraft :=
  { name := "Yard", assembly := "Yard"
    documents :=
      [{ name := "Gate.cs"
         root :=
          { members :=
              [.block { name := "Yard" }
                [.type { kind := .classKind, name := "Gate" }
                    [caller "Open" [{ name := "Close" }, { name := "Opened" }, { name := "Lock" }],
                      caller "Close" [{ name := "Ring", container := some "Bell" }]],
                  .leaf { form := .delegate "Opened" [] .void [] }]] } },
        { name := "Bell.cs"
          root :=
            { members := [.type { kind := .classKind, name := "Bell" } [caller "Ring" []]] } }] }

theorem references_bound_yard :
    (∀ r ∈ yard.references, r.declaration = none) ∧
    (yard.buildFrom 1).2.references.map (·.declaration) = [some ⟨4⟩, some ⟨5⟩, none, some ⟨7⟩] ∧
    Check.reports (yard.buildFrom 1).2 Diagnostic.unresolvedReference = [] := by
  have hopen : ∀ r ∈ yard.references, r.declaration = none := by decide +kernel
  exact ⟨hopen, by decide +kernel, (references_bound 1 yard).2 hopen⟩

end ProjectDraft

/-! ## Siblings -/

namespace Project

/-- A type, in any of its parts, has a member of this name. -/
def HasMember (p : Project) (type : TypeName) (name : String) : Prop :=
  ∃ s ∈ p.spots, s.around = some type ∧ name ∈ s.leaf.form.names

/-- A reference that stands in a member of the type is open, names no type and has the name of a
member of the type. -/
structure MeansSibling (p : Project) (type : TypeName) (r : SymbolRef) : Prop where
  isOpen : r.declaration = none
  unqualified : r.container = none
  sibling : p.HasMember type r.name

/-- The reference is bound to a member of the type and to nothing else. -/
structure BoundInto (p : Project) (type : TypeName) (r : SymbolRef) : Prop where
  member : ∃ s ∈ p.spots, s.around = some type ∧ r.declaration = some s.leaf.id
  only : ∀ s ∈ p.spots, r.declaration = some s.leaf.id → s.around = some type

/-- Types that have members are told apart by their simple names. -/
def SimplyNamed (p : Project) : Prop :=
  ∀ s ∈ p.spots, ∀ t ∈ p.spots, s.within = t.within → s.around = t.around

end Project

namespace Binding

theorem exists_first?_of_hasMember {p : Project} {type : TypeName} {name : String}
    (h : p.HasMember type name) :
    ∃ m ∈ p.spots, first? p.spots (some type.name) name = some m ∧ m.within = some type.name := by
  obtain ⟨s, hs, haround, hname⟩ := h
  obtain ⟨m, hm⟩ := Option.isSome_iff_exists.mp (List.find?_isSome.mpr
    ⟨s, hs, (s.declares_iff (some type.name) name).mpr ⟨Spot.within_of_around haround, hname⟩⟩)
  exact ⟨m, List.mem_of_find?_eq_some hm, hm, ((m.declares_iff _ _).mp (List.find?_some hm)).1⟩

/-- A reference to a sibling is bound by the simple name of its type.  Identifiers being distinct, it
is bound to a sibling exactly if what it is bound to stands in the same type. -/
theorem sibling_bindRef {p : Project} (hnodup : (p.spots.map (·.leaf.id)).Nodup) {type : TypeName}
    {r : SymbolRef} (h : p.MeansSibling type r) :
    ∃ m ∈ p.spots, first? p.spots (some type.name) r.name = some m ∧ m.within = some type.name ∧
      (bindRef (p.spots.flatMap Spot.entries) (some type.name) r).declaration = some m.leaf.id ∧
      (p.BoundInto type (bindRef (p.spots.flatMap Spot.entries) (some type.name) r) ↔
        m.around = some type) := by
  obtain ⟨m, hm, hfirst, hwithin⟩ := exists_first?_of_hasMember h.sibling
  have htarget : target? p.spots (some type.name) r = some m := by
    rw [target?, h.unqualified]
    simp only [Option.bind_some, hfirst, Option.some_or]
  have hbound : (bindRef (p.spots.flatMap Spot.entries) (some type.name) r).declaration =
      some m.leaf.id := by
    rw [(bound_bindRef p.spots (some type.name) r).found h.isOpen, htarget, Option.map_some]
  refine ⟨m, hm, hfirst, hwithin, hbound, fun hinto => hinto.only m hm hbound, fun haround => ?_⟩
  refine ⟨⟨m, hm, haround, hbound⟩, fun s hs hid => ?_⟩
  have heq : s = m := List.inj_on_of_nodup_map hnodup hs hm
    (Option.some.inj (hid.symm.trans hbound))
  rw [heq, haround]

end Binding

namespace ProjectDraft

open Binding

theorem nodup_map_id_spots {n : Nat} {p : ProjectDraft}
    (hfresh : ∀ id ∈ p.nodes, id.isAssigned = false) (few : n + p.nodes.length ≤ 2 ^ 32) :
    ((p.buildFrom n).2.spots.map (·.leaf.id)).Nodup := by
  have h := p.numbered_buildFrom n
  have hlast := h.last_eq
  have hmissing := Numbering.missing_le_length p.nodes
  have hfilter : p.nodes.filter (·.isAssigned) = [] :=
    List.filter_eq_nil_iff.mpr fun id hid => Bool.eq_false_iff.mp (hfresh id hid)
  have hnodes : (p.buildFrom n).2.nodes.Nodup := by
    rw [h.nodup_iff (by omega), hfilter]
    exact ⟨List.nodup_nil, List.forall_mem_nil _⟩
  exact (Project.map_id_spots_sublist _).nodup (Project.declared_sublist_nodes _ |>.nodup hnodes)

/-- Every reference of a draft that stands in a type is related to what building makes of it. -/
def InTypes (n : Nat) (p : ProjectDraft) (R : TypeName → SymbolRef → SymbolRef → Prop) : Prop :=
  List.Forall₂
    (fun s t => ∀ type, s.around = some type →
      List.Forall₂ (R type) s.leaf.references t.leaf.references)
    p.spots (p.buildFrom n).2.spots

theorem inTypes_iff {n : Nat} {p : ProjectDraft} {R : TypeName → SymbolRef → SymbolRef → Prop} :
    p.InTypes n R ↔ ∀ s ∈ p.spots, ∀ type, s.around = some type → ∀ r ∈ s.leaf.references,
      R type r (bindRef ((p.buildFrom n).2.spots.flatMap Spot.entries) (some type.name) r) := by
  have hbuilt := references_buildFrom n p
  have hleaf : ∀ s t : Spot, t.leaf.references = s.leaf.references.map
        (bindRef ((p.buildFrom n).2.spots.flatMap Spot.entries) s.within) →
      ((∀ type, s.around = some type →
          List.Forall₂ (R type) s.leaf.references t.leaf.references) ↔
        ∀ type, s.around = some type → ∀ r ∈ s.leaf.references, R type r
          (bindRef ((p.buildFrom n).2.spots.flatMap Spot.entries) (some type.name) r)) := by
    intro s t hst
    refine forall₂_congr fun type htype => ?_
    rw [hst, Spot.within_of_around htype, List.forall₂_map_right_iff, List.forall₂_same]
  constructor
  · intro h
    exact ((List.forall₂_and_left _ _).mp (List.Forall₂.mp
      (fun s t hst hR => ⟨(hleaf s t hst.2).mp hR, hst⟩) hbuilt h)).1
  · intro h
    exact ((List.forall₂_and_left _ _).mpr ⟨h, hbuilt⟩).imp fun s t hst =>
      (hleaf s t hst.2.2).mpr hst.1

/-- References to siblings are bound to siblings. -/
def SiblingsBound (n : Nat) (p : ProjectDraft) : Prop :=
  p.InTypes n fun type r r' =>
    (p.buildFrom n).2.MeansSibling type r → (p.buildFrom n).2.BoundInto type r'

/-- References to siblings are bound to the first declaration of their name that stands right inside
a type of the simple name of their type.  So they are bound to siblings exactly if that declaration
stands in the type itself, and not in another one of the same simple name, as it does if there is no
other. -/
theorem siblings_bound (n : Nat) (p : ProjectDraft)
    (hfresh : ∀ id ∈ p.nodes, id.isAssigned = false) (few : n + p.nodes.length ≤ 2 ^ 32) :
    (p.InTypes n fun type r r' => (p.buildFrom n).2.MeansSibling type r →
      ∃ m ∈ (p.buildFrom n).2.spots,
        first? (p.buildFrom n).2.spots (some type.name) r.name = some m ∧
        m.within = some type.name ∧ r'.declaration = some m.leaf.id ∧
        ((p.buildFrom n).2.BoundInto type r' ↔ m.around = some type)) ∧
    (p.SiblingsBound n ↔
      ∀ s ∈ p.spots, ∀ type, s.around = some type → ∀ r ∈ s.leaf.references,
        (p.buildFrom n).2.MeansSibling type r →
        ∃ m, first? (p.buildFrom n).2.spots (some type.name) r.name = some m ∧
          m.around = some type) ∧
    ((p.buildFrom n).2.SimplyNamed → p.SiblingsBound n) := by
  have hnodup := nodup_map_id_spots hfresh few
  refine ⟨inTypes_iff.mpr fun s _ type _ r _ hr => sibling_bindRef hnodup hr, ?_, ?_⟩
  · rw [SiblingsBound, inTypes_iff]
    refine forall₂_congr fun s _ => forall₂_congr fun type _ => forall₂_congr fun r _ =>
      forall_congr' fun hr => ?_
    obtain ⟨m, -, hfirst, -, -, hinto⟩ := sibling_bindRef hnodup hr
    rw [hinto]
    constructor
    · intro haround
      exact ⟨m, hfirst, haround⟩
    · rintro ⟨m', hfirst', haround⟩
      rwa [Option.some.inj (hfirst.symm.trans hfirst')]
  · intro hnamed
    refine inTypes_iff.mpr fun s _ type _ r _ hr => ?_
    obtain ⟨m, hm, -, hwithin, -, hinto⟩ := sibling_bindRef hnodup hr
    obtain ⟨t, ht, htype, -⟩ := hr.sibling
    have hsame : m.within = t.within := hwithin.trans (Spot.within_of_around htype).symm
    rw [hinto, hnamed m hm t ht hsame, htype]

/-! ### Namesakes -/

/-- Two types of one simple name, in different namespaces. -/
def pumps (left right : List Member) : ProjectDraft :=
  { name := "Plant", assembly := "Plant",
    documents := [{ name := "Pump.cs", root := { members } }] }
where
  pump (members : List Member) : Member := .type { kind := .classKind, name := "Pump" } members
  members : List Member :=
    [.block { name := "Left" } [pump left], .block { name := "Right" } [pump right]]

/-- The first of them calls its own member. -/
def pumpsLeft : ProjectDraft :=
  pumps [caller "Run" [{ name := "Stop" }], caller "Stop" []] [caller "Stop" []]

/-- The second one calls its own member. -/
def pumpsRight : ProjectDraft :=
  pumps [caller "Stop" []] [caller "Run" [{ name := "Stop" }], caller "Stop" []]

theorem siblings_bound_pumps :
    (∀ id ∈ pumpsLeft.nodes, id.isAssigned = false) ∧ 1 + pumpsLeft.nodes.length ≤ 2 ^ 32 ∧
    pumpsLeft.build.references.map (·.declaration) = [some ⟨4⟩] ∧ pumpsLeft.SiblingsBound 1 := by
  have hfresh : ∀ id ∈ pumpsLeft.nodes, id.isAssigned = false := by decide +kernel
  have few : 1 + pumpsLeft.nodes.length ≤ 2 ^ 32 := by decide +kernel
  refine ⟨hfresh, few, by decide +kernel, (siblings_bound 1 pumpsLeft hfresh few).2.1.mpr ?_⟩
  intro s hs type htype r hr _
  have hcalls : ∀ s ∈ pumpsLeft.spots, s.leaf.references = [] ∨
      s.around = some ⟨"Left", "Pump", 0⟩ ∧ s.leaf.references = [{ name := "Stop" }] := by
    decide +kernel
  rcases hcalls s hs with hnone | ⟨haround, hstop⟩
  · rw [hnone] at hr
    cases hr
  · obtain rfl := Option.some.inj (haround.symm.trans htype)
    rw [hstop, List.mem_singleton] at hr
    subst hr
    have hfirst : (first? pumpsLeft.build.spots (some "Pump") "Stop").map (·.around) =
        some (some ⟨"Left", "Pump", 0⟩) := by
      decide +kernel
    exact Option.map_eq_some_iff.mp hfirst

/-- The call is bound to the member of the first type. -/
theorem siblings_bound_elsewhere :
    (∀ id ∈ pumpsRight.nodes, id.isAssigned = false) ∧
    pumpsRight.build.HasMember ⟨"Right", "Pump", 0⟩ "Stop" ∧
    pumpsRight.build.references.map (·.declaration) = [some ⟨3⟩] ∧
    pumpsRight.build.spots.map (fun s => (s.around.map (·.space), s.leaf.id)) =
      [(some "Left", ⟨3⟩), (some "Right", ⟨6⟩), (some "Right", ⟨7⟩)] ∧
    ¬ pumpsRight.SiblingsBound 1 := by
  have hmember : pumpsRight.build.HasMember ⟨"Right", "Pump", 0⟩ "Stop" := by
    unfold Project.HasMember
    decide +kernel
  refine ⟨by decide +kernel, hmember, by decide +kernel, by decide +kernel, fun h => ?_⟩
  have hcall : ∃ s ∈ pumpsRight.spots, s.around = some ⟨"Right", "Pump", 0⟩ ∧
      ({ name := "Stop" } : SymbolRef) ∈ s.leaf.references := by
    decide +kernel
  obtain ⟨s, hs, haround, hr⟩ := hcall
  obtain ⟨t, ht, hright, hid⟩ := (inTypes_iff.mp h s hs _ haround _ hr ⟨rfl, rfl, hmember⟩).member
  have helse : ∀ t ∈ pumpsRight.build.spots, t.around = some ⟨"Right", "Pump", 0⟩ →
      (bindRef (pumpsRight.build.spots.flatMap Spot.entries) (some "Pump")
        { name := "Stop" }).declaration ≠ some t.leaf.id := by
    decide +kernel
  exact helse t ht hright hid

end ProjectDraft
end Unweave

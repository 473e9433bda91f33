import Mathlib.Data.List.Flatten
import Mathlib.Data.List.Forall2
import Unweave.Check.Structural
import Unweave.Proofs.Trees
import Unweave.Solution.Draft

/-!
# What building does to a tree

A tree is built in two passes.  Numbering changes identifiers and nothing else, binding changes the
targets of references and nothing else.  Three views of a tree say so: its identifiers in reading
order (`nodes`), the tree without identifiers and targets (`blank`), and its leaves with the types
right around them (`spots`).  What each pass does to each view is proved here once; a built project
is then known by `ProjectDraft.spots_buildFrom` and its companions.
-/

namespace Unweave

/-! ## Bodies -/

namespace Form

theorem names_mapBodies (f : Body → Body) (form : Form) :
    (form.mapBodies f).names = form.names := by
  cases form with
  | property name type accessors => cases accessors <;> rfl
  | field type declared =>
    rw [mapBodies, names, names, List.map_map]
    rfl
  | _ => rfl

theorem bodies_mapBodies (f : Body → Body) (form : Form) :
    (form.mapBodies f).bodies = form.bodies.map f := by
  cases form with
  | delegate => rfl
  | method name typeParameters result parameters body => cases body <;> rfl
  | property name type accessors =>
    cases accessors with
    | auto => rfl
    | arrow => rfl
    | explicit getter setter => cases getter <;> cases setter <;> rfl
  | constructor name parameters body => cases body <;> rfl
  | field type declared =>
    rw [mapBodies, bodies, bodies, List.filterMap_map, List.map_filterMap]
    rfl

theorem mapBodies_mapBodies (f g : Body → Body) (form : Form) :
    (form.mapBodies f).mapBodies g = form.mapBodies (g ∘ f) := by
  cases form with
  | delegate => rfl
  | method name typeParameters result parameters body => cases body <;> rfl
  | property name type accessors =>
    cases accessors with
    | auto => rfl
    | arrow => rfl
    | explicit getter setter => cases getter <;> cases setter <;> rfl
  | constructor name parameters body => cases body <;> rfl
  | field type declared =>
    rw [mapBodies, mapBodies, mapBodies, List.map_map]
    simp only [Function.comp_def, Option.map_map]

end Form

/-! ## The views -/

/-- All references open again. -/
def Body.blank (b : Body) : Body :=
  { b with
    expressions := b.expressions.map fun e =>
      { e with symbol := e.symbol.map fun r => { r with declaration := none } } }

def Using.blank (u : Using) : Using := { u with id := .unassigned }

/-- A leaf with the namespace, name and arity of the type right around it.  Nothing is around a leaf
that stands in a block, even if the block stands in a type. -/
structure Spot where
  around : Option TypeName
  leaf : Leaf

namespace Spot

/-- The simple name of the type right around it. -/
def within (s : Spot) : Option String := s.around.map (·.name)

/-- What it adds to the index that references are looked up in. -/
def entries (s : Spot) : Binding.Index :=
  s.leaf.form.names.map fun name => ((s.within, name), s.leaf.id)

def bind (index : Binding.Index) (s : Spot) : Spot :=
  { s with
    leaf := { s.leaf with form := s.leaf.form.mapBodies (Binding.bindBody index s.within) } }

end Spot

namespace Member

/-- The identifiers in reading order: a block before its usings and its members, a type before its
members. -/
def nodesAll (ms : List Member) : List NodeId :=
  gatherAll ⟨fun h => h.id :: h.usings.map (·.id), fun h => [h.id], fun l => [l.id]⟩ ms

mutual

/-- The tree without identifiers and without the targets of references. -/
def blank : Member → Member
  | block head members =>
    block { head with id := .unassigned, usings := head.usings.map Using.blank } (blankAll members)
  | type head members => type { head with id := .unassigned } (blankAll members)
  | leaf l => leaf { l with id := .unassigned, form := l.form.mapBodies Body.blank }

def blankAll : List Member → List Member
  | [] => []
  | m :: ms => blank m :: blankAll ms

end

mutual

/-- The leaves in the order of the text, below a namespace and with a type right around them. -/
def spots (space : String) (around : Option TypeName) : Member → List Spot
  | block head members => spotsAll (Text.qualify space head.name) none members
  | type head members => spotsAll space (some ⟨space, head.name, head.arity⟩) members
  | leaf l => [⟨around, l⟩]

def spotsAll (space : String) (around : Option TypeName) : List Member → List Spot
  | [] => []
  | m :: ms => spots space around m ++ spotsAll space around ms

end

/-- References stand in leaves only. -/
theorem referencesAll_eq_flatMap (space : String) (around : Option TypeName) (ms : List Member) :
    referencesAll ms = (spotsAll space around ms).flatMap (·.leaf.references) := by
  induction ms using listInduction generalizing space around with
  | nil => rfl
  | block head inner ms ihInner ih =>
    rw [referencesAll, references, spotsAll, spots, List.flatMap_append, ihInner, ih]
  | type head inner ms ihInner ih =>
    rw [referencesAll, references, spotsAll, spots, List.flatMap_append, ihInner, ih]
  | leaf l ms ih =>
    rw [referencesAll, references, spotsAll, spots, List.flatMap_append, List.flatMap_singleton,
      ih space around]

theorem declaredAll_sublist_nodesAll (ms : List Member) :
    (declaredAll ms).Sublist (nodesAll ms) := by
  unfold nodesAll
  induction ms using listInduction with
  | nil => exact List.Sublist.refl _
  | block head inner ms ihInner ih =>
    exact ((ihInner.trans (List.sublist_append_right _ _)).cons_cons head.id).append ih
  | type head inner ms ihInner ih => exact (ihInner.cons_cons head.id).append ih
  | leaf l ms ih => exact ih.cons_cons l.id

theorem map_id_spotsAll_sublist (space : String) (around : Option TypeName) (ms : List Member) :
    ((spotsAll space around ms).map (·.leaf.id)).Sublist (declaredAll ms) := by
  induction ms using listInduction generalizing space around with
  | nil => exact List.Sublist.refl _
  | block head inner ms ihInner ih =>
    rw [spotsAll, spots, List.map_append]
    exact ((ihInner _ _).cons head.id).append (ih space around)
  | type head inner ms ihInner ih =>
    rw [spotsAll, spots, List.map_append]
    exact ((ihInner _ _).cons head.id).append (ih space around)
  | leaf l ms ih => exact (ih space around).cons_cons l.id

end Member

namespace Root

def nodes (r : Root) : List NodeId := r.usings.map (·.id) ++ Member.nodesAll r.members

def blank (r : Root) : Root :=
  { r with usings := r.usings.map Using.blank, members := Member.blankAll r.members }

def spots (r : Root) : List Spot := Member.spotsAll "" none r.members

theorem references_eq_flatMap (r : Root) : r.references = r.spots.flatMap (·.leaf.references) :=
  Member.referencesAll_eq_flatMap "" none r.members

theorem declared_sublist_nodes (r : Root) : r.declared.Sublist r.nodes :=
  (Member.declaredAll_sublist_nodesAll r.members).trans (List.sublist_append_right _ _)

end Root

/-! ## Numbering -/

namespace Numbering

theorem blank_usings (next : Nat) (us : List Using) :
    (usings next us).2.map Using.blank = us.map Using.blank := by
  induction us generalizing next with
  | nil => rfl
  | cons u us ih =>
    rw [usings, List.map_cons, List.map_cons, ih]
    rfl

theorem blankAll_members (next : Nat) (ms : List Member) :
    Member.blankAll (members next ms).2 = Member.blankAll ms := by
  induction ms using Member.listInduction generalizing next with
  | nil => rfl
  | block head inner ms ihInner ih =>
    rw [members, member, Member.blankAll, Member.blank, blank_usings, ihInner, ih]
    rfl
  | type head inner ms ihInner ih =>
    rw [members, member, Member.blankAll, Member.blank, ihInner, ih]
    rfl
  | leaf l ms ih =>
    rw [members, member, Member.blankAll, Member.blank, ih]
    rfl

/-- Numbering leaves each leaf where it is, and all of it but the identifier. -/
theorem spotsAll_members (next : Nat) (space : String) (around : Option TypeName)
    (ms : List Member) :
    (Member.spotsAll space around (members next ms).2).map (fun s => (s.around, s.leaf.form)) =
      (Member.spotsAll space around ms).map fun s => (s.around, s.leaf.form) := by
  induction ms using Member.listInduction generalizing next space around with
  | nil => rfl
  | block head inner ms ihInner ih =>
    rw [members, member, Member.spotsAll, Member.spots, Member.spotsAll, Member.spots,
      List.map_append, List.map_append, ihInner, ih]
  | type head inner ms ihInner ih =>
    rw [members, member, Member.spotsAll, Member.spots, Member.spotsAll, Member.spots,
      List.map_append, List.map_append, ← ihInner, ih]
    rfl
  | leaf l ms ih =>
    rw [members, member, Member.spotsAll, Member.spots, Member.spotsAll, Member.spots,
      List.map_append, List.map_append, ih]
    rfl

end Numbering

/-! ## Binding -/

namespace Binding

theorem blank_bindBody (index : Index) (around : Option String) (b : Body) :
    (bindBody index around b).blank = b.blank := by
  rw [Body.blank, bindBody, Body.blank, List.map_map]
  refine congrArg (Body.mk b.kind b.text) (List.map_congr_left fun e _ => ?_)
  have hsymbol : ∀ r : SymbolRef,
      { bindRef index around r with declaration := none } = { r with declaration := none } := by
    intro r
    rw [bindRef]
    split <;> rfl
  simp only [Function.comp_apply, Option.map_map, Function.comp_def, hsymbol]

theorem references_mapBodies (index : Index) (around : Option String) (l : Leaf) :
    Leaf.references { l with form := l.form.mapBodies (bindBody index around) } =
      l.references.map (bindRef index around) := by
  rw [Leaf.references, Leaf.references, Leaf.expressions, Leaf.expressions, Form.bodies_mapBodies,
    List.flatMap_map, List.map_filterMap, List.filterMap_flatMap, List.filterMap_flatMap]
  refine List.flatMap_congr fun b _ => ?_
  rw [bindBody, List.filterMap_map]
  rfl

theorem gatherAll_bindMembers {α : Type} (v : Member.Reading α)
    (hleaf : ∀ (f : Body → Body) (l : Leaf),
      v.leaf { l with form := l.form.mapBodies f } = v.leaf l)
    (index : Index) (around : Option String) (ms : List Member) :
    Member.gatherAll v (bindMembers index around ms) = Member.gatherAll v ms := by
  induction ms using Member.listInduction generalizing around with
  | nil => rfl
  | block head inner ms ihInner ih =>
    rw [bindMembers, bindMember, Member.gatherAll, Member.gather, ihInner, ih, Member.gatherAll,
      Member.gather]
  | type head inner ms ihInner ih =>
    rw [bindMembers, bindMember, Member.gatherAll, Member.gather, ihInner, ih, Member.gatherAll,
      Member.gather]
  | leaf l ms ih =>
    rw [bindMembers, bindMember, Member.gatherAll, Member.gather, hleaf, ih, Member.gatherAll,
      Member.gather]

theorem nodesAll_bindMembers (index : Index) (around : Option String) (ms : List Member) :
    Member.nodesAll (bindMembers index around ms) = Member.nodesAll ms :=
  gatherAll_bindMembers _ (fun _ _ => rfl) index around ms

theorem blankAll_bindMembers (index : Index) (around : Option String) (ms : List Member) :
    Member.blankAll (bindMembers index around ms) = Member.blankAll ms := by
  induction ms using Member.listInduction generalizing around with
  | nil => rfl
  | block head inner ms ihInner ih =>
    rw [bindMembers, bindMember, Member.blankAll, Member.blank, ihInner, ih, Member.blankAll,
      Member.blank]
  | type head inner ms ihInner ih =>
    rw [bindMembers, bindMember, Member.blankAll, Member.blank, ihInner, ih, Member.blankAll,
      Member.blank]
  | leaf l ms ih =>
    have hblank : Body.blank ∘ bindBody index around = Body.blank :=
      funext (blank_bindBody index around)
    rw [bindMembers, bindMember, Member.blankAll, Member.blank, Form.mapBodies_mapBodies, hblank,
      ih, Member.blankAll, Member.blank]

/-- The pass that binds and the list of leaves agree on what is right around a leaf. -/
theorem spotsAll_bindMembers (index : Index) (space : String) (around : Option TypeName)
    (ms : List Member) :
    Member.spotsAll space around (bindMembers index (around.map (·.name)) ms) =
      (Member.spotsAll space around ms).map (Spot.bind index) := by
  induction ms using Member.listInduction generalizing space around with
  | nil => rfl
  | block head inner ms ihInner ih =>
    rw [bindMembers, bindMember, Member.spotsAll, Member.spots, Member.spotsAll, Member.spots,
      List.map_append, ← ihInner, ih, Option.map_none]
  | type head inner ms ihInner ih =>
    rw [bindMembers, bindMember, Member.spotsAll, Member.spots, Member.spotsAll, Member.spots,
      List.map_append, ← ihInner, ih, Option.map_some]
  | leaf l ms ih =>
    rw [bindMembers, bindMember, Member.spotsAll, Member.spots, Member.spotsAll, Member.spots,
      List.map_append, ih]
    rfl

/-- So do the pass that collects declarations and the list of leaves. -/
theorem entriesAll_eq_flatMap (space : String) (around : Option TypeName) (ms : List Member) :
    entriesAll (around.map (·.name)) ms =
      (Member.spotsAll space around ms).flatMap Spot.entries := by
  induction ms using Member.listInduction generalizing space around with
  | nil => rfl
  | block head inner ms ihInner ih =>
    rw [entriesAll, entries, Member.spotsAll, Member.spots, List.flatMap_append, ← ihInner, ← ih,
      Option.map_none]
  | type head inner ms ihInner ih =>
    rw [entriesAll, entries, Member.spotsAll, Member.spots, List.flatMap_append, ← ihInner, ← ih,
      Option.map_some]
  | leaf l ms ih =>
    rw [entriesAll, entries, Member.spotsAll, Member.spots, List.flatMap_append,
      List.flatMap_singleton, ← ih]
    rfl

end Binding

/-! ## Projects -/

namespace Project

def nodes (p : Project) : List NodeId := p.documents.flatMap (·.root.nodes)

def spots (p : Project) : List Spot := p.documents.flatMap (·.root.spots)

def references (p : Project) : List SymbolRef := p.documents.flatMap (·.root.references)

/-- Everything but identifiers and the targets of references. -/
def blank (p : Project) : String × String × List (String × SourceKind × Root) :=
  (p.name, p.assembly, p.documents.map fun d => (d.name, d.kind, d.root.blank))

theorem references_eq_flatMap (p : Project) :
    p.references = p.spots.flatMap (·.leaf.references) := by
  rw [references, spots, List.flatMap_assoc]
  exact List.flatMap_congr fun d _ => d.root.references_eq_flatMap

theorem declared_sublist_nodes (p : Project) : p.declared.Sublist p.nodes :=
  List.Sublist.flatMap_right _ fun d _ => d.root.declared_sublist_nodes

theorem map_id_spots_sublist (p : Project) : (p.spots.map (·.leaf.id)).Sublist p.declared := by
  rw [spots, List.map_flatMap]
  exact List.Sublist.flatMap_right _ fun d _ =>
    Member.map_id_spotsAll_sublist "" none d.root.members

end Project

namespace ProjectDraft

def nodes (p : ProjectDraft) : List NodeId := p.documents.flatMap (·.root.nodes)

def spots (p : ProjectDraft) : List Spot := p.documents.flatMap (·.root.spots)

def references (p : ProjectDraft) : List SymbolRef := p.documents.flatMap (·.root.references)

def blank (p : ProjectDraft) : String × String × List (String × SourceKind × Root) :=
  (p.name, p.assembly, p.documents.map fun d => (d.name, d.kind, d.root.blank))

theorem references_eq_flatMap (p : ProjectDraft) :
    p.references = p.spots.flatMap (·.leaf.references) := by
  rw [references, spots, List.flatMap_assoc]
  exact List.flatMap_congr fun d _ => d.root.references_eq_flatMap

theorem blank_numberAll (next k : Nat) (ds : List DocumentDraft) :
    (DocumentDraft.numberAll next k ds).2.map (fun d => (d.name, d.kind, d.root.blank)) =
      ds.map fun d => (d.name, d.kind, d.root.blank) := by
  induction ds generalizing next k with
  | nil => rfl
  | cons d ds ih =>
    rw [DocumentDraft.numberAll, List.map_cons, List.map_cons, ih, Numbering.root, Root.blank,
      Root.blank, Numbering.blank_usings, Numbering.blankAll_members]

theorem spots_numberAll (next k : Nat) (ds : List DocumentDraft) :
    ((DocumentDraft.numberAll next k ds).2.flatMap (·.root.spots)).map
        (fun s => (s.around, s.leaf.form)) =
      (ds.flatMap (·.root.spots)).map fun s => (s.around, s.leaf.form) := by
  induction ds generalizing next k with
  | nil => rfl
  | cons d ds ih =>
    rw [DocumentDraft.numberAll, List.flatMap_cons, List.flatMap_cons, List.map_append,
      List.map_append, ih, Numbering.root, Root.spots, Root.spots, Numbering.spotsAll_members]

/-- The documents once they are numbered. -/
def numbered (next : Nat) (p : ProjectDraft) : List Document :=
  (DocumentDraft.numberAll next 1 p.documents).2

theorem documents_buildFrom (next : Nat) (p : ProjectDraft) :
    (p.buildFrom next).2.documents =
      (p.numbered next).map (Binding.bindDocument (Binding.index (p.numbered next))) := rfl

theorem nodes_buildFrom (next : Nat) (p : ProjectDraft) :
    (p.buildFrom next).2.nodes = (p.numbered next).flatMap (·.root.nodes) := by
  rw [Project.nodes, documents_buildFrom, List.flatMap_map]
  refine List.flatMap_congr fun d _ => ?_
  rw [Root.nodes, Binding.bindDocument, Binding.nodesAll_bindMembers, Root.nodes]

theorem blank_buildFrom (next : Nat) (p : ProjectDraft) : (p.buildFrom next).2.blank = p.blank := by
  have hblank : ∀ (index : Binding.Index) (d : Document),
      (Binding.bindDocument index d).root.blank = d.root.blank := by
    intro index d
    rw [Root.blank, Binding.bindDocument, Binding.blankAll_bindMembers, Root.blank]
  rw [Project.blank, documents_buildFrom, List.map_map, blank, ← blank_numberAll next 1 p.documents]
  simp only [Function.comp_def, hblank]
  rfl

theorem spots_bindDocument (index : Binding.Index) (d : Document) :
    (Binding.bindDocument index d).root.spots = d.root.spots.map (Spot.bind index) :=
  Binding.spotsAll_bindMembers index "" none d.root.members

theorem entries_bind (index : Binding.Index) (s : Spot) : (s.bind index).entries = s.entries := by
  rw [Spot.entries, Spot.bind, Form.names_mapBodies]
  rfl

/-- What references are looked up in: the declarations of the built project, in order. -/
theorem index_numbered (next : Nat) (p : ProjectDraft) :
    Binding.index (p.numbered next) = (p.buildFrom next).2.spots.flatMap Spot.entries := by
  rw [Project.spots, documents_buildFrom, List.flatMap_map, List.flatMap_assoc, Binding.index]
  refine List.flatMap_congr fun d _ => ?_
  rw [spots_bindDocument, List.flatMap_map]
  simp only [entries_bind]
  exact Binding.entriesAll_eq_flatMap "" none d.root.members

/-- Building leaves each leaf where it is.  Of its form it changes the bodies, by binding their
references among the declarations of the built project. -/
theorem spots_buildFrom (next : Nat) (p : ProjectDraft) :
    (p.buildFrom next).2.spots.map (fun s => (s.around, s.leaf.form)) =
      p.spots.map fun s => (s.around, s.leaf.form.mapBodies
        (Binding.bindBody ((p.buildFrom next).2.spots.flatMap Spot.entries) s.within)) := by
  rw [← index_numbered, Project.spots, documents_buildFrom, List.flatMap_map]
  generalize Binding.index (p.numbered next) = index
  simp only [spots_bindDocument]
  rw [← List.map_flatMap, List.map_map]
  have hspots := congrArg
    (List.map fun x : Option TypeName × Form =>
      (x.1, x.2.mapBodies (Binding.bindBody index (x.1.map (·.name)))))
    (spots_numberAll next 1 p.documents)
  rw [List.map_map, List.map_map] at hspots
  exact hspots

/-- Leaf by leaf, the references of a built project are those of its draft, each bound from where it
stands. -/
theorem references_buildFrom (next : Nat) (p : ProjectDraft) :
    List.Forall₂ (fun s t : Spot => t.around = s.around ∧
        t.leaf.references = s.leaf.references.map
          (Binding.bindRef ((p.buildFrom next).2.spots.flatMap Spot.entries) s.within))
      p.spots (p.buildFrom next).2.spots := by
  have hspots : List.Forall₂ Eq _ _ := List.forall₂_eq_eq_eq ▸ (spots_buildFrom next p).symm
  rw [List.forall₂_map_left_iff, List.forall₂_map_right_iff] at hspots
  refine hspots.imp fun s t hst => ?_
  obtain ⟨haround, hform⟩ := Prod.mk.inj hst
  refine ⟨haround.symm, ?_⟩
  rw [← Binding.references_mapBodies, hform]
  rfl

/-- What binding does to every reference, wherever it stands, holds all through a project. -/
theorem forall₂_references (next : Nat) (p : ProjectDraft) {R : SymbolRef → SymbolRef → Prop}
    (h : ∀ within r,
      R r (Binding.bindRef ((p.buildFrom next).2.spots.flatMap Spot.entries) within r)) :
    List.Forall₂ R p.references (p.buildFrom next).2.references := by
  rw [Project.references_eq_flatMap, references_eq_flatMap]
  refine List.rel_flatMap (references_buildFrom next p) ?_
  rintro s t ⟨-, hreferences⟩
  show List.Forall₂ R s.leaf.references t.leaf.references
  rw [hreferences, List.forall₂_map_right_iff, List.forall₂_same]
  exact fun r _ => h s.within r

end ProjectDraft

end Unweave

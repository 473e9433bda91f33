import Unweave.Proofs.Identity

/-!
# What remains of a project

A project remains of another one if each of its entries remains of an entry there.  Where the larger
project has distinct identifiers, an edge of the smaller one is an edge between the entries that its
ends remain of, so dependencies only shrink (`RemainsOf.dependsOn`).

A type set keeps one reference for each full name.  Whether it has an interweave can be said of the
dependencies themselves only if the references of one full name are alike, which is what a front end
provides (`CoherentTypes`).
-/

namespace Unweave

/-! ## Entries -/

namespace Entry.RemainsOf

variable {e' e : Entry}

/-- What is the same for all types, and looks at nothing in front of a leaf, stays the same. -/
theorem apply_eq {α : Type} (h : e'.RemainsOf e) (f : Declaration → α)
    (htype : ∀ head members head' members', f (.type head' members') = f (.type head members))
    (hleaf : ∀ l : Leaf, f (.leaf l) = f (.leaf l.bare)) : f e'.declaration = f e.declaration := by
  rcases h.cases with ⟨head', members', head, members, h', h⟩ | ⟨l', l, h', h, hbare⟩
  · rw [h', h, htype]
  · rw [h', h, hleaf, hbare, ← hleaf]

theorem isType_eq (h : e'.RemainsOf e) : e'.declaration.isType = e.declaration.isType :=
  h.apply_eq _ (fun _ _ _ _ => rfl) fun _ => rfl

theorem isCallable_eq (h : e'.RemainsOf e) :
    e'.declaration.isCallable = e.declaration.isCallable :=
  h.apply_eq _ (fun _ _ _ _ => rfl) fun _ => rfl

theorem symbols_eq (h : e'.RemainsOf e) : e'.declaration.symbols = e.declaration.symbols :=
  h.apply_eq _ (fun _ _ _ _ => rfl) fun _ => rfl

theorem isExtensionMethod_eq (h : e'.RemainsOf e) :
    e'.declaration.isExtensionMethod = e.declaration.isExtensionMethod :=
  h.apply_eq _ (fun _ _ _ _ => rfl) fun _ => rfl

theorem isTypeMember_eq (h : e'.RemainsOf e) :
    e'.declaration.isTypeMember = e.declaration.isTypeMember :=
  h.apply_eq _ (fun _ _ _ _ => rfl) fun _ => rfl

theorem containerOpenName_eq (h : e'.RemainsOf e) : e'.containerOpenName = e.containerOpenName :=
  congrArg Site.owner h.site_eq

theorem mentions_iff (h : e'.RemainsOf e) (t : TypeRef) :
    e'.declaration.Mentions t ↔ e.declaration.Mentions t := by
  rw [Declaration.Mentions, h.symbols_eq, Declaration.Mentions]

end Entry.RemainsOf

/-! ## Edges by identifier -/

theorem Catalogue.edge_iff (c : Catalogue) (a b : Declaration) :
    c.Edge a b ↔ ∃ id ∈ a.callees, ∃ e, c.find? id = some e ∧ e.declaration = b ∧
      (a.isType = true ∨ b.isCallable = true) := by
  rw [← mem_targets_iff, Walk.targets, List.mem_filter, List.mem_filterMap, Bool.or_eq_true]
  constructor
  · rintro ⟨⟨id, hid, hb⟩, hcall⟩
    obtain ⟨e, he, heb⟩ := Option.map_eq_some_iff.mp hb
    exact ⟨id, hid, e, he, heb, hcall⟩
  · rintro ⟨id, hid, e, he, heb, hcall⟩
    exact ⟨⟨id, hid, Option.map_eq_some_iff.mpr ⟨e, he, heb⟩⟩, hcall⟩

/-! ## Projects -/

theorem Document.mem_declared_of_mem_entries {d : Document} {e : Entry}
    (h : e ∈ d.entries) : e.id ∈ d.root.declared := by
  have hpos : 0 < (d.entries.map Entry.id).count e.id :=
    List.count_pos_iff.mpr (List.mem_map_of_mem h)
  have hcount := d.count_declared e.id
  exact List.count_pos_iff.mp (by omega)

namespace Project

/-- Each entry of the first project remains of an entry of the second. -/
def RemainsOf (p' p : Project) : Prop := ∀ e' ∈ p'.entries, ∃ e ∈ p.entries, e'.RemainsOf e

theorem RemainsOf.trans {p'' p' p : Project} (h' : p''.RemainsOf p') (h : p'.RemainsOf p) :
    p''.RemainsOf p := by
  intro e'' he''
  obtain ⟨e', he', hrem'⟩ := h' e'' he''
  obtain ⟨e, he, hrem⟩ := h e' he'
  exact ⟨e, he, hrem'.trans hrem⟩

theorem RemainsOf.of_sketches {p' p : Project}
    (h : p'.entries.map Entry.sketch = p.entries.map Entry.sketch) : p'.RemainsOf p := by
  intro e' he'
  have hmem : e'.sketch ∈ p.entries.map Entry.sketch := h ▸ List.mem_map_of_mem he'
  obtain ⟨e, he, hsketch⟩ := List.mem_map.mp hmem
  exact ⟨e, he, .of_sketch hsketch.symm⟩

theorem mem_entries_iff {p : Project} {e : Entry} :
    e ∈ p.entries ↔ ∃ d ∈ p.documents, e ∈ d.entries := List.mem_flatMap

theorem mem_documents_erase {p : Project} {gone : NodeId → Bool} {d' : Document}
    (h : d' ∈ (p.erase gone).documents) : ∃ d ∈ p.documents, d' = d.erase gone := by
  obtain ⟨d, hd, rfl⟩ := List.mem_map.mp h
  exact ⟨d, hd, rfl⟩

theorem exists_of_mem_entries_erase {p : Project} {gone : NodeId → Bool} {e' : Entry}
    (h : e' ∈ (p.erase gone).entries) : ∃ e ∈ p.entries, e' = e.eraseInside gone := by
  obtain ⟨d', hd', he'⟩ := mem_entries_iff.mp h
  obtain ⟨d, hd, rfl⟩ := mem_documents_erase hd'
  obtain ⟨e, he, heq⟩ := Catalogue.exists_of_mem_collectAll_eraseAll d.id gone he'
  exact ⟨e, mem_entries_iff.mpr ⟨d, hd, he⟩, heq⟩

/-- Erasing leaves nothing but remains. -/
theorem erase_remainsOf (p : Project) (gone : NodeId → Bool) : (p.erase gone).RemainsOf p := by
  intro e' he'
  obtain ⟨e, he, rfl⟩ := exists_of_mem_entries_erase he'
  exact ⟨e, he, e.eraseInside_remainsOf gone⟩

/-- No entry that is erased remains. -/
theorem not_gone_of_mem_erase {p : Project} {gone : NodeId → Bool} {e : Entry}
    (h : e ∈ (p.erase gone).entries) : gone e.id = false := by
  obtain ⟨d', hd', he⟩ := mem_entries_iff.mp h
  obtain ⟨d, -, rfl⟩ := mem_documents_erase hd'
  exact Member.keeps_eraseAll gone d.root.members e.id (Document.mem_declared_of_mem_entries he)

section Dependencies

variable {p' p : Project} (hrem : p'.RemainsOf p) (hp : p.UniqueIds)
include hrem hp

/-- An edge between remains is an edge between what they remain of. -/
theorem RemainsOf.edge {e' e : Entry} (he : e'.RemainsOf e) {b' : Declaration}
    (h : (Catalogue.ofProject p').Edge e'.declaration b') :
    ∃ f' f : Entry, f'.declaration = b' ∧ f'.RemainsOf f ∧
      (Catalogue.ofProject p).Edge e.declaration f.declaration := by
  obtain ⟨id, hid, f', hf', rfl, hcall⟩ := (Catalogue.edge_iff _ _ _).mp h
  obtain ⟨hmem', rfl⟩ := Catalogue.mem_entries_of_find? hf'
  obtain ⟨f, hmem, hf⟩ := hrem f' hmem'
  refine ⟨f', f, rfl, hf, (Catalogue.edge_iff _ _ _).mpr ?_⟩
  refine ⟨f'.id, he.callees hid, f, (hp.find?_eq_some_iff _ _).mpr ⟨hmem, hf.id_eq.symm⟩, rfl, ?_⟩
  rw [← he.isType_eq, ← hf.isCallable_eq]
  exact hcall

theorem RemainsOf.reaches {e' e : Entry} (he : e'.RemainsOf e) {x' : Declaration}
    (h : (Catalogue.ofProject p').Reaches e'.declaration x') :
    ∃ f' f : Entry, f'.declaration = x' ∧ f'.RemainsOf f ∧
      (Catalogue.ofProject p).Reaches e.declaration f.declaration := by
  induction h with
  | refl => exact ⟨e', e, rfl, he, .refl⟩
  | tail _ hedge ih =>
    obtain ⟨f', f, rfl, hf, hreach⟩ := ih
    obtain ⟨g', g, hg', hg, hstep⟩ := hrem.edge hp hf hedge
    exact ⟨g', g, hg', hg, hreach.tail hstep⟩

/-- What remains depends on nothing new. -/
theorem RemainsOf.dependsOn {e' e : Entry} (he : e'.RemainsOf e) {t : TypeRef}
    (h : (Catalogue.ofProject p').DependsOn e'.declaration t) :
    (Catalogue.ofProject p).DependsOn e.declaration t := by
  obtain ⟨x', hx', hmention⟩ := h
  obtain ⟨f', f, rfl, hf, hreach⟩ := hrem.reaches hp he hx'
  exact ⟨f.declaration, hreach, (hf.mentions_iff t).mp hmention⟩

end Dependencies

/-! ## Types of one full name -/

/-- The types that the project mentions, and those inside them. -/
def typeRefs (p : Project) : List TypeRef :=
  ((p.documents.flatMap (·.root.symbols)).filterMap TypeRef.ofSymbol?).flatMap TypeRef.parts

/-- Types of the same full name have the same shape, assembly and open name. -/
def CoherentTypes (p : Project) : Prop :=
  ∀ t ∈ p.typeRefs, ∀ t' ∈ p.typeRefs, t.fullName = t'.fullName →
    t.shape = t'.shape ∧ t.assembly = t'.assembly ∧ t.openName = t'.openName

instance (p : Project) : Decidable p.CoherentTypes :=
  inferInstanceAs (Decidable (∀ t ∈ p.typeRefs, ∀ t' ∈ p.typeRefs, t.fullName = t'.fullName →
    t.shape = t'.shape ∧ t.assembly = t'.assembly ∧ t.openName = t'.openName))

theorem CoherentTypes.of_subset {p' p : Project} (h : p.CoherentTypes)
    (hsub : ∀ t ∈ p'.typeRefs, t ∈ p.typeRefs) : p'.CoherentTypes :=
  fun t ht t' ht' hname => h t (hsub t ht) t' (hsub t' ht') hname

theorem typeRefs_subset {p' p : Project}
    (h : p'.documents.flatMap (·.root.symbols) ⊆ p.documents.flatMap (·.root.symbols)) :
    ∀ t ∈ p'.typeRefs, t ∈ p.typeRefs := by
  intro t ht
  obtain ⟨s, hs, hrest⟩ := (TypeSet.mem_mentioned_iff _ t).mp ht
  exact (TypeSet.mem_mentioned_iff _ t).mpr ⟨s, h hs, hrest⟩

theorem CoherentTypes.erase {p : Project} (h : p.CoherentTypes) (gone : NodeId → Bool) :
    (p.erase gone).CoherentTypes := by
  refine h.of_subset (typeRefs_subset fun s hs => ?_)
  obtain ⟨d', hd', hs⟩ := List.mem_flatMap.mp hs
  obtain ⟨d, hd, rfl⟩ := mem_documents_erase hd'
  exact List.mem_flatMap.mpr ⟨d, hd, (d.root.symbols_erase_sublist gone).subset hs⟩

theorem symbols_subset_of_mem_collectAll {document : DocumentId} {space : String}
    {container : Option TypeHead} {depth : Nat} {ms : List Member} {e : Entry}
    (h : e ∈ Catalogue.collectAll document space container depth ms) :
    e.declaration.symbols ⊆ Member.symbolsAll ms := by
  induction ms using Member.listInduction generalizing space container depth with
  | nil => cases h
  | block head inner ms ihInner ih =>
    rw [Catalogue.collectAll, Catalogue.collect, List.mem_append] at h
    rw [Member.symbolsAll, Member.symbols]
    rcases h with h | h
    · exact List.subset_append_of_subset_left _ (ihInner h)
    · exact List.subset_append_of_subset_right _ (ih h)
  | type head inner ms ihInner ih =>
    rw [Catalogue.collectAll, Catalogue.collect, List.mem_append, List.mem_cons] at h
    rw [Member.symbolsAll, Member.symbols]
    rcases h with (rfl | h) | h
    · exact List.nil_subset _
    · exact List.subset_append_of_subset_left _ (List.subset_append_of_subset_right _ (ihInner h))
    · exact List.subset_append_of_subset_right _ (ih h)
  | leaf l ms ih =>
    rw [Catalogue.collectAll, Catalogue.collect, List.mem_append, List.mem_singleton] at h
    rw [Member.symbolsAll, Member.symbols]
    rcases h with rfl | h
    · exact List.subset_append_left _ _
    · exact List.subset_append_of_subset_right _ (ih h)

/-- A dependency of an entry is among the types of the project. -/
theorem mem_typeRefs_of_dependsOn {p : Project} {d : Declaration} {t : TypeRef}
    (hd : (Catalogue.ofProject p).Lists d) (h : (Catalogue.ofProject p).DependsOn d t) :
    t ∈ p.typeRefs := by
  obtain ⟨x, hx, s, hs, hrest⟩ := h
  obtain ⟨e, he, rfl⟩ := hx.lists hd
  obtain ⟨doc, hdoc, hmem⟩ := mem_entries_iff.mp (Catalogue.mem_entries_of_find? he).1
  refine (TypeSet.mem_mentioned_iff _ t).mpr ⟨s, List.mem_flatMap.mpr ⟨doc, hdoc, ?_⟩, hrest⟩
  exact symbols_subset_of_mem_collectAll hmem hs

/-- Where types of one full name are alike, an answer has a type of some kind exactly if there is
such a dependency. -/
theorem CoherentTypes.exists_mem_iff {p : Project} (h : p.CoherentTypes) {d : Declaration}
    (hd : (Catalogue.ofProject p).Lists d) {deps : TypeSet}
    (hans : (Catalogue.ofProject p).Answers d deps) {P : TypeRef → Prop}
    (hP : ∀ t t' : TypeRef, t.shape = t'.shape → t.assembly = t'.assembly →
      t.openName = t'.openName → P t → P t') :
    (∃ t ∈ deps.refs, P t) ↔ ∃ t, (Catalogue.ofProject p).DependsOn d t ∧ P t := by
  constructor
  · rintro ⟨t, ht, hPt⟩
    exact ⟨t, hans.sound t ht, hPt⟩
  · rintro ⟨t, ht, hPt⟩
    obtain ⟨t', ht', hname⟩ := List.mem_map.mp (hans.complete t ht)
    obtain ⟨hshape, hassembly, hopen⟩ := h t (mem_typeRefs_of_dependsOn hd ht) t'
      (mem_typeRefs_of_dependsOn hd (hans.sound t' ht')) hname.symm
    exact ⟨t', ht', hP t t' hshape hassembly hopen hPt⟩

end Project
end Unweave

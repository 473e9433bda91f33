import Mathlib.Data.List.Pairwise
import Mathlib.Data.List.Perm.Basic
import Unweave.Extraction
import Unweave.Proofs.Sites

/-!
# Projects whose identifiers are distinct

Where no two nodes and no two documents of a project share an identifier, look-ups find what they
should: an entry of the catalogue is the one found under its identifier, and a node is in one
document only.  Taking nodes out document by document is then the same as erasing them everywhere at
once (`removeDeclarations_eq_ok_iff`).
-/

namespace Unweave

/-! ## The identifiers of a document -/

namespace Root

/-- The identifiers of all using directives. -/
def usingIds (r : Root) : List NodeId := r.usings.map (·.id) ++ Member.usingIdsAll r.members

/-- The identifiers of all nodes: using directives, blocks, types and leaves. -/
def nodeIds (r : Root) : List NodeId := r.usingIds ++ r.declared

def blockIds (r : Root) : List NodeId := Member.blockIdsAll r.members

theorem contains_iff (r : Root) (id : NodeId) : r.contains id = true ↔ id ∈ r.nodeIds := by
  rw [contains, Bool.or_eq_true, Member.anyContains_iff, nodeIds, usingIds, declared,
    List.mem_append, List.mem_append, or_assoc, List.any_eq_true, List.mem_map]
  simp only [beq_iff_eq]

theorem erase_congr {r : Root} {f g : NodeId → Bool} (h : ∀ id ∈ r.nodeIds, f id = g id) :
    r.erase f = r.erase g := by
  have husings : eraseUsings f r.usings = eraseUsings g r.usings :=
    List.filter_congr fun u hu => by
      rw [h u.id (List.mem_append_left _ (List.mem_append_left _ (List.mem_map_of_mem hu)))]
  have hmembers : Member.eraseAll f r.members = Member.eraseAll g r.members :=
    Member.eraseAll_congr
      (fun id hid => h id (List.mem_append_left _ (List.mem_append_right _ hid)))
      (fun id hid => h id (List.mem_append_right _ hid))
  rw [erase, erase, husings, hmembers]

theorem erase_nothing (r : Root) : r.erase (fun _ => false) = r := by
  have husings : eraseUsings (fun _ => false) r.usings = r.usings :=
    List.filter_eq_self.mpr fun _ _ => rfl
  rw [erase, husings, Member.eraseAll_nothing]

theorem erase_erase (r : Root) (f g : NodeId → Bool) :
    (r.erase g).erase f = r.erase fun id => f id || g id := by
  have husings : eraseUsings f (eraseUsings g r.usings) =
      eraseUsings (fun id => f id || g id) r.usings := by
    simp only [eraseUsings, List.filter_filter, Bool.not_or]
  rw [erase, erase, erase]
  simp only [Member.eraseAll_eraseAll, husings]

theorem usingIds_erase_sublist (r : Root) (gone : NodeId → Bool) :
    (r.erase gone).usingIds.Sublist r.usingIds := by
  have husings : ∀ us : List Using,
      ((eraseUsings gone us).map (·.id)).Sublist (us.map (·.id)) := fun us =>
    (List.filter_sublist).map _
  exact (husings r.usings).append
    (Member.gatherAll_eraseAll_sublist _ gone (fun h => husings h.usings) r.members)

theorem declared_erase_sublist (r : Root) (gone : NodeId → Bool) :
    (r.erase gone).declared.Sublist r.declared := by
  show (Member.declaredAll (Member.eraseAll gone r.members)).Sublist (Member.declaredAll r.members)
  rw [Member.declaredAll_eq_gatherAll, Member.declaredAll_eq_gatherAll]
  exact Member.gatherAll_eraseAll_sublist _ gone (fun _ => List.Sublist.refl _) r.members

theorem nodeIds_erase_sublist (r : Root) (gone : NodeId → Bool) :
    (r.erase gone).nodeIds.Sublist r.nodeIds :=
  (r.usingIds_erase_sublist gone).append (r.declared_erase_sublist gone)

theorem symbols_erase_sublist (r : Root) (gone : NodeId → Bool) :
    (r.erase gone).symbols.Sublist r.symbols := by
  show (Member.symbolsAll (Member.eraseAll gone r.members)).Sublist (Member.symbolsAll r.members)
  rw [Member.symbolsAll_eq_gatherAll, Member.symbolsAll_eq_gatherAll]
  exact Member.gatherAll_eraseAll_sublist _ gone (fun _ => List.Sublist.refl _) r.members

end Root

namespace Document

def entries (d : Document) : List Entry := Catalogue.collectAll d.id "" none 0 d.root.members

def erase (d : Document) (gone : NodeId → Bool) : Document := { d with root := d.root.erase gone }

theorem erase_nothing (d : Document) : d.erase (fun _ => false) = d := by
  rw [erase, Root.erase_nothing]

theorem erase_erase (d : Document) (f g : NodeId → Bool) :
    (d.erase g).erase f = d.erase fun id => f id || g id := by
  rw [erase, erase, erase, Root.erase_erase]

/-- The declarations of a document are its blocks and its entries. -/
theorem count_declared (d : Document) (id : NodeId) :
    d.root.declared.count id = d.root.blockIds.count id + (d.entries.map Entry.id).count id := by
  have hms : ∀ (ms : List Member) (space : String) (container : Option TypeHead) (depth : Nat),
      (Member.declaredAll ms).count id = (Member.blockIdsAll ms).count id +
        ((Catalogue.collectAll d.id space container depth ms).map Entry.id).count id := by
    intro ms
    unfold Member.blockIdsAll
    induction ms using Member.listInduction with
    | nil => exact fun _ _ _ => rfl
    | block head inner ms ihInner ih =>
      intro space container depth
      simp only [Member.declaredAll, Member.declared, Member.gatherAll, Member.gather,
        Catalogue.collectAll, Catalogue.collect, List.map_append, List.count_append,
        List.count_cons, List.count_nil, ihInner (Text.qualify space head.name) container depth,
        ih space container depth]
      omega
    | type head inner ms ihInner ih =>
      intro space container depth
      simp only [Member.declaredAll, Member.declared, Member.gatherAll, Member.gather,
        Catalogue.collectAll, Catalogue.collect, List.map_append, List.map_cons, List.count_append,
        List.count_cons, List.count_nil, ihInner space (some head) (depth + 1),
        ih space container depth, Entry.id, Declaration.id]
      omega
    | leaf l ms ih =>
      intro space container depth
      simp only [Member.declaredAll, Member.declared, Member.gatherAll, Member.gather,
        Catalogue.collectAll, Catalogue.collect, List.map_append, List.map_singleton,
        List.count_append, List.count_cons, List.count_nil, ih space container depth, Entry.id,
        Declaration.id]
      omega
  exact hms d.root.members "" none 0

end Document

/-! ## Distinct identifiers -/

namespace Project

def nodeIds (p : Project) : List NodeId := p.documents.flatMap (·.root.nodeIds)

/-- No two documents and no two nodes of the project share an identifier. -/
structure UniqueIds (p : Project) : Prop where
  documents : (p.documents.map (·.id)).Nodup
  nodes : p.nodeIds.Nodup

instance (p : Project) : Decidable p.UniqueIds :=
  decidable_of_iff ((p.documents.map (·.id)).Nodup ∧ p.nodeIds.Nodup)
    ⟨fun h => ⟨h.1, h.2⟩, fun h => ⟨h.documents, h.nodes⟩⟩

def usingIds (p : Project) : List NodeId := p.documents.flatMap (·.root.usingIds)

def blockIds (p : Project) : List NodeId := p.documents.flatMap (·.root.blockIds)

def entries (p : Project) : List Entry := (Catalogue.ofProject p).entries

theorem entries_eq_flatMap (p : Project) : p.entries = p.documents.flatMap Document.entries := rfl

theorem perm_nodeIds (p : Project) :
    p.nodeIds.Perm (p.usingIds ++ (p.blockIds ++ p.entries.map Entry.id)) := by
  rw [List.perm_iff_count, entries_eq_flatMap, nodeIds, usingIds, blockIds]
  intro id
  induction p.documents with
  | nil => rfl
  | cons d ds ih =>
    have hd := d.count_declared id
    simp only [List.flatMap_cons, List.map_append, List.count_append, Root.nodeIds] at ih ⊢
    omega

theorem mem_nodeIds_of_mem_entries {p : Project} {e : Entry} (h : e ∈ p.entries) :
    e.id ∈ p.nodeIds := by
  refine p.perm_nodeIds.mem_iff.mpr (List.mem_append_right _ (List.mem_append_right _ ?_))
  exact List.mem_map_of_mem h

theorem nodup_entries {p : Project} (h : p.nodeIds.Nodup) : (p.entries.map Entry.id).Nodup :=
  (p.perm_nodeIds.nodup_iff.mp h).of_append_right.of_append_right

theorem UniqueIds.nodup_parts {p : Project} (h : p.UniqueIds) :
    (p.usingIds ++ (p.blockIds ++ p.entries.map Entry.id)).Nodup :=
  p.perm_nodeIds.nodup_iff.mp h.nodes

theorem UniqueIds.nodup_entries {p : Project} (h : p.UniqueIds) :
    (p.entries.map Entry.id).Nodup :=
  p.nodup_entries h.nodes

theorem UniqueIds.not_mem_blockIds {p : Project} (h : p.UniqueIds) {e : Entry}
    (he : e ∈ p.entries) : e.id ∉ p.blockIds := fun hblock =>
  List.disjoint_of_nodup_append h.nodup_parts.of_append_right hblock (List.mem_map_of_mem he)

theorem UniqueIds.not_mem_usingIds {p : Project} (h : p.UniqueIds) {e : Entry}
    (he : e ∈ p.entries) : e.id ∉ p.usingIds := fun husing =>
  List.disjoint_of_nodup_append h.nodup_parts husing
    (List.mem_append_right _ (List.mem_map_of_mem he))

/-- Entries with the same identifier are the same. -/
theorem eq_of_id {p : Project} (h : p.nodeIds.Nodup) {e e' : Entry} (he : e ∈ p.entries)
    (he' : e' ∈ p.entries) (hid : e.id = e'.id) : e = e' :=
  List.inj_on_of_nodup_map (p.nodup_entries h) he he' hid

theorem find?_eq_some_iff {p : Project} (h : p.nodeIds.Nodup) (id : NodeId) (e : Entry) :
    (Catalogue.ofProject p).find? id = some e ↔ e ∈ p.entries ∧ e.id = id := by
  refine ⟨Catalogue.mem_entries_of_find?, ?_⟩
  rintro ⟨he, rfl⟩
  obtain ⟨e', he'⟩ := Catalogue.exists_find? (c := Catalogue.ofProject p) he
  have hmem := Catalogue.mem_entries_of_find? he'
  rw [he', eq_of_id h hmem.1 he hmem.2]

theorem declarations_eq {p : Project} (h : p.nodeIds.Nodup) :
    (Catalogue.ofProject p).declarations = p.entries := by
  have hself : ∀ e ∈ p.entries, (Catalogue.ofProject p).find? e.id = some e := fun e he =>
    (find?_eq_some_iff h e.id e).mpr ⟨he, rfl⟩
  have hmap : ∀ es : List Entry, (∀ e ∈ es, (Catalogue.ofProject p).find? e.id = some e) →
      (es.filterMap fun e => (Catalogue.ofProject p).find? e.id) = es := by
    intro es hes
    induction es with
    | nil => rfl
    | cons e es ih =>
      rw [List.filterMap_cons, hes e List.mem_cons_self,
        ih fun e' he' => hes e' (List.mem_cons_of_mem _ he')]
  exact hmap p.entries hself

theorem UniqueIds.eq_of_id {p : Project} (h : p.UniqueIds) {e e' : Entry} (he : e ∈ p.entries)
    (he' : e' ∈ p.entries) (hid : e.id = e'.id) : e = e' :=
  Project.eq_of_id h.nodes he he' hid

theorem UniqueIds.find?_eq_some_iff {p : Project} (h : p.UniqueIds) (id : NodeId) (e : Entry) :
    (Catalogue.ofProject p).find? id = some e ↔ e ∈ p.entries ∧ e.id = id :=
  Project.find?_eq_some_iff h.nodes id e

theorem UniqueIds.declarations_eq {p : Project} (h : p.UniqueIds) :
    (Catalogue.ofProject p).declarations = p.entries :=
  Project.declarations_eq h.nodes

/-! ## Editing documents -/

def mapDocuments (f : Document → Document) (p : Project) : Project :=
  { p with documents := p.documents.map f }

theorem mapDocuments_mapDocuments (f g : Document → Document) (p : Project) :
    (p.mapDocuments f).mapDocuments g = p.mapDocuments (g ∘ f) := by
  rw [mapDocuments, mapDocuments, mapDocuments, List.map_map]

theorem mapDocuments_congr {f g : Document → Document} {p : Project}
    (h : ∀ d ∈ p.documents, f d = g d) : p.mapDocuments f = p.mapDocuments g := by
  rw [mapDocuments, mapDocuments, List.map_congr_left h]

theorem mapDocuments_eq_self {f : Document → Document} {p : Project}
    (h : ∀ d ∈ p.documents, f d = d) : p.mapDocuments f = p := by
  rw [mapDocuments, List.map_congr_left h, List.map_id']

theorem mem_of_document? {p : Project} {id : DocumentId} {d : Document}
    (h : p.document? id = some d) : d ∈ p.documents ∧ d.id = id :=
  ⟨List.mem_of_find?_eq_some h, eq_of_beq (List.find?_some h :)⟩

theorem eq_of_document_id {p : Project} (h : (p.documents.map (·.id)).Nodup) {d d' : Document}
    (hd : d ∈ p.documents) (hd' : d' ∈ p.documents) (hid : d.id = d'.id) : d = d' :=
  List.inj_on_of_nodup_map h hd hd' hid

/-- Putting a document back in its place, changed. -/
theorem document?_of_mem {p : Project} (h : (p.documents.map (·.id)).Nodup) {d : Document}
    (hd : d ∈ p.documents) : p.document? d.id = some d := by
  have hsome : (p.document? d.id).isSome = true :=
    List.find?_isSome.mpr ⟨d, hd, beq_self_eq_true _⟩
  obtain ⟨d', hfind⟩ := Option.isSome_iff_exists.mp hsome
  obtain ⟨hd', hid⟩ := mem_of_document? hfind
  rw [hfind, eq_of_document_id h hd' hd hid]

theorem withDocument_eq_mapDocuments {p : Project} (h : (p.documents.map (·.id)).Nodup)
    {d : Document} (hd : d ∈ p.documents) (f : Document → Document) (hf : (f d).id = d.id) :
    p.withDocument (f d) = p.mapDocuments fun d' => if d'.id = d.id then f d' else d' := by
  refine congrArg (fun ds => { p with documents := ds }) (List.map_congr_left fun d' hd' => ?_)
  rw [hf]
  by_cases hid : d'.id = d.id
  · rw [if_pos hid, if_pos hid, eq_of_document_id h hd' hd hid]
  · rw [if_neg hid, if_neg hid]

/-- Erase in every document. -/
def erase (p : Project) (gone : NodeId → Bool) : Project := p.mapDocuments (·.erase gone)

theorem eraseIn_eq_mapDocuments {p : Project} (h : (p.documents.map (·.id)).Nodup)
    (id : DocumentId) (nodes : List NodeId) :
    p.eraseIn id nodes =
      p.mapDocuments fun d => if d.id = id then d.erase nodes.contains else d := by
  rw [eraseIn]
  cases nodes with
  | nil =>
    rw [List.isEmpty_nil, if_pos rfl]
    refine (mapDocuments_eq_self fun d _ => ?_).symm
    have hnone : ([] : List NodeId).contains = fun _ => false := rfl
    rw [hnone, d.erase_nothing, ite_self]
  | cons n ns =>
    rw [if_neg (by simp)]
    cases hfind : p.document? id with
    | none =>
      refine (mapDocuments_eq_self fun d hd => ?_).symm
      have hne : ¬ d.id = id := by simpa using List.find?_eq_none.mp hfind d hd
      rw [if_neg hne]
    | some d =>
      obtain ⟨hd, rfl⟩ := mem_of_document? hfind
      exact withDocument_eq_mapDocuments h hd (fun d => d.erase (n :: ns).contains) rfl

theorem documents_id_mapDocuments {f : Document → Document} (hf : ∀ d, (f d).id = d.id)
    (p : Project) : (p.mapDocuments f).documents.map (·.id) = p.documents.map (·.id) := by
  rw [mapDocuments, List.map_map]
  exact List.map_congr_left fun d _ => hf d

theorem foldl_eraseIn {p : Project} (h : (p.documents.map (·.id)).Nodup)
    (nodes : DocumentId → List NodeId) (ids : List DocumentId) (hids : ids.Nodup) :
    ids.foldl (fun q id => q.eraseIn id (nodes id)) p =
      p.mapDocuments fun d => if d.id ∈ ids then d.erase (nodes d.id).contains else d := by
  induction ids generalizing p with
  | nil => exact (mapDocuments_eq_self fun d _ => if_neg List.not_mem_nil).symm
  | cons id ids ih =>
    obtain ⟨hnot, hids⟩ := List.nodup_cons.mp hids
    have hkeep : ∀ d : Document,
        (if d.id = id then d.erase (nodes id).contains else d).id = d.id := by
      intro d
      split <;> rfl
    rw [List.foldl_cons, eraseIn_eq_mapDocuments h,
      ih (by rw [documents_id_mapDocuments hkeep]; exact h) hids, mapDocuments_mapDocuments]
    refine mapDocuments_congr fun d _ => ?_
    rw [Function.comp_apply, hkeep]
    by_cases hid : d.id = id
    · rw [if_pos hid, hid, if_neg hnot, if_pos List.mem_cons_self]
    · have hmem : d.id ∈ id :: ids ↔ d.id ∈ ids := by simp [hid]
      simp only [hid, hmem, if_false]

/-! ## Taking nodes out -/

theorem UniqueIds.eq_of_mem_nodeIds {p : Project} (h : p.UniqueIds) {d d' : Document}
    (hd : d ∈ p.documents) (hd' : d' ∈ p.documents) {id : NodeId} (hid : id ∈ d.root.nodeIds)
    (hid' : id ∈ d'.root.nodeIds) : d = d' := by
  have hsymm : Std.Symm (Function.onFun List.Disjoint fun d : Document => d.root.nodeIds) :=
    ⟨fun _ _ hdisj _ hb ha => hdisj ha hb⟩
  by_contra hne
  exact (List.nodup_flatMap.mp h.nodes).2.forall hd hd' hne hid hid'

theorem UniqueIds.documentContaining?_eq {p : Project} (h : p.UniqueIds) {d : Document}
    (hd : d ∈ p.documents) {id : NodeId} (hid : id ∈ d.root.nodeIds) :
    p.documentContaining? id = some d := by
  cases hfind : p.documentContaining? id with
  | none =>
    exact absurd ((d.root.contains_iff id).mpr hid) (List.find?_eq_none.mp hfind d hd)
  | some d' =>
    have hid' := (d'.root.contains_iff id).mp (List.find?_some hfind :)
    rw [h.eq_of_mem_nodeIds (List.mem_of_find?_eq_some hfind) hd hid' hid]

theorem contains_iff (p : Project) (id : NodeId) : p.contains id = true ↔ id ∈ p.nodeIds := by
  rw [contains, documentContaining?, List.find?_isSome, nodeIds, List.mem_flatMap]
  simp only [Root.contains_iff]

theorem isEmpty_missing_iff (p : Project) (ids : List NodeId) :
    (ids.filter (!p.contains ·)).isEmpty = true ↔ ∀ id ∈ ids, id ∈ p.nodeIds := by
  rw [List.isEmpty_iff, List.filter_eq_nil_iff]
  refine forall₂_congr fun id _ => ?_
  rw [← contains_iff, Bool.not_eq_true, Bool.not_eq_false']

theorem exists_removeDeclarations {p : Project} {ids : List NodeId}
    (h : ∀ id ∈ ids, id ∈ p.nodeIds) : ∃ q, p.removeDeclarations ids = .ok q := by
  rw [removeDeclarations, if_pos ((p.isEmpty_missing_iff ids).mpr h)]
  exact ⟨_, rfl⟩

/-- Taking nodes out, one document after the other, erases them everywhere.  It is refused exactly
if one of them is nowhere. -/
theorem removeDeclarations_eq_ok_iff {p : Project} (h : p.UniqueIds) (ids : List NodeId)
    (q : Project) : p.removeDeclarations ids = .ok q ↔
      (∀ id ∈ ids, id ∈ p.nodeIds) ∧ q = p.erase ids.contains := by
  have hfold : ((p.documents.map (·.id)).foldl
      (fun q id => q.eraseIn id (p.nodesIn ids id)) p) = p.erase ids.contains := by
    rw [foldl_eraseIn h.documents _ _ h.documents]
    refine mapDocuments_congr fun d hd => ?_
    rw [if_pos (List.mem_map_of_mem hd)]
    -- Of the nodes in this document, none is first found in another one.
    refine congrArg (fun r => { d with root := r }) (Root.erase_congr fun id hid => ?_)
    have hdoc : (p.documentContaining? id).map (·.id) = some d.id := by
      rw [h.documentContaining?_eq hd hid]
      rfl
    rw [nodesIn, Bool.eq_iff_iff, List.contains_iff_mem, List.contains_iff_mem, List.mem_filter,
      hdoc, beq_self_eq_true]
    exact and_iff_left rfl
  rw [removeDeclarations, hfold]
  by_cases hall : ∀ id ∈ ids, id ∈ p.nodeIds
  · rw [if_pos ((p.isEmpty_missing_iff ids).mpr hall), Except.ok.injEq, eq_comm]
    exact (and_iff_right hall).symm
  · rw [if_neg fun hempty => hall ((p.isEmpty_missing_iff ids).mp hempty)]
    refine ⟨fun hok => ?_, fun hok => absurd hok.1 hall⟩
    cases hok

theorem nodeIds_erase_sublist (p : Project) (gone : NodeId → Bool) :
    (p.erase gone).nodeIds.Sublist p.nodeIds := by
  rw [nodeIds, nodeIds, erase, mapDocuments]
  induction p.documents with
  | nil => exact List.Sublist.refl _
  | cons d ds ih => exact (d.root.nodeIds_erase_sublist gone).append ih

theorem UniqueIds.erase {p : Project} (h : p.UniqueIds) (gone : NodeId → Bool) :
    (p.erase gone).UniqueIds where
  documents := by
    have hids : (p.erase gone).documents.map (·.id) = p.documents.map (·.id) :=
      documents_id_mapDocuments (f := (·.erase gone)) (fun _ => rfl) p
    rw [hids]
    exact h.documents
  nodes := h.nodes.sublist (p.nodeIds_erase_sublist gone)

end Project
end Unweave

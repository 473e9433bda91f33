import Unweave.CleanUp
import Unweave.Proofs.Remains

/-!
# Clean-ups change decoration only

A document is tidied if its tree is the same when bare and it has lost nothing but using directives.
The three clean-ups tidy, the last of them if its source of diagnostics calls no declaration
needless, as the built-in one does not.  A tidied project has the same entries in the same places,
the same namespaces and the same types, and identifiers that were distinct stay distinct.
-/

namespace Unweave

/-! ## Reading bare trees -/

namespace Member

theorem gatherAll_bareAll {α : Type} (v : Reading α) (hblock : ∀ h, v.block h.bare = v.block h)
    (htype : ∀ h, v.type h.bare = v.type h) (hleaf : ∀ l, v.leaf l.bare = v.leaf l)
    (ms : List Member) : gatherAll v (bareAll ms) = gatherAll v ms := by
  induction ms using listInduction with
  | nil => rfl
  | block head inner ms ihInner ih =>
    rw [bareAll, bare, gatherAll, gather, hblock, ihInner, ih, gatherAll, gather]
  | type head inner ms ihInner ih =>
    rw [bareAll, bare, gatherAll, gather, htype, ihInner, ih, gatherAll, gather]
  | leaf l ms ih => rw [bareAll, bare, gatherAll, gather, hleaf, ih, gatherAll, gather]

section Alike

variable {ms' ms : List Member} (h : bareAll ms' = bareAll ms)
include h

theorem gatherAll_eq_of_bareAll {α : Type} (v : Reading α)
    (hblock : ∀ h, v.block h.bare = v.block h) (htype : ∀ h, v.type h.bare = v.type h)
    (hleaf : ∀ l, v.leaf l.bare = v.leaf l) : gatherAll v ms' = gatherAll v ms := by
  rw [← gatherAll_bareAll v hblock htype hleaf ms', h, gatherAll_bareAll v hblock htype hleaf ms]

theorem declaredAll_eq_of_bareAll : declaredAll ms' = declaredAll ms := by
  rw [declaredAll_eq_gatherAll, declaredAll_eq_gatherAll]
  exact gatherAll_eq_of_bareAll h _ (fun _ => rfl) (fun _ => rfl) fun _ => rfl

theorem symbolsAll_eq_of_bareAll : symbolsAll ms' = symbolsAll ms := by
  rw [symbolsAll_eq_gatherAll, symbolsAll_eq_gatherAll]
  exact gatherAll_eq_of_bareAll h _ (fun _ => rfl) (fun _ => rfl) fun _ => rfl

theorem referencesAll_eq_of_bareAll : referencesAll ms' = referencesAll ms := by
  rw [referencesAll_eq_gatherAll, referencesAll_eq_gatherAll]
  exact gatherAll_eq_of_bareAll h _ (fun _ => rfl) (fun _ => rfl) fun _ => rfl

theorem spacesAll_eq_of_bareAll (outer : String) : spacesAll outer ms' = spacesAll outer ms := by
  rw [← spacesAll_bareAll outer ms', h, spacesAll_bareAll outer ms]

end Alike

end Member

/-! ## Tidied documents -/

namespace Document

/-- The namespace blocks outside types, with their dotted names. -/
def spaces (d : Document) : List (NodeId × String) := Member.spacesAll "" d.root.members

/-- The first document is the second one with other decoration and perhaps fewer using directives.
-/
structure Tidied (d' d : Document) : Prop where
  same : { d' with root := d.root } = d
  bare_eq : Member.bareAll d'.root.members = Member.bareAll d.root.members
  usingIds : d'.root.usingIds.Sublist d.root.usingIds

theorem Tidied.refl (d : Document) : d.Tidied d := ⟨rfl, rfl, List.Sublist.refl _⟩

theorem Tidied.trans {d'' d' d : Document} (h' : d''.Tidied d') (h : d'.Tidied d) :
    d''.Tidied d where
  same := (congrArg (fun x : Document => { x with root := d.root }) h'.same).trans h.same
  bare_eq := h'.bare_eq.trans h.bare_eq
  usingIds := h'.usingIds.trans h.usingIds

theorem Tidied.id_eq {d' d : Document} (h : d'.Tidied d) : d'.id = d.id := by
  have hid := congrArg Document.id h.same
  exact hid

theorem Tidied.sketches_eq {d' d : Document} (h : d'.Tidied d) :
    d'.entries.map Entry.sketch = d.entries.map Entry.sketch := by
  rw [entries, entries, h.id_eq]
  exact Catalogue.map_sketch_collectAll_congr d.id h.bare_eq

theorem Tidied.nodeIds_sublist {d' d : Document} (h : d'.Tidied d) :
    d'.root.nodeIds.Sublist d.root.nodeIds := by
  refine h.usingIds.append ?_
  rw [Root.declared, Member.declaredAll_eq_of_bareAll h.bare_eq]
  exact List.Sublist.refl _

end Document

/-! ## The three clean-ups -/

namespace CleanUp

/-- The clean-up tidies each document in which identifiers are distinct. -/
def Tidies (c : CleanUp) : Prop :=
  ∀ p d d', d.root.nodeIds.Nodup → c.apply p d = .ok d' → d'.Tidied d

/-- Of the nodes of a document, only using directives are called needless. -/
def FlagsUsings (usings : Project → Document → List Diagnostic) : Prop :=
  ∀ p d, ∀ id ∈ needless (usings p d), id ∈ d.root.nodeIds → id ∈ d.root.usingIds

theorem bare_makePartial (h : TypeHead) : (makePartial h).bare = h.bare := by
  rw [makePartial]
  split <;> rfl

theorem tidies_ensurePartial : ensurePartial.Tidies := by
  intro p d d' _ h
  cases h
  have husings : (d.root.mapTopTypes makePartial).usingIds = d.root.usingIds :=
    congrArg (d.root.usings.map (·.id) ++ ·)
      (Member.gatherAll_mapTopTypesAll _ makePartial (fun _ => rfl) d.root.members)
  refine ⟨rfl, Member.bareAll_mapTopTypesAll bare_makePartial d.root.members, ?_⟩
  rw [husings]

theorem tidies_removeRegions : removeRegions.Tidies := by
  intro p d d' _ h
  cases h
  have husings : ∀ us : List Using,
      (us.map (·.keepTrivia (!·.isRegion))).map (·.id) = us.map (·.id) := by
    intro us
    rw [List.map_map]
    rfl
  have hall : (d.root.keepTrivia (!·.isRegion)).usingIds = d.root.usingIds :=
    congrArg₂ (· ++ ·) (husings d.root.usings)
      (Member.gatherAll_keepTriviaAll _ _ (fun h => husings h.usings) (fun _ => rfl)
        (fun _ => rfl) d.root.members)
  refine ⟨rfl, Member.bareAll_keepTriviaAll _ d.root.members, ?_⟩
  rw [hall]

/-- Erasing only using directives tidies. -/
theorem tidied_erase {d : Document} {gone : NodeId → Bool}
    (h : Member.Keeps gone d.root.members) : (d.erase gone).Tidied d where
  same := rfl
  bare_eq := Member.bareAll_eraseAll_of_keeps h
  usingIds := d.root.usingIds_erase_sublist gone

/-- Where identifiers are distinct, no declaration is called needless. -/
theorem FlagsUsings.keeps {usings : Project → Document → List Diagnostic} (h : FlagsUsings usings)
    (p : Project) {d : Document} (hd : d.root.nodeIds.Nodup) :
    Member.Keeps (needless (usings p d)).contains d.root.members := by
  intro id hid
  rw [Bool.eq_false_iff]
  intro hgone
  have husing := h p d id (List.contains_iff_mem.mp hgone) (List.mem_append_right _ hid)
  exact List.disjoint_of_nodup_append hd husing hid

theorem removeUsings_apply (usings : Project → Document → List Diagnostic) (p : Project)
    (d : Document) :
    (removeUsings usings).apply p d = .ok (d.erase (needless (usings p d)).contains) := by
  show Except.ok (if (needless (usings p d)).isEmpty then d else _) = _
  split
  · next hempty =>
    rw [List.isEmpty_iff.mp hempty]
    exact congrArg Except.ok d.erase_nothing.symm
  · rfl

theorem FlagsUsings.tidies {usings : Project → Document → List Diagnostic}
    (h : FlagsUsings usings) : (removeUsings usings).Tidies := by
  intro p d d' hd happly
  rw [removeUsings_apply, Except.ok.injEq] at happly
  rw [← happly]
  exact tidied_erase (h.keeps p hd)

/-! ### The built-in source of diagnostics -/

/-- Whether a directive is reported, if `seen` holds those before and around it. -/
def isReported (used : List String) (seen : List UsingKey) (u : Using) : Bool :=
  seen.contains u.key || (u.isImport && !used.contains u.name)

/-- Whether a diagnostic calls its node needless. -/
def isNeedless (x : Diagnostic) : Bool :=
  x.code == Diagnostic.duplicateUsing || x.code == Diagnostic.unnecessaryUsing

theorem mem_needless_iff (ds : List Diagnostic) (id : NodeId) :
    id ∈ needless ds ↔ ∃ x ∈ ds, isNeedless x = true ∧ x.node = some id := by
  show id ∈ (ds.filter isNeedless).filterMap (·.node) ↔ _
  simp only [List.mem_filterMap, List.mem_filter, and_assoc]

section Usings

variable {used : List String} {document : String} {seen : List UsingKey} {u : Using}

theorem usingsOf_cons_of_reported (document : String) (h : isReported used seen u = true)
    (us : List Using) :
    ∃ x, x.node = some u.id ∧ isNeedless x = true ∧
      Check.usingsOf used document seen (u :: us) =
        x :: Check.usingsOf used document (u.key :: seen) us := by
  rw [Check.usingsOf]
  by_cases hseen : seen.contains u.key = true
  · exact ⟨_, rfl, rfl, if_pos hseen⟩
  · have hunused : (u.isImport && !used.contains u.name) = true := by
      rw [isReported, Bool.eq_false_iff.mpr hseen, Bool.false_or] at h
      exact h
    rw [if_neg hseen, if_pos hunused]
    exact ⟨_, rfl, rfl, rfl⟩

theorem usingsOf_cons_of_not_reported (h : isReported used seen u = false) (us : List Using) :
    Check.usingsOf used document seen (u :: us) =
      Check.usingsOf used document (u.key :: seen) us := by
  obtain ⟨hseen, hunused⟩ := Bool.or_eq_false_iff.mp h
  rw [Check.usingsOf, hseen, hunused]
  rfl

theorem exists_using_of_usingsOf {us : List Using} {x : Diagnostic}
    (h : x ∈ Check.usingsOf used document seen us) :
    ∃ u ∈ us, x.node = some u.id ∧ isNeedless x = true := by
  induction us generalizing seen with
  | nil => cases h
  | cons u us ih =>
    cases hu : isReported used seen u with
    | true =>
      obtain ⟨x', hnode, hcode, hcons⟩ := usingsOf_cons_of_reported document hu us
      rw [hcons] at h
      rcases List.mem_cons.mp h with rfl | h
      · exact ⟨u, List.mem_cons_self, hnode, hcode⟩
      · obtain ⟨v, hv, hx⟩ := ih h
        exact ⟨v, List.mem_cons_of_mem _ hv, hx⟩
    | false =>
      rw [usingsOf_cons_of_not_reported hu] at h
      obtain ⟨v, hv, hx⟩ := ih h
      exact ⟨v, List.mem_cons_of_mem _ hv, hx⟩

end Usings

section Blocks

variable (used : List String) (document : String) (seen : List UsingKey)

theorem blockUsingsAll_type (head : TypeHead) (inner ms : List Member) :
    Check.blockUsingsAll used document seen (.type head inner :: ms) =
      Check.blockUsingsAll used document seen ms := rfl

theorem blockUsingsAll_leaf (l : Leaf) (ms : List Member) :
    Check.blockUsingsAll used document seen (.leaf l :: ms) =
      Check.blockUsingsAll used document seen ms := rfl

end Blocks

theorem exists_using_of_blockUsingsAll {used : List String} {document : String}
    {seen : List UsingKey} {ms : List Member} {x : Diagnostic}
    (h : x ∈ Check.blockUsingsAll used document seen ms) :
    ∃ id ∈ Member.usingIdsAll ms, x.node = some id ∧ isNeedless x = true := by
  unfold Member.usingIdsAll
  induction ms using Member.listInduction generalizing seen with
  | nil => cases h
  | block head inner ms ihInner ih =>
    rw [Check.blockUsingsAll, Check.blockUsings, List.mem_append, List.mem_append] at h
    simp only [Member.gatherAll, Member.gather, List.mem_append]
    rcases h with (h | h) | h
    · obtain ⟨u, hu, hx⟩ := exists_using_of_usingsOf h
      exact ⟨u.id, Or.inl (Or.inl (List.mem_map_of_mem hu)), hx⟩
    · obtain ⟨id, hid, hx⟩ := ihInner h
      exact ⟨id, Or.inl (Or.inr hid), hx⟩
    · obtain ⟨id, hid, hx⟩ := ih h
      exact ⟨id, Or.inr hid, hx⟩
  | type head inner ms _ ih =>
    rw [blockUsingsAll_type] at h
    obtain ⟨id, hid, hx⟩ := ih h
    exact ⟨id, List.mem_append_right _ hid, hx⟩
  | leaf l ms ih =>
    rw [blockUsingsAll_leaf] at h
    obtain ⟨id, hid, hx⟩ := ih h
    exact ⟨id, List.mem_append_right _ hid, hx⟩

/-- Each report names a using directive of the document and calls it needless. -/
theorem exists_using_of_needlessUsings {d : Document} {x : Diagnostic}
    (h : x ∈ Check.needlessUsings d) :
    ∃ id ∈ d.root.usingIds, x.node = some id ∧ isNeedless x = true := by
  rcases List.mem_append.mp h with h | h
  · obtain ⟨u, hu, hx⟩ := exists_using_of_usingsOf h
    exact ⟨u.id, List.mem_append_left _ (List.mem_map_of_mem hu), hx⟩
  · obtain ⟨id, hid, hx⟩ := exists_using_of_blockUsingsAll h
    exact ⟨id, List.mem_append_right _ hid, hx⟩

theorem flagsUsings_needlessUsings : FlagsUsings fun _ d => Check.needlessUsings d := by
  intro p d id hid _
  obtain ⟨x, hx, -, hnode⟩ := (mem_needless_iff _ _).mp hid
  obtain ⟨id', hid', hnode', -⟩ := exists_using_of_needlessUsings hx
  rw [hnode, Option.some.injEq] at hnode'
  exact hnode' ▸ hid'

end CleanUp

/-! ## Tidied projects -/

namespace Project

/-- Where the declarations stand, in the order of the text. -/
def sites (p : Project) : List Site := p.entries.map Entry.site

/-- The namespaces of each document. -/
def spaces (p : Project) : List (DocumentId × List (NodeId × String)) :=
  p.documents.map fun d => (d.id, d.spaces)

theorem flatMap_mapDocuments {α : Type} {f f' : Document → List α} {g : Document → Document}
    {p : Project} (h : ∀ d ∈ p.documents, f (g d) = f' d) :
    (p.mapDocuments g).documents.flatMap f = p.documents.flatMap f' := by
  show (p.documents.map g).flatMap f = p.documents.flatMap f'
  rw [List.flatMap_map, List.flatMap_def, List.flatMap_def, List.map_congr_left h]

theorem map_sketch_entries (p : Project) :
    p.entries.map Entry.sketch = p.documents.flatMap fun d => d.entries.map Entry.sketch := by
  rw [entries_eq_flatMap, List.map_flatMap]

/-- Every document is tidied. -/
def Tidied (q p : Project) : Prop :=
  ∃ g, q = p.mapDocuments g ∧ ∀ d ∈ p.documents, (g d).Tidied d

theorem Tidied.trans {r q p : Project} (h' : r.Tidied q) (h : q.Tidied p) : r.Tidied p := by
  obtain ⟨g, rfl, hg⟩ := h
  obtain ⟨g', rfl, hg'⟩ := h'
  refine ⟨g' ∘ g, mapDocuments_mapDocuments g g' p, fun d hd => ?_⟩
  exact (hg' (g d) (List.mem_map_of_mem hd)).trans (hg d hd)

section Tidied

variable {q p : Project} (h : q.Tidied p)
include h

theorem Tidied.sketches_eq : q.entries.map Entry.sketch = p.entries.map Entry.sketch := by
  obtain ⟨g, rfl, hg⟩ := h
  rw [map_sketch_entries, map_sketch_entries]
  exact flatMap_mapDocuments fun d hd => (hg d hd).sketches_eq

theorem Tidied.sites_eq : q.sites = p.sites := by
  have hsketch := congrArg (List.map Prod.fst) h.sketches_eq
  rw [List.map_map, List.map_map] at hsketch
  exact hsketch

theorem Tidied.remainsOf : q.RemainsOf p := RemainsOf.of_sketches h.sketches_eq

theorem Tidied.spaces_eq : q.spaces = p.spaces := by
  obtain ⟨g, rfl, hg⟩ := h
  rw [spaces, spaces, mapDocuments, List.map_map]
  refine List.map_congr_left fun d hd => Prod.ext (hg d hd).id_eq ?_
  exact Member.spacesAll_eq_of_bareAll (hg d hd).bare_eq ""

theorem Tidied.uniqueIds (hp : p.UniqueIds) : q.UniqueIds := by
  obtain ⟨g, rfl, hg⟩ := h
  constructor
  · have hids : (p.mapDocuments g).documents.map (·.id) = p.documents.map (·.id) := by
      rw [mapDocuments, List.map_map]
      exact List.map_congr_left fun d hd => (hg d hd).id_eq
    rw [hids]
    exact hp.documents
  · refine hp.nodes.sublist ?_
    rw [nodeIds, nodeIds, mapDocuments]
    have hsub : ∀ ds : List Document, (∀ d ∈ ds, (g d).Tidied d) →
        ((ds.map g).flatMap (·.root.nodeIds)).Sublist (ds.flatMap (·.root.nodeIds)) := by
      intro ds hds
      induction ds with
      | nil => exact List.Sublist.refl _
      | cons d ds ih =>
        exact (hds d List.mem_cons_self).nodeIds_sublist.append
          (ih fun d' hd' => hds d' (List.mem_cons_of_mem _ hd'))
    exact hsub p.documents hg

theorem Tidied.coherentTypes (hp : p.CoherentTypes) : q.CoherentTypes := by
  obtain ⟨g, rfl, hg⟩ := h
  have hsymbols : (p.mapDocuments g).documents.flatMap (·.root.symbols) =
      p.documents.flatMap (·.root.symbols) :=
    flatMap_mapDocuments fun d hd => Member.symbolsAll_eq_of_bareAll (hg d hd).bare_eq
  refine hp.of_subset (typeRefs_subset ?_)
  rw [hsymbols]
  exact List.Subset.refl _

end Tidied

end Project
end Unweave

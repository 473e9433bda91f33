import Unweave.Proofs.Completeness
import Unweave.Proofs.Tidy

/-!
# Selections do not look at decoration

A walk reads off a declaration no more than its identifier, the leaf without the text in front of
it, and where to go next: its outline.  Projects whose entries have the same sketches therefore give
the same answers, and passes select declarations with the same identifiers in both.
-/

namespace Unweave

/-- What a walk sees of a declaration. -/
def Declaration.outline (d : Declaration) : NodeId × Option Leaf × List NodeId :=
  (d.id, d.bareLeaf?, d.callees)

namespace Declaration

variable {d d' : Declaration} (h : d'.outline = d.outline)
include h

theorem id_eq_of_outline : d'.id = d.id := congrArg Prod.fst h

theorem callees_eq_of_outline : d'.callees = d.callees := congrArg (·.2.2) h

/-- What is the same for all types, and looks at nothing in front of a leaf, is seen. -/
theorem apply_eq_of_outline {α : Type} (f : Declaration → α)
    (htype : ∀ head members head' members', f (.type head' members') = f (.type head members))
    (hleaf : ∀ l : Leaf, f (.leaf l) = f (.leaf l.bare)) : f d' = f d := by
  have hbare : d'.bareLeaf? = d.bareLeaf? := congrArg (·.2.1) h
  cases d' with
  | type head' members' =>
    cases d with
    | type head members => exact htype _ _ _ _
    | leaf l => cases hbare
  | leaf l' =>
    cases d with
    | type head members => cases hbare
    | leaf l =>
      have hbare : l'.bare = l.bare := Option.some.inj hbare
      rw [hleaf l', hbare, ← hleaf l]

theorem symbols_eq_of_outline : d'.symbols = d.symbols :=
  apply_eq_of_outline h _ (fun _ _ _ _ => rfl) fun _ => rfl

theorem isType_eq_of_outline : d'.isType = d.isType :=
  apply_eq_of_outline h _ (fun _ _ _ _ => rfl) fun _ => rfl

theorem isCallable_eq_of_outline : d'.isCallable = d.isCallable :=
  apply_eq_of_outline h _ (fun _ _ _ _ => rfl) fun _ => rfl

end Declaration

/-! ## Lists that are alike -/

section Alike

variable {α β γ : Type} {f : α → γ} {f' : β → γ}

theorem filter_map_eq {as : List α} {bs : List β} (h : as.map f = bs.map f') {P : α → Bool}
    {Q : β → Bool} (hPQ : ∀ a b, f a = f' b → P a = Q b) :
    (as.filter P).map f = (bs.filter Q).map f' := by
  induction as generalizing bs with
  | nil =>
    obtain rfl : bs = [] := List.map_eq_nil_iff.mp h.symm
    rfl
  | cons a as ih =>
    cases bs with
    | nil => cases h
    | cons b bs =>
      obtain ⟨hab, hrest⟩ := List.cons.inj h
      have hsame := hPQ a b hab
      rw [List.filter_cons, List.filter_cons, hsame]
      split
      · exact congrArg₂ List.cons hab (ih hrest)
      · exact ih hrest

theorem foldl_eq_of_map_eq {δ : Type} {as : List α} {bs : List β} (h : as.map f = bs.map f')
    (g : δ → α → δ) (g' : δ → β → δ) (hg : ∀ r a b, f a = f' b → g r a = g' r b) (r : δ) :
    as.foldl g r = bs.foldl g' r := by
  induction as generalizing bs r with
  | nil =>
    obtain rfl : bs = [] := List.map_eq_nil_iff.mp h.symm
    rfl
  | cons a as ih =>
    cases bs with
    | nil => cases h
    | cons b bs =>
      obtain ⟨hab, hrest⟩ := List.cons.inj h
      rw [List.foldl_cons, List.foldl_cons, hg r a b hab]
      exact ih hrest _

end Alike

/-! ## Walks -/

namespace Catalogue

/-- The declarations of the two have the same sketches. -/
def Alike (c' c : Catalogue) : Prop := c'.entries.map Entry.sketch = c.entries.map Entry.sketch

theorem outline_of_sketch {e' e : Entry} (h : e'.sketch = e.sketch) :
    e'.declaration.outline = e.declaration.outline := by
  obtain ⟨hsite, hcallees⟩ := Prod.mk.inj h
  exact Prod.ext (congrArg Site.id hsite) (Prod.ext (congrArg Site.leaf hsite) hcallees)

variable {c' c : Catalogue} (h : c'.Alike c)
include h

theorem Alike.find?_eq (id : NodeId) :
    (c'.find? id).map Entry.sketch = (c.find? id).map Entry.sketch := by
  have hfilter : (c'.entries.filter (·.id == id)).map Entry.sketch =
      (c.entries.filter (·.id == id)).map Entry.sketch := by
    refine filter_map_eq h fun e' e he => ?_
    rw [(Entry.RemainsOf.of_sketch he).id_eq]
  rw [find?, find?, ← List.getLast?_map, ← List.getLast?_map, hfilter]

theorem Alike.outline?_eq (id : NodeId) :
    (c'.find? id).map (·.declaration.outline) = (c.find? id).map (·.declaration.outline) := by
  have hfind := h.find?_eq id
  cases he' : c'.find? id with
  | none =>
    rw [he'] at hfind
    rw [Option.map_eq_none_iff.mp hfind.symm]
  | some e' =>
    rw [he'] at hfind
    obtain ⟨e, he, hsketch⟩ := Option.map_eq_some_iff.mp hfind.symm
    rw [he, Option.map_some, Option.map_some, outline_of_sketch hsketch]

theorem Alike.targets_eq {d' d : Declaration} (hd : d'.outline = d.outline) :
    (Walk.targets c' d').map Declaration.outline = (Walk.targets c d).map Declaration.outline := by
  refine filter_map_eq ?_ fun t' t ht => ?_
  · rw [List.map_filterMap, List.map_filterMap, Declaration.callees_eq_of_outline hd]
    refine List.filterMap_congr fun id _ => ?_
    rw [Option.map_map, Option.map_map]
    exact h.outline?_eq id
  · rw [Declaration.isType_eq_of_outline hd, Declaration.isCallable_eq_of_outline ht]

/-- A walk is the same on both. -/
theorem Alike.walk_eq (fuel : Nat) {d' d : Declaration} (hd : d'.outline = d.outline)
    (s : Walk.State) : Walk.walk c' fuel d' s = Walk.walk c fuel d s := by
  induction fuel generalizing d' d s with
  | zero => rfl
  | succ fuel ih =>
    have hid := Declaration.id_eq_of_outline hd
    cases hcache : s.cache.lookup d.id with
    | some deps => rw [Walk.walk_cached hcache, Walk.walk_cached (hid ▸ hcache)]
    | none =>
      cases hheight : Walk.heightOf d.id s.stack with
      | some height =>
        rw [Walk.walk_open hcache hheight, Walk.walk_open (hid ▸ hcache) (hid ▸ hheight)]
      | none =>
        -- Both loops visit targets with the same outlines.
        have hloop := foldl_eq_of_map_eq (h.targets_eq hd) (Walk.visit c' fuel)
          (Walk.visit c fuel) fun r t' t ht => congrArg (Walk.absorb r) (ih ht r.2)
        rw [Walk.walk_fresh hcache hheight, Walk.walk_fresh (hid ▸ hcache) (hid ▸ hheight), hloop,
          Declaration.symbols_eq_of_outline hd, hid, Walk.leave, Walk.leave, hid]

end Catalogue

namespace Walker

/-- Walkers that have answered the same, on catalogues that are alike. -/
structure Alike (w' w : Walker) : Prop where
  catalogue : w'.catalogue.Alike w.catalogue
  cache_eq : w'.cache = w.cache

variable {w' w : Walker}

theorem Alike.dependencies (h : w'.Alike w) {d' d : Declaration} (hd : d'.outline = d.outline) :
    (w'.dependencies d').1 = (w.dependencies d).1 ∧
      (w'.dependencies d').2.Alike (w.dependencies d).2 := by
  have hlength : w'.catalogue.entries.length = w.catalogue.entries.length := by
    simpa using congrArg List.length h.catalogue
  have hwalk := h.catalogue.walk_eq (w.catalogue.entries.length + 1) hd ⟨w.cache, []⟩
  simp only [Walker.dependencies, dependenciesWith, hlength, h.cache_eq, hwalk]
  exact ⟨trivial, h.catalogue, rfl⟩

/-- An answer, with what is seen of the declaration that was asked for. -/
def seen (a : Entry × TypeSet) : (Site × List NodeId) × TypeSet := (a.1.sketch, a.2)

theorem Alike.answerAll (h : w'.Alike w) {es' es : List Entry}
    (hes : es'.map Entry.sketch = es.map Entry.sketch) :
    (w'.answerAll es').1.map seen = (w.answerAll es).1.map seen := by
  induction es' generalizing w' w es with
  | nil =>
    obtain rfl : es = [] := List.map_eq_nil_iff.mp hes.symm
    rfl
  | cons e' es' ih =>
    cases es with
    | nil => cases hes
    | cons e es =>
      obtain ⟨he, hrest⟩ := List.cons.inj hes
      obtain ⟨hdeps, hnext⟩ := h.dependencies (Catalogue.outline_of_sketch he)
      refine congrArg₂ List.cons (Prod.ext he hdeps) ?_
      exact ih hnext hrest

end Walker

/-! ## Selections -/

namespace Project

/-- The entries of the two have the same sketches. -/
def Alike (q p : Project) : Prop := q.entries.map Entry.sketch = p.entries.map Entry.sketch

variable {q p : Project} (h : q.Alike p)
include h

theorem Alike.walkers : (Walker.ofProject q).Alike (Walker.ofProject p) := ⟨h, rfl⟩

theorem Alike.sites_eq : q.sites = p.sites := by
  have hsketch := congrArg (List.map Prod.fst) h
  rw [List.map_map, List.map_map] at hsketch
  exact hsketch

variable (hq : q.UniqueIds) (hp : p.UniqueIds)
include hq hp

/-- Answers for entries of one kind are the same. -/
theorem Alike.answers_eq {P : Declaration → Bool}
    (hP : ∀ e' e : Entry, e'.RemainsOf e → P e'.declaration = P e.declaration) :
    ((Walker.ofProject q).answerAll
        ((Catalogue.ofProject q).declarations.filter fun e => P e.declaration)).1.map Walker.seen =
      ((Walker.ofProject p).answerAll
        ((Catalogue.ofProject p).declarations.filter fun e => P e.declaration)).1.map
          Walker.seen := by
  refine h.walkers.answerAll ?_
  rw [hq.declarations_eq, hp.declarations_eq]
  exact filter_map_eq h fun e' e he => hP e' e (.of_sketch he)

theorem Alike.extensionIds_eq (policy : InterweaveConfig) :
    Extraction.extensionIds policy q = Extraction.extensionIds policy p := by
  have hanswers := h.answers_eq hq hp (P := Declaration.isExtensionMethod)
    fun e' e he => he.isExtensionMethod_eq
  have hselected := filter_map_eq hanswers (P := fun a => policy.anyInterweave a.2)
    (Q := fun a => policy.anyInterweave a.2) fun a' a ha => by rw [(Prod.mk.inj ha).2]
  have hids := congrArg (List.map fun x => x.1.1.id) hselected
  rw [List.map_map, List.map_map] at hids
  rw [Extraction.extensionIds, Extraction.extensionIds, InterweaveConfig.selectExtensions,
    InterweaveConfig.selectExtensions, List.map_map, List.map_map]
  exact hids

theorem Alike.memberIds_eq (policy : InterweaveConfig) :
    (policy.interwovenMembers q).map (·.1.id) = (policy.interwovenMembers p).map (·.1.id) := by
  have hanswers := h.answers_eq hq hp
    (P := fun d => d.isTypeMember && !d.isExtensionMethod)
    fun e' e he => by rw [he.isTypeMember_eq, he.isExtensionMethod_eq]
  have hselected := filter_map_eq hanswers (P := fun a => policy.isInterwoven a.1 a.2)
    (Q := fun a => policy.isInterwoven a.1 a.2) fun a' a ha => by
      obtain ⟨hsketch, hdeps⟩ := Prod.mk.inj ha
      rw [InterweaveConfig.isInterwoven, InterweaveConfig.isInterwoven, hdeps,
        (Entry.RemainsOf.of_sketch hsketch).containerOpenName_eq]
  have hids := congrArg (List.map fun x => x.1.1.id) hselected
  rw [List.map_map, List.map_map] at hids
  exact hids

end Project

/-! ## Erasing from projects that differ in decoration -/

theorem Member.bareAll_eraseAll (gone : NodeId → Bool) (ms : List Member) :
    bareAll (eraseAll gone ms) = eraseAll gone (bareAll ms) := by
  induction ms using listInduction with
  | nil => rfl
  | block head inner ms ihInner ih =>
    have hid : (bare (block head inner)).id = (block head inner).id := rfl
    cases hg : gone (block head inner).id with
    | true => rw [eraseAll_cons_of_gone hg, bareAll, eraseAll_cons_of_gone (hid ▸ hg), ih]
    | false =>
      rw [eraseAll_cons_of_kept hg, bareAll, bareAll, eraseAll_cons_of_kept (hid ▸ hg), ih,
        eraseInside, bare, ihInner]
      rfl
  | type head inner ms ihInner ih =>
    have hid : (bare (type head inner)).id = (type head inner).id := rfl
    cases hg : gone (type head inner).id with
    | true => rw [eraseAll_cons_of_gone hg, bareAll, eraseAll_cons_of_gone (hid ▸ hg), ih]
    | false =>
      rw [eraseAll_cons_of_kept hg, bareAll, bareAll, eraseAll_cons_of_kept (hid ▸ hg), ih,
        eraseInside, bare, ihInner]
      rfl
  | leaf l ms ih =>
    have hid : (bare (leaf l)).id = (leaf l).id := rfl
    cases hg : gone (leaf l).id with
    | true => rw [eraseAll_cons_of_gone hg, bareAll, eraseAll_cons_of_gone (hid ▸ hg), ih]
    | false =>
      rw [eraseAll_cons_of_kept hg, bareAll, bareAll, eraseAll_cons_of_kept (hid ▸ hg), ih]
      rfl

/-- A document without decoration. -/
def Document.bareTree (d : Document) : DocumentId × List Member :=
  (d.id, Member.bareAll d.root.members)

namespace Project

/-- The two differ in decoration only. -/
structure SameTrees (q p : Project) : Prop where
  assembly_eq : q.assembly = p.assembly
  trees_eq : q.documents.map Document.bareTree = p.documents.map Document.bareTree

variable {q p : Project}

theorem Tidied.sameTrees (h : q.Tidied p) : q.SameTrees p := by
  obtain ⟨g, rfl, hg⟩ := h
  refine ⟨rfl, ?_⟩
  rw [mapDocuments, List.map_map]
  exact List.map_congr_left fun d hd => Prod.ext (hg d hd).id_eq (hg d hd).bare_eq

namespace SameTrees

variable (h : q.SameTrees p)
include h

/-- What is read off bare trees is the same in both. -/
theorem map_eq {α : Type} {f : Document → α} (hf : ∀ d' d : Document, d'.bareTree = d.bareTree →
    f d' = f d) : q.documents.map f = p.documents.map f := by
  have htrees := h.trees_eq
  generalize q.documents = ds' at htrees
  generalize p.documents = ds at htrees
  induction ds' generalizing ds with
  | nil =>
    obtain rfl : ds = [] := List.map_eq_nil_iff.mp htrees.symm
    rfl
  | cons d' ds' ih =>
    cases ds with
    | nil => cases htrees
    | cons d ds =>
      obtain ⟨hd, hrest⟩ := List.cons.inj htrees
      exact congrArg₂ List.cons (hf d' d hd) (ih ds hrest)

theorem alike : q.Alike p := by
  rw [Alike, map_sketch_entries, map_sketch_entries, List.flatMap_def, List.flatMap_def]
  refine congrArg List.flatten (h.map_eq fun d' d hd => ?_)
  obtain ⟨hid, hbare⟩ := Prod.mk.inj hd
  rw [Document.entries, Document.entries, hid]
  exact Catalogue.map_sketch_collectAll_congr d.id hbare

theorem spaces_eq : q.spaces = p.spaces := by
  refine h.map_eq fun d' d hd => ?_
  obtain ⟨hid, hbare⟩ := Prod.mk.inj hd
  exact Prod.ext hid (Member.spacesAll_eq_of_bareAll hbare "")

theorem erase (gone : NodeId → Bool) : (q.erase gone).SameTrees (p.erase gone) := by
  refine ⟨h.assembly_eq, ?_⟩
  rw [Project.erase, Project.erase, mapDocuments, mapDocuments, List.map_map, List.map_map]
  refine h.map_eq fun d' d hd => ?_
  obtain ⟨hid, hbare⟩ := Prod.mk.inj hd
  refine Prod.ext hid ?_
  show Member.bareAll (Member.eraseAll gone d'.root.members) =
    Member.bareAll (Member.eraseAll gone d.root.members)
  rw [Member.bareAll_eraseAll, Member.bareAll_eraseAll, hbare]

end SameTrees
end Project
end Unweave

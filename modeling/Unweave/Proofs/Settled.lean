import Unweave.Check.Structural
import Unweave.Proofs.Tidy

/-!
# Clean-ups with nothing left to do

A clean-up is settled on a project if it leaves every editable document as it is.  Making types
partial is settled where there are none.  Removing regions stays settled when nodes are erased,
since the two commute.  Removing using directives is settled right after it was done: a directive
that was kept repeats none of those kept before it, and erasing directives takes no name out of use.

Nor does it take a declaration, so the structural check reads the same (`view_erase`).
-/

namespace Unweave

namespace CleanUp

/-- The clean-up has nothing to do on the project. -/
def Settled (c : CleanUp) (q : Project) : Prop :=
  ∀ p, ∀ d ∈ q.documents, d.isEditable = true → c.apply p d = .ok d

end CleanUp

/-! ## Partial types -/

namespace Member

theorem mapTopTypesAll_of_leaves (f : TypeHead → TypeHead) (document : DocumentId)
    {space : String} {container : Option TypeHead} {depth : Nat} {ms : List Member}
    (h : ∀ e ∈ Catalogue.collectAll document space container depth ms,
      e.declaration.isType = false) : mapTopTypesAll f ms = ms := by
  induction ms using listInduction generalizing space container depth with
  | nil => rfl
  | block head inner ms ihInner ih =>
    simp only [Catalogue.collectAll, Catalogue.collect, List.mem_append] at h
    rw [mapTopTypesAll, mapTopTypes, ihInner fun e he => h e (Or.inl he),
      ih fun e he => h e (Or.inr he)]
  | type head inner ms _ _ =>
    have htype := h _ (List.mem_append_left _ List.mem_cons_self)
    cases htype
  | leaf l ms ih =>
    simp only [Catalogue.collectAll, Catalogue.collect, List.mem_append] at h
    rw [mapTopTypesAll, mapTopTypes, ih fun e he => h e (Or.inr he)]

end Member

theorem CleanUp.settled_ensurePartial {q : Project}
    (h : ∀ e ∈ q.entries, e.declaration.isType = false) : ensurePartial.Settled q := by
  intro p d hd _
  have hleaves : ∀ e ∈ d.entries, e.declaration.isType = false := fun e he =>
    h e (Project.mem_entries_iff.mpr ⟨d, hd, he⟩)
  have hroot : d.root.mapTopTypes makePartial = d.root := by
    rw [Root.mapTopTypes, Member.mapTopTypesAll_of_leaves makePartial d.id hleaves]
  show Except.ok { d with root := d.root.mapTopTypes makePartial } = .ok d
  rw [hroot]

/-! ## Regions -/

theorem eraseUsings_keepTrivia (keep : Trivia → Bool) (gone : NodeId → Bool) (us : List Using) :
    (eraseUsings gone us).map (·.keepTrivia keep) =
      eraseUsings gone (us.map (·.keepTrivia keep)) := by
  rw [eraseUsings, eraseUsings, List.filter_map]
  rfl

namespace Member

theorem id_keepTrivia (keep : Trivia → Bool) (m : Member) :
    (Member.keepTrivia keep m).id = m.id := by
  cases m <;> rfl

theorem keepTriviaAll_eraseAll_cons {keep : Trivia → Bool} {gone : NodeId → Bool} {m : Member}
    {ms : List Member}
    (hm : Member.keepTrivia keep (eraseInside gone m) = eraseInside gone (Member.keepTrivia keep m))
    (hms : keepTriviaAll keep (eraseAll gone ms) = eraseAll gone (keepTriviaAll keep ms)) :
    keepTriviaAll keep (eraseAll gone (m :: ms)) =
      eraseAll gone (keepTriviaAll keep (m :: ms)) := by
  rw [keepTriviaAll, eraseAll, eraseAll, id_keepTrivia]
  split
  · exact hms
  · rw [keepTriviaAll, hm, hms]

theorem keepTriviaAll_eraseAll (keep : Trivia → Bool) (gone : NodeId → Bool) (ms : List Member) :
    keepTriviaAll keep (eraseAll gone ms) = eraseAll gone (keepTriviaAll keep ms) := by
  induction ms using listInduction with
  | nil => rfl
  | block head inner ms ihInner ih =>
    refine keepTriviaAll_eraseAll_cons ?_ ih
    rw [eraseInside, Member.keepTrivia, Member.keepTrivia, eraseInside, ihInner,
      eraseUsings_keepTrivia]
  | type head inner ms ihInner ih =>
    refine keepTriviaAll_eraseAll_cons ?_ ih
    rw [eraseInside, Member.keepTrivia, Member.keepTrivia, eraseInside, ihInner]
  | leaf l ms ih => exact keepTriviaAll_eraseAll_cons rfl ih

end Member

theorem Using.keepTrivia_keepTrivia (keep : Trivia → Bool) (u : Using) :
    (u.keepTrivia keep).keepTrivia keep = u.keepTrivia keep := by
  show { u with leading := (u.leading.filter keep).filter keep } = _
  rw [List.filter_filter]
  simp only [Bool.and_self]
  rfl

theorem Member.keepTriviaAll_keepTriviaAll (keep : Trivia → Bool) (ms : List Member) :
    keepTriviaAll keep (keepTriviaAll keep ms) = keepTriviaAll keep ms := by
  have husings : ∀ us : List Using,
      (us.map (·.keepTrivia keep)).map (·.keepTrivia keep) = us.map (·.keepTrivia keep) := by
    intro us
    rw [List.map_map]
    exact List.map_congr_left fun u _ => u.keepTrivia_keepTrivia keep
  induction ms using listInduction with
  | nil => rfl
  | block head inner ms ihInner ih =>
    simp only [keepTriviaAll, Member.keepTrivia, ihInner, ih, husings, List.filter_filter,
      Bool.and_self]
  | type head inner ms ihInner ih =>
    simp only [keepTriviaAll, Member.keepTrivia, ihInner, ih, List.filter_filter, Bool.and_self]
  | leaf l ms ih =>
    simp only [keepTriviaAll, Member.keepTrivia, ih, List.filter_filter, Bool.and_self]

namespace Root

theorem keepTrivia_erase (r : Root) (keep : Trivia → Bool) (gone : NodeId → Bool) :
    (r.erase gone).keepTrivia keep = (r.keepTrivia keep).erase gone := by
  simp only [keepTrivia, erase, eraseUsings_keepTrivia, Member.keepTriviaAll_eraseAll]

theorem keepTrivia_keepTrivia (r : Root) (keep : Trivia → Bool) :
    (r.keepTrivia keep).keepTrivia keep = r.keepTrivia keep := by
  have husings : (r.usings.map (·.keepTrivia keep)).map (·.keepTrivia keep) =
      r.usings.map (·.keepTrivia keep) := by
    rw [List.map_map]
    exact List.map_congr_left fun u _ => u.keepTrivia_keepTrivia keep
  simp only [keepTrivia, husings, Member.keepTriviaAll_keepTriviaAll, List.filter_filter,
    Bool.and_self]

end Root

namespace CleanUp

theorem settled_removeRegions_iff (q : Project) : removeRegions.Settled q ↔
    ∀ d ∈ q.documents, d.isEditable = true → d.root.keepTrivia (!·.isRegion) = d.root := by
  constructor
  · intro h d hd hedit
    have hsame := Except.ok.inj (h q d hd hedit)
    exact congrArg Document.root hsame
  · intro h p d hd hedit
    show Except.ok { d with root := d.root.keepTrivia (!·.isRegion) } = .ok d
    rw [h d hd hedit]

/-- Erasing brings no region back. -/
theorem Settled.removeRegions_erase {q : Project} (h : removeRegions.Settled q)
    {g : Document → Document} (hg : ∀ d ∈ q.documents, ∃ gone, g d = d.erase gone) :
    removeRegions.Settled (q.mapDocuments g) := by
  rw [settled_removeRegions_iff] at h ⊢
  intro d' hd' hedit
  obtain ⟨d, hd, rfl⟩ := List.mem_map.mp hd'
  obtain ⟨gone, hgone⟩ := hg d hd
  rw [hgone] at hedit ⊢
  show (d.root.erase gone).keepTrivia _ = d.root.erase gone
  rw [Root.keepTrivia_erase, h d hd hedit]

end CleanUp

/-! ## Using directives -/

namespace CleanUp

section Usings

variable {used : List String} {document : String} {gone : NodeId → Bool}
  {seen' seen : List UsingKey}

/-- What is reported among fewer directives is reported among more. -/
theorem isReported_mono (h : seen' ⊆ seen) {u : Using} (hu : isReported used seen' u = true) :
    isReported used seen u = true := by
  rcases Bool.or_eq_true_iff.mp hu with hseen | hunused
  · have hmem := h (List.contains_iff_mem.mp hseen)
    rw [isReported, List.contains_iff_mem.mpr hmem, Bool.true_or]
  · rw [isReported, hunused, Bool.or_true]

theorem usingsOf_eraseUsings (hseen : seen' ⊆ seen) {us : List Using}
    (h : ∀ x ∈ Check.usingsOf used document seen us, ∀ id, x.node = some id → gone id = true) :
    Check.usingsOf used document seen' (eraseUsings gone us) = [] := by
  induction us generalizing seen' seen with
  | nil => rfl
  | cons u us ih =>
    cases hu : isReported used seen u with
    | true =>
      obtain ⟨x, hnode, -, hcons⟩ := usingsOf_cons_of_reported document hu us
      rw [hcons] at h
      have hgone : (!gone u.id) = false := by
        rw [h x List.mem_cons_self u.id hnode, Bool.not_true]
      rw [eraseUsings, List.filter_cons_of_neg (by rw [hgone]; exact Bool.false_ne_true)]
      exact ih (List.subset_cons_of_subset _ hseen) fun x hx => h x (List.mem_cons_of_mem _ hx)
    | false =>
      rw [usingsOf_cons_of_not_reported hu] at h
      cases hg : gone u.id with
      | true =>
        rw [eraseUsings, List.filter_cons_of_neg (by rw [hg]; exact Bool.false_ne_true)]
        exact ih (List.subset_cons_of_subset _ hseen) h
      | false =>
        have hu' : isReported used seen' u = false := by
          rw [Bool.eq_false_iff]
          intro hrep
          rw [isReported_mono hseen hrep] at hu
          cases hu
        rw [eraseUsings, List.filter_cons_of_pos (by rw [hg]; rfl),
          usingsOf_cons_of_not_reported hu']
        exact ih (List.cons_subset_cons _ hseen) h

theorem blockUsingsAll_eraseAll (hseen : seen' ⊆ seen) {ms : List Member}
    (hkeep : Member.Keeps gone ms)
    (h : ∀ x ∈ Check.blockUsingsAll used document seen ms, ∀ id, x.node = some id →
      gone id = true) :
    Check.blockUsingsAll used document seen' (Member.eraseAll gone ms) = [] := by
  induction ms using Member.listInduction generalizing seen' seen with
  | nil => rfl
  | block head inner ms ihInner ih =>
    obtain ⟨hg, hinner, hms⟩ := hkeep.of_block
    rw [Check.blockUsingsAll, Check.blockUsings] at h
    simp only [List.mem_append] at h
    have hkeys : (eraseUsings gone head.usings).map Using.key ++ seen' ⊆
        head.usings.map Using.key ++ seen :=
      List.append_subset.mpr
        ⟨List.subset_append_of_subset_left _ (List.map_subset _ (List.filter_subset_self _)),
          List.subset_append_of_subset_right _ hseen⟩
    rw [Member.eraseAll_cons_of_kept hg, Member.eraseInside, Check.blockUsingsAll,
      Check.blockUsings, usingsOf_eraseUsings hseen fun x hx => h x (Or.inl (Or.inl hx)),
      ihInner hkeys hinner fun x hx => h x (Or.inl (Or.inr hx)),
      ih hseen hms fun x hx => h x (Or.inr hx)]
    rfl
  | type head inner ms _ ih =>
    obtain ⟨hg, -, hms⟩ := hkeep.of_type
    rw [Member.eraseAll_cons_of_kept hg, Member.eraseInside, blockUsingsAll_type]
    exact ih hseen hms h
  | leaf l ms ih =>
    obtain ⟨hg, hms⟩ := hkeep.of_leaf
    rw [Member.eraseAll_cons_of_kept hg, Member.eraseInside, blockUsingsAll_leaf]
    exact ih hseen hms h

end Usings

theorem usedNamespaces_eq_of_bareAll {r' r : Root}
    (h : Member.bareAll r'.members = Member.bareAll r.members) :
    r'.usedNamespaces = r.usedNamespaces := by
  rw [Root.usedNamespaces, Root.usedNamespaces, Root.symbols, Root.references,
    Member.symbolsAll_eq_of_bareAll h, Member.referencesAll_eq_of_bareAll h]
  rfl

theorem usedNamespaces_erase {r : Root} {gone : NodeId → Bool}
    (h : Member.Keeps gone r.members) : (r.erase gone).usedNamespaces = r.usedNamespaces :=
  usedNamespaces_eq_of_bareAll (Member.bareAll_eraseAll_of_keeps h)

/-- Once all reported directives are erased, and nothing else, none is reported. -/
theorem needlessUsings_erase {d : Document} {gone : NodeId → Bool}
    (hkeep : Member.Keeps gone d.root.members)
    (hgone : ∀ x ∈ Check.needlessUsings d, ∀ id, x.node = some id → gone id = true) :
    Check.needlessUsings (d.erase gone) = [] := by
  have hkeys : (eraseUsings gone d.root.usings).map Using.key ⊆ d.root.usings.map Using.key :=
    List.map_subset _ (List.filter_subset_self _)
  show Check.usingsOf (d.root.erase gone).usedNamespaces d.name []
      (eraseUsings gone d.root.usings) ++
    Check.blockUsingsAll (d.root.erase gone).usedNamespaces d.name
      ((eraseUsings gone d.root.usings).map Using.key) (Member.eraseAll gone d.root.members) = []
  rw [usedNamespaces_erase hkeep,
    usingsOf_eraseUsings (List.Subset.refl _) fun x hx => hgone x (List.mem_append_left _ hx),
    blockUsingsAll_eraseAll hkeys hkeep fun x hx => hgone x (List.mem_append_right _ hx)]
  rfl

theorem keeps_needlessUsings {d : Document} (hd : d.root.nodeIds.Nodup) :
    Member.Keeps (needless (Check.needlessUsings d)).contains d.root.members :=
  -- The reports do not depend on a project.
  flagsUsings_needlessUsings.keeps { id := ⟨0⟩, name := "", assembly := "" } hd

theorem needlessUsings_erase_needless {d : Document} (hd : d.root.nodeIds.Nodup) :
    Check.needlessUsings (d.erase (needless (Check.needlessUsings d)).contains) = [] := by
  refine needlessUsings_erase (keeps_needlessUsings hd) fun x hx id hid => ?_
  obtain ⟨-, -, -, hcode⟩ := exists_using_of_needlessUsings hx
  exact List.contains_iff_mem.mpr ((mem_needless_iff _ _).mpr ⟨x, hx, hcode, hid⟩)

/-- The clean-up of using directives finds nothing to do where it has been. -/
theorem removeUsings_apply_apply {p p' : Project} {d d' : Document} (hd : d.root.nodeIds.Nodup)
    (h : (removeUsings fun _ d => Check.needlessUsings d).apply p d = .ok d') :
    (removeUsings fun _ d => Check.needlessUsings d).apply p' d' = .ok d' := by
  rw [removeUsings_apply, Except.ok.injEq] at h
  have hnone : Check.needlessUsings d' = [] := by
    rw [← h]
    exact needlessUsings_erase_needless hd
  rw [removeUsings_apply, hnone]
  exact congrArg Except.ok d'.erase_nothing

end CleanUp

/-! ## The structural check -/

/-- Where blocks and types stay, the types are declared as before. -/
theorem Member.typesAll_eraseAll {gone : NodeId → Bool} {ms : List Member}
    (h : ∀ id ∈ headIdsAll ms, gone id = false) (space path : String) :
    typesAll space path (eraseAll gone ms) = typesAll space path ms := by
  unfold headIdsAll at h
  induction ms using listInduction generalizing space path with
  | nil => rfl
  | block head inner ms ihInner ih =>
    simp only [gatherAll, gather, List.mem_append, List.mem_singleton] at h
    have hg : gone (block head inner).id = false := h _ (Or.inl (Or.inl rfl))
    rw [eraseAll_cons_of_kept hg, eraseInside, typesAll, types, typesAll, types,
      ih fun id hid => h id (Or.inr hid)]
    show typesAll (Text.qualify space head.name) "" (eraseAll gone inner) ++ _ = _
    rw [ihInner fun id hid => h id (Or.inl (Or.inr hid))]
  | type head inner ms ihInner ih =>
    simp only [gatherAll, gather, List.mem_append, List.mem_singleton] at h
    have hg : gone (type head inner).id = false := h _ (Or.inl (Or.inl rfl))
    rw [eraseAll_cons_of_kept hg, eraseInside, typesAll, types, typesAll, types,
      ihInner fun id hid => h id (Or.inl (Or.inr hid)), ih fun id hid => h id (Or.inr hid)]
  | leaf l ms ih =>
    simp only [gatherAll, gather, List.nil_append] at h
    cases hg : gone (leaf l).id with
    | true => rw [eraseAll_cons_of_gone hg, ih h, typesAll, types, List.nil_append]
    | false => rw [eraseAll_cons_of_kept hg, eraseInside, typesAll, ih h, typesAll]

namespace Check

/-- What the structural check reads off a document. -/
def view (d : Document) :
    String × List NodeId × List (TypeKey × TypeHead) × List TypeSymbol × List SymbolRef :=
  (d.name, d.root.declared, d.root.types, d.root.symbols, d.root.references)

theorem view_erase {d : Document} {gone : NodeId → Bool}
    (h : Member.Keeps gone d.root.members) : view (d.erase gone) = view d := by
  have hbare : Member.bareAll (d.root.erase gone).members = Member.bareAll d.root.members :=
    Member.bareAll_eraseAll_of_keeps h
  simp only [view, Document.erase, Root.declared, Root.types, Root.symbols, Root.references,
    Member.declaredAll_eq_of_bareAll hbare, Member.symbolsAll_eq_of_bareAll hbare,
    Member.referencesAll_eq_of_bareAll hbare]
  simp only [Root.erase, Member.typesAll_eraseAll h.heads]

/-- The check reads nothing else. -/
theorem diagnostics_mapDocuments {g : Document → Document} {p : Project}
    (h : ∀ d ∈ p.documents, view (g d) = view d) :
    diagnostics (p.mapDocuments g) = diagnostics p := by
  have hparts : ∀ d ∈ p.documents, (g d).name = d.name ∧ (g d).root.declared = d.root.declared ∧
      (g d).root.types = d.root.types ∧ (g d).root.symbols = d.root.symbols ∧
      (g d).root.references = d.root.references := fun d hd => by
    simpa only [view, Prod.mk.injEq] using h d hd
  have hdeclared : (p.mapDocuments g).declared = p.declared :=
    Project.flatMap_mapDocuments fun d hd => (hparts d hd).2.1
  have htypes : (p.mapDocuments g).types = p.types := by
    refine Project.flatMap_mapDocuments fun d hd => ?_
    obtain ⟨hname, -, htypes, -⟩ := hparts d hd
    rw [hname, htypes]
  have hdangling : danglingReferences (p.mapDocuments g) = danglingReferences p := by
    rw [danglingReferences, danglingReferences, hdeclared]
    refine Project.flatMap_mapDocuments fun d hd => ?_
    obtain ⟨hname, -, -, -, hreferences⟩ := hparts d hd
    rw [hname, hreferences]
  have hmentions : ((p.mapDocuments g).documents.flatMap fun d =>
        (ownSymbols (p.mapDocuments g) d).map fun s => (d.name, s)) =
      p.documents.flatMap fun d => (ownSymbols p d).map fun s => (d.name, s) := by
    refine Project.flatMap_mapDocuments fun d hd => ?_
    obtain ⟨hname, -, -, hsymbols, -⟩ := hparts d hd
    rw [ownSymbols, ownSymbols, hname, hsymbols]
    rfl
  rw [diagnostics, diagnostics, hdangling, missingTypes, missingTypes, hmentions, htypes,
    duplicateTypes, duplicateTypes]
  simp only [declarationsOf, htypes]

end Check
end Unweave

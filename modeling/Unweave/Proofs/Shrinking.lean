import Unweave.Proofs.Remains
import Unweave.Proofs.WalkClosure

/-!
# Dependencies after a removal

When nodes are taken out of a project, the types that are left may have lost members, and the leaves
that are left may refer to what is no longer there.  A walk of what is left follows no new edges, so
it finds no new types.  Where nothing was taken out of what a declaration reaches, every edge on the
way is still there, and the walk finds the same types as before.
-/

namespace Unweave

/-! ## Declarations -/

namespace Declaration

variable (gone : NodeId → Bool) (d : Declaration)

theorem isType_eraseInside : (d.eraseInside gone).isType = d.isType := by cases d <;> rfl

theorem isCallable_eraseInside : (d.eraseInside gone).isCallable = d.isCallable := by
  cases d <;> rfl

theorem symbols_eraseInside : (d.eraseInside gone).symbols = d.symbols := by cases d <;> rfl

end Declaration

theorem Root.blockIds_erase_sublist (r : Root) (gone : NodeId → Bool) :
    (r.erase gone).blockIds.Sublist r.blockIds :=
  Member.gatherAll_eraseAll_sublist _ gone (fun _ => List.Sublist.refl _) r.members

/-! ## What is left of a project -/

namespace Project

section Erase

variable {p : Project} (hp : p.UniqueIds) {gone : NodeId → Bool}
include hp

/-- A declaration whose node is left is left as an entry. -/
theorem UniqueIds.eraseInside_mem_entries {e : Entry} (he : e ∈ p.entries)
    (h : e.id ∈ (p.erase gone).nodeIds) : e.eraseInside gone ∈ (p.erase gone).entries := by
  have hparts := (p.erase gone).perm_nodeIds.mem_iff.mp h
  rcases List.mem_append.mp hparts with husing | hrest
  · obtain ⟨d', hd', husing⟩ := List.mem_flatMap.mp husing
    obtain ⟨d, hd, rfl⟩ := mem_documents_erase hd'
    have hold := (d.root.usingIds_erase_sublist gone).subset husing
    exact absurd (List.mem_flatMap.mpr ⟨d, hd, hold⟩) (hp.not_mem_usingIds he)
  rcases List.mem_append.mp hrest with hblock | hentry
  · obtain ⟨d', hd', hblock⟩ := List.mem_flatMap.mp hblock
    obtain ⟨d, hd, rfl⟩ := mem_documents_erase hd'
    have hold := (d.root.blockIds_erase_sublist gone).subset hblock
    exact absurd (List.mem_flatMap.mpr ⟨d, hd, hold⟩) (hp.not_mem_blockIds he)
  · obtain ⟨e', he', hid⟩ := List.mem_map.mp hentry
    obtain ⟨e₀, he₀, rfl⟩ := exists_of_mem_entries_erase he'
    rw [(e₀.eraseInside_remainsOf gone).id_eq] at hid
    rw [← hp.eq_of_id he₀ he hid]
    exact he'

theorem UniqueIds.find?_erase {id : NodeId} {e : Entry}
    (he : (Catalogue.ofProject p).find? id = some e) (h : id ∈ (p.erase gone).nodeIds) :
    (Catalogue.ofProject (p.erase gone)).find? id = some (e.eraseInside gone) := by
  obtain ⟨hmem, rfl⟩ := (hp.find?_eq_some_iff id e).mp he
  exact ((hp.erase gone).find?_eq_some_iff _ _).mpr
    ⟨hp.eraseInside_mem_entries hmem h, (e.eraseInside_remainsOf gone).id_eq⟩

/-- An edge to what is left is left. -/
theorem UniqueIds.edge_erase {a b : Declaration} (h : (Catalogue.ofProject p).Edge a b)
    (hb : b.id ∈ (p.erase gone).nodeIds) :
    (Catalogue.ofProject (p.erase gone)).Edge (a.eraseInside gone) (b.eraseInside gone) := by
  obtain ⟨id, hid, e, he, rfl, hcall⟩ := (Catalogue.edge_iff _ _ _).mp h
  obtain ⟨hmem, rfl⟩ := (hp.find?_eq_some_iff id e).mp he
  have hkept : gone (e.eraseInside gone).id = false :=
    not_gone_of_mem_erase (hp.eraseInside_mem_entries hmem hb)
  rw [(e.eraseInside_remainsOf gone).id_eq] at hkept
  refine (Catalogue.edge_iff _ _ _).mpr ⟨e.id, (a.mem_callees_eraseInside gone _).2 hkept hid,
    e.eraseInside gone, hp.find?_erase he hb, rfl, ?_⟩
  rw [Declaration.isType_eraseInside, Declaration.isCallable_eraseInside]
  exact hcall

/-- A path along which everything is left is left. -/
theorem UniqueIds.reaches_erase {a x : Declaration}
    (hall : ∀ y, (Catalogue.ofProject p).Reaches a y → y.id ∈ (p.erase gone).nodeIds)
    (h : (Catalogue.ofProject p).Reaches a x) :
    (Catalogue.ofProject (p.erase gone)).Reaches (a.eraseInside gone) (x.eraseInside gone) := by
  induction h with
  | refl => exact .refl
  | tail hreach hedge ih => exact ih.tail (hp.edge_erase hedge (hall _ (hreach.tail hedge)))

theorem UniqueIds.dependsOn_erase {a : Declaration} {t : TypeRef}
    (hall : ∀ y, (Catalogue.ofProject p).Reaches a y → y.id ∈ (p.erase gone).nodeIds)
    (h : (Catalogue.ofProject p).DependsOn a t) :
    (Catalogue.ofProject (p.erase gone)).DependsOn (a.eraseInside gone) t := by
  obtain ⟨x, hx, hmentions⟩ := h
  refine ⟨x.eraseInside gone, hp.reaches_erase hall hx, ?_⟩
  rw [Declaration.Mentions, Declaration.symbols_eraseInside]
  exact hmentions

end Erase

/-! ## Walks before and after -/

/-- A walker of its own finds the closure of each declaration of the project. -/
theorem exists_answers {p : Project} {id : NodeId} {e : Entry}
    (he : (Catalogue.ofProject p).find? id = some e) :
    ∃ deps, ((Walker.ofProject p).dependenciesOf id).1 = some deps ∧
      (Catalogue.ofProject p).Answers e.declaration deps := by
  refine ⟨((Walker.ofProject p).dependencies e.declaration).1, ?_,
    Walker.answers_dependencies (Walker.faithful_ofProject p) (Catalogue.lists_of_find? he)⟩
  have he' : (Walker.ofProject p).catalogue.find? id = some e := he
  rw [Walker.dependenciesOf, he']

/-- A declaration that is left after a removal depends on no more types than before.  If nothing
that it reaches was removed, it depends on the same types. -/
theorem removeDeclarations_shrinks (p q : Project) (hp : p.UniqueIds) (ids : List NodeId)
    (hq : p.removeDeclarations ids = .ok q) (e : Entry)
    (he : e ∈ (Catalogue.ofProject p).declarations) (hleft : q.contains e.id = true) :
    ∃ before after, ((Walker.ofProject p).dependenciesOf e.id).1 = some before ∧
      ((Walker.ofProject q).dependenciesOf e.id).1 = some after ∧
      after.names ⊆ before.names ∧
      ((∀ x, (Catalogue.ofProject p).Reaches e.declaration x → q.contains x.id = true) →
        after.names = before.names) := by
  obtain ⟨-, rfl⟩ := (removeDeclarations_eq_ok_iff hp ids q).mp hq
  simp only [contains_iff] at hleft ⊢
  rw [hp.declarations_eq] at he
  have hfind := (hp.find?_eq_some_iff e.id e).mpr ⟨he, rfl⟩
  obtain ⟨before, hbefore, hanswers⟩ := exists_answers hfind
  obtain ⟨after, hafter, hanswers'⟩ := exists_answers (hp.find?_erase hfind hleft)
  have hshrinks : ∀ t,
      (Catalogue.ofProject (p.erase ids.contains)).DependsOn
        (e.eraseInside ids.contains).declaration t →
      (Catalogue.ofProject p).DependsOn e.declaration t := fun t =>
    (p.erase_remainsOf ids.contains).dependsOn hp (e.eraseInside_remainsOf ids.contains)
  refine ⟨before, after, hbefore, hafter, fun n hn => ?_, fun hall => ?_⟩
  · obtain ⟨t, ht, hname⟩ := (hanswers'.mem_names_iff n).mp hn
    exact (hanswers.mem_names_iff n).mpr ⟨t, hshrinks t ht, hname⟩
  · refine SortedSet.keys_eq_of_mem_iff fun n => ?_
    rw [hanswers'.mem_names_iff, hanswers.mem_names_iff]
    exact exists_congr fun t =>
      and_congr_left' ⟨hshrinks t, hp.dependsOn_erase hall⟩

/-- Two fields that refer to each other, and one that refers to them. -/
def lantern : Project where
  id := ⟨1⟩
  name := "Lantern"
  assembly := "Lantern"
  documents :=
    [{ id := ⟨1⟩, name := "Lantern.cs"
       root :=
        { members :=
            [.type { id := ⟨1⟩, kind := .classKind, name := "Lantern" }
              [Walker.ringField 2 (.named "A" "" "X") [3],
                Walker.ringField 3 (.named "B" "" "Y") [2],
                Walker.ringField 4 (.named "C" "" "Z") [3]]] } }]

/-- From a field of the pair a walk comes to the pair only. -/
theorem lantern_pair {d x : Declaration} (hd : (Catalogue.ofProject lantern).Lists d)
    (hid : d.id = ⟨2⟩) (h : (Catalogue.ofProject lantern).Reaches d x) :
    x.id ∈ [(⟨2⟩ : NodeId), ⟨3⟩] := by
  have hclosed : ∀ id ∈ [(⟨2⟩ : NodeId), ⟨3⟩],
      ((Catalogue.ofProject lantern).find? id).all (fun e =>
        (Walk.targets (Catalogue.ofProject lantern) e.declaration).all fun t =>
          [(⟨2⟩ : NodeId), ⟨3⟩].contains t.id) = true := by
    decide +kernel
  induction h with
  | refl =>
    rw [hid]
    exact List.mem_cons_self
  | tail hreach hedge ih =>
    obtain ⟨e, he, rfl⟩ := Catalogue.Reaches.lists hreach hd
    have htargets := hclosed _ ih
    rw [he, Option.all_some, List.all_eq_true] at htargets
    exact List.contains_iff_mem.mp (htargets _ ((Catalogue.mem_targets_iff _ _ _).mpr hedge))

/-- The third field is taken out.  The type loses one of its types, the pair none. -/
theorem removeDeclarations_shrinks_lantern :
    lantern.UniqueIds ∧ ∃ q, lantern.removeDeclarations [⟨4⟩] = .ok q ∧
      (∃ before after, ((Walker.ofProject lantern).dependenciesOf ⟨1⟩).1 = some before ∧
        ((Walker.ofProject q).dependenciesOf ⟨1⟩).1 = some after ∧
        after.names ⊆ before.names ∧ ¬ before.names ⊆ after.names) ∧
      ∃ before after, ((Walker.ofProject lantern).dependenciesOf ⟨2⟩).1 = some before ∧
        ((Walker.ofProject q).dependenciesOf ⟨2⟩).1 = some after ∧
        after.names = before.names := by
  have hids : lantern.UniqueIds := by decide +kernel
  have hq : lantern.removeDeclarations [⟨4⟩] = .ok (lantern.erase [⟨4⟩].contains) :=
    (removeDeclarations_eq_ok_iff hids _ _).mpr ⟨by decide +kernel, rfl⟩
  have hleft : ∀ id ∈ [(⟨1⟩ : NodeId), ⟨2⟩, ⟨3⟩],
      (lantern.erase [⟨4⟩].contains).contains id = true := by
    decide +kernel
  have hentry : ∀ id ∈ [(⟨1⟩ : NodeId), ⟨2⟩], ∃ e ∈ (Catalogue.ofProject lantern).declarations,
      e.id = id := by
    decide +kernel
  obtain ⟨e, he, hid⟩ := hentry ⟨1⟩ (by decide)
  obtain ⟨f, hf, hfid⟩ := hentry ⟨2⟩ (by decide)
  obtain ⟨before, after, hbefore, hafter, hsub, -⟩ := removeDeclarations_shrinks lantern _ hids _ hq
    e he (hid ▸ hleft _ (by decide))
  obtain ⟨before', after', hbefore', hafter', -, hsame⟩ := removeDeclarations_shrinks lantern _ hids
    _ hq f hf (hfid ▸ hleft _ (by decide))
  rw [hid] at hbefore hafter
  rw [hfid] at hbefore' hafter'
  refine ⟨hids, _, hq, ⟨before, after, hbefore, hafter, hsub, ?_⟩, before', after', hbefore',
    hafter', hsame fun x hx => ?_⟩
  · have hnames : ((Walker.ofProject lantern).dependenciesOf ⟨1⟩).1.map (·.names) =
        some ["[A]X", "[B]Y", "[C]Z"] := by decide +kernel
    have hnames' : ((Walker.ofProject (lantern.erase [⟨4⟩].contains)).dependenciesOf ⟨1⟩).1.map
        (·.names) = some ["[A]X", "[B]Y"] := by decide +kernel
    rw [hbefore, Option.map_some, Option.some.injEq] at hnames
    rw [hafter, Option.map_some, Option.some.injEq] at hnames'
    rw [hnames, hnames']
    decide
  · have hpair := lantern_pair (Catalogue.lists_of_mem_declarations hf) hfid hx
    exact hleft _ (List.mem_cons_of_mem _ hpair)

end Project
end Unweave

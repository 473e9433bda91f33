import Unweave.Proofs.Acceptance

/-!
# Where extraction can break a project

Taking members out of a project that compiles leaves its types alone, so nothing can break but
references to what was taken (`Project.UniqueIds.looseEnds_erase`).  What refers to a declaration
depends on all that this one depends on, hence an extension method that refers to one that was taken
was taken too.  Only other members can be left with a reference to something interwoven, and if that
is itself no extension method, then it was interwoven with nothing but the type around the member
that refers to it (`Extraction.looseEnds`).
-/

namespace Unweave

/-! ## References -/

namespace Declaration

/-- Delegates have no bodies, and types are no leaves. -/
theorem isTypeMember_of_references {e : Entry} {id : NodeId} (h : id ∈ e.site.references) :
    e.declaration.isTypeMember = true := by
  obtain ⟨declaration, document, container, space, depth⟩ := e
  cases declaration with
  | type head members => cases h
  | leaf l =>
    obtain ⟨id, leading, modifiers, form⟩ := l
    cases form with
    | delegate name typeParameters result parameters => cases h
    | method => rfl
    | property => rfl
    | constructor => rfl
    | field => rfl

theorem callees_of_references {e : Entry} {id : NodeId} (h : id ∈ e.site.references) :
    id ∈ e.declaration.callees := by
  obtain ⟨declaration, document, container, space, depth⟩ := e
  cases declaration with
  | type head members => cases h
  | leaf l =>
    have hleaf : id ∈ l.references.filterMap (·.declaration) ++ [] := h
    rw [List.append_nil] at hleaf
    exact hleaf

end Declaration

namespace Project

/-- The entry `n` refers to `id`, which is not declared. -/
structure Dangling (p : Project) (n : Entry) (id : NodeId) : Prop where
  mem : n ∈ p.entries
  refers : id ∈ n.site.references
  missing : id ∉ p.declared

/-- The check finds no fault but dangling references, and these are as described. -/
structure LooseEnds (p : Project) (Described : Entry → NodeId → Prop) : Prop where
  faults : ∀ g ∈ Check.diagnostics p, g.code = Diagnostic.unresolvedReference ∧
    ∃ n id, p.Dangling n id ∧ g.node = some id
  described : ∀ n id, p.Dangling n id → Described n id

theorem exists_dangling {p : Project} {g : Diagnostic} (h : g ∈ Check.danglingReferences p) :
    g.code = Diagnostic.unresolvedReference ∧ ∃ n id, p.Dangling n id ∧ g.node = some id := by
  obtain ⟨d, hd, hg⟩ := List.mem_flatMap.mp h
  obtain ⟨r, hr, hg⟩ := List.mem_filterMap.mp hg
  cases hid : r.declaration with
  | none =>
    rw [hid] at hg
    cases hg
  | some id =>
    rw [hid] at hg
    dsimp only at hg
    split at hg
    · cases hg
    · next hmissing =>
      have hreferences : id ∈ p.sites.flatMap Site.references := by
        rw [← p.flatMap_references]
        exact List.mem_flatMap.mpr ⟨d, hd, List.mem_filterMap.mpr ⟨r, hr, hid⟩⟩
      obtain ⟨s, hs, hmem⟩ := List.mem_flatMap.mp hreferences
      obtain ⟨n, hn, rfl⟩ := List.mem_map.mp hs
      cases hg
      exact ⟨rfl, n, id, ⟨hn, hmem, fun h => hmissing (List.contains_iff_mem.mpr h)⟩, rfl⟩

section Leaves

variable {p : Project} (hp : p.UniqueIds) {ids : List NodeId}
  (hids : ∀ id ∈ ids, ∃ e ∈ p.entries, e.id = id ∧ e.declaration.isType = false)
include hp

/-- What refers to a leaf depends on all that the leaf depends on. -/
theorem UniqueIds.dependsOn_of_references {e m : Entry} (hm : m ∈ p.entries)
    (hleaf : m.declaration.isType = false) (h : m.id ∈ e.site.references) {t : TypeRef}
    (ht : (Catalogue.ofProject p).DependsOn m.declaration t) :
    (Catalogue.ofProject p).DependsOn e.declaration t := by
  have hcallable : m.declaration.isCallable = true := by
    cases hd : m.declaration with
    | type head members =>
      rw [hd] at hleaf
      cases hleaf
    | leaf l => rfl
  refine .of_edge ((Catalogue.edge_iff _ _ _).mpr ?_) ht
  exact ⟨m.id, Declaration.callees_of_references h, m, (hp.find?_eq_some_iff _ _).mpr ⟨hm, rfl⟩,
    rfl, .inr hcallable⟩

include hids

/-- Taking leaves out of a project that compiles breaks references to them, and nothing else. -/
theorem UniqueIds.looseEnds_erase (hcheck : Check.structural p = .ok ()) :
    (p.erase ids.contains).LooseEnds fun n id =>
      id ∈ ids ∧ ∃ e ∈ p.entries, n.RemainsOf e ∧ e.id ∉ ids ∧ id ∈ e.site.references := by
  have htogether := (Check.structural_eq_ok_iff p).mp hcheck
  refine ⟨fun g hg => ?_, fun n id hn => ?_⟩
  · have hmissing : Check.missingTypes (p.erase ids.contains) = [] := by
      rw [Check.missingTypes_eq_nil_iff, types_erase_leaves hp hids]
      exact fun t ht => htogether.types t (ownSymbols_erase_subset p ids.contains ht)
    have hduplicate : Check.duplicateTypes (p.erase ids.contains) = [] := by
      rw [Check.duplicateTypes_eq_nil_iff, types_erase_leaves hp hids]
      exact htogether.parts
    rw [Check.diagnostics, hmissing, hduplicate, List.append_nil, List.append_nil] at hg
    exact exists_dangling hg
  · obtain ⟨e, he, hrem⟩ := p.erase_remainsOf ids.contains n hn.mem
    have href : id ∈ e.site.references := hrem.site_eq ▸ hn.refers
    have hdeclared : id ∈ p.declared := htogether.references e.site (mem_sites he) id href
    have hgone : id ∈ ids := by
      by_contra hnot
      exact hn.missing ((mem_declared_erase_leaves_iff hp hids id).mpr ⟨hdeclared, hnot⟩)
    have hstays : e.id ∉ ids := by
      have hkept := not_gone_of_mem_erase hn.mem
      rw [hrem.id_eq] at hkept
      exact fun hmem => Bool.eq_false_iff.mp hkept (List.contains_iff_mem.mpr hmem)
    exact ⟨hgone, e, he, hrem, hstays, href⟩

end Leaves

theorem LooseEnds.mono {p : Project} {P Q : Entry → NodeId → Prop} (h : p.LooseEnds P)
    (hPQ : ∀ n id, P n id → Q n id) : p.LooseEnds Q :=
  ⟨h.faults, fun n id hn => hPQ n id (h.described n id hn)⟩

end Project

/-! ## Passes -/

namespace InterweaveConfig

variable {c : InterweaveConfig} {p : Project} (hp : p.UniqueIds) (hc : p.CoherentTypes)
  {e m : Entry} (he : e ∈ p.entries) (hm : m ∈ p.entries)
  (hleaf : m.declaration.isType = false) (href : m.id ∈ e.site.references)
include hp hc he hm hleaf href

/-- An extension method that refers to something interwoven is selected. -/
theorem exists_mem_selectExtensions_of_references (hint : c.Interwoven p m)
    (hext : IsExtension e) : ∃ s ∈ (c.selectExtensions (Walker.ofProject p)).1, s.entry = e := by
  obtain ⟨t, hdep, ht, -⟩ := hint
  refine exists_mem_selectExtensions hp hc he hext ⟨t, ?_, ht, .inl hext⟩
  exact hp.dependsOn_of_references hm hleaf href hdep

/-- A member that refers to something and is not selected has the only interweave of that as the
type around it. -/
theorem containerOpenName_of_references (hmember : IsOtherMember e)
    (hstays : ∀ a ∈ c.interwovenMembers p, a.1 ≠ e) {t : TypeRef}
    (hdep : (Catalogue.ofProject p).DependsOn m.declaration t) (ht : c.isInterweave t = true) :
    e.containerOpenName = some t.openName := by
  by_contra hne
  have hint : c.Interwoven p e :=
    ⟨t, hp.dependsOn_of_references hm hleaf href hdep, ht, .inr hne⟩
  obtain ⟨a, ha, hae⟩ := exists_mem_interwovenMembers hp hc he hmember.1 hmember.2 hint
  exact hstays a ha hae

end InterweaveConfig

namespace Extraction

open InterweaveConfig

variable {policy : InterweaveConfig} {layout : Layout} {p : Project} {x : Extracted}
  (hp : p.UniqueIds) (hc : p.CoherentTypes) (hcheck : Check.structural p = .ok ())
include hp hc hcheck

theorem looseEnds_extensions (h : extensions policy layout (Walker.ofProject p) = .ok x) :
    x.project.LooseEnds fun n id =>
      IsOtherMember n ∧ ∃ m ∈ p.entries, m.id = id ∧ IsExtension m := by
  rw [extensions_eq_ok policy layout hp, Except.ok.injEq] at h
  have hselected : ∀ id ∈ extensionIds policy p, ∃ m ∈ p.entries, m.id = id ∧
      m.declaration.isType = false ∧ IsExtension m ∧ policy.Interwoven p m := by
    intro id hid
    obtain ⟨s, hs, rfl⟩ := List.mem_map.mp hid
    obtain ⟨he, hext⟩ := mem_entries_of_mem_selectExtensions hp hs
    have hmember := Declaration.isTypeMember_of_isExtensionMethod hext
    have hleaf := (Entry.site_of_isTypeMember hmember).1
    exact ⟨s.entry, he, rfl, hleaf, hext, interwoven_of_mem_selectExtensions hp hs⟩
  have hleaves : ∀ id ∈ extensionIds policy p, ∃ m ∈ p.entries, m.id = id ∧
      m.declaration.isType = false := fun id hid =>
    (hselected id hid).imp fun _ h => ⟨h.1, h.2.1, h.2.2.1⟩
  rw [← h]
  refine (hp.looseEnds_erase hleaves hcheck).mono ?_
  rintro n _ ⟨hgone, e, he, hrem, hstays, href⟩
  obtain ⟨m, hm, rfl, hleaf, hext, hint⟩ := hselected _ hgone
  have hother : ¬ IsExtension e := by
    intro hcaller
    obtain ⟨s, hs, rfl⟩ :=
      exists_mem_selectExtensions_of_references hp hc he hm hleaf href hint hcaller
    exact hstays (List.mem_map_of_mem hs)
  refine ⟨⟨?_, ?_⟩, m, hm, rfl, hext⟩
  · rw [hrem.isTypeMember_eq]
    exact Declaration.isTypeMember_of_references href
  · rw [hrem.isExtensionMethod_eq]
    exact Bool.eq_false_iff.mpr hother

theorem looseEnds_members (hnone : (policy.selectExtensions (Walker.ofProject p)).1 = [])
    (h : members policy layout (Walker.ofProject p) = .ok x) :
    x.project.LooseEnds fun n id =>
      IsOtherMember n ∧ ∃ m ∈ p.entries, m.id = id ∧ IsOtherMember m ∧
        ∃ own other, n.containerOpenName = some own ∧ m.containerOpenName = some other ∧
          own ≠ other ∧
          ∀ t, (Catalogue.ofProject p).DependsOn m.declaration t → policy.isInterweave t = true →
            t.openName = own := by
  obtain ⟨selected, hselected, -, hproject⟩ := (members_eq_ok_iff hp x).mp h
  obtain ⟨hhoused, rfl⟩ := (selectMembers_eq_ok_iff selected).mp hselected
  rw [List.map_map] at hproject
  have hmembers : ∀ id ∈ (policy.interwovenMembers p).map (·.1.id), ∃ m ∈ p.entries, m.id = id ∧
      m.declaration.isType = false ∧ IsOtherMember m ∧ policy.Interwoven p m ∧
        m.container.isSome = true := by
    intro id hid
    obtain ⟨a, ha, rfl⟩ := List.mem_map.mp hid
    obtain ⟨he, hmember⟩ := mem_entries_of_mem_interwovenMembers hp ha
    exact ⟨a.1, he, rfl, (Entry.site_of_isTypeMember hmember.1).1, hmember,
      interwoven_of_mem_interwovenMembers hp ha, hhoused a ha⟩
  have hleaves : ∀ id ∈ (policy.interwovenMembers p).map (·.1.id), ∃ m ∈ p.entries, m.id = id ∧
      m.declaration.isType = false := fun id hid =>
    (hmembers id hid).imp fun _ h => ⟨h.1, h.2.1, h.2.2.1⟩
  rw [hproject]
  refine (hp.looseEnds_erase hleaves hcheck).mono ?_
  rintro n _ ⟨hgone, e, he, hrem, hstays, href⟩
  obtain ⟨m, hm, rfl, hleaf, hmember, hint, hhouse⟩ := hmembers _ hgone
  -- No extension method is selected, so what refers to `m` is none.
  have hother : ¬ IsExtension e := by
    intro hcaller
    obtain ⟨s, hs, -⟩ :=
      exists_mem_selectExtensions_of_references hp hc he hm hleaf href hint hcaller
    rw [hnone] at hs
    cases hs
  have hcaller : IsOtherMember e :=
    ⟨Declaration.isTypeMember_of_references href, Bool.eq_false_iff.mpr hother⟩
  have hown : ∀ t, (Catalogue.ofProject p).DependsOn m.declaration t →
      policy.isInterweave t = true → e.containerOpenName = some t.openName := by
    intro t hdep ht
    refine containerOpenName_of_references hp hc he hm hleaf href hcaller (fun a ha hae => ?_)
      hdep ht
    exact hstays (hae ▸ List.mem_map_of_mem ha)
  obtain ⟨t, hdep, ht, hne⟩ := hint
  have hnot : m.containerOpenName ≠ some t.openName :=
    hne.resolve_left (by rw [hmember.2]; exact Bool.false_ne_true)
  obtain ⟨head, hhead⟩ := Option.isSome_iff_exists.mp hhouse
  have hmname : m.containerOpenName = some (openTypeName m.space head.name head.arity) :=
    congrArg (Option.map _) hhead
  refine ⟨⟨?_, ?_⟩, m, hm, rfl, hmember, t.openName, _, ?_, hmname, ?_, fun t' hdep' ht' => ?_⟩
  · rw [hrem.isTypeMember_eq]
    exact hcaller.1
  · rw [hrem.isExtensionMethod_eq]
    exact hcaller.2
  · rw [hrem.containerOpenName_eq]
    exact hown t hdep ht
  · intro heq
    exact hnot (hmname.trans (congrArg some heq.symm))
  · exact Option.some.inj ((hown t' hdep' ht').symm.trans (hown t hdep ht))

omit hp hc hcheck

/-- What is left after a pass compiles but for references from other members to what was taken.
Where the member pass took it, and no extension method was interwoven, its only interweave is the
type around the member that refers to it. -/
theorem looseEnds (policy : InterweaveConfig) (layout : Layout) (p : Project) (hp : p.UniqueIds)
    (hc : p.CoherentTypes) (hcheck : Check.structural p = .ok ()) :
    (∃ x, extensions policy layout (Walker.ofProject p) = .ok x ∧
      x.project.LooseEnds fun n id =>
        IsOtherMember n ∧ ∃ m ∈ p.entries, m.id = id ∧ IsExtension m) ∧
    ((policy.selectExtensions (Walker.ofProject p)).1 = [] →
      ∀ x, members policy layout (Walker.ofProject p) = .ok x →
        x.project.LooseEnds fun n id =>
          IsOtherMember n ∧ ∃ m ∈ p.entries, m.id = id ∧ IsOtherMember m ∧
            ∃ own other, n.containerOpenName = some own ∧ m.containerOpenName = some other ∧
              own ≠ other ∧
              ∀ t, (Catalogue.ofProject p).DependsOn m.declaration t →
                policy.isInterweave t = true → t.openName = own) := by
  have hx := extensions_eq_ok policy layout hp
  exact ⟨⟨_, hx, looseEnds_extensions hp hc hcheck hx⟩,
    fun hnone x h => looseEnds_members hp hc hcheck hnone h⟩

/-- In one project the extension pass leaves a call of an extension method behind.  In the other one
the member pass leaves a call from the type that the called method takes. -/
theorem looseEnds_snag :
    (∀ pass ∈ [Pass.extensions, .members], (snag pass).UniqueIds ∧ (snag pass).CoherentTypes ∧
      Check.structural (snag pass) = .ok ()) ∧
    (∃ x n id, extensions {} {} (Walker.ofProject (snag .extensions)) = .ok x ∧
      x.project.Dangling n id ∧ IsOtherMember n ∧
        ∃ m ∈ (snag .extensions).entries, m.id = id ∧ IsExtension m) ∧
    (selectExtensions {} (Walker.ofProject (snag .members))).1 = [] ∧
    ∃ x n id, members {} {} (Walker.ofProject (snag .members)) = .ok x ∧
      x.project.Dangling n id ∧ IsOtherMember n ∧
        ∃ m ∈ (snag .members).entries, m.id = id ∧ IsOtherMember m ∧
          m.containerOpenName ≠ n.containerOpenName := by
  have hchecks : ∀ pass ∈ [Pass.extensions, .members], (snag pass).UniqueIds ∧
      (snag pass).CoherentTypes ∧ Check.structural (snag pass) = .ok () := by
    decide +kernel
  obtain ⟨hpe, hce, hoke⟩ := hchecks .extensions (by decide)
  obtain ⟨hpm, hcm, hokm⟩ := hchecks .members (by decide)
  have hnone : (selectExtensions {} (Walker.ofProject (snag .members))).1.map (·.id) = [] := by
    decide +kernel
  have hfaults : (extensions {} {} (Walker.ofProject (snag .extensions))).map
      (fun x => (Check.diagnostics x.project).length) = .ok 1 := by decide +kernel
  have hfaultm : (members {} {} (Walker.ofProject (snag .members))).map
      (fun x => (Check.diagnostics x.project).length) = .ok 1 := by decide +kernel
  refine ⟨hchecks, ?_, List.map_eq_nil_iff.mp hnone, ?_⟩
  · obtain ⟨⟨x, hx, hloose⟩, -⟩ := looseEnds {} {} (snag .extensions) hpe hce hoke
    rw [hx] at hfaults
    obtain ⟨g, hg⟩ := List.exists_mem_of_length_pos (Nat.lt_of_lt_of_eq Nat.one_pos
      (Except.ok.inj hfaults).symm)
    obtain ⟨-, n, id, hn, -⟩ := hloose.faults g hg
    exact ⟨x, n, id, hx, hn, hloose.described n id hn⟩
  · cases hx : members {} {} (Walker.ofProject (snag .members)) with
    | error e =>
      rw [hx] at hfaultm
      cases hfaultm
    | ok x =>
      have hloose := (looseEnds {} {} (snag .members) hpm hcm hokm).2
        (List.map_eq_nil_iff.mp hnone) x hx
      rw [hx] at hfaultm
      obtain ⟨g, hg⟩ := List.exists_mem_of_length_pos (Nat.lt_of_lt_of_eq Nat.one_pos
        (Except.ok.inj hfaultm).symm)
      obtain ⟨-, n, id, hn, -⟩ := hloose.faults g hg
      obtain ⟨hother, m, hm, hmid, hmember, own, other, hown, hmown, hne, -⟩ :=
        hloose.described n id hn
      refine ⟨x, n, id, rfl, hn, hother, m, hm, hmid, hmember, ?_⟩
      rw [hown, hmown]
      exact fun h => hne (Option.some.inj h).symm

end Extraction
end Unweave

import Unweave.Proofs.Detaching
import Unweave.Proofs.Repacking

/-!
# Which solutions can be packed

A project is valid if its identifiers are distinct, it compiles, and no interwoven member stands
outside types.  Clean-ups and passes never fail on a valid project, so packing it can only stop
because something that a pass left needs what the pass took.  Packing a solution of valid projects
succeeds exactly if all of them can be taken apart (`packSolution_succeeds_iff`).
-/

namespace Unweave

namespace InterweaveConfig

/-- A member other than an extension method that stands in no type. -/
def IsStray (e : Entry) : Prop := IsOtherMember e ∧ e.container = none

variable {c : InterweaveConfig} {p : Project}

theorem isStray_of_remainsOf {e' e : Entry} (h : e'.RemainsOf e) (he : IsStray e') : IsStray e := by
  refine ⟨isOtherMember_of_remainsOf h he.1, ?_⟩
  have hname := h.containerOpenName_eq
  rw [Entry.containerOpenName, Entry.containerOpenName, he.2] at hname
  exact Option.map_eq_none_iff.mp hname.symm

/-- Where no stray member is interwoven, the members that are selected have types around them. -/
theorem Free.housed (h : c.Free p IsStray) (hp : p.UniqueIds) :
    ∀ a ∈ c.interwovenMembers p, a.1.container.isSome = true := by
  intro a ha
  obtain ⟨he, hmember⟩ := mem_entries_of_mem_interwovenMembers hp ha
  rw [← Option.not_isNone, Bool.not_eq_true', Bool.eq_false_iff, Ne, Option.isNone_iff_eq_none]
  intro hnone
  exact h a.1 he ⟨hmember, hnone⟩ (interwoven_of_mem_interwovenMembers hp ha)

theorem free_of_housed (hp : p.UniqueIds) (hc : p.CoherentTypes)
    (h : ∀ a ∈ c.interwovenMembers p, a.1.container.isSome = true) : c.Free p IsStray := by
  rintro e he ⟨⟨hmember, hext⟩, hnone⟩ hint
  obtain ⟨a, ha, rfl⟩ := exists_mem_interwovenMembers hp hc he hmember hext hint
  have hsome := h a ha
  rw [hnone] at hsome
  cases hsome

end InterweaveConfig

/-! ## Passes do not fail -/

namespace Pass

variable {settings : Settings} {p : Project}

theorem exists_memberPackage {s : Selected} (h : s.entry.container.isSome = true) :
    ∃ k, Extraction.memberPackage settings.policy settings.layout s = .ok k := by
  obtain ⟨head, hhead⟩ := Option.isSome_iff_exists.mp h
  rw [Extraction.memberPackage, Entry.containerOpenName, hhead]
  exact ⟨_, rfl⟩

theorem exists_containerPackage (hp : p.UniqueIds) {s : Selected} (he : s.entry ∈ p.entries)
    (htype : s.entry.declaration.isType = true) :
    ∃ k, Extraction.containerPackage settings.layout p s = .ok k := by
  obtain ⟨d, hd, he⟩ := Project.mem_entries_iff.mp he
  have hdocument : s.entry.document = d.id := Catalogue.document_of_mem_collectAll d.id _ he
  rw [Extraction.containerPackage]
  split
  · next l hl =>
    rw [hl] at htype
    cases htype
  · rw [hdocument, Project.document?_of_mem hp.documents hd]
    exact ⟨_, rfl⟩

/-- On a project where no stray member is interwoven, no pass fails. -/
theorem exists_run (hp : p.UniqueIds)
    (hfree : settings.policy.Free p InterweaveConfig.IsStray) (pass : Pass) :
    ∃ x, pass.run settings (Walker.ofProject p) = .ok x := by
  cases pass with
  | extensions => exact ⟨_, Extraction.extensions_eq_ok _ _ hp⟩
  | members =>
    have hhoused := hfree.housed hp
    have hpackages : ∀ s ∈ selection settings.policy p members,
        ∃ k, Extraction.memberPackage settings.policy settings.layout s = .ok k := by
      intro s hs
      obtain ⟨a, ha, rfl⟩ := List.mem_map.mp hs
      exact exists_memberPackage (hhoused a ha)
    obtain ⟨ks, hks⟩ := exists_mapM_of_forall hpackages
    exact ⟨⟨_, ks⟩, (Extraction.members_eq_ok_iff hp _).mpr
      ⟨_, (InterweaveConfig.selectMembers_eq_ok_iff _).mpr ⟨hhoused, rfl⟩, hks, rfl⟩⟩
  | containers =>
    have hpackages : ∀ s ∈ selection settings.policy p containers,
        ∃ k, Extraction.containerPackage settings.layout p s = .ok k := by
      intro s hs
      obtain ⟨e, he, rfl⟩ := List.mem_map.mp hs
      obtain ⟨he, htype, -⟩ := (hp.mem_topTypes_iff e).mp he
      exact exists_containerPackage hp he htype
    obtain ⟨ks, hks⟩ := exists_mapM_of_forall hpackages
    exact ⟨⟨_, ks⟩, (Extraction.containers_eq_ok_iff hp _).mpr ⟨hks, rfl⟩⟩

end Pass

/-! ## Clean-ups do not fail -/

theorem CleanUp.Cleaned.holdsTogether {c : CleanUp} (hc : c.Careful) {p q : Project}
    (hp : p.UniqueIds) (h : c.Cleaned p q) (hholds : p.HoldsTogether) : q.HoldsTogether := by
  obtain ⟨g, rfl, hg⟩ := h
  refine hholds.mapDocuments fun d hd => ?_
  have hnodup : d.root.nodeIds.Nodup := (List.nodup_flatMap.mp hp.nodes).1 d hd
  have hgd := hg d hd
  split at hgd
  · obtain ⟨p', happly⟩ := hgd
    obtain ⟨d', happly', htidied, hfirm⟩ := hc p' d hnodup
    rw [happly, Except.ok.injEq] at happly'
    rw [happly']
    exact ⟨htidied, hfirm⟩
  · rw [hgd]
    exact ⟨.refl d, .refl _⟩

namespace Workbench

variable {τ : Type} {c : CleanUp} {p : Project}

theorem compile_inMemory (h : p.HoldsTogether) (s : Solution × τ) :
    (inMemory Compiler.structural).compile p s = (.ok (), s) := by
  show (Check.structural p, s) = _
  rw [(Check.structural_eq_ok_iff p).mpr h]

theorem commit_of_projectIds (compiler : Compiler τ) {new : Solution} {s : Solution × τ}
    (h : new.projectIds = s.1.projectIds) :
    (inMemory compiler).commit new s = (.ok (), (new, s.2)) := by
  have hsame : s.1.requireSameProjects new = .ok () := by
    rw [Solution.requireSameProjects, h, if_pos rfl]
  simp only [inMemory, hsame]

theorem commit_inMemory (compiler : Compiler τ) (q : Project) (s : Solution × τ) :
    (inMemory compiler).commit (s.1.withProject q) s = (.ok (), (s.1.withProject q, s.2)) :=
  commit_of_projectIds compiler (Solution.projectIds_withProject q)

/-- Careful clean-ups run through all documents, since each leaves the project together. -/
theorem exists_cleanDocuments (hc : c.Careful) (hp : p.UniqueIds) (h : p.HoldsTogether)
    (ids : List DocumentId) (s : Solution × τ) :
    ∃ q, (inMemory Compiler.structural).cleanDocuments c ids p s = (.ok q, s) := by
  induction ids generalizing p with
  | nil => exact ⟨p, rfl⟩
  | cons id ids ih =>
    rw [cleanDocuments]
    cases hfind : p.document? id with
    | none => exact ih hp h
    | some d =>
      obtain ⟨hd, -⟩ := Project.mem_of_document? hfind
      obtain ⟨d', happly, htidied, hfirm⟩ := hc p d ((List.nodup_flatMap.mp hp.nodes).1 d hd)
      have hwith : p.withDocument d' = p.mapDocuments fun e => if e.id = d.id then d' else e :=
        Project.withDocument_eq_mapDocuments hp.documents hd (fun _ => d') htidied.id_eq
      have hdocuments : ∀ e ∈ p.documents,
          (if e.id = d.id then d' else e).Tidied e ∧
            FirmTypes (if e.id = d.id then d' else e).root.types e.root.types := by
        intro e he
        split
        · next hid =>
          rw [Project.eq_of_document_id hp.documents he hd hid]
          exact ⟨htidied, hfirm⟩
        · exact ⟨.refl e, .refl _⟩
      have hp' : (p.withDocument d').UniqueIds := by
        rw [hwith]
        exact Project.Tidied.uniqueIds ⟨_, rfl, fun e he => (hdocuments e he).1⟩ hp
      have h' : (p.withDocument d').HoldsTogether := by
        rw [hwith]
        exact h.mapDocuments hdocuments
      simp only [happly]
      by_cases hsame : d' = d
      · rw [if_pos hsame]
        exact ih hp h
      · rw [if_neg hsame]
        by_cases hrecompiles : c.recompiles = true
        · rw [if_pos hrecompiles]
          have hensure : (inMemory Compiler.structural).ensureCompiles (p.withDocument d') c.name
              s = (.ok (), s) := (requireCompiles_eq_ok_iff _ _ _ _ _).mpr (compile_inMemory h' s)
          obtain ⟨q, hq⟩ := ih hp' h'
          exact ⟨q, (Job.bind_of_ok hensure).trans hq⟩
        · rw [if_neg hrecompiles]
          exact ih hp' h'

end Workbench

/-! ## Packing a project -/

namespace Pipeline

variable {τ : Type} {id : ProjectId} {shelf : Shelf (Solution × τ)} {p : Project}

/-- The project is in the solution and can be worked on. -/
structure OnCourse (id : ProjectId) (shelf : Shelf (Solution × τ)) (p : Project) : Prop where
  project_eq : shelf.host.1.project? id = some p
  uniqueIds : p.UniqueIds
  holdsTogether : p.HoldsTogether

/-- A careful clean-up goes through. -/
theorem OnCourse.clean (h : OnCourse id shelf p) {c : CleanUp} (hids : c.KeepsIds)
    (hc : c.Careful) :
    ∃ q shelf', Pipeline.clean (.inMemory .structural) c id shelf = (.ok (), shelf') ∧
      OnCourse id shelf' q ∧ q.Tidied p := by
  obtain ⟨r, hdocuments⟩ :=
    Workbench.exists_cleanDocuments hc h.uniqueIds h.holdsTogether _ shelf.host
  have hclean := Workbench.cleanOne_of_ok (b := .inMemory .structural) h.project_eq
    (Workbench.compile_inMemory h.holdsTogether _) hdocuments (Workbench.commit_inMemory _ r _)
  have hrun : Pipeline.clean (.inMemory .structural) c id shelf =
      (.ok (), { shelf with host := (shelf.host.1.withProject r, shelf.host.2) }) :=
    (Job.discard_eq_ok_iff _ _ _ _).mpr
      ⟨_, (Shelf.onHost_eq_ok_iff _ _ _ _).mpr ⟨_, hclean, rfl⟩⟩
  obtain ⟨q, hq, hsolution, -⟩ := clean_eq_ok (Workbench.lawful_inMemory _) hids h.project_eq
    h.uniqueIds.documents hrun
  have htidied := hq.tidied hc.tidies h.uniqueIds
  have hid : q.id = id := by
    obtain ⟨g, rfl, -⟩ := hq
    exact (Solution.mem_of_project? h.project_eq).2
  have hproject : ((shelf.host.1.withProject r).project? id) = some q := by
    have hsolution : shelf.host.1.withProject r = shelf.host.1.withProject q := hsolution
    rw [hsolution, Solution.project?_withProject h.project_eq hid]
  exact ⟨q, _, hrun, ⟨hproject, htidied.uniqueIds h.uniqueIds,
    hq.holdsTogether hc h.uniqueIds h.holdsTogether⟩, htidied⟩

/-- A pass that clears the project goes through. -/
theorem OnCourse.extract (h : OnCourse id shelf p) (settings : Settings) (pass : Pass)
    (hfree : settings.policy.Free p InterweaveConfig.IsStray)
    (hclears : pass.Clears settings.policy p) :
    ∃ shelf', Pipeline.extract (.inMemory .structural) pass.stage (pass.run settings) id shelf =
        (.ok (), shelf') ∧ OnCourse id shelf' (pass.leaves settings.policy p) := by
  obtain ⟨x, hx⟩ := pass.exists_run h.uniqueIds hfree
  have hproject : x.project = pass.leaves settings.policy p := (Pass.run_eq_ok h.uniqueIds hx).2
  have hholds : x.project.HoldsTogether := by
    rw [hproject]
    exact (Pass.holdsTogether_leaves_iff h.uniqueIds h.holdsTogether pass).mpr hclears
  have hrun := extract_of_ok (b := .inMemory .structural) pass.stage h.project_eq hx
    (Workbench.compile_inMemory hholds _) (Workbench.commit_inMemory _ _ _)
    (shelf.library.addAll_eq x.packages)
  have hid : x.project.id = id := by
    rw [hproject]
    exact (Solution.mem_of_project? h.project_eq).2
  rw [← hproject]
  refine ⟨_, hrun, Solution.project?_withProject h.project_eq hid, ?_, hholds⟩
  rw [hproject]
  exact h.uniqueIds.erase _

variable {settings : Settings} (hflags : CleanUp.FlagsUsings settings.usings)
include hflags

/-- A project that can be taken apart is packed. -/
theorem OnCourse.packProject (h : OnCourse id shelf p)
    (hfree : settings.policy.Free p InterweaveConfig.IsStray)
    (hdetachable : p.Detachable settings.policy) :
    ∃ q shelf', Pipeline.packProject settings (.inMemory .structural) id shelf =
      (.ok q, shelf') := by
  have husings := CleanUp.careful_removeUsings hflags
  obtain ⟨p₁, shelf₁, hpartial, h₁, ht₁⟩ := h.clean CleanUp.keepsIds_ensurePartial
    CleanUp.careful_ensurePartial
  obtain ⟨p₂, shelf₂, hregions, h₂, ht₂⟩ := h₁.clean CleanUp.keepsIds_removeRegions
    CleanUp.careful_removeRegions
  obtain ⟨p₃, shelf₃, hfirst, h₃, ht₃⟩ := h₂.clean (CleanUp.keepsIds_removeUsings _) husings
  -- What was asked of the project holds of its tidy form, and no pass makes a member stray.
  have htidied : p₃.Tidied p := ht₃.trans (ht₂.trans ht₁)
  obtain ⟨hclears₁, hclears₂, hclears₃⟩ :=
    (htidied.sameTrees.detachable_iff h₃.uniqueIds h.uniqueIds).mpr hdetachable
  have hfree₃ := hfree.of_remainsOf htidied.remainsOf h.uniqueIds
    InterweaveConfig.isStray_of_remainsOf
  obtain ⟨shelf₄, hextensions, h₄⟩ := h₃.extract settings .extensions hfree₃ hclears₁
  have hfree₄ := hfree₃.of_remainsOf (Pass.extensions.leaves_remainsOf settings.policy _)
    h₃.uniqueIds InterweaveConfig.isStray_of_remainsOf
  obtain ⟨shelf₅, hmembers, h₅⟩ := h₄.extract settings .members hfree₄ hclears₂
  have hfree₅ := hfree₄.of_remainsOf (Pass.members.leaves_remainsOf settings.policy _)
    h₄.uniqueIds InterweaveConfig.isStray_of_remainsOf
  obtain ⟨shelf₆, hcontainers, h₆⟩ := h₅.extract settings .containers hfree₅ hclears₃
  obtain ⟨q, shelf₇, hlast, h₇, -⟩ := h₆.clean (CleanUp.keepsIds_removeUsings _) husings
  have hlook := onHost_currentProject (b := .inMemory .structural) h.project_eq
  have hread := onHost_currentProject (b := .inMemory .structural) h₇.project_eq
  refine ⟨q, { shelf₇ with finished := shelf₇.finished ++ [q] }, ?_⟩
  refine (Job.bind_of_ok ((Job.discard_eq_ok_iff _ _ _ ()).mpr ⟨p, hlook⟩)).trans ?_
  refine (Job.bind_of_ok hpartial).trans ?_
  refine (Job.bind_of_ok hregions).trans ?_
  refine (Job.bind_of_ok hfirst).trans ?_
  refine (Job.bind_of_ok hextensions).trans ?_
  refine (Job.bind_of_ok hmembers).trans ?_
  refine (Job.bind_of_ok hcontainers).trans ?_
  refine (Job.bind_of_ok hlast).trans ?_
  exact Job.bind_of_ok hread

end Pipeline

/-- What the structural check accepted after each pass could be taken apart. -/
theorem Packing.detachable {τ : Type} {settings : Settings} {p : Project} (t : Packing settings p)
    (hflags : CleanUp.FlagsUsings settings.usings) (hp : p.UniqueIds) (h : p.HoldsTogether)
    (hcompiled : t.Compiled (.inMemory (Compiler.structural (σ := τ)))) :
    p.Detachable settings.policy := by
  have hp₁ := (t.partials_cleaned.tidied CleanUp.tidies_ensurePartial hp).uniqueIds hp
  have hp₂ := (t.regionless_cleaned.tidied CleanUp.tidies_removeRegions hp₁).uniqueIds hp₁
  have h₁ := t.partials_cleaned.holdsTogether CleanUp.careful_ensurePartial hp h
  have h₂ := t.regionless_cleaned.holdsTogether CleanUp.careful_removeRegions hp₁ h₁
  have h₃ := t.tidy_cleaned.holdsTogether (CleanUp.careful_removeUsings hflags) hp₂ h₂
  have htidy := t.uniqueIds_tidy hflags hp
  have hextensions := t.uniqueIds_extensions hflags hp
  have hmembers := t.uniqueIds_members hflags hp
  have hrun₁ : Pass.extensions.run settings (Walker.ofProject t.tidy) = .ok t.extensions :=
    t.extensions_eq
  have hrun₂ : Pass.members.run settings (Walker.ofProject t.extensions.project) = .ok t.members :=
    t.members_eq
  have hrun₃ : Pass.containers.run settings (Walker.ofProject t.members.project) =
      .ok t.containers := t.containers_eq
  have hx₁ : t.extensions.project = Pass.extensions.leaves settings.policy t.tidy :=
    (Pass.run_eq_ok htidy hrun₁).2
  have hx₂ : t.members.project = Pass.members.leaves settings.policy t.extensions.project :=
    (Pass.run_eq_ok hextensions hrun₂).2
  have hx₃ : t.containers.project = Pass.containers.leaves settings.policy t.members.project :=
    (Pass.run_eq_ok hmembers hrun₃).2
  obtain ⟨⟨_, hc₁⟩, ⟨_, hc₂⟩, ⟨_, hc₃⟩⟩ := hcompiled
  have h₄ : t.extensions.project.HoldsTogether := (Check.structural_eq_ok_iff _).mp hc₁
  have h₅ : t.members.project.HoldsTogether := (Check.structural_eq_ok_iff _).mp hc₂
  have h₆ : t.containers.project.HoldsTogether := (Check.structural_eq_ok_iff _).mp hc₃
  refine ((t.tidied hflags hp).sameTrees.detachable_iff htidy hp).mp ⟨?_, ?_, ?_⟩
  · rw [hx₁] at h₄
    exact (Pass.holdsTogether_leaves_iff htidy h₃ _).mp h₄
  · rw [hx₂] at h₅
    rw [← hx₁]
    exact (Pass.holdsTogether_leaves_iff hextensions h₄ _).mp h₅
  · rw [hx₃] at h₆
    rw [← hx₁, ← hx₂]
    exact (Pass.holdsTogether_leaves_iff hmembers h₅ _).mp h₆

/-! ## Packing a solution -/

/-- A project that one may expect to be packed. -/
structure Project.Valid (policy : InterweaveConfig) (p : Project) : Prop where
  uniqueIds : p.UniqueIds
  compiles : Check.structural p = .ok ()
  /-- No interwoven member other than an extension method stands outside types. -/
  housed : policy.Free p InterweaveConfig.IsStray

theorem Project.Valid.of_coherent {policy : InterweaveConfig} {p : Project} (hp : p.UniqueIds)
    (hc : p.CoherentTypes) (hcompile : Check.structural p = .ok ())
    (hhoused : ∀ a ∈ policy.interwovenMembers p, a.1.container.isSome = true) : p.Valid policy :=
  ⟨hp, hcompile, InterweaveConfig.free_of_housed hp hc hhoused⟩

namespace Pipeline

variable {τ : Type} {settings : Settings} (hflags : CleanUp.FlagsUsings settings.usings)
include hflags

theorem packProjects_succeeds_iff {ids : List ProjectId} {shelf : Shelf (Solution × τ)}
    (hids : ids.Nodup) (hknown : ∀ id ∈ ids, id ∈ shelf.host.1.projectIds)
    (hunique : shelf.host.1.projectIds.Nodup)
    (hvalid : ∀ p ∈ shelf.host.1.projects, p.id ∈ ids → p.Valid settings.policy) :
    (∃ shelf', packProjects settings (.inMemory .structural) ids shelf = (.ok (), shelf')) ↔
      ∀ p ∈ shelf.host.1.projects, p.id ∈ ids → p.Detachable settings.policy := by
  induction ids generalizing shelf with
  | nil => exact ⟨fun _ _ _ h => (nomatch h), fun _ => ⟨shelf, rfl⟩⟩
  | cons id ids ih =>
    obtain ⟨hid, hrestIds⟩ := List.nodup_cons.mp hids
    obtain ⟨p, hfind⟩ := Solution.exists_project? (hknown id List.mem_cons_self)
    obtain ⟨hp, rfl⟩ := Solution.mem_of_project? hfind
    have hpvalid := hvalid p hp List.mem_cons_self
    have hholds := (Check.structural_eq_ok_iff p).mp hpvalid.compiles
    by_cases hdetachable : p.Detachable settings.policy
    · -- The first project is packed, so the outcome is that of the rest.
      have hstart : OnCourse p.id shelf p := ⟨hfind, hpvalid.uniqueIds, hholds⟩
      obtain ⟨q, shelf₁, hfirst⟩ := hstart.packProject hflags hpvalid.housed hdetachable
      have hrun : packProjects settings (.inMemory .structural) (p.id :: ids) shelf =
          packProjects settings (.inMemory .structural) ids shelf₁ :=
        Job.bind_of_ok ((Job.discard_eq_ok_iff _ _ _ ()).mpr ⟨q, hfirst⟩)
      have hlawful := Workbench.lawful_inMemory (Compiler.structural (σ := τ))
      obtain ⟨hsame, hothers⟩ :=
        mem_projects_packProject hlawful hflags hpvalid.uniqueIds hfind hfirst
      have hmem : ∀ r : Project, r.id ∈ ids →
          (r ∈ shelf₁.host.1.projects ↔ r ∈ shelf.host.1.projects) := fun r hr =>
        hothers r fun heq => hid (heq ▸ hr)
      rw [hrun, ih hrestIds (fun i hi => hsame ▸ hknown i (List.mem_cons_of_mem _ hi))
        (hsame ▸ hunique)
        (fun r hr hi => hvalid r ((hmem r hi).mp hr) (List.mem_cons_of_mem _ hi))]
      constructor
      · intro h r hr hi
        rcases List.mem_cons.mp hi with heq | hi
        · rw [List.inj_on_of_nodup_map hunique hr hp heq]
          exact hdetachable
        · exact h r ((hmem r hi).mpr hr) hi
      · intro h r hr hi
        exact h r ((hmem r hi).mp hr) (List.mem_cons_of_mem _ hi)
    · -- Packing stops at the first project.
      refine ⟨?_, fun h => absurd (h p hp List.mem_cons_self) hdetachable⟩
      rintro ⟨shelf', hrun⟩
      obtain ⟨_, shelf₁, hfirst, -⟩ := (Job.bind_eq_ok_iff _ _ _ _ _).mp hrun
      obtain ⟨q, hfirst⟩ := (Job.discard_eq_ok_iff _ _ _ _).mp hfirst
      obtain ⟨t, -, hcompiled, -⟩ :=
        packProject_eq_ok (Workbench.lawful_inMemory _) hflags hpvalid.uniqueIds hfind hfirst
      exact absurd (t.detachable hflags hpvalid.uniqueIds hholds hcompiled) hdetachable

end Pipeline

/-- Packing a solution of valid projects succeeds exactly if each of them can be taken apart.  What a
pass leaves of a project that compiles does so too exactly if the pass clears the project. -/
theorem packSolution_succeeds_iff {τ : Type} (policy : InterweaveConfig) (layout : Layout)
    (solution : Solution) (t : τ) (hne : solution.projects ≠ [])
    (hids : solution.projectIds.Nodup) (hvalid : ∀ p ∈ solution.projects, p.Valid policy) :
    ((∃ packed, (packSolution { policy, layout } .structural solution t).1 = .ok packed) ↔
      ∀ p ∈ solution.projects, p.Detachable policy) ∧
    ∀ (p : Project) (pass : Pass) (x : Extracted), p.UniqueIds → Check.structural p = .ok () →
      pass.run { policy, layout } (Walker.ofProject p) = .ok x →
      (Check.structural x.project = .ok () ↔ pass.Clears policy p) := by
  constructor
  · have hprojects :
        (∃ shelf, Pipeline.packProjects { policy, layout } (.inMemory .structural)
          solution.projectIds { host := (solution, t) } = (.ok (), shelf)) ↔
        ∀ p ∈ solution.projects, p.id ∈ solution.projectIds → p.Detachable policy :=
      Pipeline.packProjects_succeeds_iff CleanUp.flagsUsings_needlessUsings hids
        (fun _ hid => hid) hids (fun p hp _ => hvalid p hp)
    have hmem : ∀ p ∈ solution.projects, p.id ∈ solution.projectIds := fun p hp =>
      List.mem_map_of_mem hp
    constructor
    · rintro ⟨packed, hrun⟩
      obtain ⟨-, shelf, hpack, -⟩ := packSolution_eq_ok
        (Prod.ext hrun rfl : packSolution _ _ _ _ = (.ok packed, _, _))
      exact fun p hp => hprojects.mp ⟨shelf, hpack⟩ p hp (hmem p hp)
    · intro h
      obtain ⟨shelf, hpack⟩ := hprojects.mpr fun p hp _ => h p hp
      have hnonempty : ¬ solution.projects.isEmpty = true := by
        rw [List.isEmpty_iff]
        exact hne
      rw [packSolution, if_neg hnonempty, hpack]
      exact ⟨_, rfl⟩
  · intro p pass x hp hcompile hx
    have hproject : x.project = pass.leaves policy p := (Pass.run_eq_ok hp hx).2
    rw [Check.structural_eq_ok_iff, hproject]
    exact Pass.holdsTogether_leaves_iff hp ((Check.structural_eq_ok_iff p).mp hcompile) pass

theorem packSolution_succeeds_iff_freight :
    freight.projects ≠ [] ∧ freight.projectIds.Nodup ∧
    (∀ p ∈ freight.projects, p.Valid {} ∧ p.Detachable {}) ∧
    (∃ packed, (packSolution {} .structural freight ()).1 = .ok packed) ∧
    ∃ x, Pass.members.run {} (Walker.ofProject Pipeline.parcel) = .ok x ∧
      (Check.structural x.project = .ok () ↔ Pass.members.Clears {} Pipeline.parcel) := by
  have hne : freight.projects ≠ [] := by decide +kernel
  have hids : freight.projectIds.Nodup := by decide +kernel
  have hchecks : ∀ p ∈ freight.projects, p.UniqueIds ∧ p.CoherentTypes ∧
      Check.structural p = .ok () ∧
      (∀ a ∈ InterweaveConfig.interwovenMembers {} p, a.1.container.isSome = true) ∧
      p.Detachable {} := by decide +kernel
  have hvalid : ∀ p ∈ freight.projects, p.Valid {} := by
    intro p hp
    obtain ⟨hunique, hc, hcompile, hhoused, -⟩ := hchecks p hp
    exact .of_coherent hunique hc hcompile hhoused
  have hdetachable : ∀ p ∈ freight.projects, p.Detachable {} := fun p hp =>
    (hchecks p hp).2.2.2.2
  obtain ⟨hsucceeds, hpasses⟩ := packSolution_succeeds_iff {} {} freight () hne hids hvalid
  have hparcel := hvalid Pipeline.parcel List.mem_cons_self
  obtain ⟨x, hx⟩ : ∃ x, Pass.members.run {} (Walker.ofProject Pipeline.parcel) = .ok x :=
    Pass.exists_run hparcel.uniqueIds hparcel.housed .members
  exact ⟨hne, hids, fun p hp => ⟨hvalid p hp, hdetachable p hp⟩, hsucceeds.mpr hdetachable, x, hx,
    hpasses Pipeline.parcel .members x hparcel.uniqueIds hparcel.compiles hx⟩

/-- Valid projects that a pass does not clear.  In the first a method calls an extension method that
makes a foreign value; in the second a method of one type calls a method of another type that takes
the first; in the third a delegate takes a type that stands beside it. -/
def snag (pass : Pass) : Project :=
  { id := ⟨1⟩, name := "Snag", assembly := "Snag"
    documents := [{ id := ⟨1⟩, name := "Snag.cs", root := { members := members pass } }] }
where
  members : Pass → List Member
    | .extensions =>
      [.type { id := ⟨1⟩, kind := .classKind, name := "Boxes" }
        [Extraction.tangle.method 2 [⟨"box", Pipeline.parcel.box, true⟩] [],
          Extraction.tangle.method 3 [] [2]]]
    | .members =>
      [.type { id := ⟨1⟩, kind := .classKind, name := "Giver" } [Extraction.tangle.method 2 [] [4]],
        .type { id := ⟨3⟩, kind := .classKind, name := "Taker" }
          [Extraction.tangle.method 4 [⟨"giver", own "Giver", false⟩] []]]
    | .containers =>
      [.type { id := ⟨1⟩, kind := .classKind, name := "Item" } [],
        .leaf { id := ⟨2⟩, form := .delegate "Sort" [] .void [⟨"item", own "Item", false⟩] }]
  own (name : String) : TypeSyntax := .ofSymbol (.named "Snag" "" name)

/-- Not all solutions of valid projects can be packed: each pass can leave something behind that no
longer compiles. -/
theorem packSolution_stops_on_valid :
    (∀ pass ∈ [Pass.extensions, .members, .containers], (snag pass).Valid {}) ∧
    (packSolution {} .structural { projects := [snag .extensions] } ()).1.map (fun _ => ()) =
      .error (.compileFailed "Snag" "extract interwoven extension methods"
        "Snag.cs: error CS0103: The name 'step' does not exist in the current context") ∧
    (packSolution {} .structural { projects := [snag .members] } ()).1.map (fun _ => ()) =
      .error (.compileFailed "Snag" "extract interwoven type members"
        "Snag.cs: error CS0103: The name 'step' does not exist in the current context") ∧
    (packSolution {} .structural { projects := [snag .containers] } ()).1.map (fun _ => ()) =
      .error (.compileFailed "Snag" "extract member containers"
        "Snag.cs: error CS0246: The type or namespace name 'Item' could not be found") := by
  have hchecks : ∀ pass ∈ [Pass.extensions, .members, .containers],
      (snag pass).UniqueIds ∧ (snag pass).CoherentTypes ∧ Check.structural (snag pass) = .ok () ∧
      ∀ a ∈ InterweaveConfig.interwovenMembers {} (snag pass), a.1.container.isSome = true := by
    decide +kernel
  refine ⟨fun pass hpass => ?_, by decide +kernel, by decide +kernel, by decide +kernel⟩
  obtain ⟨hunique, hc, hcompile, hhoused⟩ := hchecks pass hpass
  exact .of_coherent hunique hc hcompile hhoused

end Unweave

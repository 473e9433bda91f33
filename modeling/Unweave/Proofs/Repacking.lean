import Unweave.Proofs.Conservation
import Unweave.Proofs.Settled

/-!
# Packing what is left

A project is stable if it compiles, no clean-up has anything to do on it and no pass takes anything
out of it.  Packing leaves a stable project, and packing a stable project leaves everything as it
is.  So packing the solution that is left of another one gives an empty library and that solution
again.
-/

namespace Unweave

/-- Packing the project would do nothing. -/
structure Stable (settings : Settings) (q : Project) : Prop where
  documents : (q.documents.map (·.id)).Nodup
  compiles : Check.structural q = .ok ()
  partials : CleanUp.ensurePartial.Settled q
  regions : CleanUp.removeRegions.Settled q
  usings : (CleanUp.removeUsings settings.usings).Settled q
  extensions : Extraction.extensions settings.policy settings.layout (Walker.ofProject q) =
    .ok ⟨q, []⟩
  members : Extraction.members settings.policy settings.layout (Walker.ofProject q) = .ok ⟨q, []⟩
  containers : Extraction.containers settings.policy settings.layout (Walker.ofProject q) =
    .ok ⟨q, []⟩

/-! ## Packing a stable project -/

namespace Workbench

variable {σ : Type} {b : Workbench σ} {id : ProjectId} {q : Project} {s : σ}

/-- The workbench holds the project, and neither compiling it nor handing the solution in again
makes a difference. -/
structure AtRest (b : Workbench σ) (id : ProjectId) (q : Project) (s : σ) : Prop where
  project_eq : (b.solution s).project? id = some q
  solution_eq : (b.solution s).withProject q = b.solution s
  compile_eq : b.compile q s = (.ok (), s)
  commit_eq : b.commit (b.solution s) s = (.ok (), s)

theorem cleanDocuments_of_settled {c : CleanUp} (hc : c.Settled q) {ids : List DocumentId}
    (hids : ∀ i ∈ ids, ∀ d, q.document? i = some d → d.isEditable = true) :
    b.cleanDocuments c ids q s = (.ok q, s) := by
  induction ids with
  | nil => rfl
  | cons i ids ih =>
    have hrest := ih fun j hj => hids j (List.mem_cons_of_mem _ hj)
    rw [cleanDocuments]
    cases hfind : q.document? i with
    | none => exact hrest
    | some d =>
      have happly := hc q d (Project.mem_of_document? hfind).1 (hids i List.mem_cons_self d hfind)
      simp only [happly, if_true]
      exact hrest

theorem AtRest.cleanOne (h : b.AtRest id q s) (hq : (q.documents.map (·.id)).Nodup) {c : CleanUp}
    (hc : c.Settled q) : b.cleanOne [c] id s = (.ok (b.solution s), s) := by
  have hdocuments : b.cleanDocuments c ((q.documents.filter (·.isEditable)).map (·.id)) q s =
      (.ok q, s) := by
    refine cleanDocuments_of_settled hc fun i hi d hfind => ?_
    obtain ⟨e, he, rfl⟩ := List.mem_map.mp hi
    obtain ⟨he, hedit⟩ := List.mem_filter.mp he
    obtain ⟨hd, hid⟩ := Project.mem_of_document? hfind
    rw [Project.eq_of_document_id hq hd he hid]
    exact hedit
  have hcommit : b.commit ((b.solution s).withProject q) s = (.ok (), s) := by
    rw [h.solution_eq]
    exact h.commit_eq
  have hclean := cleanOne_of_ok h.project_eq h.compile_eq hdocuments hcommit
  rw [h.solution_eq] at hclean
  exact hclean

end Workbench

namespace Pipeline

variable {σ : Type} {b : Workbench σ} {id : ProjectId} {q : Project} {shelf : Shelf σ}
  {settings : Settings}

theorem clean_of_settled (h : b.AtRest id q shelf.host) (hq : (q.documents.map (·.id)).Nodup)
    {c : CleanUp} (hc : c.Settled q) : clean b c id shelf = (.ok (), shelf) :=
  (Job.discard_eq_ok_iff _ _ _ _).mpr ⟨_, onHost_of_unchanged (h.cleanOne hq hc)⟩

theorem extract_of_nothing (h : b.AtRest id q shelf.host) (stage : String)
    {pass : Walker → Except Error Extracted} (hpass : pass (Walker.ofProject q) = .ok ⟨q, []⟩) :
    extract b stage pass id shelf = (.ok (), shelf) := by
  refine extract_of_ok stage h.project_eq hpass h.compile_eq ?_ rfl
  rw [h.solution_eq]
  exact h.commit_eq

theorem packProject_of_stable (h : b.AtRest id q shelf.host) (hq : Stable settings q) :
    packProject settings b id shelf =
      (.ok q, { shelf with finished := shelf.finished ++ [q] }) := by
  have hread := onHost_currentProject h.project_eq
  have husings := clean_of_settled h hq.documents hq.usings
  refine (Job.bind_of_ok ((Job.discard_eq_ok_iff _ _ _ ()).mpr ⟨q, hread⟩)).trans ?_
  refine (Job.bind_of_ok (clean_of_settled h hq.documents hq.partials)).trans ?_
  refine (Job.bind_of_ok (clean_of_settled h hq.documents hq.regions)).trans ?_
  refine (Job.bind_of_ok husings).trans ?_
  refine (Job.bind_of_ok (extract_of_nothing h _ hq.extensions)).trans ?_
  refine (Job.bind_of_ok (extract_of_nothing h _ hq.members)).trans ?_
  refine (Job.bind_of_ok (extract_of_nothing h _ hq.containers)).trans ?_
  refine (Job.bind_of_ok husings).trans ?_
  exact Job.bind_of_ok hread

theorem packProjects_of_stable {qs : List Project}
    (h : ∀ q ∈ qs, b.AtRest q.id q shelf.host ∧ Stable settings q) :
    packProjects settings b (qs.map (·.id)) shelf =
      (.ok (), { shelf with finished := shelf.finished ++ qs }) := by
  induction qs generalizing shelf with
  | nil =>
    rw [List.append_nil]
    rfl
  | cons q qs ih =>
    obtain ⟨hrest, hq⟩ := h q List.mem_cons_self
    have hfirst := packProject_of_stable hrest hq
    refine (Job.bind_of_ok ((Job.discard_eq_ok_iff _ _ _ ()).mpr ⟨q, hfirst⟩)).trans ?_
    have hfinished : shelf.finished ++ q :: qs = shelf.finished ++ [q] ++ qs := by
      rw [List.append_assoc, List.singleton_append]
    rw [hfinished]
    exact ih fun q' hq' => h q' (List.mem_cons_of_mem _ hq')

end Pipeline

/-! ## What packing leaves is stable -/

namespace CleanUp

variable {p q : Project}

/-- Cleaning regions up leaves none to clean up. -/
theorem Cleaned.settled_removeRegions (h : removeRegions.Cleaned p q) :
    removeRegions.Settled q := by
  obtain ⟨g, rfl, hg⟩ := h
  rw [settled_removeRegions_iff]
  intro d' hd' hedit
  obtain ⟨d, hd, rfl⟩ := List.mem_map.mp hd'
  have hgd := hg d hd
  split at hgd
  · obtain ⟨_, happly⟩ := hgd
    have heq : { d with root := d.root.keepTrivia (!·.isRegion) } = g d := Except.ok.inj happly
    rw [← heq]
    exact d.root.keepTrivia_keepTrivia _
  · next hnot =>
    rw [hgd] at hedit
    exact absurd hedit hnot

/-- Cleaning using directives up erases. -/
theorem Cleaned.erases {usings : Project → Document → List Diagnostic}
    (h : (removeUsings usings).Cleaned p q) :
    ∃ g, q = p.mapDocuments g ∧ ∀ d ∈ p.documents, ∃ gone, g d = d.erase gone := by
  obtain ⟨g, rfl, hg⟩ := h
  refine ⟨g, rfl, fun d hd => ?_⟩
  have hgd := hg d hd
  split at hgd
  · obtain ⟨p', happly⟩ := hgd
    rw [removeUsings_apply, Except.ok.injEq] at happly
    exact ⟨_, happly.symm⟩
  · exact ⟨fun _ => false, hgd.trans d.erase_nothing.symm⟩

theorem Cleaned.settled_removeUsings (hp : p.UniqueIds)
    (h : (removeUsings fun _ d => Check.needlessUsings d).Cleaned p q) :
    (removeUsings fun _ d => Check.needlessUsings d).Settled q := by
  obtain ⟨g, rfl, hg⟩ := h
  intro p' d' hd' hedit
  obtain ⟨d, hd, rfl⟩ := List.mem_map.mp hd'
  have hgd := hg d hd
  split at hgd
  · obtain ⟨p'', happly⟩ := hgd
    exact removeUsings_apply_apply ((List.nodup_flatMap.mp hp.nodes).1 d hd) happly
  · next hnot =>
    rw [hgd] at hedit
    exact absurd hedit hnot

/-- Needless directives make no difference to the structural check. -/
theorem Cleaned.structural_eq (hp : p.UniqueIds)
    (h : (removeUsings fun _ d => Check.needlessUsings d).Cleaned p q) :
    Check.structural q = Check.structural p := by
  obtain ⟨g, rfl, hg⟩ := h
  have hdiagnostics : Check.diagnostics (p.mapDocuments g) = Check.diagnostics p := by
    refine Check.diagnostics_mapDocuments fun d hd => ?_
    have hgd := hg d hd
    split at hgd
    · obtain ⟨p', happly⟩ := hgd
      rw [removeUsings_apply, Except.ok.injEq] at happly
      rw [← happly]
      have hnodup : d.root.nodeIds.Nodup := (List.nodup_flatMap.mp hp.nodes).1 d hd
      exact Check.view_erase (flagsUsings_needlessUsings.keeps p' hnodup)
    · rw [hgd]
  rw [Check.structural, Check.structural, hdiagnostics]

end CleanUp

theorem Project.erase_nothing (q : Project) : q.erase (fun _ => false) = q :=
  mapDocuments_eq_self fun d _ => d.erase_nothing

namespace Extraction

variable {policy : InterweaveConfig} {layout : Layout} {q : Project}

theorem extensions_of_free (hq : q.UniqueIds) (h : policy.Free q InterweaveConfig.IsExtension) :
    extensions policy layout (Walker.ofProject q) = .ok ⟨q, []⟩ := by
  have hnil := InterweaveConfig.selectExtensions_eq_nil hq h
  rw [extensions_eq_ok policy layout hq, extensionIds, hnil]
  exact congrArg (fun r => Except.ok (Extracted.mk r [])) q.erase_nothing

theorem members_of_free (hq : q.UniqueIds) (h : policy.Free q InterweaveConfig.IsOtherMember) :
    members policy layout (Walker.ofProject q) = .ok ⟨q, []⟩ :=
  (members_eq_ok_iff hq _).mpr
    ⟨[], InterweaveConfig.selectMembers_eq_nil hq h, rfl, q.erase_nothing.symm⟩

theorem containers_of_leaves (hq : q.UniqueIds)
    (h : ∀ e ∈ q.entries, e.declaration.isType = false) :
    containers policy layout (Walker.ofProject q) = .ok ⟨q, []⟩ := by
  have htop : (Catalogue.ofProject q).topTypes = [] := by
    refine List.eq_nil_iff_forall_not_mem.mpr fun e he => ?_
    obtain ⟨he, htype, -⟩ := (hq.mem_topTypes_iff e).mp he
    rw [h e he] at htype
    cases htype
  have hnil : policy.selectContainers (Walker.ofProject q) = [] := by
    show (Catalogue.ofProject q).topTypes.map _ = []
    rw [htop, List.map_nil]
  refine (containers_eq_ok_iff hq _).mpr ⟨?_, ?_⟩
  · rw [hnil]
    rfl
  · rw [hnil]
    exact q.erase_nothing.symm

end Extraction

namespace Packing

variable {policy : InterweaveConfig} {layout : Layout} {p : Project}

/-- No type is left. -/
theorem leaves_stripped {settings : Settings} (t : Packing settings p)
    (hflags : CleanUp.FlagsUsings settings.usings) (hp : p.UniqueIds) :
    ∀ e ∈ t.stripped.entries, e.declaration.isType = false := by
  intro e he
  have hsite := Project.mem_sites he
  rw [t.sites_stripped hflags hp] at hsite
  have hloose := (Bool.and_eq_true_iff.mp (List.mem_filter.mp hsite).2).1
  have hleaf : e.declaration.bareLeaf?.isSome = true := (Bool.and_eq_true_iff.mp hloose).1
  cases hd : e.declaration with
  | type head members =>
    rw [hd] at hleaf
    cases hleaf
  | leaf l => rfl

/-- From the regions' going on, every stage only erases. -/
theorem regions_stripped {settings : Settings} (t : Packing settings p)
    (hflags : CleanUp.FlagsUsings settings.usings) (hp : p.UniqueIds) :
    CleanUp.removeRegions.Settled t.stripped := by
  have herase : ∀ {r r' : Project}, CleanUp.removeRegions.Settled r →
      (∃ gone, r' = r.erase gone) → CleanUp.removeRegions.Settled r' := by
    rintro r r' hr ⟨gone, rfl⟩
    exact hr.removeRegions_erase fun d _ => ⟨gone, rfl⟩
  have htidy : CleanUp.removeRegions.Settled t.tidy := by
    obtain ⟨g, hg, herases⟩ := t.tidy_cleaned.erases
    rw [hg]
    exact t.regionless_cleaned.settled_removeRegions.removeRegions_erase herases
  have hextensions := herase htidy (Extraction.erases_extensions _ _ _ _
    (t.uniqueIds_tidy hflags hp) t.extensions_eq)
  have hmembers := herase hextensions (Extraction.erases_members _ _ _ _
    (t.uniqueIds_extensions hflags hp) t.members_eq)
  have hcontainers := herase hmembers (Extraction.erases_containers _ _ _ _
    (t.uniqueIds_members hflags hp) t.containers_eq)
  obtain ⟨g, hg, herases⟩ := t.stripped_cleaned.erases
  rw [hg]
  exact hcontainers.removeRegions_erase herases

section Free

variable {settings : Settings} (t : Packing settings p)
  (hflags : CleanUp.FlagsUsings settings.usings) (hp : p.UniqueIds)
include hflags hp

theorem members_remainsOf : t.members.project.RemainsOf t.extensions.project := by
  rw [(t.members_project hflags hp).2.2]
  exact Project.erase_remainsOf _ _

theorem stripped_remainsOf : t.stripped.RemainsOf t.members.project := by
  refine (t.stripped_tidied hflags hp).remainsOf.trans ?_
  rw [(t.containers_project hflags hp).2]
  exact Project.erase_remainsOf _ _

theorem free_stripped (hc : p.CoherentTypes) :
    settings.policy.Free t.stripped InterweaveConfig.IsExtension ∧
      settings.policy.Free t.stripped InterweaveConfig.IsOtherMember := by
  have htidy := (t.tidied hflags hp).coherentTypes hc
  have hextensions : t.extensions.project.CoherentTypes := by
    rw [(t.extensions_project hflags hp).2]
    exact htidy.erase _
  have hfirst := Extraction.free_of_extensions (t.uniqueIds_tidy hflags hp) htidy t.extensions_eq
  have hsecond := Extraction.free_of_members (t.uniqueIds_extensions hflags hp) hextensions
    t.members_eq
  have hrem := t.stripped_remainsOf hflags hp
  constructor
  · exact hfirst.of_remainsOf (hrem.trans (t.members_remainsOf hflags hp))
      (t.uniqueIds_extensions hflags hp) InterweaveConfig.isExtension_of_remainsOf
  · exact hsecond.of_remainsOf hrem (t.uniqueIds_members hflags hp)
      InterweaveConfig.isOtherMember_of_remainsOf

end Free

/-- What is left of a project is stable, if it compiled before the last using directives went. -/
theorem stable_stripped (t : Packing { policy, layout } p) (hp : p.UniqueIds)
    (hc : p.CoherentTypes) (hcompile : Check.structural t.containers.project = .ok ()) :
    Stable { policy, layout } t.stripped := by
  have hflags : CleanUp.FlagsUsings fun _ d => Check.needlessUsings d :=
    CleanUp.flagsUsings_needlessUsings
  have hcontainers := t.uniqueIds_containers hflags hp
  have hunique := (t.stripped_tidied hflags hp).uniqueIds hcontainers
  have hleaves := t.leaves_stripped hflags hp
  obtain ⟨hextensions, hmembers⟩ := t.free_stripped hflags hp hc
  exact
    { documents := hunique.documents
      compiles := (t.stripped_cleaned.structural_eq hcontainers).trans hcompile
      partials := CleanUp.settled_ensurePartial hleaves
      regions := t.regions_stripped hflags hp
      usings := t.stripped_cleaned.settled_removeUsings hcontainers
      extensions := Extraction.extensions_of_free hunique hextensions
      members := Extraction.members_of_free hunique hmembers
      containers := Extraction.containers_of_leaves hunique hleaves }

end Packing

/-! ## Packing a solution twice -/

/-- A solution in memory is at rest on each of its projects that compiles. -/
theorem Workbench.atRest_inMemory {τ : Type} {s : Solution} {q : Project} (t : τ)
    (hs : s.projectIds.Nodup) (hq : q ∈ s.projects) (hcompile : Check.structural q = .ok ()) :
    (inMemory Compiler.structural).AtRest q.id q (s, t) where
  project_eq := Solution.project?_of_mem hs hq
  solution_eq := Solution.withProject_of_mem hs hq
  compile_eq := by
    show (Check.structural q, (s, t)) = _
    rw [hcompile]
  commit_eq := by
    have hsame : s.requireSameProjects s = .ok () := if_pos rfl
    simp only [inMemory, hsame]

namespace Pipeline

variable {τ : Type} {policy : InterweaveConfig} {layout : Layout}

/-- The projects that were to be packed are stable then, and the others are as they were. -/
theorem packProjects_stable {ids : List ProjectId} {shelf shelf' : Shelf (Solution × τ)}
    (hids : ids.Nodup) (hknown : ∀ id ∈ ids, id ∈ shelf.host.1.projectIds)
    (hprojects : ∀ p ∈ shelf.host.1.projects, p.id ∈ ids → p.UniqueIds ∧ p.CoherentTypes)
    (h : packProjects { policy, layout } (.inMemory .structural) ids shelf = (.ok (), shelf')) :
    shelf'.host.1.projectIds = shelf.host.1.projectIds ∧
      ∀ q ∈ shelf'.host.1.projects,
        Stable { policy, layout } q ∨ q.id ∉ ids ∧ q ∈ shelf.host.1.projects := by
  obtain ⟨hsame, hleft⟩ := packProjects_eq_ok (Workbench.lawful_inMemory _)
    CleanUp.flagsUsings_needlessUsings hids hknown (fun p hp hi => (hprojects p hp hi).1) h
  refine ⟨hsame, fun q hq => ?_⟩
  rcases hleft q hq with hout | ⟨hi, p, hp, hid, t, rfl, hcompiled⟩
  · exact .inr hout
  · obtain ⟨hunique, hc⟩ := hprojects p hp (hid ▸ hi)
    obtain ⟨_, hcompile⟩ := hcompiled.containers
    exact .inl (t.stable_stripped hunique hc hcompile)

end Pipeline

/-- A successful run packed every project. -/
theorem packSolution_eq_ok {τ : Type} {settings : Settings} {compiler : Compiler τ}
    {solution : Solution} {t t' : τ} {packed : Packed} {finished : List Project}
    (h : packSolution settings compiler solution t = (.ok packed, finished, t')) :
    solution.projects ≠ [] ∧
      ∃ shelf : Shelf (Solution × τ),
        Pipeline.packProjects settings (.inMemory compiler) solution.projectIds
            { host := (solution, t) } = (.ok (), shelf) ∧
          shelf.host.1 = packed.stripped := by
  rw [packSolution] at h
  split at h
  · cases h
  · next hne =>
    refine ⟨fun hnil => hne (by rw [hnil]; rfl), ?_⟩
    rcases hrun : Pipeline.packProjects settings (.inMemory compiler) solution.projectIds
      { host := (solution, t) } with ⟨e | ⟨⟩, shelf⟩
    · rw [hrun] at h
      cases h
    · rw [hrun] at h
      cases h
      exact ⟨shelf, rfl, rfl⟩

/-- Packing what packing a solution left takes nothing more out of it and changes nothing. -/
theorem packSolution_stripped_fixpoint {τ υ : Type} (policy : InterweaveConfig) (layout : Layout)
    (solution : Solution) (t t' : τ) (u : υ) (packed : Packed) (finished : List Project)
    (hids : solution.projectIds.Nodup)
    (hprojects : ∀ p ∈ solution.projects, p.UniqueIds ∧ p.CoherentTypes)
    (h : packSolution { policy, layout } .structural solution t = (.ok packed, finished, t')) :
    packSolution { policy, layout } .structural packed.stripped u =
      (.ok
        { library := {}
          stripped := packed.stripped
          snapshotId := packed.stripped.snapshotId },
        packed.stripped.projects, u) := by
  obtain ⟨hne, shelf, hrun, hshelf⟩ := packSolution_eq_ok h
  obtain ⟨hsame, hstable⟩ := Pipeline.packProjects_stable hids (fun _ hid => hid)
    (fun p hp _ => hprojects p hp) hrun
  rw [hshelf] at hsame hstable
  have hnodup : packed.stripped.projectIds.Nodup := hsame ▸ hids
  have hall : ∀ q ∈ packed.stripped.projects, Stable { policy, layout } q := by
    intro q hq
    refine (hstable q hq).resolve_right fun hout => hout.1 ?_
    rw [← hsame]
    exact List.mem_map_of_mem hq
  have hnonempty : ¬ packed.stripped.projects.isEmpty = true := by
    intro hempty
    rw [Solution.projectIds, List.isEmpty_iff.mp hempty] at hsame
    exact hne (List.map_eq_nil_iff.mp hsame.symm)
  have hagain : Pipeline.packProjects { policy, layout } (.inMemory .structural)
      (packed.stripped.projects.map (·.id)) { host := (packed.stripped, u) } =
        (.ok (), { host := (packed.stripped, u), finished := packed.stripped.projects }) :=
    Pipeline.packProjects_of_stable fun q hq =>
      ⟨Workbench.atRest_inMemory u hnodup hq (hall q hq).compiles, hall q hq⟩
  rw [packSolution, if_neg hnonempty, Solution.projectIds, hagain]
  rfl

/-- Two projects.  In one of them types and loose declarations stand side by side, in the other the
members of a type call each other. -/
def freight : Solution := { projects := [Pipeline.parcel, ring] }
where
  ring : Project :=
    { id := ⟨2⟩, name := "Ring", assembly := "Ring"
      documents :=
        [{ id := ⟨1⟩, name := "Ring.cs"
           root :=
            { usings := [{ id := ⟨1⟩, name := "Crates" }]
              members :=
                [.type { id := ⟨2⟩, kind := .classKind, name := "Ring" }
                  [Extraction.tangle.method 3 [⟨"box", Pipeline.parcel.box, false⟩] [4],
                    Extraction.tangle.method 4 [] [3], Extraction.tangle.method 5 [] []],
                  Extraction.tangle.method 6 [] []] } }] }

theorem packSolution_stripped_fixpoint_freight :
    freight.projectIds.Nodup ∧ (∀ p ∈ freight.projects, p.UniqueIds ∧ p.CoherentTypes) ∧
    (packSolution {} .structural freight ()).1.toOption.map
      (fun packed => (packed.library.packages.length,
        packed.stripped.projects.map (·.entries.map Entry.id))) =
        some (5, [[⟨8⟩, ⟨9⟩], [⟨6⟩]]) ∧
    ∃ packed finished,
      packSolution {} .structural freight () = (.ok packed, finished, ()) ∧
      packSolution {} .structural packed.stripped () =
        (.ok
          { library := {}
            stripped := packed.stripped
            snapshotId := packed.stripped.snapshotId },
          packed.stripped.projects, ()) := by
  have hids : freight.projectIds.Nodup := by decide +kernel
  have hprojects : ∀ p ∈ freight.projects, p.UniqueIds ∧ p.CoherentTypes := by decide +kernel
  have hpacked : (packSolution {} .structural freight ()).1.toOption.map
      (fun packed => (packed.library.packages.length,
        packed.stripped.projects.map (·.entries.map Entry.id))) =
        some (5, [[⟨8⟩, ⟨9⟩], [⟨6⟩]]) := by decide +kernel
  refine ⟨hids, hprojects, hpacked, ?_⟩
  rcases hrun : packSolution {} .structural freight () with ⟨e | packed, finished, t⟩
  · rw [hrun] at hpacked
    cases hpacked
  · exact ⟨packed, finished, rfl,
      packSolution_stripped_fixpoint {} {} freight () () () packed finished hids hprojects hrun⟩

end Unweave

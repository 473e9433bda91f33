import Unweave.Proofs.Acceptance
import Unweave.Proofs.Interruption
import Unweave.Proofs.Merging

/-!
# Projects are packed independently

With a compiler that is a function of the project, what a step does to a project depends on that
project alone: not on the others of the solution, nor on the library, which only grows by the
packages of the step.  So packing a project in a solution is packing it by itself, and packing a
solution is packing its projects one by one and adding the libraries up.

Nothing is assumed of the identifiers within a project.
-/

namespace Unweave

/-! ## Passes -/

namespace Project

theorem id_eraseIn (p : Project) (document : DocumentId) (nodes : List NodeId) :
    (p.eraseIn document nodes).id = p.id := by
  rw [eraseIn]
  split
  · rfl
  · split <;> rfl

theorem id_removeDeclarations {p q : Project} {ids : List NodeId}
    (h : p.removeDeclarations ids = .ok q) : q.id = p.id := by
  have hfold : ∀ (documents : List DocumentId) (r : Project),
      (documents.foldl (fun q id => q.eraseIn id (p.nodesIn ids id)) r).id = r.id := by
    intro documents
    induction documents with
    | nil => exact fun _ => rfl
    | cons d ds ih => exact fun r => (ih _).trans (r.id_eraseIn d _)
  rw [removeDeclarations] at h
  split at h
  · cases h
    exact hfold _ p
  · cases h

end Project

namespace Pass

variable {settings : Settings} {p : Project} {x : Extracted}

theorem id_run {pass : Pass} (h : pass.run settings (Walker.ofProject p) = .ok x) :
    x.project.id = p.id := by
  have hproject : ∀ es, ((Walker.ofProject p).answerAll es).2.catalogue.project = p := fun es =>
    congrArg Catalogue.project (Walker.catalogue_answerAll _ es)
  cases pass with
  | extensions =>
    obtain ⟨q, hq, h⟩ := (exceptBind_eq_ok_iff _ _ _).mp h
    cases h
    rw [hproject] at hq
    exact Project.id_removeDeclarations hq
  | members =>
    obtain ⟨selected, -, h⟩ := (exceptBind_eq_ok_iff _ _ _).mp h
    obtain ⟨packages, -, h⟩ := (exceptBind_eq_ok_iff _ _ _).mp h
    obtain ⟨q, hq, h⟩ := (exceptBind_eq_ok_iff _ _ _).mp h
    cases h
    rw [hproject] at hq
    exact Project.id_removeDeclarations hq
  | containers =>
    obtain ⟨packages, -, h⟩ := (exceptBind_eq_ok_iff _ _ _).mp h
    obtain ⟨q, hq, h⟩ := (exceptBind_eq_ok_iff _ _ _).mp h
    cases h
    exact Project.id_removeDeclarations hq

end Pass

/-! ## Clean-ups -/

namespace Workbench

variable {σ τ : Type}

/-- The solution in memory, with a compiler that is a function. -/
abbrev plain (compile : Project → Except CompileFailure Unit) : Workbench (Solution × τ) :=
  inMemory (.ofFunction compile)

/-- Cleaning one project up, step by step. -/
theorem cleanOne_eq {b : Workbench σ} {c : CleanUp} {id : ProjectId} {p : Project} {s : σ}
    (hfind : (b.solution s).project? id = some p) :
    b.cleanOne [c] id s = (do
      b.requireCompiles (fun f => .preconditionFailed p.name f.text) p
      let q ← b.cleanDocuments c ((p.documents.filter (·.isEditable)).map (·.id)) p
      b.commitSolution ((b.solution s).withProject q)
      return (b.solution s).withProject q : Job σ Solution) s := by
  have hread : b.current s = (.ok (b.solution s), s) := rfl
  refine (Job.bind_of_ok hread).trans ?_
  simp only [hfind, cleanAndCommit, requirePreconditions, cleanProjects, cleanProject,
    List.foldlM_cons, List.foldlM_nil, bind_assoc, bind_pure, pure_bind, Option.isNone_some]
  rfl

variable (compile : Project → Except CompileFailure Unit) (c : CleanUp)

theorem requireCompiles_plain (onFailure : CompileFailure → Error) (p : Project)
    (host : Solution × τ) :
    (plain compile).requireCompiles onFailure p host = ((compile p).mapError onFailure, host) := by
  have hcompile : (plain compile).compile p host = (compile p, host) := rfl
  rw [requireCompiles, hcompile]
  cases compile p <;> rfl

/-- Cleaning documents up is a function of the project. -/
theorem exists_cleanDocuments_plain (ids : List DocumentId) (p : Project) :
    ∃ r : Except Error Project, (∀ q, r = .ok q → q.id = p.id) ∧
      ∀ host : Solution × τ, (plain compile).cleanDocuments c ids p host = (r, host) := by
  induction ids generalizing p with
  | nil => exact ⟨.ok p, fun q h => by cases h; rfl, fun _ => rfl⟩
  | cons id ids ih =>
    cases hfind : p.document? id with
    | none =>
      simp only [cleanDocuments, hfind]
      exact ih p
    | some d =>
      cases happly : c.apply p d with
      | error e =>
        simp only [cleanDocuments, hfind, happly]
        exact ⟨.error (.cleanUpFailed c.name d.name e.message), (fun q h => by cases h),
          fun _ => rfl⟩
      | ok d' =>
        simp only [cleanDocuments, hfind, happly]
        by_cases hsame : d' = d
        · simp only [if_pos hsame]
          exact ih p
        simp only [if_neg hsame]
        obtain ⟨r, hid, hr⟩ := ih (p.withDocument d')
        by_cases hrecompiles : c.recompiles = true
        · simp only [if_pos hrecompiles, Job.bind_apply, ensureCompiles, requireCompiles_plain]
          cases compile (p.withDocument d') with
          | error f =>
            exact ⟨.error (.compileFailed p.name c.name f.text), (fun q h => by cases h),
              fun _ => rfl⟩
          | ok u => exact ⟨r, hid, hr⟩
        · simp only [if_neg hrecompiles]
          exact ⟨r, hid, hr⟩

/-- Cleaning a project up is a function of the project, which it replaces. -/
theorem exists_cleanOne_plain (p : Project) :
    ∃ r : Except Error Project, (∀ q, r = .ok q → q.id = p.id) ∧
      ∀ host : Solution × τ, host.1.project? p.id = some p →
        (plain compile).cleanOne [c] p.id host =
          match r with
          | .ok q => (.ok (host.1.withProject q), (host.1.withProject q, host.2))
          | .error e => (.error e, host) := by
  cases hcompile : compile p with
  | error f =>
    refine ⟨.error (.preconditionFailed p.name f.text), nofun, fun host hfind => ?_⟩
    rw [cleanOne_eq (b := plain compile) hfind, Job.bind_apply, requireCompiles_plain, hcompile]
    rfl
  | ok u =>
    obtain ⟨r, hid, hr⟩ := exists_cleanDocuments_plain (τ := τ) compile c
      ((p.documents.filter (·.isEditable)).map (·.id)) p
    refine ⟨r, hid, fun host hfind => ?_⟩
    rw [cleanOne_eq (b := plain compile) hfind, Job.bind_apply, requireCompiles_plain, hcompile]
    show ((plain compile).cleanDocuments c _ p >>= _ : Job (Solution × τ) Solution) host = _
    rw [Job.bind_apply, hr host]
    cases r with
    | error e => rfl
    | ok q => exact Job.bind_of_ok (commit_inMemory (.ofFunction compile) q host)

end Workbench

/-! ## Steps -/

namespace Shelf

variable {τ : Type} {shelf : Shelf (Solution × τ)} {p q : Project}

/-- The project is there to be worked on. -/
structure Holds (shelf : Shelf (Solution × τ)) (p : Project) : Prop where
  project_eq : shelf.host.1.project? p.id = some p
  distinct : shelf.host.1.projectIds.Nodup

/-- A project was replaced and packages were added. -/
def after (shelf : Shelf (Solution × τ)) (q : Project) (packages : List Package) :
    Shelf (Solution × τ) :=
  { shelf with
    host := (shelf.host.1.withProject q, shelf.host.2)
    library := shelf.library.plus packages }

theorem Holds.after (h : shelf.Holds p) (hid : q.id = p.id) (packages : List Package) :
    (shelf.after q packages).Holds q where
  project_eq := by
    rw [hid]
    exact Solution.project?_withProject h.project_eq hid
  distinct := by
    show (shelf.host.1.withProject q).projectIds.Nodup
    rw [Solution.projectIds_withProject]
    exact h.distinct

theorem after_after {r : Project} (hid : r.id = q.id) (ks ls : List Package) :
    (shelf.after q ks).after r ls = shelf.after r (ks ++ ls) := by
  simp only [Shelf.after, Solution.withProject_withProject hid, Library.plus_append]

theorem Holds.after_self (h : shelf.Holds p) : shelf.after p [] = shelf := by
  have hself : shelf.host.1.withProject p = shelf.host.1 :=
    Solution.withProject_of_mem h.distinct (Solution.mem_of_project? h.project_eq).1
  rw [Shelf.after, hself, Library.plus_nil]

end Shelf

namespace Pipeline

variable {τ : Type}

/-- What a job does to a project: it fails, or leaves another project and adds packages, wherever
the project is. -/
def Does (job : Job (Shelf (Solution × τ)) Unit) (p : Project) :
    Except Error (Project × List Package) → Prop
  | .ok (q, packages) => q.id = p.id ∧
      ∀ shelf : Shelf (Solution × τ), shelf.Holds p → job shelf = (.ok (), shelf.after q packages)
  | .error e => ∀ shelf : Shelf (Solution × τ), shelf.Holds p → (job shelf).1 = .error e

/-- What one job and then another does. -/
theorem exists_does_bind {job job' : Job (Shelf (Solution × τ)) Unit} {p : Project}
    {r : Except Error (Project × List Package)} (h : Does job p r)
    (h' : ∀ q : Project, q.id = p.id → ∃ r', Does job' q r') :
    ∃ r', Does (job >>= fun _ => job') p r' := by
  match r, h with
  | .error e, h => exact ⟨.error e, fun shelf hshelf => Job.bind_of_error (h shelf hshelf)⟩
  | .ok (q, ks), ⟨hid, hjob⟩ =>
    obtain ⟨r', hr'⟩ := h' q hid
    match r', hr' with
    | .error e, hr' =>
      refine ⟨.error e, fun shelf hshelf => ?_⟩
      rw [Job.bind_of_ok (hjob shelf hshelf)]
      exact hr' _ (hshelf.after hid ks)
    | .ok (q', ls), ⟨hid', hjob'⟩ =>
      refine ⟨.ok (q', ks ++ ls), hid'.trans hid, fun shelf hshelf => ?_⟩
      rw [Job.bind_of_ok (hjob shelf hshelf), hjob' _ (hshelf.after hid ks),
        Shelf.after_after hid']

variable (settings : Settings) (compile : Project → Except CompileFailure Unit)

theorem exists_does_clean (c : CleanUp) (p : Project) :
    ∃ r, Does (τ := τ) (clean (.plain compile) c p.id) p r := by
  obtain ⟨r, hid, hr⟩ := Workbench.exists_cleanOne_plain (τ := τ) compile c p
  cases r with
  | error e =>
    refine ⟨.error e, fun shelf hshelf => Job.bind_of_error ?_⟩
    show ((Workbench.plain compile).cleanOne [c] p.id shelf.host).1 = .error e
    rw [hr shelf.host hshelf.project_eq]
  | ok q =>
    refine ⟨.ok (q, []), hid q rfl, fun shelf hshelf => ?_⟩
    rw [Shelf.after, Library.plus_nil]
    exact (Job.discard_eq_ok_iff _ _ _ _).mpr
      ⟨_, (Shelf.onHost_eq_ok_iff _ _ _ _).mpr ⟨_, hr shelf.host hshelf.project_eq, rfl⟩⟩

theorem exists_does_extract (pass : Pass) (p : Project) :
    ∃ r, Does (τ := τ) (extract (.plain compile) pass.stage (pass.run settings) p.id) p r := by
  have hread : ∀ shelf : Shelf (Solution × τ),
      Shelf.onHost (Workbench.plain compile).current shelf = (.ok shelf.host.1, shelf) :=
    fun _ => rfl
  cases hx : pass.run settings (Walker.ofProject p) with
  | error e =>
    refine ⟨.error e, fun shelf hshelf => ?_⟩
    rw [extract, Job.bind_of_ok (hread shelf), hshelf.project_eq]
    exact Job.bind_of_error hx
  | ok x =>
    cases hcompile : compile x.project with
    | error f =>
      refine ⟨.error (.compileFailed x.project.name pass.stage f.text), fun shelf hshelf => ?_⟩
      rw [extract, Job.bind_of_ok (hread shelf), hshelf.project_eq]
      refine (congrArg Prod.fst (Job.bind_of_ok ((Job.lift_eq_ok_iff _ _ _ _).mpr
        ⟨hx, rfl⟩))).trans (Job.bind_of_error ?_)
      show ((Workbench.plain compile).requireCompiles _ x.project shelf.host).1 = _
      rw [Workbench.requireCompiles_plain, hcompile]
      rfl
    | ok u =>
      refine ⟨.ok (x.project, x.packages), Pass.id_run hx, fun shelf hshelf => ?_⟩
      have hcompiled : (Workbench.plain compile).compile x.project shelf.host =
          (.ok (), shelf.host) := congrArg (·, shelf.host) hcompile
      exact extract_of_ok pass.stage hshelf.project_eq hx hcompiled
        (Workbench.commit_inMemory _ x.project shelf.host)
        (shelf.library.addAll_eq x.packages)

theorem exists_does_performAll (steps : List Step) (p : Project) :
    ∃ r, Does (τ := τ) (performAll settings (.plain compile) p.id steps) p r := by
  induction steps generalizing p with
  | nil =>
    refine ⟨.ok (p, []), rfl, fun shelf hshelf => ?_⟩
    rw [hshelf.after_self]
    rfl
  | cons step rest ih =>
    have hstep : ∃ r, Does (τ := τ) (step.perform settings (.plain compile) p.id) p r := by
      cases step with
      | clean c => exact exists_does_clean compile c p
      | extract pass => exact exists_does_extract settings compile pass p
    obtain ⟨r, hr⟩ := hstep
    exact exists_does_bind hr fun q hid => hid ▸ ih q

/-! ## A project -/

/-- Packing a project does the same to it wherever it is. -/
theorem exists_packProject (p : Project) :
    (∃ e, ∀ shelf : Shelf (Solution × τ), shelf.Holds p →
      (packProject settings (.plain compile) p.id shelf).1 = .error e) ∨
    ∃ q packages, q.id = p.id ∧
      ∀ shelf : Shelf (Solution × τ), shelf.Holds p →
        packProject settings (.plain compile) p.id shelf =
          (.ok q, { shelf.after q packages with finished := shelf.finished ++ [q] }) := by
  have hlook : ∀ shelf : Shelf (Solution × τ), shelf.Holds p →
      (discard (Shelf.onHost ((Workbench.plain compile).currentProject p.id)) :
        Job (Shelf (Solution × τ)) Unit) shelf = (.ok (), shelf) := fun shelf hshelf =>
    (Job.discard_eq_ok_iff _ _ _ _).mpr ⟨p, onHost_currentProject hshelf.project_eq⟩
  obtain ⟨r, hr⟩ := exists_does_performAll (τ := τ) settings compile (steps settings) p
  match r, hr with
  | .error e, hr =>
    refine .inl ⟨e, fun shelf hshelf => ?_⟩
    rw [packProject_eq_steps, Job.bind_of_ok (hlook shelf hshelf)]
    exact Job.bind_of_error (hr shelf hshelf)
  | .ok (q, packages), ⟨hid, hrun⟩ =>
    refine .inr ⟨q, packages, hid, fun shelf hshelf => ?_⟩
    rw [packProject_eq_steps, Job.bind_of_ok (hlook shelf hshelf),
      Job.bind_of_ok (hrun shelf hshelf), ← hid]
    exact Job.bind_of_ok (onHost_currentProject (hshelf.after hid packages).project_eq)

end Pipeline

/-! ## By itself and among others -/

/-- Pack a solution of one project. -/
def packAlone {τ : Type} (settings : Settings) (compile : Project → Except CompileFailure Unit)
    (t : τ) (p : Project) : Except Error Packed :=
  (packSolution settings (.ofFunction compile) { projects := [p] } t).1

section Alone

variable {τ : Type} {settings : Settings} {compile : Project → Except CompileFailure Unit} {t : τ}

theorem packSolution_of_ok {solution : Solution} (h : solution.projects ≠ [])
    {shelf : Shelf (Solution × τ)}
    (hrun : Pipeline.packProjects settings (.plain compile) solution.projectIds
      { host := (solution, t) } = (.ok (), shelf)) :
    (packSolution settings (.ofFunction compile) solution t).1 =
      .ok { library := shelf.library, stripped := shelf.host.1
            snapshotId := solution.snapshotId } := by
  rw [packSolution, if_neg (by rw [List.isEmpty_iff]; exact h)]
  simp only [hrun]
  rfl

theorem packSolution_of_error {solution : Solution} (h : solution.projects ≠ []) {e : Error}
    (hrun : (Pipeline.packProjects settings (.plain compile) solution.projectIds
      { host := (solution, t) }).1 = .error e) :
    (packSolution settings (.ofFunction compile) solution t).1 = .error e := by
  rw [packSolution, if_neg (by rw [List.isEmpty_iff]; exact h)]
  show Except.map _ (Pipeline.packProjects settings (.plain compile) solution.projectIds _).1 = _
  rw [hrun]
  rfl

/-- The one project of a solution is there to be worked on. -/
theorem holds_alone (p : Project) :
    Shelf.Holds { host := (({ projects := [p] } : Solution), t) } p where
  project_eq := Solution.project?_of_mem (List.nodup_singleton _) (List.mem_singleton_self p)
  distinct := List.nodup_singleton _

/-- A project is packed among others with the outcome that it has by itself. -/
theorem packAlone_cases (settings : Settings) (compile : Project → Except CompileFailure Unit)
    (t : τ) (p : Project) :
    (∃ e, packAlone settings compile t p = .error e ∧
      ∀ shelf : Shelf (Solution × τ), shelf.Holds p →
        (Pipeline.packProject settings (.plain compile) p.id shelf).1 = .error e) ∨
    ∃ build q, packAlone settings compile t p = .ok build ∧ build.stripped.projects = [q] ∧
      q.id = p.id ∧
      ∀ shelf : Shelf (Solution × τ), shelf.Holds p →
        Pipeline.packProject settings (.plain compile) p.id shelf =
          (.ok q, { shelf.after q build.library.packages with
            finished := shelf.finished ++ [q] }) := by
  have hhere := holds_alone (t := t) p
  have hsome : ({ projects := [p] } : Solution).projects ≠ [] := List.cons_ne_nil p []
  rcases Pipeline.exists_packProject (τ := τ) settings compile p with
    ⟨e, he⟩ | ⟨q, packages, hid, hrun⟩
  · refine .inl ⟨e, packSolution_of_error hsome ?_, he⟩
    exact Job.bind_of_error (Job.bind_of_error (he _ hhere))
  · have halone := packSolution_of_ok hsome
      (Job.bind_of_ok ((Job.discard_eq_ok_iff _ _ _ ()).mpr ⟨q, hrun _ hhere⟩))
    refine .inr ⟨_, q, halone, ?_, hid, fun shelf hshelf => ?_⟩
    · show [if p.id = q.id then q else p] = [q]
      rw [if_pos hid.symm]
    · rw [hrun shelf hshelf, Shelf.after, Shelf.after, ← Library.plus_alone]
      rfl

theorem stripped_packAlone {p : Project} {build : Packed}
    (h : packAlone settings compile t p = .ok build) : ∃ q, build.stripped.projects = [q] := by
  rcases packAlone_cases settings compile t p with
    ⟨e, halone, -⟩ | ⟨build', q, halone, hstripped, -⟩
  · rw [h] at halone
    cases halone
  · rw [h] at halone
    cases halone
    exact ⟨q, hstripped⟩

end Alone

theorem Solution.withProject_at {s : Solution} {done rest : List Project} {p q : Project}
    (hs : s.projects = done ++ p :: rest) (hids : s.projectIds.Nodup) (hid : q.id = p.id) :
    (s.withProject q).projects = done ++ q :: rest := by
  have hothers : ∀ ps : List Project, p.id ∉ ps.map (·.id) →
      (ps.map fun x => if x.id = q.id then q else x) = ps := by
    intro ps hnot
    refine (List.map_congr_left fun x hx => ?_).trans (List.map_id _)
    exact if_neg fun heq => hnot (List.mem_map.mpr ⟨x, hx, heq.trans hid⟩)
  have hnodup : ((done.map (·.id)) ++ p.id :: rest.map (·.id)).Nodup := by
    have hmap : s.projectIds = done.map (·.id) ++ p.id :: rest.map (·.id) := by
      rw [projectIds, hs, List.map_append, List.map_cons]
    exact hmap ▸ hids
  have hdone : p.id ∉ done.map (·.id) := fun hmem =>
    List.disjoint_of_nodup_append hnodup hmem List.mem_cons_self
  have hrest : p.id ∉ rest.map (·.id) := (List.nodup_cons.mp hnodup.of_append_right).1
  rw [withProject, hs, List.map_append, List.map_cons, if_pos hid.symm, hothers done hdone,
    hothers rest hrest]

section Together

variable {τ : Type} (settings : Settings) (compile : Project → Except CompileFailure Unit) (t : τ)

/-- Packing projects one after the other goes as far as each of them can be packed by itself. -/
theorem packProjects_alone {done rest : List Project} {shelf : Shelf (Solution × τ)}
    (hprojects : shelf.host.1.projects = done ++ rest) (hids : shelf.host.1.projectIds.Nodup) :
    match rest.mapM (packAlone settings compile t) with
    | .error e =>
      (Pipeline.packProjects settings (.plain compile) (rest.map (·.id)) shelf).1 = .error e
    | .ok builds => ∃ shelf',
      Pipeline.packProjects settings (.plain compile) (rest.map (·.id)) shelf = (.ok (), shelf') ∧
        shelf'.host.1.projects = done ++ builds.flatMap (·.stripped.projects) ∧
        shelf'.library = shelf.library.plus (builds.flatMap (·.library.packages)) := by
  induction rest generalizing done shelf with
  | nil => exact ⟨shelf, rfl, hprojects, shelf.library.plus_nil.symm⟩
  | cons p rest ih =>
    have hp : p ∈ shelf.host.1.projects := by
      rw [hprojects]
      exact List.mem_append_right _ List.mem_cons_self
    have hholds : shelf.Holds p := ⟨Solution.project?_of_mem hids hp, hids⟩
    rw [List.mapM_cons]
    rcases packAlone_cases settings compile t p with
      ⟨e, halone, hrun⟩ | ⟨build, q, halone, hstripped, hid, hrun⟩
    · rw [halone]
      exact Job.bind_of_error (Job.bind_of_error (hrun shelf hholds))
    · have hstep := (Job.discard_eq_ok_iff _ _ _ ()).mpr ⟨q, hrun shelf hholds⟩
      have hnext := hholds.after hid build.library.packages
      have hplace : (shelf.host.1.withProject q).projects = (done ++ [q]) ++ rest := by
        rw [Solution.withProject_at hprojects hids hid, List.append_assoc]
        rfl
      have hrest := @ih (done ++ [q]) { shelf.after q build.library.packages with
        finished := shelf.finished ++ [q] } hplace hnext.distinct
      rw [halone]
      show match (rest.mapM (packAlone settings compile t) >>= fun builds =>
          pure (build :: builds) : Except Error (List Packed)) with
        | .error e => _ | .ok builds => _
      cases hbuilds : rest.mapM (packAlone settings compile t) with
      | error e =>
        rw [hbuilds] at hrest
        exact (congrArg Prod.fst (Job.bind_of_ok hstep)).trans hrest
      | ok builds =>
        rw [hbuilds] at hrest
        obtain ⟨shelf', hall, hprojects', hlibrary⟩ := hrest
        refine ⟨shelf', (Job.bind_of_ok hstep).trans hall, ?_, ?_⟩
        · rw [hprojects', List.flatMap_cons, hstripped, List.append_assoc]
        · rw [hlibrary, List.flatMap_cons, Library.plus_append]
          rfl

theorem packSolution_of_alone {solution : Solution} (hsome : solution.projects ≠ [])
    (hids : solution.projectIds.Nodup) :
    match solution.projects.mapM (packAlone settings compile t) with
    | .error e => (packSolution settings (.ofFunction compile) solution t).1 = .error e
    | .ok builds => ∃ packed,
      (packSolution settings (.ofFunction compile) solution t).1 = .ok packed ∧
        packed.stripped.projects = builds.flatMap (·.stripped.projects) ∧
        Library.empty.addAll (builds.flatMap (·.library.packages)) = .ok packed.library := by
  have hrun := @packProjects_alone τ settings compile t [] solution.projects
    { host := (solution, t) } rfl hids
  cases hbuilds : solution.projects.mapM (packAlone settings compile t) with
  | error e =>
    rw [hbuilds] at hrun
    exact packSolution_of_error hsome hrun
  | ok builds =>
    rw [hbuilds] at hrun
    obtain ⟨shelf, hall, hprojects, hlibrary⟩ := hrun
    refine ⟨_, packSolution_of_ok hsome hall, hprojects, ?_⟩
    rw [hlibrary]
    exact Library.addAll_eq _ _

theorem exists_builds {solution : Solution} (hsome : solution.projects ≠ [])
    (hids : solution.projectIds.Nodup) {packed : Packed}
    (h : (packSolution settings (.ofFunction compile) solution t).1 = .ok packed) :
    ∃ builds, solution.projects.mapM (packAlone settings compile t) = .ok builds ∧
      packed.stripped.projects = builds.flatMap (·.stripped.projects) ∧
      Library.empty.addAll (builds.flatMap (·.library.packages)) = .ok packed.library := by
  have hwhole := packSolution_of_alone settings compile t hsome hids
  cases hbuilds : solution.projects.mapM (packAlone settings compile t) with
  | error e =>
    rw [hbuilds] at hwhole
    cases hwhole.symm.trans h
  | ok builds =>
    rw [hbuilds] at hwhole
    obtain ⟨packed', hok, hparts⟩ := hwhole
    obtain rfl : packed' = packed := Except.ok.inj (hok.symm.trans h)
    exact ⟨builds, rfl, hparts⟩

end Together

theorem forall₂_stripped {builds : List Packed}
    (h : ∀ build ∈ builds, ∃ q, build.stripped.projects = [q]) :
    List.Forall₂ (fun build q => build.stripped.projects = [q]) builds
      (builds.flatMap (·.stripped.projects)) := by
  induction builds with
  | nil => exact .nil
  | cons build builds ih =>
    obtain ⟨⟨q, hq⟩, hrest⟩ := List.forall_mem_cons.mp h
    rw [List.flatMap_cons, hq]
    exact .cons hq (ih hrest)

/-- Packing a solution is packing its projects one by one: it succeeds if each of them can be packed
by itself, with what is left of them in order and all their packages in one library.  Otherwise it
stops with the error of the first project that cannot be packed. -/
theorem packSolution_projectwise {τ : Type} (settings : Settings)
    (compile : Project → Except CompileFailure Unit) (solution : Solution) (t : τ)
    (hsome : solution.projects ≠ []) (hids : solution.projectIds.Nodup) :
    ((∃ packed, (packSolution settings (.ofFunction compile) solution t).1 = .ok packed) ↔
      ∀ p ∈ solution.projects, ∃ build, packAlone settings compile t p = .ok build) ∧
    (∀ packed, (packSolution settings (.ofFunction compile) solution t).1 = .ok packed →
      ∃ builds,
        List.Forall₂ (fun p build => packAlone settings compile t p = .ok build)
          solution.projects builds ∧
        List.Forall₂ (fun build q => build.stripped.projects = [q]) builds
          packed.stripped.projects ∧
        Library.empty.addAll (builds.flatMap (·.library.packages)) = .ok packed.library) ∧
    ∀ before p after e, solution.projects = before ++ p :: after →
      (∀ q ∈ before, ∃ build, packAlone settings compile t q = .ok build) →
      packAlone settings compile t p = .error e →
      (packSolution settings (.ofFunction compile) solution t).1 = .error e := by
  have hwhole := packSolution_of_alone settings compile t hsome hids
  refine ⟨⟨?_, fun hall => ?_⟩, ?_, ?_⟩
  · rintro ⟨packed, hok⟩
    obtain ⟨builds, hbuilds, -⟩ := exists_builds settings compile t hsome hids hok
    exact exists_of_mapM hbuilds
  · obtain ⟨builds, hbuilds⟩ := exists_mapM_of_forall hall
    rw [hbuilds] at hwhole
    obtain ⟨packed, hok, -⟩ := hwhole
    exact ⟨packed, hok⟩
  · intro packed hok
    obtain ⟨builds, hbuilds, hstripped, hlibrary⟩ := exists_builds settings compile t hsome hids hok
    refine ⟨builds, forall₂_of_mapM hbuilds, ?_, hlibrary⟩
    rw [hstripped]
    refine forall₂_stripped fun build hbuild => ?_
    obtain ⟨p, -, hp⟩ := exists_of_mem_mapM hbuilds build hbuild
    exact stripped_packAlone hp
  · intro before p after e hsplit hbefore hp
    rw [hsplit, mapM_eq_error hbefore hp] at hwhole
    exact hwhole

theorem packSolution_projectwise_freight :
    freight.projects ≠ [] ∧ freight.projectIds.Nodup ∧
    ((packSolution {} (.ofFunction Check.structural) freight ()).1.toOption.map fun packed =>
        (packed.library.keys, packed.stripped.projects.map (·.entries.map Entry.id))) =
      some (["InterwovenExtensionMethods Crates.Box",
          "InterwovenTypeMembers Goods.Parcel Crates.Box", "MemberContainer Class Goods.Parcel`0",
          "InterwovenTypeMembers Ring Crates.Box", "MemberContainer Class Ring`0"],
        [[⟨8⟩, ⟨9⟩], [⟨6⟩]]) ∧
    ((∃ packed, (packSolution {} (.ofFunction Check.structural) freight ()).1 = .ok packed) ↔
      ∀ p ∈ freight.projects, ∃ build, packAlone {} Check.structural () p = .ok build) ∧
    (∀ packed, (packSolution {} (.ofFunction Check.structural) freight ()).1 = .ok packed →
      ∃ builds,
        List.Forall₂ (fun p build => packAlone {} Check.structural () p = .ok build)
          freight.projects builds ∧
        List.Forall₂ (fun build q => build.stripped.projects = [q]) builds
          packed.stripped.projects ∧
        Library.empty.addAll (builds.flatMap (·.library.packages)) = .ok packed.library) ∧
    ∀ before p after e, freight.projects = before ++ p :: after →
      (∀ q ∈ before, ∃ build, packAlone {} Check.structural () q = .ok build) →
      packAlone {} Check.structural () p = .error e →
      (packSolution {} (.ofFunction Check.structural) freight ()).1 = .error e := by
  have hsome : freight.projects ≠ [] := List.cons_ne_nil _ _
  have hids : freight.projectIds.Nodup := by decide +kernel
  exact ⟨hsome, hids, by decide +kernel,
    packSolution_projectwise {} Check.structural freight () hsome hids⟩

end Unweave

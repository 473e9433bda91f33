import Unweave.Proofs.Runs
import Unweave.Proofs.Triples

/-!
# Transactions are safe

Until the outcome of a transaction is handed in, nothing changes but what the compiler does to its
own state.  So a transaction that fails leaves the solution as it was.  One that succeeds went from
targets that compile, through clean-ups that touch the targets alone, to a solution with the same
projects; a workbench in memory takes every such solution.
-/

namespace Unweave
namespace Workbench

variable {σ β : Type} {b : Workbench σ}

/-! ## What stays until the outcome is handed in -/

/-- Neither compiling nor a refused solution changes what is observed. -/
structure Spares (b : Workbench σ) (view : σ → β) : Prop where
  compile : ∀ p s, view (b.compile p s).2 = view s
  commit_error : ∀ new s e s', b.commit new s = (.error e, s') → view s' = view s

theorem Lawful.spares_solution (hb : b.Lawful) : b.Spares b.solution :=
  ⟨hb.compile, hb.commit_error⟩

namespace Spares

variable {view : σ → β} (hview : b.Spares view)
include hview

theorem requireCompiles (onFailure : CompileFailure → Error) (p : Project) :
    (b.requireCompiles onFailure p).Keeps view := by
  intro v s hs
  have hcompile := hview.compile p s
  rw [Workbench.requireCompiles]
  rcases hrun : b.compile p s with ⟨failure | _, s'⟩
  · rw [hrun] at hcompile
    exact hcompile.trans hs
  · rw [hrun] at hcompile
    exact hcompile.trans hs

theorem requirePreconditions (solution : Solution) (ids : List ProjectId) :
    (b.requirePreconditions solution ids).Keeps view := by
  induction ids with
  | nil => exact .pure ()
  | cons id ids ih =>
    rw [Workbench.requirePreconditions]
    split
    · exact ih
    · exact (hview.requireCompiles _ _).bind fun _ => ih

theorem cleanDocuments (c : CleanUp) (ids : List DocumentId) (p : Project) :
    (b.cleanDocuments c ids p).Keeps view := by
  induction ids generalizing p with
  | nil => exact .pure p
  | cons id ids ih =>
    rw [Workbench.cleanDocuments]
    split
    · exact ih p
    split
    · exact .throw _
    split
    · exact ih p
    split
    · exact (hview.requireCompiles _ _).bind fun _ => ih _
    · exact ih _

theorem cleanProject (c : CleanUp) (solution : Solution) (id : ProjectId) :
    (b.cleanProject c solution id).Keeps view := by
  rw [Workbench.cleanProject]
  split
  · exact .pure solution
  · exact (hview.cleanDocuments _ _ _).bind fun _ => .pure _

theorem cleanProjects (c : CleanUp) (targets : List ProjectId) (solution : Solution) :
    (b.cleanProjects c targets solution).Keeps view :=
  .foldlM (fun id _ solution => hview.cleanProject c solution id) solution

/-- A transaction that fails changes nothing; one that succeeds hands in what it gives. -/
theorem cleanAndCommit (cleanUps : List CleanUp) (targets : List ProjectId) (solution : Solution)
    (v : β) :
    Job.Triple (view · = v) (b.cleanAndCommit cleanUps targets solution)
      (fun t s' => ∃ s, view s = v ∧ b.commit t s = (.ok (), s')) fun _ s => view s = v := by
  refine (hview.requirePreconditions solution targets v).bind fun _ => ?_
  refine (Job.Keeps.foldlM (fun c _ t => hview.cleanProjects c targets t) solution v).bind
    fun t => ?_
  have hcommit : Job.Triple (view · = v) (b.commitSolution t)
      (fun _ s' => ∃ s, view s = v ∧ b.commit t s = (.ok (), s')) fun _ s => view s = v :=
    .intro (fun s _ _ hs hrun => ⟨s, hs, hrun⟩)
      fun s s' e hs hrun => (hview.commit_error t s e s' hrun).trans hs
  exact hcommit.bind fun _ => .pure fun _ hs => hs

theorem cleanOne (cleanUps : List CleanUp) (id : ProjectId) (v : β) :
    Job.Triple (view · = v) (b.cleanOne cleanUps id)
      (fun t s' => ∃ s, view s = v ∧ b.commit t s = (.ok (), s')) fun _ s => view s = v := by
  have hread : b.current.Keeps view := fun _ _ hs => hs
  refine (hread v).bind fun solution => ?_
  split
  · exact .throw fun _ hs => hs
  · exact hview.cleanAndCommit cleanUps [id] solution v

end Spares
end Workbench

/-! ## Where a transaction gets -/

/-- The projects with these identifiers compile. -/
def Solution.Compiling (compile : Project → Except CompileFailure Unit) (s : Solution)
    (ids : List ProjectId) : Prop :=
  ∀ id ∈ ids, ∀ p, s.project? id = some p → compile p = .ok ()

/-- Why a clean-up stops a transaction: it fails on a document, or it asks for a compile, which
fails. -/
def CleanUp.Stops (compile : Project → Except CompileFailure Unit) (c : CleanUp) (e : Error) :
    Prop :=
  (∃ p d x, c.apply p d = .error x ∧ e = .cleanUpFailed c.name d.name x.message) ∨
    c.recompiles = true ∧
      ∃ p failure, compile p = .error failure ∧ e = .compileFailed p.name c.name failure.text

/-- The second solution is reached from the first one by cleaning targets up, and the targets go on
compiling where every clean-up sees to it. -/
structure Solution.CleansTo (compile : Project → Except CompileFailure Unit) (watched : Prop)
    (targets : List ProjectId) (s t : Solution) : Prop where
  projectIds : t.projectIds = s.projectIds
  others : ∀ id ∉ targets, t.project? id = s.project? id
  compiling : watched → s.Compiling compile targets → t.Compiling compile targets

namespace Solution

variable {compile : Project → Except CompileFailure Unit} {watched : Prop}
  {targets : List ProjectId} {s t u : Solution} {id : ProjectId} {p q : Project}

theorem CleansTo.refl (s : Solution) : s.CleansTo compile watched targets s :=
  ⟨rfl, fun _ _ => rfl, fun _ h => h⟩

theorem CleansTo.trans (hst : s.CleansTo compile watched targets t)
    (htu : t.CleansTo compile watched targets u) : s.CleansTo compile watched targets u :=
  ⟨htu.projectIds.trans hst.projectIds,
    fun id hid => (htu.others id hid).trans (hst.others id hid),
    fun hwatched h => htu.compiling hwatched (hst.compiling hwatched h)⟩

theorem project?_withProject_of_ne (h : id ≠ q.id) :
    (s.withProject q).project? id = s.project? id := by
  rw [project?, withProject, List.find?_map]
  have hcomp : ((fun x : Project => x.id == id) ∘ fun x => if x.id = q.id then q else x) =
      fun x => x.id == id := by
    funext x
    rw [Function.comp_apply]
    split
    · next hx => rw [hx]
    · rfl
  rw [hcomp]
  show Option.map _ (s.project? id) = _
  cases hfind : s.project? id with
  | none => rfl
  | some p =>
    have hne : p.id ≠ q.id := fun he => h ((mem_of_project? hfind).2.symm.trans he)
    rw [Option.map_some, if_neg hne]

/-- Replacing one target that compiled by a project that compiles. -/
theorem CleansTo.withProject (hfind : s.project? id = some p) (hid : q.id = id)
    (htarget : id ∈ targets) (hcompile : watched → compile p = .ok () → compile q = .ok ()) :
    s.CleansTo compile watched targets (s.withProject q) where
  projectIds := projectIds_withProject q
  others i hi := project?_withProject_of_ne fun he => hi (he.trans hid ▸ htarget)
  compiling hwatched h i hi r hr := by
    by_cases he : i = id
    · subst he
      rw [project?_withProject hfind hid] at hr
      cases hr
      exact hcompile hwatched (h i hi p hfind)
    · rw [project?_withProject_of_ne fun h' => he (h'.trans hid)] at hr
      exact h i hi r hr

theorem filterMap_project?_projectIds (hs : s.projectIds.Nodup) :
    s.projectIds.filterMap s.project? = s.projects := by
  rw [projectIds, List.filterMap_map]
  refine (List.filterMap_congr fun p hp => ?_).trans List.filterMap_some
  exact project?_of_mem hs hp

end Solution

namespace Workbench

variable {σ : Type} {b : Workbench σ} {compile : Project → Except CompileFailure Unit}

/-- The answers of the compiler are a function of the project. -/
def Judges (b : Workbench σ) (compile : Project → Except CompileFailure Unit) : Prop :=
  ∀ p s, (b.compile p s).1 = compile p

/-- Whether a project is refused before anything is done. -/
def refuses (compile : Project → Except CompileFailure Unit) (p : Project) : Bool :=
  !(compile p).isOk

theorem refuses_eq_false_iff (p : Project) : refuses compile p = false ↔ compile p = .ok () := by
  rw [refuses]
  cases compile p with
  | error failure => exact ⟨fun h => (nomatch h), fun h => (nomatch h)⟩
  | ok u => exact ⟨fun _ => rfl, fun _ => rfl⟩

/-- What is said of the first target that does not compile. -/
def Refusal (compile : Project → Except CompileFailure Unit) (targets : List Project) (e : Error) :
    Prop :=
  ∃ p failure, targets.find? (refuses compile) = some p ∧ compile p = .error failure ∧
    e = .preconditionFailed p.name failure.text

namespace Judges

variable (hb : b.Judges compile)
include hb

theorem requireCompiles (onFailure : CompileFailure → Error) (p : Project) :
    Job.Triple (fun _ => True) (b.requireCompiles onFailure p) (fun _ _ => compile p = .ok ())
      fun e _ => ∃ failure, compile p = .error failure ∧ e = onFailure failure := by
  intro s _
  have hanswer := hb p s
  rw [Workbench.requireCompiles]
  rcases hrun : b.compile p s with ⟨failure | _, s'⟩
  · rw [hrun] at hanswer
    exact ⟨failure, hanswer.symm, rfl⟩
  · rw [hrun] at hanswer
    exact hanswer.symm

theorem requirePreconditions (solution : Solution) (ids : List ProjectId) :
    Job.Triple (fun _ => True) (b.requirePreconditions solution ids)
      (fun _ _ => (ids.filterMap solution.project?).find? (refuses compile) = none)
      fun e _ => Refusal compile (ids.filterMap solution.project?) e := by
  induction ids with
  | nil => exact .pure fun _ _ => rfl
  | cons id ids ih =>
    rw [Workbench.requirePreconditions]
    cases hfind : solution.project? id with
    | none =>
      rw [List.filterMap_cons_none hfind]
      exact ih
    | some p =>
      rw [List.filterMap_cons_some hfind]
      have hfirst : Job.Triple (fun _ => True)
          (b.requireCompiles (fun failure => .preconditionFailed p.name failure.text) p)
          (fun _ _ => compile p = .ok ())
          fun e _ => Refusal compile (p :: ids.filterMap solution.project?) e := by
        refine (hb.requireCompiles _ p).weaken (fun _ h => h) (fun _ _ h => h) ?_
        rintro _ _ ⟨failure, hfailure, rfl⟩
        have hrefused : refuses compile p = true := by rw [refuses, hfailure]; rfl
        exact ⟨p, failure, List.find?_cons_of_pos hrefused, hfailure, rfl⟩
      refine hfirst.bind fun _ => .given (fun _ h => ⟨h, trivial⟩) fun hok => ?_
      -- This target compiles, so the first that does not is among the others.
      have hskip : (p :: ids.filterMap solution.project?).find? (refuses compile) =
          (ids.filterMap solution.project?).find? (refuses compile) := by
        rw [List.find?_cons, (refuses_eq_false_iff p).mpr hok]
      simp only [Refusal, hskip]
      exact ih

theorem cleanDocuments (c : CleanUp) (ids : List DocumentId) (p : Project) :
    Job.Triple (fun _ => True) (b.cleanDocuments c ids p)
      (fun q _ => q.id = p.id ∧ (c.recompiles = true → compile p = .ok () → compile q = .ok ()))
      fun e _ => c.Stops compile e := by
  induction ids generalizing p with
  | nil => exact .pure fun _ _ => ⟨rfl, fun _ h => h⟩
  | cons id ids ih =>
    rw [Workbench.cleanDocuments]
    split
    · exact ih p
    next d _ =>
    cases happly : c.apply p d with
    | error x => exact .throw fun _ _ => .inl ⟨p, d, x, happly, rfl⟩
    | ok d' =>
      simp only
      split
      · exact ih p
      split
      · next hrecompiles =>
        have hcheck : Job.Triple (fun _ => True) (b.ensureCompiles (p.withDocument d') c.name)
            (fun _ _ => compile (p.withDocument d') = .ok ()) fun e _ => c.Stops compile e := by
          refine (hb.requireCompiles _ _).weaken (fun _ h => h) (fun _ _ h => h) ?_
          rintro _ _ ⟨failure, hfailure, rfl⟩
          exact .inr ⟨hrecompiles, _, failure, hfailure, rfl⟩
        refine hcheck.bind fun _ => .given (fun _ h => ⟨h, trivial⟩) fun hok => ?_
        exact (ih _).weaken (fun _ h => h)
          (fun q _ h => ⟨h.1, fun hr _ => h.2 hr hok⟩) fun _ _ h => h
      · next hrecompiles =>
        exact (ih _).weaken (fun _ h => h)
          (fun q _ h => ⟨h.1, fun hr => absurd hr hrecompiles⟩) fun _ _ h => h

variable {watched : Prop} {targets : List ProjectId}

theorem cleanProject {c : CleanUp} (hc : watched → c.recompiles = true) {id : ProjectId}
    (htarget : id ∈ targets) (solution : Solution) :
    Job.Triple (fun _ => True) (b.cleanProject c solution id)
      (fun t _ => solution.CleansTo compile watched targets t) fun e _ => c.Stops compile e := by
  rw [Workbench.cleanProject]
  split
  · exact .pure fun _ _ => .refl solution
  · next p hfind =>
    refine (hb.cleanDocuments c _ p).bind fun q => .pure fun _ h => ?_
    exact .withProject hfind (h.1.trans (Solution.mem_of_project? hfind).2) htarget
      fun hwatched => h.2 (hc hwatched)

theorem cleanProjects {c : CleanUp} (hc : watched → c.recompiles = true) (solution : Solution) :
    Job.Triple (fun _ => True) (b.cleanProjects c targets solution)
      (fun t _ => solution.CleansTo compile watched targets t) fun e _ => c.Stops compile e := by
  refine (Job.Triple.foldlM (I := fun t _ => solution.CleansTo compile watched targets t)
    (fun id hid t => .given (fun _ h => ⟨h, trivial⟩) fun ht => ?_) solution).weaken
    (fun _ _ => .refl solution) (fun _ _ h => h) fun _ _ h => h
  exact (hb.cleanProject hc hid t).weaken (fun _ h => h) (fun _ _ h => ht.trans h) fun _ _ h => h

/-- All clean-ups, one after the other, on all targets. -/
theorem cleanAll {cleanUps : List CleanUp}
    (hc : watched → ∀ c ∈ cleanUps, c.recompiles = true) (solution : Solution) :
    Job.Triple (fun _ => True) (cleanUps.foldlM (fun t c => b.cleanProjects c targets t) solution)
      (fun t _ => solution.CleansTo compile watched targets t)
      fun e _ => ∃ c ∈ cleanUps, c.Stops compile e := by
  refine (Job.Triple.foldlM (I := fun t _ => solution.CleansTo compile watched targets t)
    (fun c hmem t => .given (fun _ h => ⟨h, trivial⟩) fun ht => ?_) solution).weaken
    (fun _ _ => .refl solution) (fun _ _ h => h) fun _ _ h => h
  exact (hb.cleanProjects (fun hwatched => hc hwatched c hmem) t).weaken (fun _ h => h)
    (fun _ _ h => ht.trans h) fun _ _ h => ⟨c, hmem, h⟩

end Judges

/-! ## Transactions in memory -/

section InMemory

variable {τ : Type}

theorem judges_inMemory : (inMemory (.ofFunction compile : Compiler τ)).Judges compile :=
  fun _ _ => rfl

/-- A workbench in memory takes every solution with the projects of its own. -/
theorem triple_commit_inMemory (compiler : Compiler τ) {old new : Solution}
    (h : new.projectIds = old.projectIds) :
    Job.Triple (fun s => s.1 = old) ((inMemory compiler).commitSolution new)
      (fun _ s => s.1 = new) fun _ _ => False := by
  rintro ⟨_, t⟩ rfl
  simp only [commitSolution, inMemory, Solution.requireSameProjects, h, if_true]

/-- Where a transaction ends: it was refused or stopped and nothing has changed, or it held to the
end and the outcome is in place. -/
theorem triple_cleanAndCommit (compile : Project → Except CompileFailure Unit)
    (cleanUps : List CleanUp) (ids : List ProjectId) (solution : Solution) :
    Job.Triple (fun s => s.1 = solution)
      ((inMemory (.ofFunction compile : Compiler τ)).cleanAndCommit cleanUps ids solution)
      (fun t s => s.1 = t ∧
        (ids.filterMap solution.project?).find? (refuses compile) = none ∧
        solution.CleansTo compile (∀ c ∈ cleanUps, c.recompiles = true) ids t)
      fun e s => s.1 = solution ∧
        (Refusal compile (ids.filterMap solution.project?) e ∨
          (ids.filterMap solution.project?).find? (refuses compile) = none ∧
            ∃ c ∈ cleanUps, c.Stops compile e) := by
  have hspares := (lawful_inMemory (.ofFunction compile : Compiler τ)).spares_solution
  have hjudges : (inMemory (.ofFunction compile : Compiler τ)).Judges compile := judges_inMemory
  have hpre := (hspares.requirePreconditions solution ids solution).and
    (hjudges.requirePreconditions solution ids)
  refine (hpre.weaken (fun _ hs => ⟨hs, trivial⟩) (fun _ _ h => h)
    fun _ _ h => ⟨h.1, .inl h.2⟩).bind fun _ => ?_
  refine .given (fun _ h => ⟨h.2, h.1⟩) fun hnone => ?_
  have hkeep : (cleanUps.foldlM
      (fun t c => (inMemory (.ofFunction compile : Compiler τ)).cleanProjects c ids t)
      solution).Keeps (inMemory (.ofFunction compile : Compiler τ)).solution :=
    .foldlM (fun c _ t => hspares.cleanProjects c ids t) solution
  refine (((hkeep solution).and (hjudges.cleanAll (fun h => h) solution)).weaken
    (fun _ hs => ⟨hs, trivial⟩) (fun _ _ h => h)
    fun _ _ h => ⟨h.1, .inr ⟨hnone, h.2⟩⟩).bind fun t => ?_
  refine .given (fun _ h => ⟨h.2, h.1⟩) fun hcleans => ?_
  refine ((triple_commit_inMemory _ hcleans.projectIds).weaken (fun _ hs => hs) (fun _ _ hs => hs)
    fun _ _ h => h.elim).bind fun _ => .pure fun _ hs => ⟨hs, hnone, hcleans⟩

/-- What a caller may rely on when a transaction on the targets ends with an outcome and leaves a
solution behind. -/
structure Safe (compile : Project → Except CompileFailure Unit) (cleanUps : List CleanUp)
    (before : Solution) (targets : List Project) (outcome : Except Error Solution)
    (after : Solution) : Prop where
  /-- A failure changes nothing. -/
  rolledBack : ∀ e, outcome = .error e → after = before
  /-- The first target that does not compile to begin with is named, whatever the clean-ups are. -/
  refused : ∀ p failure, targets.find? (refuses compile) = some p → compile p = .error failure →
    outcome = .error (.preconditionFailed p.name failure.text)
  /-- Nothing else fails than a target beforehand or a clean-up. -/
  explained : ∀ e, outcome = .error e →
    Refusal compile targets e ∨ ∃ c ∈ cleanUps, c.Stops compile e
  /-- What is given is what is held, with the same projects and no change but to the targets. -/
  held : ∀ s, outcome = .ok s → after = s ∧ s.projectIds = before.projectIds ∧
    ∀ p ∈ before.projects, p.id ∉ targets.map (·.id) → p ∈ s.projects
  /-- Where every clean-up asks for a compile, the targets compile in the end. -/
  compiles : (∀ c ∈ cleanUps, c.recompiles = true) → ∀ s, outcome = .ok s →
    ∀ p ∈ s.projects, p.id ∈ targets.map (·.id) → compile p = .ok ()

theorem mem_of_mem_targets {solution : Solution} {ids : List ProjectId} {id : ProjectId}
    (h : id ∈ (ids.filterMap solution.project?).map (·.id)) : id ∈ ids := by
  obtain ⟨p, hp, rfl⟩ := List.mem_map.mp h
  obtain ⟨i, hi, hfind⟩ := List.mem_filterMap.mp hp
  rw [(Solution.mem_of_project? hfind).2]
  exact hi

theorem compiling_of_find?_eq_none {solution : Solution} {ids : List ProjectId}
    (h : (ids.filterMap solution.project?).find? (refuses compile) = none) :
    solution.Compiling compile ids := by
  intro id hid p hfind
  rw [← refuses_eq_false_iff, ← Bool.not_eq_true]
  exact List.find?_eq_none.mp h p (List.mem_filterMap.mpr ⟨id, hid, hfind⟩)

/-- The ways a transaction can end, put together. -/
theorem safe_cleanAndCommit (compile : Project → Except CompileFailure Unit) {solution : Solution}
    (hids : solution.projectIds.Nodup) (ids : List ProjectId) (cleanUps : List CleanUp) (t : τ) :
    Safe compile cleanUps solution (ids.filterMap solution.project?)
      ((inMemory (.ofFunction compile)).cleanAndCommit cleanUps ids solution (solution, t)).1
      ((inMemory (.ofFunction compile)).cleanAndCommit cleanUps ids solution
        (solution, t)).2.1 := by
  have hend := triple_cleanAndCommit compile cleanUps ids solution (solution, t) rfl
  rcases hrun : (inMemory (.ofFunction compile)).cleanAndCommit cleanUps ids solution (solution, t)
    with ⟨e | s, after⟩
  · rw [hrun] at hend
    obtain ⟨hafter, hcause⟩ := hend
    refine ⟨fun _ _ => hafter, fun p failure hfirst hfailure => ?_, fun e' he' => ?_,
      fun _ h => (nomatch h), fun _ _ h => (nomatch h)⟩
    · rcases hcause with ⟨q, failure', hfirst', hfailure', rfl⟩ | ⟨hnone, -⟩
      · rw [hfirst, Option.some.injEq] at hfirst'
        subst hfirst'
        rw [hfailure, Except.error.injEq] at hfailure'
        rw [hfailure']
      · rw [hfirst] at hnone
        cases hnone
    · cases he'
      exact hcause.imp_right And.right
  · rw [hrun] at hend
    obtain ⟨hafter, hnone, hcleans⟩ := hend
    have hsids : s.projectIds.Nodup := hcleans.projectIds ▸ hids
    refine ⟨fun _ h => (nomatch h), fun p failure hfirst _ => ?_, fun _ h => (nomatch h),
      fun s' hs' => ?_, fun hwatched s' hs' p hp hmem => ?_⟩
    · rw [hfirst] at hnone
      cases hnone
    · cases hs'
      refine ⟨hafter, hcleans.projectIds, fun p hp hnot => ?_⟩
      have hfind := Solution.project?_of_mem hids hp
      have hid : p.id ∉ ids := fun hid =>
        hnot (List.mem_map_of_mem (List.mem_filterMap.mpr ⟨p.id, hid, hfind⟩))
      rw [← hcleans.others _ hid] at hfind
      exact (Solution.mem_of_project? hfind).1
    · cases hs'
      exact hcleans.compiling hwatched (compiling_of_find?_eq_none hnone) p.id
        (mem_of_mem_targets hmem) p (Solution.project?_of_mem hsids hp)

/-- Cleaning a solution up, or one project of it, is safe for all clean-ups and compilers. -/
theorem transactions_safe (compile : Project → Except CompileFailure Unit)
    (cleanUps : List CleanUp) (solution : Solution) (t : τ) (hids : solution.projectIds.Nodup) :
    Safe compile cleanUps solution solution.projects
      ((inMemory (.ofFunction compile)).cleanSolution cleanUps (solution, t)).1
      ((inMemory (.ofFunction compile)).cleanSolution cleanUps (solution, t)).2.1 ∧
    ∀ id,
      (solution.project? id = none →
        (inMemory (.ofFunction compile)).cleanOne cleanUps id (solution, t) =
          (.error (missingProject id), (solution, t))) ∧
      ∀ p, solution.project? id = some p →
        Safe compile cleanUps solution [p]
          ((inMemory (.ofFunction compile)).cleanOne cleanUps id (solution, t)).1
          ((inMemory (.ofFunction compile)).cleanOne cleanUps id (solution, t)).2.1 := by
  constructor
  · have hsafe := safe_cleanAndCommit compile hids solution.projectIds cleanUps t
    rw [Solution.filterMap_project?_projectIds hids] at hsafe
    exact hsafe
  · refine fun id => ⟨fun hnone => ?_, fun p hfind => ?_⟩
    · have hread : (inMemory (.ofFunction compile)).current (solution, t) =
          (.ok solution, (solution, t)) := rfl
      rw [cleanOne, Job.bind_of_ok hread, hnone]
      rfl
    · have hsafe := safe_cleanAndCommit compile hids [id] cleanUps t
      rw [List.filterMap_cons_some hfind] at hsafe
      have hread : (inMemory (.ofFunction compile)).current (solution, t) =
          (.ok solution, (solution, t)) := rfl
      rw [cleanOne, Job.bind_of_ok hread, hfind]
      exact hsafe

end InMemory

/-- Two projects with a document each. -/
def pair : Solution where
  projects :=
    [{ id := ⟨1⟩, name := "Core", assembly := "Core",
       documents := [{ id := ⟨1⟩, name := "Core.cs", root := {} }] },
     { id := ⟨2⟩, name := "Tests", assembly := "Tests",
       documents := [{ id := ⟨2⟩, name := "Tests.cs", root := {} }] }]

/-- Gives every document the identifier of another one. -/
def swapIds : CleanUp where
  name := "swap-ids"
  recompiles := true
  apply _ d := .ok { d with id := ⟨3 - d.id.val⟩ }

/-- Accepts all projects but one. -/
def acceptsAllBut (name : String) (p : Project) : Except CompileFailure Unit :=
  if p.name = name then .error { text := "no entry point" } else .ok ()

theorem transactions_safe_pair :
    pair.projectIds.Nodup ∧
    ((inMemory (.ofFunction (acceptsAllBut "Tests"))).cleanSolution [swapIds] (pair, ())).1 =
      .error (.preconditionFailed "Tests" "no entry point") ∧
    ((inMemory (.ofFunction (acceptsAllBut "Tests"))).cleanSolution [swapIds] (pair, ())).2.1 =
      pair := by
  have hids : pair.projectIds.Nodup := by decide
  have hsafe := (transactions_safe (acceptsAllBut "Tests") [swapIds] pair () hids).1
  have hrefused := hsafe.refused _ _ rfl rfl
  exact ⟨hids, hrefused, hsafe.rolledBack _ hrefused⟩

end Workbench
end Unweave

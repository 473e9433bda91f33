import Unweave.Proofs.Conservation
import Unweave.Proofs.Passes
import Unweave.Proofs.Transactions

/-!
# Workbench and library stay in step

Packing a project may stop anywhere: a project may not compile, and the workbench may refuse what is
handed in.  Wherever it stops, some of the steps were done, from the first one on and each of them
wholly.  The solutions that the workbench took are those of the steps that were done, what is gone
from the project is what their passes took, and the library has grown by their packages.

The one place where the two could part is between handing a solution in and adding its packages.
Adding packages does not fail, since packages of one key are of one kind.
-/

namespace Unweave

/-! ## One step -/

namespace Workbench

variable {σ : Type}

/-- Some part of the state lists the solutions that were taken. -/
structure Records (b : Workbench σ) (accepted : σ → List Solution) : Prop where
  spares : b.Spares accepted
  commit_ok : ∀ new s s', b.commit new s = (.ok (), s') → accepted s' = accepted s ++ [new]

/-- The solution, with the solutions that were taken so far. -/
def history (b : Workbench σ) (accepted : σ → List Solution) (s : σ) : Solution × List Solution :=
  (b.solution s, accepted s)

theorem Records.spares_history {b : Workbench σ} {accepted : σ → List Solution} (hb : b.Lawful)
    (hlog : b.Records accepted) : b.Spares (b.history accepted) where
  compile p s := Prod.ext (hb.compile p s) (hlog.spares.compile p s)
  commit_error new s e s' h :=
    Prod.ext (hb.commit_error new s e s' h) (hlog.spares.commit_error new s e s' h)

end Workbench

namespace Pipeline

variable {σ : Type} {b : Workbench σ} {accepted : σ → List Solution} {id : ProjectId}

/-- All that a step may change. -/
def seen (b : Workbench σ) (accepted : σ → List Solution) (shelf : Shelf σ) :
    (Solution × List Solution) × Library × List Project :=
  (b.history accepted shelf.host, shelf.library, shelf.finished)

/-- A step either changes nothing, or one solution was taken and is now held. -/
def HandsIn (b : Workbench σ) (accepted : σ → List Solution) (shelf : Shelf σ)
    (step : Job (Shelf σ) Unit) : Prop :=
  Job.Triple (· = shelf) step
    (fun _ s => accepted s.host = accepted shelf.host ++ [b.solution s.host])
    fun _ s => seen b accepted s = seen b accepted shelf

/-- Adding packages does not fail, and leaves the workbench alone. -/
theorem triple_addPackages (packages : List Package) (P : σ → Prop) :
    Job.Triple (fun s => P s.host) (Shelf.addPackages packages) (fun _ s => P s.host)
      fun _ _ => False := by
  intro s hP
  rw [(Shelf.addPackages_eq_ok_iff packages s _ ()).mpr ⟨_, s.library.addAll_eq packages, rfl⟩]
  exact hP

section Steps

variable (hb : b.Lawful) (hlog : b.Records accepted) {shelf : Shelf σ}
include hb hlog

theorem accepted_of_commit {new : Solution} {s s' : σ}
    (hs : b.history accepted s = b.history accepted shelf.host)
    (hcommit : b.commit new s = (.ok (), s')) :
    accepted s' = accepted shelf.host ++ [b.solution s'] := by
  rw [hlog.commit_ok new s s' hcommit, hb.commit_ok new s s' hcommit]
  exact congrArg (· ++ [new]) (congrArg Prod.snd hs)

theorem handsIn_clean (c : CleanUp) : HandsIn b accepted shelf (clean b c id) := by
  have hclean := Shelf.triple_onHost ((hlog.spares_history hb).cleanOne [c] id
    (b.history accepted shelf.host)) fun l f => l = shelf.library ∧ f = shelf.finished
  refine Job.Triple.discard (hclean.weaken ?_ ?_ ?_)
  · rintro _ rfl
    exact ⟨rfl, rfl, rfl⟩
  · rintro _ s ⟨⟨s₀, hs₀, hcommit⟩, -⟩
    exact accepted_of_commit hb hlog hs₀ hcommit
  · rintro _ s ⟨hview, hl, hf⟩
    rw [seen, seen, hview, hl, hf]

theorem handsIn_extract {settings : Settings} {pass : Pass} {p : Project}
    (hfind : (b.solution shelf.host).project? id = some p) :
    HandsIn b accepted shelf (extract b pass.stage (pass.run settings) id) := by
  have hspares := hlog.spares_history hb
  have hread : Job.Triple (· = shelf) (Shelf.onHost b.current)
      (fun solution s => seen b accepted s = seen b accepted shelf ∧
        solution = b.solution shelf.host)
      fun _ s => seen b accepted s = seen b accepted shelf := by
    rintro _ rfl
    exact ⟨rfl, rfl⟩
  refine hread.bind fun solution => .given (fun _ h => ⟨h.2, h.1⟩) ?_
  rintro rfl
  rw [hfind]
  have hpass : Job.Triple (fun s => seen b accepted s = seen b accepted shelf)
      (liftM (pass.run settings (Walker.ofProject p)) : Job (Shelf σ) Extracted)
      (fun _ s => seen b accepted s = seen b accepted shelf)
      fun _ s => seen b accepted s = seen b accepted shelf :=
    .lift (fun _ _ _ hs => hs) fun _ _ _ hs => hs
  refine hpass.bind fun x => ?_
  refine (Shelf.keeps_onHost (hspares.requireCompiles _ x.project) _).bind fun _ => ?_
  have hcommit : Job.Triple (fun s => seen b accepted s = seen b accepted shelf)
      (Shelf.onHost (b.commitSolution ((b.solution shelf.host).withProject x.project)))
      (fun _ s => accepted s.host = accepted shelf.host ++ [b.solution s.host])
      fun _ s => seen b accepted s = seen b accepted shelf := by
    have hhost : Job.Triple (fun s => b.history accepted s = b.history accepted shelf.host)
        (b.commitSolution ((b.solution shelf.host).withProject x.project))
        (fun _ s => accepted s = accepted shelf.host ++ [b.solution s])
        fun _ s => b.history accepted s = b.history accepted shelf.host :=
      .intro (fun _ _ _ hs hrun => accepted_of_commit hb hlog hs hrun)
        fun s s' e hs hrun => (hspares.commit_error _ s e s' hrun).trans hs
    refine (Shelf.triple_onHost hhost fun l f => l = shelf.library ∧ f = shelf.finished).weaken
      ?_ ?_ ?_
    · intro s hs
      exact ⟨congrArg Prod.fst hs, congrArg (·.2.1) hs, congrArg (·.2.2) hs⟩
    · rintro _ s ⟨haccepted, -⟩
      exact haccepted
    · rintro _ s ⟨hview, hl, hf⟩
      rw [seen, seen, hview, hl, hf]
  refine hcommit.bind fun _ => ?_
  exact (triple_addPackages x.packages
    fun s => accepted s = accepted shelf.host ++ [b.solution s]).weaken (fun _ h => h)
    (fun _ _ h => h) fun _ _ h => h.elim

end Steps

/-! ## The steps of packing -/

inductive Step where
  | clean (c : CleanUp)
  | extract (pass : Pass)

/-- What packing a project consists of. -/
def steps (settings : Settings) : List Step :=
  [.clean .ensurePartial, .clean .removeRegions, .clean (.removeUsings settings.usings),
    .extract .extensions, .extract .members, .extract .containers,
    .clean (.removeUsings settings.usings)]

def Step.perform (settings : Settings) (b : Workbench σ) (id : ProjectId) :
    Step → Job (Shelf σ) Unit
  | clean c => Pipeline.clean b c id
  | extract pass => Pipeline.extract b pass.stage (pass.run settings) id

def performAll (settings : Settings) (b : Workbench σ) (id : ProjectId) :
    List Step → Job (Shelf σ) Unit
  | [] => pure ()
  | step :: rest => do
    step.perform settings b id
    performAll settings b id rest

/-- Note what is left of a project. -/
def finish (b : Workbench σ) (id : ProjectId) : Job (Shelf σ) Project := do
  let stripped ← Shelf.onHost (b.currentProject id)
  modify fun s => { s with finished := s.finished ++ [stripped] }
  return stripped

theorem packProject_eq_steps (settings : Settings) (b : Workbench σ) (id : ProjectId) :
    packProject settings b id =
      (do
        discard (Shelf.onHost (b.currentProject id))
        performAll settings b id (steps settings)
        finish b id) := by
  simp only [packProject, steps, performAll, Step.perform, finish, bind_assoc, pure_bind]
  rfl

/-- A solution that was taken: the project in it, and what a pass took out and wrote down. -/
structure Commit where
  project : Project
  takes : List NodeId := []
  packages : List Package := []

/-- Some of the steps, from the first one on, done one after the other on a project.  After a pass
the compiler was content. -/
inductive Run (settings : Settings) (b : Workbench σ) :
    List Step → Project → List Commit → Project → Prop where
  | stop (rest : List Step) (p : Project) : Run settings b rest p [] p
  | clean {c : CleanUp} {rest : List Step} {p q r : Project} {commits : List Commit}
    (cleaned : c.Cleaned p q) (later : Run settings b rest q commits r) :
    Run settings b (.clean c :: rest) p ({ project := q } :: commits) r
  | extract {pass : Pass} {rest : List Step} {p r : Project} {x : Extracted}
    {commits : List Commit} (extracted : pass.run settings (Walker.ofProject p) = .ok x)
    (accepted : ∃ s, (b.compile x.project s).1 = .ok ())
    (later : Run settings b rest x.project commits r) :
    Run settings b (.extract pass :: rest) p
      ({ project := x.project, takes := pass.takes settings.policy p, packages := x.packages } ::
        commits) r

theorem Run.cons {settings : Settings} {step : Step} {rest : List Step} {p r : Project}
    {c : Commit} {commits : List Commit}
    (h : Run settings b [step] p [c] c.project) (hlater : Run settings b rest c.project commits r) :
    Run settings b (step :: rest) p (c :: commits) r := by
  cases h with
  | clean cleaned later => exact .clean cleaned hlater
  | extract extracted accepted later => exact .extract extracted accepted hlater

/-- A step that erases no declaration unless it is a pass. -/
def Step.Proper : Step → Prop
  | clean c => c.KeepsIds ∧ c.Tidies
  | extract _ => True

theorem proper_steps {settings : Settings} (hflags : CleanUp.FlagsUsings settings.usings) :
    ∀ step ∈ steps settings, step.Proper := by
  have husings : (Step.clean (.removeUsings settings.usings)).Proper :=
    ⟨CleanUp.keepsIds_removeUsings _, hflags.tidies⟩
  have hpartial : (Step.clean .ensurePartial).Proper :=
    ⟨CleanUp.keepsIds_ensurePartial, CleanUp.tidies_ensurePartial⟩
  have hregions : (Step.clean .removeRegions).Proper :=
    ⟨CleanUp.keepsIds_removeRegions, CleanUp.tidies_removeRegions⟩
  simp only [steps, List.forall_mem_cons]
  exact ⟨hpartial, hregions, husings, trivial, trivial, trivial, husings, fun _ h => nomatch h⟩

/-! ## Where a run stands -/

/-- The commits were taken by the workbench, from the start of the run, and are all that has
happened. -/
structure Standing (b : Workbench σ) (accepted : σ → List Solution) (id : ProjectId)
    (start : Shelf σ) (p : Project) (commits : List Commit) (shelf : Shelf σ) : Prop extends
    Reached b id start shelf p (commits.flatMap (·.packages)) where
  solution_eq : b.solution shelf.host =
    (commits.map fun c => (b.solution start.host).withProject c.project).getLastD
      (b.solution start.host)
  accepted_eq : accepted shelf.host =
    accepted start.host ++ commits.map fun c => (b.solution start.host).withProject c.project

section Standing

variable {start shelf shelf' : Shelf σ} {p q : Project} {commits : List Commit}

theorem Standing.of_seen (h : Standing b accepted id start p commits shelf)
    (hseen : seen b accepted shelf' = seen b accepted shelf) :
    Standing b accepted id start p commits shelf' := by
  obtain ⟨hhistory, hrest⟩ := Prod.ext_iff.mp hseen
  obtain ⟨hsol, haccepted⟩ := Prod.ext_iff.mp hhistory
  obtain ⟨hlibrary, hfinished⟩ := Prod.ext_iff.mp hrest
  dsimp only [seen, Workbench.history] at hsol haccepted hlibrary hfinished
  refine ⟨⟨h.uniqueIds, h.project_id, ?_, ?_, ?_, ?_⟩, ?_, ?_⟩
  · rw [hsol]
    exact h.solution_agrees
  · rw [hsol]
    exact h.project_eq
  · rw [hlibrary]
    exact h.library_eq
  · rw [hfinished]
    exact h.finished_eq
  · rw [hsol]
    exact h.solution_eq
  · rw [haccepted]
    exact h.accepted_eq

theorem Standing.commit (h : Standing b accepted id start p commits shelf) {c : Commit}
    (hreached : Reached b id start shelf' q (commits.flatMap (·.packages) ++ c.packages))
    (hsol : b.solution shelf'.host = (b.solution start.host).withProject c.project)
    (haccepted : accepted shelf'.host = accepted shelf.host ++ [b.solution shelf'.host]) :
    Standing b accepted id start q (commits ++ [c]) shelf' where
  toReached := by
    rw [List.flatMap_append, List.flatMap_singleton]
    exact hreached
  solution_eq := by
    rw [List.map_append, List.map_singleton, List.getLastD_concat]
    exact hsol
  accepted_eq := by
    rw [haccepted, h.accepted_eq, hsol, List.map_append, List.map_singleton, List.append_assoc]

variable (hb : b.Lawful) (hlog : b.Records accepted)
include hb hlog

/-- A step leaves the run where it stood, or takes it one commit further. -/
theorem triple_perform (settings : Settings) {step : Step} (hstep : step.Proper) :
    Job.Triple (Standing b accepted id start p commits) (step.perform settings b id)
      (fun _ shelf => ∃ c, Run settings b [step] p [c] c.project ∧
        Standing b accepted id start c.project (commits ++ [c]) shelf)
      fun _ => Standing b accepted id start p commits := by
  cases step with
  | clean c =>
    refine .intro (fun shelf shelf' _ h hrun => ?_) fun shelf shelf' e h hrun => ?_
    · obtain ⟨q, hq, hreached, hsol⟩ := h.toReached.clean hb hstep.1 hstep.2 hrun
      have haccepted := (handsIn_clean hb hlog c).of_ok rfl hrun
      refine ⟨{ project := q }, .clean hq (.stop [] q), h.commit ?_ hsol haccepted⟩
      rw [List.append_nil]
      exact hreached
    · exact h.of_seen ((handsIn_clean hb hlog c).of_error rfl hrun)
  | extract pass =>
    refine .intro (fun shelf shelf' _ h hrun => ?_) fun shelf shelf' e h hrun => ?_
    · obtain ⟨x, hx, hcompile, hreached, hsol⟩ :=
        h.toReached.extract hb (Pass.erases_run settings pass) hrun
      have haccepted := (handsIn_extract hb hlog h.project_eq).of_ok rfl hrun
      exact ⟨_, .extract hx hcompile (.stop [] x.project), h.commit hreached hsol haccepted⟩
    · exact h.of_seen ((handsIn_extract hb hlog h.project_eq).of_error rfl hrun)

/-- A run does all steps, or stops after some of them. -/
theorem triple_performAll (settings : Settings) {todo : List Step}
    (htodo : ∀ step ∈ todo, step.Proper) :
    Job.Triple (Standing b accepted id start p commits) (performAll settings b id todo)
      (fun _ shelf => ∃ later q, Run settings b todo p later q ∧ later.length = todo.length ∧
        Standing b accepted id start q (commits ++ later) shelf)
      fun _ shelf => ∃ later q, Run settings b todo p later q ∧ later.length < todo.length ∧
        Standing b accepted id start q (commits ++ later) shelf := by
  induction todo generalizing p commits with
  | nil =>
    refine .pure fun shelf h => ⟨[], p, .stop [] p, rfl, ?_⟩
    rw [List.append_nil]
    exact h
  | cons step rest ih =>
    obtain ⟨hstep, hrest⟩ := List.forall_mem_cons.mp htodo
    have hfirst : Job.Triple (Standing b accepted id start p commits)
        (step.perform settings b id)
        (fun _ shelf => ∃ c, Run settings b [step] p [c] c.project ∧
          Standing b accepted id start c.project (commits ++ [c]) shelf)
        fun _ shelf => ∃ later q, Run settings b (step :: rest) p later q ∧
          later.length < (step :: rest).length ∧
          Standing b accepted id start q (commits ++ later) shelf := by
      refine (triple_perform hb hlog settings hstep).weaken (fun _ h => h) (fun _ _ h => h)
        fun _ shelf h => ⟨[], p, .stop _ p, Nat.zero_lt_succ _, ?_⟩
      rw [List.append_nil]
      exact h
    refine hfirst.bind fun _ => ?_
    rintro shelf ⟨c, hc, h⟩
    -- The rest of the run starts from the commit of this step.
    refine ((ih hrest).weaken (fun _ h => h) ?_ ?_) shelf h
    · rintro _ s ⟨later, q, hrun, hlength, hs⟩
      refine ⟨c :: later, q, hc.cons hrun, congrArg (· + 1) hlength, ?_⟩
      rw [List.append_cons]
      exact hs
    · rintro _ s ⟨later, q, hrun, hlength, hs⟩
      refine ⟨c :: later, q, hc.cons hrun, Nat.succ_lt_succ hlength, ?_⟩
      rw [List.append_cons]
      exact hs

end Standing

/-! ## What is gone -/

section Run

variable {settings : Settings} {todo : List Step} {p q : Project} {commits : List Commit}

/-- What the passes of a run took stood in the project, and nothing else is gone. -/
theorem Run.sites (h : Run settings b todo p commits q) (htodo : ∀ step ∈ todo, step.Proper)
    (hp : p.UniqueIds) :
    (∀ n ∈ commits.flatMap (·.takes), n ∈ p.sites.map Site.id) ∧
      q.sites = p.sites.filter (Site.survives (commits.flatMap (·.takes)).contains) := by
  induction h with
  | stop rest p => exact ⟨fun _ h => (nomatch h), (List.filter_eq_self.mpr fun _ _ => rfl).symm⟩
  | clean cleaned later ih =>
    obtain ⟨hproper, hrest⟩ := List.forall_mem_cons.mp htodo
    have htidied := cleaned.tidied hproper.2 hp
    have hlater := ih hrest (htidied.uniqueIds hp)
    rw [htidied.sites_eq] at hlater
    exact hlater
  | @extract pass rest p r x commits extracted accepted later ih =>
    obtain ⟨-, hrest⟩ := List.forall_mem_cons.mp htodo
    have hx : x.project.UniqueIds := by
      rw [(Pass.run_eq_ok hp extracted).2]
      exact hp.erase _
    obtain ⟨hsubset, hsites⟩ := ih hrest hx
    have hkept := Pass.sites_run hp extracted
    constructor
    · rw [List.flatMap_cons]
      intro n hn
      rcases List.mem_append.mp hn with hn | hn
      · exact Pass.takes_subset _ hp pass n hn
      · have hn := hsubset n hn
        rw [hkept] at hn
        exact (List.filter_sublist.map Site.id).subset hn
    · rw [hsites, hkept, List.filter_filter, List.flatMap_cons]
      refine List.filter_congr fun s _ => ?_
      rw [Site.survives, Site.survives, Site.survives, List.contains_append, Bool.not_or,
        Bool.and_comm]

/-- Sites are gone exactly if they were taken. -/
theorem mem_iff_of_sites {ids : List NodeId} (hsubset : ∀ n ∈ ids, n ∈ p.sites.map Site.id)
    (hsites : q.sites = p.sites.filter (Site.survives ids.contains)) (n : NodeId) :
    n ∈ ids ↔ n ∈ p.sites.map Site.id ∧ n ∉ q.sites.map Site.id := by
  constructor
  · intro hn
    refine ⟨hsubset n hn, fun hq => ?_⟩
    obtain ⟨s, hs, rfl⟩ := List.mem_map.mp hq
    rw [hsites] at hs
    exact (Site.survives_iff ids s).mp (List.mem_filter.mp hs).2 hn
  · rintro ⟨hn, hnot⟩
    obtain ⟨s, hs, rfl⟩ := List.mem_map.mp hn
    by_contra hid
    refine hnot (List.mem_map_of_mem ?_)
    rw [hsites]
    exact List.mem_filter.mpr ⟨hs, (Site.survives_iff ids s).mpr hid⟩

end Run

/-- The workbench and the library after a run that did some steps of packing a project. -/
structure InStep (settings : Settings) (b : Workbench σ) (accepted : σ → List Solution)
    (id : ProjectId) (start shelf : Shelf σ) (p q : Project) (commits : List Commit) : Prop where
  run : Run settings b (steps settings) p commits q
  /-- The steps that were done are the ones whose outcome the workbench took. -/
  accepted_eq : accepted shelf.host =
    accepted start.host ++ commits.map fun c => (b.solution start.host).withProject c.project
  solution_eq : b.solution shelf.host =
    (commits.map fun c => (b.solution start.host).withProject c.project).getLastD
      (b.solution start.host)
  project_eq : (b.solution shelf.host).project? id = some q
  /-- What their passes took is what is missing; all else stands where it stood. -/
  missing_iff : ∀ n, n ∈ commits.flatMap (·.takes) ↔
    n ∈ p.sites.map Site.id ∧ n ∉ q.sites.map Site.id
  sites_eq : q.sites = p.sites.filter (Site.survives (commits.flatMap (·.takes)).contains)
  /-- All their packages were added, in order, and no others. -/
  library_eq : start.library.addAll (commits.flatMap (·.packages)) = .ok shelf.library

theorem Standing.inStep {settings : Settings} {start shelf : Shelf σ} {p q : Project}
    {commits : List Commit} (hflags : CleanUp.FlagsUsings settings.usings) (hp : p.UniqueIds)
    (hrun : Run settings b (steps settings) p commits q)
    (h : Standing b accepted id start q commits shelf) :
    InStep settings b accepted id start shelf p q commits := by
  obtain ⟨hsubset, hsites⟩ := hrun.sites (proper_steps hflags) hp
  exact ⟨hrun, h.accepted_eq, h.solution_eq, h.project_eq, mem_iff_of_sites hsubset hsites, hsites,
    h.library_eq⟩

/-- However packing a project ends, the workbench and the library are in step: the steps that were
done are the first ones, all of them if it succeeded, and each was done wholly.  The provider of
the diagnostics must call no node needless but usings (`FlagsUsings`): the clean-up erases what it
calls needless. -/
theorem packProject_in_step (settings : Settings) (b : Workbench σ)
    (accepted : σ → List Solution) (id : ProjectId) (shelf shelf' : Shelf σ) (p : Project)
    (outcome : Except Error Project) (hb : b.Lawful) (hlog : b.Records accepted)
    (hflags : CleanUp.FlagsUsings settings.usings) (hp : p.UniqueIds)
    (hfind : (b.solution shelf.host).project? id = some p)
    (hrun : packProject settings b id shelf = (outcome, shelf')) :
    ∃ commits q, InStep settings b accepted id shelf shelf' p q commits ∧
      ((∃ stripped, outcome = .ok stripped) ↔ commits.length = (steps settings).length) := by
  have hstart : Standing b accepted id shelf p [] shelf :=
    ⟨⟨hp, (Solution.mem_of_project? hfind).2, fun _ _ => rfl, hfind, rfl, rfl⟩, rfl,
      (List.append_nil _).symm⟩
  have hlook : discard (Shelf.onHost (b.currentProject id)) shelf = (.ok (), shelf) :=
    (Job.discard_eq_ok_iff _ _ _ _).mpr ⟨p, onHost_currentProject hfind⟩
  have hsteps := triple_performAll hb hlog settings (proper_steps hflags) shelf hstart
  rw [packProject_eq_steps, Job.bind_of_ok hlook] at hrun
  rcases hall : performAll settings b id (steps settings) shelf with ⟨e | u, shelf₁⟩
  · rw [hall] at hsteps
    rw [Job.bind_apply, hall, Prod.mk.injEq] at hrun
    obtain ⟨rfl, rfl⟩ := hrun
    obtain ⟨commits, q, hdone, hlength, hstanding⟩ := hsteps
    refine ⟨commits, q, hstanding.inStep hflags hp hdone, fun ⟨_, h⟩ => (nomatch h), fun h => ?_⟩
    exact absurd h (Nat.ne_of_lt hlength)
  · rw [hall] at hsteps
    obtain ⟨commits, q, hdone, hlength, hstanding⟩ := hsteps
    have hinStep := hstanding.inStep hflags hp hdone
    rw [Job.bind_of_ok hall, finish, Job.bind_of_ok (onHost_currentProject hinStep.project_eq)]
      at hrun
    cases hrun
    exact ⟨commits, q, { hinStep with }, fun _ => hlength, fun _ => ⟨q, rfl⟩⟩

end Pipeline

/-- A solution with the answers that compiler and workbench are going to give. -/
structure Script where
  solution : Solution
  /-- Whether the next projects compile; all do after the last answer. -/
  compiles : List Bool := []
  /-- Whether the next solutions are taken; all are after the last answer. -/
  takes : List Bool := []
  taken : List Solution := []

def Script.workbench : Workbench Script where
  solution s := s.solution
  commit new s :=
    if s.takes.headD true then
      (.ok (), { s with solution := new, takes := s.takes.tail, taken := s.taken ++ [new] })
    else (.error (.commitRejected "locked"), { s with takes := s.takes.tail })
  compile _ s :=
    (if s.compiles.headD true then .ok () else .error { text := "broken" },
      { s with compiles := s.compiles.tail })

theorem Script.lawful : workbench.Lawful where
  commit_ok new s s' h := by
    simp only [workbench] at h
    split at h
    · cases h
      rfl
    · cases h
  commit_error new s e s' h := by
    simp only [workbench] at h
    split at h
    · cases h
    · cases h
      rfl
  compile p s := rfl

theorem Script.records : workbench.Records Script.taken where
  spares :=
    { compile := fun p s => rfl
      commit_error := fun new s e s' h => by
        simp only [workbench] at h
        split at h
        · cases h
        · cases h
          rfl }
  commit_ok new s s' h := by
    simp only [workbench] at h
    split at h
    · cases h
      rfl
    · cases h

namespace Pipeline

/-- The member pass is refused. -/
def lockedShelf : Shelf Script :=
  { host := { solution := { projects := [parcel] }, takes := [true, true, true, true, false] } }

theorem packProject_in_step_locked :
    parcel.UniqueIds ∧
    (packProject {} Script.workbench ⟨1⟩ lockedShelf).2.library.keys =
      ["InterwovenExtensionMethods Crates.Box"] ∧
    ∃ commits q, InStep {} Script.workbench Script.taken ⟨1⟩ lockedShelf
      (packProject {} Script.workbench ⟨1⟩ lockedShelf).2 parcel q commits ∧
      commits.length = 4 := by
  have hp : parcel.UniqueIds := by decide +kernel
  have htaken : (packProject {} Script.workbench ⟨1⟩ lockedShelf).2.host.taken.length = 4 := by
    decide +kernel
  obtain ⟨commits, q, h, -⟩ := packProject_in_step {} Script.workbench Script.taken ⟨1⟩ lockedShelf
    _ parcel _ Script.lawful Script.records CleanUp.flagsUsings_needlessUsings hp rfl
    Prod.mk.eta.symm
  refine ⟨hp, by decide +kernel, commits, q, h, ?_⟩
  rw [h.accepted_eq, List.length_append, List.length_map] at htaken
  exact (Nat.zero_add _).symm.trans htaken

end Pipeline
end Unweave

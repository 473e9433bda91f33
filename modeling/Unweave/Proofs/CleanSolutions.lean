import Unweave.Proofs.Chores
import Unweave.Tree.Build

/-!
# Cleaning a solution up

On a solution whose identifiers are distinct and whose projects compile, no list of clean-ups can
fail: each of them keeps the projects compiling, so no check on the way stops the run.  The outcome
is known in full.  It is the solution with every document that may be edited put through the
clean-ups, one after the other.
-/

namespace Unweave

/-! ## One project -/

namespace Chore

/-- The clean-ups pass over a document that may not be edited. -/
def tend (cs : List Chore) (d : Document) : Document := if d.isEditable then editAll cs d else d

theorem isEditable_edit (c : Chore) (d : Document) : (c.edit d).isEditable = d.isEditable := by
  cases c <;> rfl

theorem tend_tend (c : Chore) (cs : List Chore) (d : Document) :
    tend cs (tend [c] d) = tend (c :: cs) d := by
  by_cases hedit : d.isEditable = true
  · have hfirst : tend [c] d = c.edit d := if_pos hedit
    rw [hfirst, tend, isEditable_edit, if_pos hedit, tend, if_pos hedit, editAll_cons]
  · have hfirst : tend [c] d = d := if_neg hedit
    rw [hfirst, tend, if_neg hedit, tend, if_neg hedit]

theorem cleaned_iff (c : Chore) (p q : Project) :
    c.cleanUp.Cleaned p q ↔ q = p.mapDocuments (tend [c]) := by
  constructor
  · rintro ⟨g, rfl, hg⟩
    refine Project.mapDocuments_congr fun d hd => ?_
    have hgd := hg d hd
    rw [tend]
    split at hgd
    · next hedit =>
      obtain ⟨p', happly⟩ := hgd
      rw [apply_cleanUp, Except.ok.injEq] at happly
      rw [if_pos hedit]
      exact happly.symm
    · next hedit => rw [if_neg hedit, hgd]
  · rintro rfl
    refine ⟨tend [c], rfl, fun d _ => ?_⟩
    rw [tend]
    by_cases hedit : d.isEditable = true
    · rw [if_pos hedit, if_pos hedit]
      exact ⟨p, c.apply_cleanUp p d⟩
    · rw [if_neg hedit, if_neg hedit]

end Chore

/-- Identifiers are distinct and the project compiles. -/
structure Project.InOrder (p : Project) : Prop where
  uniqueIds : p.UniqueIds
  holdsTogether : p.HoldsTogether

theorem Project.InOrder.tend {p : Project} (h : p.InOrder) (c : Chore) :
    (p.mapDocuments (Chore.tend [c])).InOrder := by
  have hcleaned := (c.cleaned_iff p _).mpr rfl
  exact ⟨(hcleaned.tidied c.careful_cleanUp.tidies h.uniqueIds).uniqueIds h.uniqueIds,
    hcleaned.holdsTogether c.careful_cleanUp h.uniqueIds h.holdsTogether⟩

namespace Workbench

variable {τ : Type}

theorem cleanProject_chore (c : Chore) {s : Solution} {id : ProjectId} {p : Project}
    (hfind : s.project? id = some p) (hp : p.InOrder) (host : Solution × τ) :
    (inMemory .structural).cleanProject c.cleanUp s id host =
      (.ok (s.withProject (p.mapDocuments (Chore.tend [c]))), host) := by
  obtain ⟨q, hq⟩ := exists_cleanDocuments c.careful_cleanUp hp.uniqueIds hp.holdsTogether
    ((p.documents.filter (·.isEditable)).map (·.id)) host
  have hrun : (inMemory .structural).cleanProject c.cleanUp s id host =
      (.ok (s.withProject q), host) := by
    rw [cleanProject, hfind]
    exact Job.bind_of_ok hq
  obtain ⟨-, q', hq', hsame⟩ := (lawful_inMemory _).cleanProject c.keepsIds_cleanUp hfind
    hp.uniqueIds.documents hrun
  rw [hrun, hsame, (c.cleaned_iff p q').mp hq']

end Workbench

/-! ## All projects -/

namespace Solution

/-- The solution with the clean-ups done on some of its projects. -/
def tend (s : Solution) (cs : List Chore) (targets : ProjectId → Bool) : Solution where
  projects := s.projects.map fun p =>
    if targets p.id then p.mapDocuments (Chore.tend cs) else p

variable {s : Solution} {cs : List Chore} {targets : ProjectId → Bool}

theorem projectIds_tend : (s.tend cs targets).projectIds = s.projectIds := by
  rw [projectIds, tend, List.map_map]
  refine List.map_congr_left fun p _ => ?_
  rw [Function.comp_apply]
  split <;> rfl

theorem inOrder_tend {c : Chore} (h : ∀ p ∈ s.projects, p.InOrder) :
    ∀ q ∈ (s.tend [c] targets).projects, q.InOrder := by
  intro q hq
  obtain ⟨p, hp, rfl⟩ := List.mem_map.mp hq
  split
  · exact (h p hp).tend c
  · exact h p hp

theorem withProject_tend (hs : s.projectIds.Nodup) {p : Project} (hp : p ∈ s.projects) :
    s.withProject (p.mapDocuments (Chore.tend cs)) = s.tend cs (· == p.id) := by
  refine congrArg Solution.mk (List.map_congr_left fun q hq => ?_)
  by_cases hid : q.id = p.id
  · rw [List.inj_on_of_nodup_map hs hq hp hid]
    exact (if_pos rfl).trans (if_pos (beq_self_eq_true p.id)).symm
  · exact (if_neg hid).trans (if_neg fun h => hid (eq_of_beq h)).symm

/-- Doing one project and then others. -/
theorem tend_tend_of_not {id : ProjectId} (h : targets id = false) :
    (s.tend cs (· == id)).tend cs targets = s.tend cs fun i => i == id || targets i := by
  refine congrArg Solution.mk ?_
  rw [tend, List.map_map]
  refine List.map_congr_left fun p _ => ?_
  rw [Function.comp_apply]
  by_cases hid : p.id = id
  · have htrue : (p.id == id) = true := beq_iff_eq.mpr hid
    have hnot : targets (p.mapDocuments (Chore.tend cs)).id = false := by
      rw [← h, ← hid]
      rfl
    simp only [htrue, hnot, if_true, Bool.true_or, Bool.false_eq_true, if_false]
  · have hfalse : (p.id == id) = false := beq_eq_false_iff_ne.mpr hid
    simp only [hfalse, Bool.false_eq_true, if_false, Bool.false_or]

/-- All projects, one clean-up and then the others. -/
theorem tend_tend_cons (c : Chore) (cs : List Chore) :
    (s.tend [c] fun _ => true).tend cs (fun _ => true) = s.tend (c :: cs) fun _ => true := by
  refine congrArg Solution.mk ?_
  rw [tend, List.map_map]
  refine List.map_congr_left fun p _ => ?_
  simp only [Function.comp_apply, if_true, Project.mapDocuments_mapDocuments]
  exact Project.mapDocuments_congr fun d _ => Chore.tend_tend c cs d

theorem tend_projectIds : s.tend cs s.projectIds.contains = s.tend cs fun _ => true := by
  refine congrArg Solution.mk (List.map_congr_left fun p hp => ?_)
  have htarget : s.projectIds.contains p.id = true :=
    List.contains_iff_mem.mpr (List.mem_map_of_mem hp)
  rw [htarget]

theorem tend_nobody : s.tend cs ([] : List ProjectId).contains = s := by
  refine congrArg Solution.mk ((List.map_congr_left fun p _ => ?_).trans (List.map_id _))
  exact if_neg (by rw [List.contains_nil]; exact Bool.false_ne_true)

theorem tend_nil : s.tend [] targets = s := by
  refine congrArg Solution.mk ((List.map_congr_left fun p _ => ?_).trans (List.map_id _))
  split
  · exact Project.mapDocuments_eq_self fun d _ => ite_self d
  · rfl

end Solution

namespace Workbench

variable {τ : Type}

/-- One clean-up, project after project. -/
theorem cleanProjects_chore (c : Chore) {ids : List ProjectId} (hids : ids.Nodup) {s : Solution}
    (hs : s.projectIds.Nodup) (htargets : ids ⊆ s.projectIds) (h : ∀ p ∈ s.projects, p.InOrder)
    (host : Solution × τ) :
    (inMemory .structural).cleanProjects c.cleanUp ids s host =
      (.ok (s.tend [c] ids.contains), host) := by
  induction ids generalizing s with
  | nil =>
    rw [Solution.tend_nobody]
    rfl
  | cons id ids ih =>
    obtain ⟨hnot, hrestIds⟩ := List.nodup_cons.mp hids
    obtain ⟨p, hp, rfl⟩ := List.mem_map.mp (htargets List.mem_cons_self)
    have hstep := cleanProject_chore c (Solution.project?_of_mem hs hp) (h p hp) host
    rw [Solution.withProject_tend hs hp] at hstep
    refine (Job.bind_of_ok hstep).trans ?_
    have hrest : ids ⊆ (s.tend [c] (· == p.id)).projectIds := by
      rw [Solution.projectIds_tend]
      exact fun i hi => htargets (List.mem_cons_of_mem _ hi)
    refine (ih hrestIds (by rw [Solution.projectIds_tend]; exact hs) hrest
      (Solution.inOrder_tend h)).trans ?_
    have hfalse : ids.contains p.id = false := by
      rw [Bool.eq_false_iff]
      exact fun hmem => hnot (List.contains_iff_mem.mp hmem)
    have hcons : (p.id :: ids).contains = fun i => i == p.id || ids.contains i :=
      funext fun i => List.contains_cons
    rw [Solution.tend_tend_of_not hfalse, hcons]

/-- All clean-ups, one after the other. -/
theorem foldlM_cleanProjects (cs : List Chore) {s : Solution} (hs : s.projectIds.Nodup)
    (h : ∀ p ∈ s.projects, p.InOrder) (host : Solution × τ) :
    (cs.map Chore.cleanUp).foldlM
        (fun t c => (inMemory .structural).cleanProjects c s.projectIds t) s host =
      (.ok (s.tend cs fun _ => true), host) ∧
      ∀ q ∈ (s.tend cs fun _ => true).projects, q.InOrder := by
  induction cs generalizing s with
  | nil =>
    rw [Solution.tend_nil]
    exact ⟨rfl, h⟩
  | cons c cs ih =>
    have hstep := cleanProjects_chore c hs hs (List.Subset.refl _) h host
    rw [Solution.tend_projectIds] at hstep
    have hkeep : (s.tend [c] fun _ => true).projectIds = s.projectIds := Solution.projectIds_tend
    have hrest := ih (hkeep ▸ hs) (Solution.inOrder_tend (c := c) h)
    rw [hkeep, Solution.tend_tend_cons] at hrest
    exact ⟨(Job.bind_of_ok hstep).trans hrest.1, hrest.2⟩

theorem requirePreconditions_of_inOrder {s : Solution} (h : ∀ p ∈ s.projects, p.InOrder)
    (ids : List ProjectId) (host : Solution × τ) :
    (inMemory .structural).requirePreconditions s ids host = (.ok (), host) := by
  induction ids with
  | nil => rfl
  | cons id ids ih =>
    rw [requirePreconditions]
    cases hfind : s.project? id with
    | none => exact ih
    | some p =>
      have hp := (h p (Solution.mem_of_project? hfind).1).holdsTogether
      exact (Job.bind_of_ok ((requireCompiles_eq_ok_iff _ _ _ _ ()).mpr
        (compile_inMemory hp host))).trans ih

end Workbench

/-! ## The outcome -/

/-- What becomes of a document: it keeps everything but its tree and the core of that, it is not
touched if it may not be edited, and otherwise what the clean-ups are for was done. -/
structure Document.CleansTo (chores : List Chore) (d e : Document) : Prop where
  same : { e with root := d.root } = d
  core_eq : e.root.core = d.root.core
  protected_eq : d.isEditable = false → e = d
  partial_types : d.isEditable = true → .partials ∈ chores →
    ∀ h ∈ e.root.topTypes, h.isPartial = true
  no_regions : d.isEditable = true → .regions ∈ chores → ∀ t ∈ e.root.trivia, t.isRegion = false
  no_needless : d.isEditable = true → .usings ∈ chores → Check.needlessUsings e = []

theorem Chore.cleansTo_tend (cs : List Chore) {d : Document} (hd : d.root.nodeIds.Nodup) :
    d.CleansTo cs (tend cs d) := by
  cases hedit : d.isEditable with
  | false =>
    have hself : tend cs d = d := if_neg (by rw [hedit]; exact Bool.false_ne_true)
    rw [hself]
    exact
      { same := rfl, core_eq := rfl, protected_eq := fun _ => rfl
        partial_types := fun h => absurd (hedit.symm.trans h) Bool.false_ne_true
        no_regions := fun h => absurd (hedit.symm.trans h) Bool.false_ne_true
        no_needless := fun h => absurd (hedit.symm.trans h) Bool.false_ne_true }
  | true =>
    have hself : tend cs d = editAll cs d := if_pos hedit
    rw [hself]
    exact
      { same := (tidied_editAll cs hd).same, core_eq := core_editAll cs hd
        protected_eq := fun h => absurd (h.symm.trans hedit) Bool.false_ne_true
        partial_types := fun _ hc => done_editAll hc hd
        no_regions := fun _ hc => done_editAll hc hd
        no_needless := fun _ hc => done_editAll hc hd }

/-- Cleaning up a solution that compiles succeeds, leaves one that compiles, does what each clean-up
is for and changes nothing else. -/
theorem Workbench.cleanSolution_sound {τ : Type} (chores : List Chore) (solution : Solution) (t : τ)
    (hids : solution.projectIds.Nodup)
    (hprojects : ∀ p ∈ solution.projects, p.UniqueIds ∧ Check.structural p = .ok ()) :
    ∃ cleaned, (inMemory .structural).cleanSolution (chores.map Chore.cleanUp) (solution, t) =
        (.ok cleaned, (cleaned, t)) ∧
      (∀ q ∈ cleaned.projects, Check.structural q = .ok ()) ∧
      ∃ clean, cleaned.projects = solution.projects.map (Project.mapDocuments clean) ∧
        ∀ p ∈ solution.projects, ∀ d ∈ p.documents, d.CleansTo chores (clean d) := by
  have hinOrder : ∀ p ∈ solution.projects, p.InOrder := fun p hp =>
    ⟨(hprojects p hp).1, (Check.structural_eq_ok_iff p).mp (hprojects p hp).2⟩
  obtain ⟨hrun, hcleaned⟩ := foldlM_cleanProjects chores hids hinOrder (solution, t)
  have hcommit : (inMemory .structural).commit (solution.tend chores fun _ => true)
      (solution, t) = (.ok (), (solution.tend chores (fun _ => true), t)) :=
    commit_of_projectIds _ Solution.projectIds_tend
  refine ⟨solution.tend chores fun _ => true, ?_, fun q hq =>
    (Check.structural_eq_ok_iff q).mpr (hcleaned q hq).holdsTogether, Chore.tend chores, rfl, ?_⟩
  · have hpre := requirePreconditions_of_inOrder hinOrder solution.projectIds (solution, t)
    exact (Job.bind_of_ok hpre).trans ((Job.bind_of_ok hrun).trans (Job.bind_of_ok hcommit))
  · intro p hp d hd
    exact Chore.cleansTo_tend chores ((List.nodup_flatMap.mp (hprojects p hp).1.nodes).1 d hd)

/-- A document with regions at every place that can hold one and directives that repeat each other,
and its like that was generated. -/
def workshop : Solution where
  projects :=
    [{ id := ⟨1⟩, name := "Workshop", assembly := "Workshop"
       documents := [bench 1 "Bench.cs" .regular, bench 2 "Bench.g.cs" .generated] },
     { id := ⟨2⟩, name := "Store", assembly := "Store"
       documents := [bench 1 "Store.cs" .regular] }]
where
  bench (n : Nat) (name : String) (kind : SourceKind) : Document :=
    { id := ⟨.ofNat n⟩, name, kind
      root :=
        { usings :=
            [{ id := ⟨.ofNat (10 * n)⟩, name := "Tools", leading := [.region "Usings"] },
             { id := ⟨.ofNat (10 * n + 1)⟩, name := "Saws", shorthand := some "S",
               leading := [.endRegion] }]
          members :=
            [.block
              { id := ⟨.ofNat (10 * n + 2)⟩, name := "Bench" ++ toString n
                usings := [{ id := ⟨.ofNat (10 * n + 3)⟩, name := "Saws", shorthand := some "S" }]
                closing := [.comment "// end", .endRegion] }
              [.type
                { id := ⟨.ofNat (10 * n + 4)⟩, kind := .classKind, modifiers := ["public"],
                  name := "Vise", leading := [.region "Vise", .comment "// holds"],
                  closing := [.endRegion] }
                [.type
                  { id := ⟨.ofNat (10 * n + 5)⟩, kind := .structKind, name := "Jaw",
                    leading := [.region "Jaw"], closing := [.endRegion] } []]]]
          ending := [.endRegion] } }

theorem Workbench.cleanSolution_sound_workshop :
    workshop.projectIds.Nodup ∧
    (∀ p ∈ workshop.projects, p.UniqueIds ∧ Check.structural p = .ok ()) ∧
    (∀ p ∈ workshop.projects, ∀ d ∈ p.documents, (Check.needlessUsings d).length = 2) ∧
    ∃ cleaned, (inMemory .structural).cleanSolution
        ([Chore.usings, .partials, .regions].map Chore.cleanUp) (workshop, ()) =
        (.ok cleaned, (cleaned, ())) ∧
      (∀ q ∈ cleaned.projects, Check.structural q = .ok ()) ∧
      ∃ clean, cleaned.projects = workshop.projects.map (Project.mapDocuments clean) ∧
        ∀ p ∈ workshop.projects, ∀ d ∈ p.documents,
          d.CleansTo [.usings, .partials, .regions] (clean d) := by
  have hids : workshop.projectIds.Nodup := by decide +kernel
  have hprojects : ∀ p ∈ workshop.projects, p.UniqueIds ∧ Check.structural p = .ok () := by
    decide +kernel
  exact ⟨hids, hprojects, by decide +kernel,
    cleanSolution_sound [.usings, .partials, .regions] workshop () hids hprojects⟩

end Unweave

import Unweave.Pipeline
import Unweave.Proofs.Completeness
import Unweave.Proofs.Slots
import Unweave.Proofs.Tidy
import Unweave.SolutionFile

/-!
# What a successful run did

A workbench is lawful if a solution that it takes is the one it then holds, one that it refuses
changes nothing, and compiling changes nothing either.  On a lawful workbench a successful clean-up
replaced the project by a cleaned one, a successful extraction by what the pass left, and packing a
project went through the seven of them in order (`Packing`).
-/

namespace Unweave

namespace Solution

variable {s : Solution} {id : ProjectId} {p q r : Project}

theorem mem_of_project? (h : s.project? id = some p) : p ∈ s.projects ∧ p.id = id :=
  ⟨List.mem_of_find?_eq_some h, eq_of_beq (List.find?_some h :)⟩

theorem project?_withProject (h : s.project? id = some p) (hq : q.id = id) :
    (s.withProject q).project? id = some q := by
  rw [project?, withProject, List.find?_map]
  have hcomp : ((fun x : Project => x.id == id) ∘ fun x => if x.id = q.id then q else x) =
      fun x => x.id == id := by
    funext x
    rw [Function.comp_apply]
    split
    · next hx => rw [hx]
    · rfl
  rw [hcomp]
  show Option.map _ (s.project? id) = _
  rw [h, Option.map_some, if_pos ((mem_of_project? h).2.trans hq.symm)]

theorem withProject_withProject (h : r.id = q.id) :
    (s.withProject q).withProject r = s.withProject r := by
  refine congrArg Solution.mk ?_
  show (s.projects.map _).map _ = _
  rw [List.map_map]
  refine List.map_congr_left fun x _ => ?_
  rw [Function.comp_apply, h]
  by_cases hx : x.id = q.id
  · rw [if_pos hx, if_pos rfl, if_pos hx]
  · rw [if_neg hx, if_neg hx]

theorem exists_project? (h : id ∈ s.projectIds) : ∃ p, s.project? id = some p := by
  obtain ⟨p, hp, rfl⟩ := List.mem_map.mp h
  exact Option.isSome_iff_exists.mp (List.find?_isSome.mpr ⟨p, hp, beq_self_eq_true _⟩)

theorem projectIds_withProject (q : Project) : (s.withProject q).projectIds = s.projectIds := by
  show (s.projects.map _).map _ = _
  rw [List.map_map]
  refine List.map_congr_left fun p _ => ?_
  rw [Function.comp_apply]
  split
  · next hid => exact hid.symm
  · rfl

theorem mem_withProject (h : p ∈ (s.withProject q).projects) :
    p.id = q.id ∧ p = q ∨ p.id ≠ q.id ∧ p ∈ s.projects := by
  obtain ⟨x, hx, rfl⟩ := List.mem_map.mp h
  by_cases hid : x.id = q.id
  · rw [if_pos hid]
    exact .inl ⟨rfl, rfl⟩
  · rw [if_neg hid]
    exact .inr ⟨hid, hx⟩

theorem mem_withProject_iff_of_ne (h : p.id ≠ q.id) :
    p ∈ (s.withProject q).projects ↔ p ∈ s.projects := by
  constructor
  · intro hmem
    exact (mem_withProject hmem).elim (fun hself => absurd hself.1 h) fun hother => hother.2
  · intro hmem
    refine List.mem_map.mpr ⟨p, hmem, ?_⟩
    rw [if_neg h]

theorem project?_of_mem (hs : s.projectIds.Nodup) (hq : q ∈ s.projects) :
    s.project? q.id = some q := by
  obtain ⟨p, hp⟩ := exists_project? (List.mem_map_of_mem hq)
  obtain ⟨hmem, hid⟩ := mem_of_project? hp
  rw [hp, List.inj_on_of_nodup_map hs hmem hq hid]

theorem withProject_of_mem (hs : s.projectIds.Nodup) (hq : q ∈ s.projects) :
    s.withProject q = s := by
  have hmap : s.projects.map (fun p => if p.id = q.id then q else p) = s.projects := by
    refine (List.map_congr_left fun p hp => ?_).trans (List.map_id _)
    split
    · next hid => exact (List.inj_on_of_nodup_map hs hp hq hid).symm
    · rfl
  rw [withProject, hmap]

end Solution

/-! ## Lawful workbenches -/

namespace Workbench

variable {σ τ : Type}

structure Lawful (b : Workbench σ) : Prop where
  commit_ok : ∀ new s s', b.commit new s = (.ok (), s') → b.solution s' = new
  commit_error : ∀ new s e s', b.commit new s = (.error e, s') → b.solution s' = b.solution s
  compile : ∀ p s, b.solution (b.compile p s).2 = b.solution s

theorem lawful_inMemory (compiler : Compiler τ) : (inMemory compiler).Lawful where
  commit_ok new s s' h := by
    simp only [inMemory] at h
    split at h
    · cases h
      rfl
    · cases h
  commit_error new s e s' h := by
    simp only [inMemory] at h
    split at h
    · cases h
    · cases h
      rfl
  compile p s := rfl

theorem lawful_bench (compiler : Compiler Disk) : (SolutionFile.bench compiler).Lawful where
  commit_ok new s s' h := by
    simp only [SolutionFile.bench] at h
    split at h
    · next t ht =>
      cases h
      obtain ⟨_, -, ht⟩ := (exceptBind_eq_ok_iff _ _ _).mp ht
      obtain ⟨_, -, ht⟩ := (exceptBind_eq_ok_iff _ _ _).mp ht
      split at ht
      · cases ht
      · cases ht
        rfl
    · cases h
  commit_error new s e s' h := by
    simp only [SolutionFile.bench] at h
    split at h
    · cases h
    · cases h
      rfl
  compile p s := rfl

section Steps

variable {b : Workbench σ}

theorem requireCompiles_eq_ok_iff (onFailure : CompileFailure → Error) (p : Project) (s s' : σ)
    (u : Unit) :
    b.requireCompiles onFailure p s = (.ok u, s') ↔ b.compile p s = (.ok (), s') := by
  rw [requireCompiles]
  rcases b.compile p s with ⟨_ | _, s₁⟩
  · exact ⟨fun h => (nomatch h), fun h => (nomatch h)⟩
  · exact ⟨fun h => by cases h; rfl, fun h => by cases h; rfl⟩

theorem Lawful.requireCompiles (hb : b.Lawful) {onFailure : CompileFailure → Error} {p : Project}
    {s s' : σ} {u : Unit} (h : b.requireCompiles onFailure p s = (.ok u, s')) :
    b.solution s' = b.solution s := by
  rw [requireCompiles_eq_ok_iff] at h
  rw [← hb.compile p s, h]

end Steps

end Workbench

/-! ## Clean-ups -/

namespace CleanUp

def KeepsIds (c : CleanUp) : Prop := ∀ p d d', c.apply p d = .ok d' → d'.id = d.id

theorem keepsIds_ensurePartial : ensurePartial.KeepsIds := by
  intro p d d' h
  cases h
  rfl

theorem keepsIds_removeRegions : removeRegions.KeepsIds := by
  intro p d d' h
  cases h
  rfl

theorem keepsIds_removeUsings (usings : Project → Document → List Diagnostic) :
    (removeUsings usings).KeepsIds := by
  intro p d d' h
  rw [removeUsings_apply] at h
  cases h
  rfl

/-- The second project is the first one with each editable document cleaned up. -/
def Cleaned (c : CleanUp) (p q : Project) : Prop :=
  ∃ g, q = p.mapDocuments g ∧ ∀ d ∈ p.documents,
    if d.isEditable = true then ∃ p', c.apply p' d = .ok (g d) else g d = d

theorem Cleaned.tidied {c : CleanUp} (hc : c.Tidies) {p q : Project} (hp : p.UniqueIds)
    (h : c.Cleaned p q) : q.Tidied p := by
  obtain ⟨g, rfl, hg⟩ := h
  refine ⟨g, rfl, fun d hd => ?_⟩
  have hnodup : d.root.nodeIds.Nodup := (List.nodup_flatMap.mp hp.nodes).1 d hd
  have hgd := hg d hd
  split at hgd
  · obtain ⟨p', happly⟩ := hgd
    exact hc p' d (g d) hnodup happly
  · rw [hgd]
    exact .refl d

end CleanUp

namespace Workbench

variable {σ : Type} {b : Workbench σ}

/-- One document is cleaned up, and the run goes on with the project that has it in its place. -/
theorem Lawful.cleanDocument (hb : b.Lawful) {c : CleanUp} {ids : List DocumentId} {p q : Project}
    {d d' : Document} {s s' : σ} (hp : (p.documents.map (·.id)).Nodup) (hd : d ∈ p.documents)
    (hid : d'.id = d.id) (happly : c.apply p d = .ok d') (hfind : p.document? d.id = some d)
    (h : b.cleanDocuments c (d.id :: ids) p s = (.ok q, s')) :
    ∃ s₁, b.solution s₁ = b.solution s ∧
      b.cleanDocuments c ids (p.mapDocuments fun e => if e.id = d.id then d' else e) s₁ =
        (.ok q, s') := by
  have hwith : p.withDocument d' = p.mapDocuments fun e => if e.id = d.id then d' else e :=
    Project.withDocument_eq_mapDocuments hp hd (fun _ => d') hid
  rw [Workbench.cleanDocuments, hfind] at h
  simp only [happly] at h
  by_cases hsame : d' = d
  · rw [if_pos hsame] at h
    have hself : (p.mapDocuments fun e => if e.id = d.id then d' else e) = p := by
      refine Project.mapDocuments_eq_self fun e he => ?_
      split
      · next hed => rw [hsame, Project.eq_of_document_id hp he hd hed]
      · rfl
    rw [hself]
    exact ⟨s, rfl, h⟩
  · rw [if_neg hsame, hwith] at h
    by_cases hrecompiles : c.recompiles = true
    · rw [if_pos hrecompiles] at h
      obtain ⟨_, s₁, hcompile, hrest⟩ := (Job.bind_eq_ok_iff _ _ _ _ _).mp h
      exact ⟨s₁, hb.requireCompiles hcompile, hrest⟩
    · rw [if_neg hrecompiles] at h
      exact ⟨s, rfl, h⟩

/-- Documents are cleaned up once each and nothing else is changed. -/
theorem Lawful.cleanDocuments (hb : b.Lawful) {c : CleanUp} (hc : c.KeepsIds)
    {ids : List DocumentId} (hids : ids.Nodup) {p q : Project} {s s' : σ}
    (hp : (p.documents.map (·.id)).Nodup) (h : b.cleanDocuments c ids p s = (.ok q, s')) :
    b.solution s' = b.solution s ∧ ∃ g, q = p.mapDocuments g ∧ ∀ d ∈ p.documents,
      if d.id ∈ ids then ∃ p', c.apply p' d = .ok (g d) else g d = d := by
  induction ids generalizing p s with
  | nil =>
    obtain ⟨rfl, rfl⟩ := (Job.pure_eq_ok_iff _ _ _ _).mp h
    refine ⟨rfl, fun d => d, (Project.mapDocuments_eq_self fun _ _ => rfl).symm, fun d _ => ?_⟩
    rw [if_neg List.not_mem_nil]
  | cons id ids ih =>
    obtain ⟨hnot, hrestIds⟩ := List.nodup_cons.mp hids
    cases hfind : p.document? id with
    | none =>
      rw [Workbench.cleanDocuments, hfind] at h
      obtain ⟨hsol, g, hq, hg⟩ := ih hrestIds hp h
      refine ⟨hsol, g, hq, fun d hd => ?_⟩
      have hne : ¬ d.id = id := by simpa using List.find?_eq_none.mp hfind d hd
      have hmem : d.id ∈ id :: ids ↔ d.id ∈ ids := by simp [hne]
      simp only [hmem]
      exact hg d hd
    | some d =>
      obtain ⟨hd, rfl⟩ := Project.mem_of_document? hfind
      cases happly : c.apply p d with
      | error e =>
        rw [Workbench.cleanDocuments, hfind] at h
        simp only [happly] at h
        cases h
      | ok d' =>
        have hid := hc p d d' happly
        obtain ⟨s₁, hsol₁, hrest⟩ := hb.cleanDocument hp hd hid happly hfind h
        have hkeep : ∀ e : Document, (if e.id = d.id then d' else e).id = e.id := by
          intro e
          split
          · next he => rw [hid, he]
          · rfl
        have hp₁ : ((p.mapDocuments fun e => if e.id = d.id then d' else e).documents.map
            (·.id)).Nodup := by
          rw [Project.documents_id_mapDocuments hkeep]
          exact hp
        obtain ⟨hsol, g, hq, hg⟩ := ih hrestIds hp₁ hrest
        refine ⟨hsol.trans hsol₁, g ∘ fun e => if e.id = d.id then d' else e, ?_, fun e he => ?_⟩
        · rw [hq, Project.mapDocuments_mapDocuments]
        · have hge := hg _ (List.mem_map_of_mem he)
          rw [hkeep e] at hge
          rw [Function.comp_apply]
          by_cases hed : e.id = d.id
          · -- This document is done: the rest of the run leaves it alone.
            obtain rfl := Project.eq_of_document_id hp he hd hed
            rw [if_neg hnot] at hge
            rw [if_pos List.mem_cons_self, hge, if_pos rfl]
            exact ⟨p, happly⟩
          · have hmem : e.id ∈ d.id :: ids ↔ e.id ∈ ids := by simp [hed]
            simp only [hmem, if_neg hed] at hge ⊢
            exact hge

theorem Lawful.cleanProject (hb : b.Lawful) {c : CleanUp} (hc : c.KeepsIds) {solution t : Solution}
    {id : ProjectId} {p : Project} {s s' : σ} (hfind : solution.project? id = some p)
    (hp : (p.documents.map (·.id)).Nodup) (h : b.cleanProject c solution id s = (.ok t, s')) :
    b.solution s' = b.solution s ∧ ∃ q, c.Cleaned p q ∧ t = solution.withProject q := by
  rw [Workbench.cleanProject, hfind] at h
  obtain ⟨q, s₁, hclean, hpure⟩ := (Job.bind_eq_ok_iff _ _ _ _ _).mp h
  obtain ⟨rfl, rfl⟩ := (Job.pure_eq_ok_iff _ _ _ _).mp hpure
  have hids : ((p.documents.filter (·.isEditable)).map (·.id)).Nodup :=
    hp.sublist ((List.filter_sublist).map _)
  obtain ⟨hsol, g, rfl, hg⟩ := hb.cleanDocuments hc hids hp hclean
  refine ⟨hsol, _, ⟨g, rfl, fun d hd => ?_⟩, rfl⟩
  have hmem : d.id ∈ (p.documents.filter (·.isEditable)).map (·.id) ↔ d.isEditable = true := by
    rw [List.mem_map]
    constructor
    · rintro ⟨e, he, hid⟩
      obtain ⟨he, hedit⟩ := List.mem_filter.mp he
      rw [Project.eq_of_document_id hp hd he hid.symm]
      exact hedit
    · exact fun hedit => ⟨d, List.mem_filter.mpr ⟨hd, hedit⟩, rfl⟩
  have hgd := hg d hd
  simp only [hmem] at hgd
  exact hgd

/-- A clean-up that succeeds put the cleaned project into the solution. -/
theorem Lawful.cleanOne (hb : b.Lawful) {c : CleanUp} (hc : c.KeepsIds) {t : Solution}
    {id : ProjectId} {p : Project} {s s' : σ} (hfind : (b.solution s).project? id = some p)
    (hp : (p.documents.map (·.id)).Nodup) (h : b.cleanOne [c] id s = (.ok t, s')) :
    ∃ q, c.Cleaned p q ∧ b.solution s' = (b.solution s).withProject q := by
  obtain ⟨_, _, hcurrent, h⟩ := (Job.bind_eq_ok_iff _ _ _ _ _).mp h
  cases hcurrent
  rw [hfind] at h
  obtain ⟨_, s₁, hpre, h⟩ := (Job.bind_eq_ok_iff _ _ _ _ _).mp h
  obtain ⟨t', s₂, hclean, h⟩ := (Job.bind_eq_ok_iff _ _ _ _ _).mp h
  obtain ⟨_, s₃, hcommit, hpure⟩ := (Job.bind_eq_ok_iff _ _ _ _ _).mp h
  obtain ⟨rfl, rfl⟩ := (Job.pure_eq_ok_iff _ _ _ _).mp hpure
  obtain ⟨t₁, s₄, hprojects, hpure⟩ := (Job.bind_eq_ok_iff _ _ _ _ _).mp hclean
  obtain ⟨rfl, rfl⟩ := (Job.pure_eq_ok_iff _ _ _ _).mp hpure
  obtain ⟨t₂, s₅, hproject, hpure⟩ := (Job.bind_eq_ok_iff _ _ _ _ _).mp hprojects
  obtain ⟨rfl, rfl⟩ := (Job.pure_eq_ok_iff _ _ _ _).mp hpure
  obtain ⟨-, q, hq, rfl⟩ := hb.cleanProject hc hfind hp hproject
  exact ⟨q, hq, hb.commit_ok _ _ _ hcommit⟩

/-- A clean-up succeeds if the project compiles, its documents can be cleaned up and the outcome is
taken. -/
theorem cleanOne_of_ok {c : CleanUp} {id : ProjectId} {p q : Project} {s s' : σ}
    (hfind : (b.solution s).project? id = some p) (hcompile : b.compile p s = (.ok (), s))
    (hdocuments : b.cleanDocuments c ((p.documents.filter (·.isEditable)).map (·.id)) p s =
      (.ok q, s))
    (hcommit : b.commit ((b.solution s).withProject q) s = (.ok (), s')) :
    b.cleanOne [c] id s = (.ok ((b.solution s).withProject q), s') := by
  have hproject : b.cleanProject c (b.solution s) id s =
      (.ok ((b.solution s).withProject q), s) := by
    rw [Workbench.cleanProject, hfind]
    exact Job.bind_of_ok hdocuments
  have hpre : b.requirePreconditions (b.solution s) [id] s = (.ok (), s) := by
    rw [requirePreconditions, hfind]
    exact Job.bind_of_ok ((requireCompiles_eq_ok_iff _ _ _ _ ()).mpr hcompile)
  have hprojects : b.cleanProjects c [id] (b.solution s) s =
      (.ok ((b.solution s).withProject q), s) := Job.bind_of_ok hproject
  have hcleanUps : [c].foldlM (fun solution c => b.cleanProjects c [id] solution) (b.solution s) s =
      (.ok ((b.solution s).withProject q), s) := Job.bind_of_ok hprojects
  have hread : b.current s = (.ok (b.solution s), s) := rfl
  refine (Job.bind_of_ok hread).trans ?_
  rw [hfind]
  refine (Job.bind_of_ok hpre).trans ?_
  refine (Job.bind_of_ok hcleanUps).trans ?_
  exact Job.bind_of_ok hcommit

end Workbench

/-! ## Steps of the pipeline -/

namespace Shelf

variable {σ α : Type}

theorem onHost_eq_ok_iff (job : Job σ α) (shelf shelf' : Shelf σ) (a : α) :
    onHost job shelf = (.ok a, shelf') ↔
      ∃ host, job shelf.host = (.ok a, host) ∧ shelf' = { shelf with host } := by
  show ((job shelf.host).1, { shelf with host := (job shelf.host).2 }) = (Except.ok a, shelf') ↔ _
  rcases job shelf.host with ⟨r, host⟩
  constructor
  · intro h
    cases h
    exact ⟨host, rfl, rfl⟩
  · rintro ⟨_, h, rfl⟩
    cases h
    rfl

theorem addPackages_eq_ok_iff (packages : List Package) (shelf shelf' : Shelf σ) (u : Unit) :
    addPackages packages shelf = (.ok u, shelf') ↔
      ∃ library, shelf.library.addAll packages = .ok library ∧
        shelf' = { shelf with library } := by
  induction packages generalizing shelf with
  | nil =>
    rw [addPackages, Job.pure_eq_ok_iff]
    constructor
    · rintro ⟨-, rfl⟩
      exact ⟨shelf.library, rfl, rfl⟩
    · rintro ⟨_, h, rfl⟩
      cases h
      exact ⟨rfl, rfl⟩
  | cons package packages ih =>
    have hstep : addPackages (package :: packages) shelf =
        match shelf.library.add package with
        | .ok library => addPackages packages { shelf with library }
        | .error e => (.error e, shelf) := by
      have hlift : (liftM (shelf.library.add package) : Job (Shelf σ) Library) shelf =
          (shelf.library.add package, shelf) := rfl
      rw [addPackages, Job.bind_apply]
      show (liftM (shelf.library.add package) >>= fun library =>
        set { shelf with library } >>= fun _ => addPackages packages : Job (Shelf σ) Unit) shelf = _
      rw [Job.bind_apply, hlift]
      cases shelf.library.add package <;> rfl
    have hall : shelf.library.addAll (package :: packages) =
        shelf.library.add package >>= fun library => library.addAll packages := rfl
    rw [hstep, hall]
    cases shelf.library.add package with
    | error e => exact ⟨fun h => (nomatch h), fun ⟨_, h, _⟩ => (nomatch h)⟩
    | ok library => exact ih { shelf with library }

end Shelf

namespace Pipeline

variable {σ : Type} {b : Workbench σ} {id : ProjectId} {shelf shelf' : Shelf σ} {p : Project}

theorem clean_eq_ok (hb : b.Lawful) {c : CleanUp} (hc : c.KeepsIds) {u : Unit}
    (hfind : (b.solution shelf.host).project? id = some p)
    (hp : (p.documents.map (·.id)).Nodup) (h : clean b c id shelf = (.ok u, shelf')) :
    ∃ q, c.Cleaned p q ∧ b.solution shelf'.host = (b.solution shelf.host).withProject q ∧
      shelf' = { shelf with host := shelf'.host } := by
  obtain ⟨t, ht⟩ := (Job.discard_eq_ok_iff _ _ _ _).mp h
  obtain ⟨host, hclean, rfl⟩ := (Shelf.onHost_eq_ok_iff _ _ _ _).mp ht
  obtain ⟨q, hq, hsol⟩ := hb.cleanOne hc hfind hp hclean
  exact ⟨q, hq, hsol, rfl⟩

theorem onHost_of_unchanged {α : Type} {job : Job σ α} {a : α}
    (h : job shelf.host = (.ok a, shelf.host)) : Shelf.onHost job shelf = (.ok a, shelf) :=
  (Shelf.onHost_eq_ok_iff _ _ _ _).mpr ⟨shelf.host, h, rfl⟩

/-- Reading the project changes nothing. -/
theorem onHost_currentProject (hfind : (b.solution shelf.host).project? id = some p) :
    Shelf.onHost (b.currentProject id) shelf = (.ok p, shelf) := by
  have hread : b.current shelf.host = (.ok (b.solution shelf.host), shelf.host) := rfl
  refine onHost_of_unchanged ((Job.bind_of_ok hread).trans ?_)
  rw [hfind]
  rfl

/-- A pass that succeeds was accepted by the compiler, its outcome is in the solution, and its
packages are in the library. -/
theorem extract_eq_ok (hb : b.Lawful) {stage : String} {pass : Walker → Except Error Extracted}
    {u : Unit} (hfind : (b.solution shelf.host).project? id = some p)
    (h : extract b stage pass id shelf = (.ok u, shelf')) :
    ∃ x, pass (Walker.ofProject p) = .ok x ∧ (∃ s, (b.compile x.project s).1 = .ok ()) ∧
      b.solution shelf'.host = (b.solution shelf.host).withProject x.project ∧
      shelf.library.addAll x.packages = .ok shelf'.library ∧
      shelf'.finished = shelf.finished := by
  obtain ⟨solution, _, hread, h⟩ := (Job.bind_eq_ok_iff _ _ _ _ _).mp h
  obtain ⟨_, hcurrent, rfl⟩ := (Shelf.onHost_eq_ok_iff _ _ _ _).mp hread
  cases hcurrent
  rw [hfind] at h
  obtain ⟨x, _, hpass, h⟩ := (Job.bind_eq_ok_iff _ _ _ _ _).mp h
  obtain ⟨hx, rfl⟩ := (Job.lift_eq_ok_iff _ _ _ _).mp hpass
  obtain ⟨_, _, hensure, h⟩ := (Job.bind_eq_ok_iff _ _ _ _ _).mp h
  obtain ⟨host₁, hcompile, rfl⟩ := (Shelf.onHost_eq_ok_iff _ _ _ _).mp hensure
  obtain ⟨_, _, hhand, h⟩ := (Job.bind_eq_ok_iff _ _ _ _ _).mp h
  obtain ⟨host₂, hcommit, rfl⟩ := (Shelf.onHost_eq_ok_iff _ _ _ _).mp hhand
  obtain ⟨library, hadd, rfl⟩ := (Shelf.addPackages_eq_ok_iff _ _ _ _).mp h
  have hcompiled := (Workbench.requireCompiles_eq_ok_iff _ _ _ _ _).mp hcompile
  refine ⟨x, hx, ⟨shelf.host, congrArg Prod.fst hcompiled⟩, ?_, hadd, rfl⟩
  exact hb.commit_ok _ _ _ hcommit

/-- A pass succeeds if what it leaves compiles and is taken, and the library takes its packages. -/
theorem extract_of_ok (stage : String) {pass : Walker → Except Error Extracted} {x : Extracted}
    {host₁ host₂ : σ} {library : Library} (hfind : (b.solution shelf.host).project? id = some p)
    (hx : pass (Walker.ofProject p) = .ok x)
    (hcompile : b.compile x.project shelf.host = (.ok (), host₁))
    (hcommit : b.commit ((b.solution shelf.host).withProject x.project) host₁ = (.ok (), host₂))
    (hadd : shelf.library.addAll x.packages = .ok library) :
    extract b stage pass id shelf = (.ok (), { shelf with host := host₂, library }) := by
  have hread : b.current shelf.host = (.ok (b.solution shelf.host), shelf.host) := rfl
  have hensure : b.ensureCompiles x.project stage shelf.host = (.ok (), host₁) :=
    (Workbench.requireCompiles_eq_ok_iff _ _ _ _ _).mpr hcompile
  refine (Job.bind_of_ok (onHost_of_unchanged hread)).trans ?_
  rw [hfind]
  refine (Job.bind_of_ok ((Job.lift_eq_ok_iff _ _ _ _).mpr ⟨hx, rfl⟩)).trans ?_
  refine (Job.bind_of_ok ((Shelf.onHost_eq_ok_iff _ _ _ _).mpr ⟨_, hensure, rfl⟩)).trans ?_
  refine (Job.bind_of_ok ((Shelf.onHost_eq_ok_iff _ _ _ _).mpr ⟨_, hcommit, rfl⟩)).trans ?_
  exact (Shelf.addPackages_eq_ok_iff _ _ _ _).mpr ⟨library, hadd, rfl⟩

end Pipeline

/-! ## Packing a project -/

/-- The stages that a project goes through when it is packed. -/
structure Packing (settings : Settings) (p : Project) where
  /-- With its top-level types partial. -/
  partials : Project
  /-- Without regions. -/
  regionless : Project
  /-- Without needless usings. -/
  tidy : Project
  extensions : Extracted
  members : Extracted
  containers : Extracted
  /-- What is left in the end. -/
  stripped : Project
  partials_cleaned : CleanUp.ensurePartial.Cleaned p partials
  regionless_cleaned : CleanUp.removeRegions.Cleaned partials regionless
  tidy_cleaned : (CleanUp.removeUsings settings.usings).Cleaned regionless tidy
  extensions_eq : Extraction.extensions settings.policy settings.layout (Walker.ofProject tidy) =
    .ok extensions
  members_eq : Extraction.members settings.policy settings.layout
    (Walker.ofProject extensions.project) = .ok members
  containers_eq : Extraction.containers settings.policy settings.layout
    (Walker.ofProject members.project) = .ok containers
  stripped_cleaned : (CleanUp.removeUsings settings.usings).Cleaned containers.project stripped

namespace Packing

variable {settings : Settings} {p : Project}

/-- The packages of the three passes, in the order in which they were added. -/
def packages (t : Packing settings p) : List Package :=
  t.extensions.packages ++ t.members.packages ++ t.containers.packages

/-- The compiler accepted what each pass left. -/
structure Compiled {σ : Type} (b : Workbench σ) (t : Packing settings p) : Prop where
  extensions : ∃ s, (b.compile t.extensions.project s).1 = .ok ()
  members : ∃ s, (b.compile t.members.project s).1 = .ok ()
  containers : ∃ s, (b.compile t.containers.project s).1 = .ok ()

variable (t : Packing settings p) (hflags : CleanUp.FlagsUsings settings.usings) (hp : p.UniqueIds)
include hflags hp

theorem tidied : t.tidy.Tidied p := by
  have h₁ := t.partials_cleaned.tidied CleanUp.tidies_ensurePartial hp
  have h₂ := t.regionless_cleaned.tidied CleanUp.tidies_removeRegions (h₁.uniqueIds hp)
  have h₃ := t.tidy_cleaned.tidied hflags.tidies (h₂.uniqueIds (h₁.uniqueIds hp))
  exact h₃.trans (h₂.trans h₁)

theorem uniqueIds_tidy : t.tidy.UniqueIds := (t.tidied hflags hp).uniqueIds hp

theorem uniqueIds_extensions : t.extensions.project.UniqueIds := by
  have htidy := t.uniqueIds_tidy hflags hp
  obtain ⟨gone, h⟩ := Extraction.erases_extensions _ _ _ _ htidy t.extensions_eq
  rw [h]
  exact htidy.erase gone

theorem uniqueIds_members : t.members.project.UniqueIds := by
  have hextensions := t.uniqueIds_extensions hflags hp
  obtain ⟨gone, h⟩ := Extraction.erases_members _ _ _ _ hextensions t.members_eq
  rw [h]
  exact hextensions.erase gone

theorem uniqueIds_containers : t.containers.project.UniqueIds := by
  have hmembers := t.uniqueIds_members hflags hp
  obtain ⟨gone, h⟩ := Extraction.erases_containers _ _ _ _ hmembers t.containers_eq
  rw [h]
  exact hmembers.erase gone

theorem stripped_tidied : t.stripped.Tidied t.containers.project :=
  t.stripped_cleaned.tidied hflags.tidies (t.uniqueIds_containers hflags hp)

end Packing

namespace Pipeline

variable {σ : Type} {b : Workbench σ} {id : ProjectId} {shelf shelf' : Shelf σ} {p q : Project}

/-- Where a run has got to: the project is in the solution as it now is, nothing else of the
solution has changed, the library holds the packages so far, and no project was finished. -/
structure Reached (b : Workbench σ) (id : ProjectId) (start shelf : Shelf σ) (p : Project)
    (packages : List Package) : Prop where
  uniqueIds : p.UniqueIds
  project_id : p.id = id
  solution_agrees : ∀ r : Project, r.id = id →
    (b.solution shelf.host).withProject r = (b.solution start.host).withProject r
  project_eq : (b.solution shelf.host).project? id = some p
  library_eq : start.library.addAll packages = .ok shelf.library
  finished_eq : shelf.finished = start.finished

theorem Reached.clean (hb : b.Lawful) {start : Shelf σ} {packages : List Package}
    (h : Reached b id start shelf p packages) {c : CleanUp} (hids : c.KeepsIds) (hc : c.Tidies)
    {u : Unit} (hrun : Pipeline.clean b c id shelf = (.ok u, shelf')) :
    ∃ q, c.Cleaned p q ∧ Reached b id start shelf' q packages ∧
      b.solution shelf'.host = (b.solution start.host).withProject q := by
  obtain ⟨q, hq, hsol, hshelf⟩ := clean_eq_ok hb hids h.project_eq h.uniqueIds.documents hrun
  have hid : q.id = id := by
    obtain ⟨g, rfl, -⟩ := hq
    exact h.project_id
  refine ⟨q, hq,
    ⟨(hq.tidied hc h.uniqueIds).uniqueIds h.uniqueIds, hid, fun r hr => ?_, ?_, ?_, ?_⟩,
    hsol.trans (h.solution_agrees q hid)⟩
  · rw [hsol, Solution.withProject_withProject (hr.trans hid.symm), h.solution_agrees r hr]
  · rw [hsol, Solution.project?_withProject h.project_eq hid]
  · rw [hshelf]
    exact h.library_eq
  · rw [hshelf]
    exact h.finished_eq

theorem Reached.extract (hb : b.Lawful) {start : Shelf σ} {packages : List Package}
    (h : Reached b id start shelf p packages) {stage : String}
    {pass : Walker → Except Error Extracted} (hpass : Extraction.Erases pass) {u : Unit}
    (hrun : Pipeline.extract b stage pass id shelf = (.ok u, shelf')) :
    ∃ x, pass (Walker.ofProject p) = .ok x ∧ (∃ s, (b.compile x.project s).1 = .ok ()) ∧
      Reached b id start shelf' x.project (packages ++ x.packages) ∧
      b.solution shelf'.host = (b.solution start.host).withProject x.project := by
  obtain ⟨x, hx, hcompile, hsol, hadd, hfinished⟩ := extract_eq_ok hb h.project_eq hrun
  obtain ⟨gone, herase⟩ := hpass p x h.uniqueIds hx
  have hid : x.project.id = id := by
    rw [herase]
    exact h.project_id
  refine ⟨x, hx, hcompile, ⟨?_, hid, fun r hr => ?_, ?_, ?_, hfinished.trans h.finished_eq⟩,
    hsol.trans (h.solution_agrees x.project hid)⟩
  · rw [herase]
    exact h.uniqueIds.erase gone
  · rw [hsol, Solution.withProject_withProject (hr.trans hid.symm), h.solution_agrees r hr]
  · rw [hsol, Solution.project?_withProject h.project_eq hid]
  · rw [Library.addAll_append, h.library_eq]
    exact hadd

/-- A run that succeeds went through all stages, and the compiler accepted what the passes left. -/
theorem packProject_eq_ok {settings : Settings} (hb : b.Lawful)
    (hflags : CleanUp.FlagsUsings settings.usings) (hp : p.UniqueIds)
    (hfind : (b.solution shelf.host).project? id = some p)
    (h : packProject settings b id shelf = (.ok q, shelf')) :
    ∃ t : Packing settings p, t.stripped = q ∧ t.Compiled b ∧
      b.solution shelf'.host = (b.solution shelf.host).withProject q ∧
      (b.solution shelf'.host).project? id = some q ∧
      shelf.library.addAll t.packages = .ok shelf'.library ∧
      shelf'.finished = shelf.finished ++ [q] := by
  have hstart : Reached b id shelf shelf p [] :=
    ⟨hp, (Solution.mem_of_project? hfind).2, fun _ _ => rfl, hfind, rfl, rfl⟩
  obtain ⟨_, shelf₀, hlook, h₀⟩ := (Job.bind_eq_ok_iff _ _ _ _ _).mp h
  obtain ⟨_, hlook⟩ := (Job.discard_eq_ok_iff _ _ _ _).mp hlook
  rw [onHost_currentProject hfind, Prod.mk.injEq] at hlook
  rw [← hlook.2] at h₀
  obtain ⟨_, shelf₁, hpartial, h₁⟩ := (Job.bind_eq_ok_iff _ _ _ _ _).mp h₀
  obtain ⟨_, shelf₂, hregions, h₂⟩ := (Job.bind_eq_ok_iff _ _ _ _ _).mp h₁
  obtain ⟨_, shelf₃, husings, h₃⟩ := (Job.bind_eq_ok_iff _ _ _ _ _).mp h₂
  obtain ⟨_, shelf₄, hextensions, h₄⟩ := (Job.bind_eq_ok_iff _ _ _ _ _).mp h₃
  obtain ⟨_, shelf₅, hmembers, h₅⟩ := (Job.bind_eq_ok_iff _ _ _ _ _).mp h₄
  obtain ⟨_, shelf₆, hcontainers, h₆⟩ := (Job.bind_eq_ok_iff _ _ _ _ _).mp h₅
  obtain ⟨_, shelf₇, hlast, h₇⟩ := (Job.bind_eq_ok_iff _ _ _ _ _).mp h₆
  obtain ⟨stripped, shelf₈, hread, h₈⟩ := (Job.bind_eq_ok_iff _ _ _ _ _).mp h₇
  obtain ⟨_, shelf₉, hfinish, hpure⟩ := (Job.bind_eq_ok_iff _ _ _ _ _).mp h₈
  obtain ⟨hq, hshelf⟩ := (Job.pure_eq_ok_iff _ _ _ _).mp hpure
  obtain ⟨p₁, hp₁, r₁, -⟩ :=
    hstart.clean hb CleanUp.keepsIds_ensurePartial CleanUp.tidies_ensurePartial hpartial
  obtain ⟨p₂, hp₂, r₂, -⟩ :=
    r₁.clean hb CleanUp.keepsIds_removeRegions CleanUp.tidies_removeRegions hregions
  obtain ⟨p₃, hp₃, r₃, -⟩ :=
    r₂.clean hb (CleanUp.keepsIds_removeUsings _) hflags.tidies husings
  obtain ⟨x₁, hx₁, hc₁, r₄, -⟩ := r₃.extract hb (Extraction.erases_extensions _ _) hextensions
  obtain ⟨x₂, hx₂, hc₂, r₅, -⟩ := r₄.extract hb (Extraction.erases_members _ _) hmembers
  obtain ⟨x₃, hx₃, hc₃, r₆, -⟩ :=
    r₅.extract hb (Extraction.erases_containers _ _) hcontainers
  obtain ⟨p₄, hp₄, r₇, hsol⟩ :=
    r₆.clean hb (CleanUp.keepsIds_removeUsings _) hflags.tidies hlast
  rw [onHost_currentProject r₇.project_eq, Prod.mk.injEq, Except.ok.injEq] at hread
  obtain ⟨hstripped, hshelf₈⟩ := hread
  have hmodify : { shelf₈ with finished := shelf₈.finished ++ [stripped] } = shelf₉ :=
    congrArg Prod.snd hfinish
  rw [← hshelf, ← hmodify, ← hshelf₈, ← hq, ← hstripped]
  refine ⟨⟨p₁, p₂, p₃, x₁, x₂, x₃, p₄, hp₁, hp₂, hp₃, hx₁, hx₂, hx₃, hp₄⟩, rfl,
    ⟨hc₁, hc₂, hc₃⟩, hsol, r₇.project_eq, r₇.library_eq, ?_⟩
  exact congrArg (· ++ [p₄]) r₇.finished_eq

/-- Packing a project leaves the other projects as they were. -/
theorem mem_projects_packProject {settings : Settings} (hb : b.Lawful)
    (hflags : CleanUp.FlagsUsings settings.usings) (hp : p.UniqueIds)
    (hfind : (b.solution shelf.host).project? id = some p)
    (h : packProject settings b id shelf = (.ok q, shelf')) :
    (b.solution shelf'.host).projectIds = (b.solution shelf.host).projectIds ∧
      ∀ r : Project, r.id ≠ id →
        (r ∈ (b.solution shelf'.host).projects ↔ r ∈ (b.solution shelf.host).projects) := by
  obtain ⟨_, -, -, hsolution, hfound, -⟩ := packProject_eq_ok hb hflags hp hfind h
  have hq : q.id = id := (Solution.mem_of_project? hfound).2
  rw [hsolution]
  refine ⟨Solution.projectIds_withProject q, fun r hr => ?_⟩
  exact Solution.mem_withProject_iff_of_ne (hq ▸ hr)

/-- After a run that succeeds every project either was not to be packed and is as it was, or is what
packing left of one of before. -/
theorem packProjects_eq_ok {settings : Settings} (hb : b.Lawful)
    (hflags : CleanUp.FlagsUsings settings.usings) {ids : List ProjectId} {u : Unit}
    (hids : ids.Nodup) (hknown : ∀ id ∈ ids, id ∈ (b.solution shelf.host).projectIds)
    (hprojects : ∀ p ∈ (b.solution shelf.host).projects, p.id ∈ ids → p.UniqueIds)
    (h : packProjects settings b ids shelf = (.ok u, shelf')) :
    (b.solution shelf'.host).projectIds = (b.solution shelf.host).projectIds ∧
      ∀ q ∈ (b.solution shelf'.host).projects,
        q.id ∉ ids ∧ q ∈ (b.solution shelf.host).projects ∨
          q.id ∈ ids ∧ ∃ p ∈ (b.solution shelf.host).projects, p.id = q.id ∧
            ∃ t : Packing settings p, t.stripped = q ∧ t.Compiled b := by
  induction ids generalizing shelf with
  | nil =>
    obtain ⟨-, rfl⟩ := (Job.pure_eq_ok_iff _ _ _ _).mp h
    exact ⟨rfl, fun q hq => .inl ⟨List.not_mem_nil, hq⟩⟩
  | cons id ids ih =>
    obtain ⟨hid, hrestIds⟩ := List.nodup_cons.mp hids
    obtain ⟨_, shelf₁, hfirst, hrest⟩ := (Job.bind_eq_ok_iff _ _ _ _ _).mp h
    obtain ⟨q, hfirst⟩ := (Job.discard_eq_ok_iff _ _ _ _).mp hfirst
    obtain ⟨p, hfind⟩ := Solution.exists_project? (hknown id List.mem_cons_self)
    obtain ⟨hp, rfl⟩ := Solution.mem_of_project? hfind
    have hunique := hprojects p hp List.mem_cons_self
    obtain ⟨t, ht, hcompiled, hsolution, hfound, -⟩ :=
      packProject_eq_ok hb hflags hunique hfind hfirst
    obtain ⟨hsame, hothers⟩ := mem_projects_packProject hb hflags hunique hfind hfirst
    have hq : q.id = p.id := (Solution.mem_of_project? hfound).2
    -- The projects that are still to be packed were not touched.
    obtain ⟨hsame', hleft⟩ := ih hrestIds
      (fun i hi => hsame ▸ hknown i (List.mem_cons_of_mem _ hi))
      (fun r hr hi => hprojects r ((hothers r fun heq => hid (heq ▸ hi)).mp hr)
        (List.mem_cons_of_mem _ hi))
      hrest
    refine ⟨hsame'.trans hsame, fun r hr => ?_⟩
    rcases hleft r hr with ⟨hnot, hr⟩ | ⟨hi, p', hp', hid', ht'⟩
    · rw [hsolution] at hr
      rcases Solution.mem_withProject hr with ⟨-, rfl⟩ | ⟨hne, hr⟩
      · exact .inr ⟨hq ▸ List.mem_cons_self, p, hp, hq.symm, t, ht, hcompiled⟩
      · rw [hq] at hne
        exact .inl ⟨fun hi => (List.mem_cons.mp hi).elim hne hnot, hr⟩
    · -- What is left of the first project is not packed again.
      have hne : p'.id ≠ p.id := fun heq => hid (heq ▸ hid' ▸ hi)
      exact .inr ⟨List.mem_cons_of_mem _ hi, p', (hothers p' hne).mp hp', hid', ht'⟩

end Pipeline
end Unweave

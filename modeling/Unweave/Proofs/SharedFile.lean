import Mathlib.Data.Set.Function
import Unweave.Proofs.Rewriting
import Unweave.Proofs.SolutionFormat
import Unweave.SolutionFile

/-!
# Sharing a solution file

Parties open one solution file when they like and hand in solutions when they like, and each call
is one step.  If digests tell the solutions apart that turn up, a call is taken exactly if it keeps
the projects and the file holds the caller's solution, so no party writes over what it has not seen
(`Sharing.call_of_stored`, `Sharing.call_of_not_stored`).

What is known of every state of a run is `Sharing.Sound`: each party has the digest of the solution
it holds, and that solution and the one in the file turned up before.
-/

namespace Unweave

/-! ## The solution in a file -/

/-- The solution that a file holds, if it can be read as one. -/
def Disk.solution? (d : Disk) (path : String) : Option Solution :=
  match d.readText path with
  | .ok text => Solution.parse? text
  | .error _ => none

namespace Disk

variable {d : Disk} {path : String} {s : Solution}

theorem solution?_eq_some_iff : d.solution? path = some s ↔
    ∃ text, d.readText path = .ok text ∧ Solution.parse? text = some s := by
  cases hread : d.readText path <;> simp [solution?, hread]

theorem solution?_of_readText {text : String} (h : d.readText path = .ok text) :
    d.solution? path = Solution.parse? text := by
  rw [solution?, h]

/-- Only a file holds a solution: a directory cannot be read and a device reads as empty. -/
theorem exists_find_of_solution? (h : d.solution? path = some s) :
    ∃ l content, d.find path = .ok (l, .file content) := by
  obtain ⟨text, hread, hparse⟩ := solution?_eq_some_iff.1 h
  obtain ⟨bytes, hbytes, htext⟩ := (exceptBind_eq_ok_iff _ _ _).mp hread
  obtain ⟨⟨l, entry⟩, hfind, hentry⟩ := (exceptBind_eq_ok_iff _ _ _).mp hbytes
  cases entry with
  | file content => exact ⟨l, content, hfind⟩
  | directory => cases hentry
  | device dev =>
    cases hentry
    have hutf : String.fromUTF8? ByteArray.empty = some "" := by decide +kernel
    have hnone : Solution.parse? "" = none := by decide +kernel
    rw [hutf] at htext
    cases htext
    rw [hnone] at hparse
    cases hparse

theorem solution?_writeText (h : d.solution? path = some s) {new : Solution}
    (hdepth : new.toJson.depth ≤ 127) :
    ∃ d', d.writeText path new.fileText = .ok d' ∧ d'.solution? path = some new := by
  obtain ⟨l, content, hfind⟩ := exists_find_of_solution? h
  obtain ⟨d', hwrite, hread⟩ := exists_writeText hfind new.fileText
  refine ⟨d', hwrite, ?_⟩
  rw [solution?_of_readText hread]
  exact new.parse?_fileText hdepth

end Disk

/-! ## One call -/

namespace SolutionFile

/-- The file still holds what the party's digest names. -/
def Current (f : SolutionFile) (d : Disk) : Prop :=
  (d.solution? f.path).map (·.snapshotId) = some f.base

variable {d : Disk} {path : String} {f : SolutionFile} {new : Solution}

theorem open?_eq_ok (h : open? d path = .ok f) :
    f.path = path ∧ d.solution? path = some f.solution ∧ f.base = f.solution.snapshotId := by
  obtain ⟨_, -, h⟩ := (exceptBind_eq_ok_iff _ _ _).mp h
  split at h
  · cases h
  · next text htext =>
    split at h
    · cases h
    · next s hs =>
      cases h
      exact ⟨rfl, (Disk.solution?_of_readText htext).trans hs, rfl⟩

theorem open?_of_solution? {s : Solution} (hvalid : validate d path = .ok ())
    (h : d.solution? path = some s) : open? d path = .ok ⟨path, s, s.snapshotId⟩ := by
  obtain ⟨text, hread, hparse⟩ := Disk.solution?_eq_some_iff.1 h
  rw [open?, hvalid]
  simp only [bind, Except.bind, hread, hparse]

theorem requireCurrent_of_current (h : f.Current d) : f.requireCurrent d = .ok () := by
  obtain ⟨s, hs, hdigest⟩ := Option.map_eq_some_iff.1 h
  obtain ⟨text, hread, hparse⟩ := Disk.solution?_eq_some_iff.1 hs
  simp only [requireCurrent, hread, hparse, Option.map_some, hdigest, if_true]

theorem requireCurrent_of_not_current (h : ¬ f.Current d) :
    ∃ e, f.requireCurrent d = .error e := by
  cases hread : d.readText f.path with
  | error e =>
    refine ⟨.commitRejected (f.path ++ ": " ++ e.message), ?_⟩
    simp only [requireCurrent, hread]
  | ok text =>
    rw [Current, Disk.solution?_of_readText hread] at h
    refine ⟨.commitRejected (f.path ++ " changed on disk since it was loaded"), ?_⟩
    simp only [requireCurrent, hread]
    rw [if_neg h]

section Bench

variable (compiler : Compiler Disk)

theorem bench_commit_of_other_projects {e : Error}
    (h : f.solution.requireSameProjects new = .error e) :
    (bench compiler).commit new (f, d) = (.error e, (f, d)) := by
  have hcommit : f.commit d new = .error e := by
    rw [commit, h]
    rfl
  simp only [bench, hcommit]

theorem bench_commit_of_not_current (hsame : f.solution.requireSameProjects new = .ok ())
    (h : ¬ f.Current d) : ∃ e, (bench compiler).commit new (f, d) = (.error e, (f, d)) := by
  obtain ⟨e, he⟩ := requireCurrent_of_not_current h
  have hcommit : f.commit d new = .error e := by
    rw [commit, hsame, he]
    rfl
  exact ⟨e, by simp only [bench, hcommit]⟩

theorem bench_commit_of_current (hsame : f.solution.requireSameProjects new = .ok ())
    (h : f.Current d) (hdepth : new.toJson.depth ≤ 127) :
    ∃ d', (bench compiler).commit new (f, d) =
        (.ok (), ({ f with solution := new, base := new.snapshotId }, d')) ∧
      d'.solution? f.path = some new := by
  obtain ⟨s, hs, -⟩ := Option.map_eq_some_iff.1 h
  obtain ⟨d', hwrite, hstored⟩ := Disk.solution?_writeText hs hdepth
  have hcommit : f.commit d new = .ok ({ f with solution := new, base := new.snapshotId }, d') := by
    rw [commit, hsame, requireCurrent_of_current h]
    simp only [bind, Except.bind, hwrite]
  exact ⟨d', by simp only [bench, hcommit], hstored⟩

end Bench

end SolutionFile

/-! ## Parties that share a file -/

/-- A disk and the parties that opened a file on it. -/
structure Sharing where
  disk : Disk
  parties : List SolutionFile

namespace Sharing

inductive Act where
  /-- One more party opens the file. -/
  | join
  /-- A party hands in a solution. -/
  | hand (party : Nat) (new : Solution)

/-- What a party is answered, and what comes of its call. -/
def call (compiler : Compiler Disk) (c : Sharing) (i : Nat) (new : Solution) :
    Option (Except Error Unit × Sharing) :=
  c.parties[i]?.map fun f =>
    let (answer, f, d) := (SolutionFile.bench compiler).commit new (f, c.disk)
    (answer, { disk := d, parties := c.parties.set i f })

def step (compiler : Compiler Disk) (path : String) (c : Sharing) : Act → Sharing
  | .join => { c with parties := c.parties ++ (SolutionFile.open? c.disk path).toOption.toList }
  | .hand i new => ((c.call compiler i new).map (·.2)).getD c

def run (compiler : Compiler Disk) (path : String) (c : Sharing) (acts : List Act) : Sharing :=
  acts.foldl (step compiler path) c

theorem run_cons (compiler : Compiler Disk) (path : String) (c : Sharing) (act : Act)
    (acts : List Act) :
    c.run compiler path (act :: acts) = (c.step compiler path act).run compiler path acts := rfl

theorem run_nil (compiler : Compiler Disk) (path : String) (c : Sharing) :
    c.run compiler path [] = c := rfl

theorem run_concat (compiler : Compiler Disk) (path : String) (c : Sharing) (acts : List Act)
    (act : Act) :
    c.run compiler path (acts ++ [act]) = (c.run compiler path acts).step compiler path act :=
  List.foldl_concat ..

/-- The party's call is taken. -/
def Takes (compiler : Compiler Disk) (c : Sharing) (i : Nat) (new : Solution) : Prop :=
  ∃ c', c.call compiler i new = some (.ok (), c')

/-- The solution was in the file at the start, or was handed in. -/
def TurnsUp (d : Disk) (path : String) (acts : List Act) (s : Solution) : Prop :=
  d.solution? path = some s ∨ ∃ i, Act.hand i s ∈ acts

/-- Each party has the digest of its own solution, and no solution but those of `S` is held. -/
structure Sound (path : String) (S : Set Solution) (c : Sharing) : Prop where
  party : ∀ f ∈ c.parties,
    f.path = path ∧ f.base = f.solution.snapshotId ∧ f.solution ∈ S
  stored : ∀ s, c.disk.solution? path = some s → s ∈ S

variable {compiler : Compiler Disk} {path : String} {S : Set Solution} {c : Sharing} {i : Nat}
  {f : SolutionFile} {new : Solution}

section Call

variable (hf : c.parties[i]? = some f)
include hf

theorem call_of_commit {answer : Except Error Unit} {g : SolutionFile} {d : Disk}
    (h : (SolutionFile.bench compiler).commit new (f, c.disk) = (answer, (g, d))) :
    c.call compiler i new = some (answer, ⟨d, c.parties.set i g⟩) := by
  rw [call, hf]
  simp only [Option.map_some, h]

/-- A call that leaves its party and the disk as they were leaves everything so. -/
theorem call_of_unchanged {answer : Except Error Unit}
    (h : (SolutionFile.bench compiler).commit new (f, c.disk) = (answer, (f, c.disk))) :
    c.call compiler i new = some (answer, c) := by
  rw [call_of_commit hf h]
  obtain ⟨hi, rfl⟩ := List.getElem?_eq_some_iff.1 hf
  rw [List.set_getElem_self]

theorem call_of_other_projects {e : Error} (h : f.solution.requireSameProjects new = .error e) :
    c.call compiler i new = some (.error e, c) :=
  call_of_unchanged hf (SolutionFile.bench_commit_of_other_projects compiler h)

theorem call_of_not_current (hsame : f.solution.requireSameProjects new = .ok ())
    (h : ¬ f.Current c.disk) : ∃ e, c.call compiler i new = some (.error e, c) := by
  obtain ⟨e, he⟩ := SolutionFile.bench_commit_of_not_current compiler hsame h
  exact ⟨e, call_of_unchanged hf he⟩

theorem call_of_current (hsame : f.solution.requireSameProjects new = .ok ())
    (h : f.Current c.disk) (hdepth : new.toJson.depth ≤ 127) :
    ∃ d, c.call compiler i new =
        some (.ok (), ⟨d, c.parties.set i ⟨f.path, new, new.snapshotId⟩⟩) ∧
      d.solution? f.path = some new := by
  obtain ⟨d, hcommit, hstored⟩ := SolutionFile.bench_commit_of_current compiler hsame h hdepth
  exact ⟨d, call_of_commit hf hcommit, hstored⟩

/-- What a call can come to. -/
theorem call_cases (hdepth : new.toJson.depth ≤ 127) :
    (∃ e, c.call compiler i new = some (.error e, c)) ∨
    ∃ d, c.call compiler i new =
        some (.ok (), ⟨d, c.parties.set i ⟨f.path, new, new.snapshotId⟩⟩) ∧
      d.solution? f.path = some new := by
  cases hsame : f.solution.requireSameProjects new with
  | error e => exact .inl ⟨e, call_of_other_projects hf hsame⟩
  | ok _ =>
    by_cases h : f.Current c.disk
    · exact .inr (call_of_current hf hsame h hdepth)
    · exact .inl (call_of_not_current hf hsame h)

end Call

/-! ## Runs -/

theorem eq_ok_of_mem_toList {x : Except Error SolutionFile} (h : f ∈ x.toOption.toList) :
    x = .ok f := by
  cases x with
  | error e => cases h
  | ok g => rw [List.mem_singleton.1 h]

theorem step_join : c.step compiler path .join =
    { c with parties := c.parties ++ (SolutionFile.open? c.disk path).toOption.toList } := rfl

theorem step_hand {answer : Except Error Unit} {c' : Sharing}
    (h : c.call compiler i new = some (answer, c')) :
    c.step compiler path (.hand i new) = c' := by
  show ((c.call compiler i new).map (·.2)).getD c = c'
  rw [h]
  rfl

theorem step_hand_of_absent (h : c.parties[i]? = none) :
    c.step compiler path (.hand i new) = c := by
  show ((c.call compiler i new).map (·.2)).getD c = c
  rw [call, h]
  rfl

namespace Sound

theorem taken {d : Disk} (hc : c.Sound path S) (hnew : new ∈ S)
    (hstored : d.solution? path = some new) :
    Sound path S ⟨d, c.parties.set i ⟨path, new, new.snapshotId⟩⟩ where
  party g hg := by
    rcases List.mem_or_eq_of_mem_set hg with hg | rfl
    · exact hc.party g hg
    · exact ⟨rfl, rfl, hnew⟩
  stored s hs := by
    have hsn : some new = some s := hstored.symm.trans hs
    cases hsn
    exact hnew

theorem step (hc : c.Sound path S) {act : Act}
    (hact : ∀ j s, act = .hand j s → s ∈ S ∧ s.toJson.depth ≤ 127) :
    (c.step compiler path act).Sound path S := by
  cases act with
  | join =>
    refine ⟨fun g hg => ?_, hc.stored⟩
    rcases List.mem_append.1 hg with hg | hg
    · exact hc.party g hg
    · obtain ⟨hpath, hstored, hbase⟩ := SolutionFile.open?_eq_ok (eq_ok_of_mem_toList hg)
      exact ⟨hpath, hbase, hc.stored _ hstored⟩
  | hand i new =>
    obtain ⟨hnew, hdepth⟩ := hact i new rfl
    cases hf : c.parties[i]? with
    | none => rw [step_hand_of_absent hf]; exact hc
    | some f =>
      have hpath := (hc.party f (List.mem_of_getElem? hf)).1
      rcases call_cases hf hdepth with ⟨e, hcall⟩ | ⟨d, hcall, hstored⟩
      · rw [step_hand hcall]
        exact hc
      · rw [step_hand hcall]
        rw [hpath] at hstored ⊢
        exact hc.taken hnew hstored

theorem run {acts : List Act} (hc : c.Sound path S)
    (hacts : ∀ j s, Act.hand j s ∈ acts → s ∈ S ∧ s.toJson.depth ≤ 127) :
    (c.run compiler path acts).Sound path S := by
  induction acts generalizing c with
  | nil => exact hc
  | cons act acts ih =>
    refine ih (hc.step fun j s h => hacts j s ?_) fun j s h => hacts j s (List.mem_cons_of_mem _ h)
    rw [h]
    exact List.mem_cons_self

/-- If digests tell the solutions apart, the check of the digest is a check of the solution. -/
theorem current_iff (hc : c.Sound path S) (hS : Set.InjOn Solution.snapshotId S)
    (hf : f ∈ c.parties) : f.Current c.disk ↔ c.disk.solution? path = some f.solution := by
  obtain ⟨hpath, hbase, hmem⟩ := hc.party f hf
  rw [SolutionFile.Current, hpath, hbase]
  constructor
  · intro h
    obtain ⟨s, hs, hdigest⟩ := Option.map_eq_some_iff.1 h
    rw [hs, hS (hc.stored s hs) hmem hdigest]
  · intro h
    rw [h, Option.map_some]

end Sound

/-- The file holds the party's solution, which is `s`. -/
def UpToDate (path : String) (c : Sharing) (i : Nat) (s : Solution) : Prop :=
  c.disk.solution? path = some s ∧ ∃ f, c.parties[i]? = some f ∧ f.solution = s

/-- A party stays up to date until another's call is taken with a different solution. -/
theorem UpToDate.step {s : Solution} (h : c.UpToDate path i s) (hc : c.Sound path S) {act : Act}
    (hact : ∀ j t, act = .hand j t → t ∈ S ∧ t.toJson.depth ≤ 127)
    (hother : ∀ t, act ≠ .hand i t) :
    (c.step compiler path act).UpToDate path i s ∨
      ∃ j t, act = .hand j t ∧ t ≠ s ∧ c.Takes compiler j t := by
  obtain ⟨hstored, f, hf, hfs⟩ := h
  cases act with
  | join =>
    obtain ⟨hi, -⟩ := List.getElem?_eq_some_iff.1 hf
    exact .inl ⟨hstored, f, (List.getElem?_append_left hi).trans hf, hfs⟩
  | hand j t =>
    have hji : j ≠ i := fun e => hother t (by rw [e])
    obtain ⟨ht, hdepth⟩ := hact j t rfl
    cases hg : c.parties[j]? with
    | none =>
      left
      rw [step_hand_of_absent hg]
      exact ⟨hstored, f, hf, hfs⟩
    | some g =>
      have hpath := (hc.party g (List.mem_of_getElem? hg)).1
      rcases call_cases hg hdepth with ⟨e, hcall⟩ | ⟨d, hcall, hd⟩
      · left
        rw [step_hand hcall]
        exact ⟨hstored, f, hf, hfs⟩
      · by_cases hts : t = s
        · left
          rw [step_hand hcall]
          rw [hpath, hts] at hd
          refine ⟨hd, f, ?_, hfs⟩
          rw [List.getElem?_set_ne hji]
          exact hf
        · exact .inr ⟨j, t, rfl, hts, _, hcall⟩

theorem UpToDate.run {s : Solution} {acts : List Act} (h : c.UpToDate path i s)
    (hc : c.Sound path S) (hacts : ∀ j t, Act.hand j t ∈ acts → t ∈ S ∧ t.toJson.depth ≤ 127)
    (hother : ∀ t, Act.hand i t ∉ acts) :
    (c.run compiler path acts).UpToDate path i s ∨
      ∃ acts₁ j t acts₂, acts = acts₁ ++ .hand j t :: acts₂ ∧ t ≠ s ∧
        (c.run compiler path acts₁).Takes compiler j t := by
  induction acts generalizing c with
  | nil => exact .inl h
  | cons act acts ih =>
    have hact : ∀ j t, act = .hand j t → t ∈ S ∧ t.toJson.depth ≤ 127 := fun j t e =>
      hacts j t (by rw [e]; exact List.mem_cons_self)
    have hne : ∀ t, act ≠ .hand i t := fun t e => hother t (by rw [e]; exact List.mem_cons_self)
    rcases h.step hc hact hne with h | ⟨j, t, rfl, hts, htakes⟩
    · have hrest := ih h (hc.step hact) (fun j t ht => hacts j t (List.mem_cons_of_mem _ ht))
        fun t ht => hother t (List.mem_cons_of_mem _ ht)
      rcases hrest with h | ⟨acts₁, j, t, acts₂, rfl, hts, htakes⟩
      · exact .inl h
      · exact .inr ⟨act :: acts₁, j, t, acts₂, rfl, hts, htakes⟩
    · exact .inr ⟨[], j, t, acts, rfl, hts, htakes⟩

section Answers

variable (hc : c.Sound path S) (hS : Set.InjOn Solution.snapshotId S)
  (hf : c.parties[i]? = some f)
include hc hS hf

/-- A party whose solution the file holds is only asked to keep the projects. -/
theorem call_of_stored (hstored : c.disk.solution? path = some f.solution)
    (hdepth : new.toJson.depth ≤ 127) :
    ∃ c', c.call compiler i new = some (f.solution.requireSameProjects new, c') := by
  cases hsame : f.solution.requireSameProjects new with
  | error e => exact ⟨c, call_of_other_projects hf hsame⟩
  | ok _ =>
    have hcurrent := (hc.current_iff hS (List.mem_of_getElem? hf)).2 hstored
    obtain ⟨d, hcall, -⟩ := call_of_current hf hsame hcurrent hdepth
    exact ⟨_, hcall⟩

/-- A party whose solution the file does not hold is refused. -/
theorem call_of_not_stored (hstored : c.disk.solution? path ≠ some f.solution) :
    ∃ e, c.call compiler i new = some (.error e, c) := by
  cases hsame : f.solution.requireSameProjects new with
  | error e => exact ⟨e, call_of_other_projects hf hsame⟩
  | ok _ =>
    have hcurrent := (hc.current_iff hS (List.mem_of_getElem? hf)).not.2 hstored
    exact call_of_not_current hf hsame hcurrent

end Answers

/-- A party that is up to date is not refused as stale at its next call, unless another solution
was taken in between. -/
theorem UpToDate.next {s next : Solution} {acts : List Act} (h : c.UpToDate path i s)
    (hc : c.Sound path S) (hS : Set.InjOn Solution.snapshotId S)
    (hacts : ∀ j t, Act.hand j t ∈ acts → t ∈ S ∧ t.toJson.depth ≤ 127)
    (hother : ∀ t, Act.hand i t ∉ acts) (hnext : next.toJson.depth ≤ 127) :
    (∃ c', (c.run compiler path acts).call compiler i next =
      some (s.requireSameProjects next, c')) ∨
    ∃ acts₁ j t acts₂, acts = acts₁ ++ .hand j t :: acts₂ ∧ j ≠ i ∧ t ≠ s ∧
      (c.run compiler path acts₁).Takes compiler j t := by
  rcases h.run hc hacts hother with ⟨hstored, f, hf, rfl⟩ | ⟨acts₁, j, t, acts₂, rfl, hts, htakes⟩
  · exact .inl (call_of_stored (hc.run hacts) hS hf hstored hnext)
  · have hji : j ≠ i := by
      rintro rfl
      exact hother t (List.mem_append_right _ List.mem_cons_self)
    exact .inr ⟨acts₁, j, t, acts₂, rfl, hji, hts, htakes⟩

/-- Of any run that starts with no party: a call is taken exactly if it keeps the projects and the
file holds the caller's solution.  If it is refused nothing changes.  If it is taken the file holds
the new solution, and the caller's next call is only asked to keep the projects, unless in between
another party's call was taken with another solution. -/
theorem no_update_lost (compiler : Compiler Disk) (path : String) (d : Disk)
    (before after : List Act) (i : Nat) (new : Solution)
    (hdepth : ∀ j s, Act.hand j s ∈ before ++ .hand i new :: after → s.toJson.depth ≤ 127)
    (hfree : Set.InjOn Solution.snapshotId
      {s | TurnsUp d path (before ++ .hand i new :: after) s})
    (c : Sharing) (hc : c = run compiler path ⟨d, []⟩ before) (f : SolutionFile)
    (hf : c.parties[i]? = some f) :
    ∃ answer c', c.call compiler i new = some (answer, c') ∧
      (answer = .ok () ↔ f.solution.requireSameProjects new = .ok () ∧
        c.disk.solution? path = some f.solution) ∧
      (answer ≠ .ok () → c' = c) ∧
      (answer = .ok () →
        c'.disk.solution? path = some new ∧
        c'.parties = c.parties.set i ⟨path, new, new.snapshotId⟩ ∧
        ∀ mid next rest, after = mid ++ .hand i next :: rest → (∀ s, Act.hand i s ∉ mid) →
          (∃ c'', (c'.run compiler path mid).call compiler i next =
            some (new.requireSameProjects next, c'')) ∨
          ∃ mid₁ j other mid₂, mid = mid₁ ++ .hand j other :: mid₂ ∧ j ≠ i ∧ other ≠ new ∧
            (c'.run compiler path mid₁).Takes compiler j other) := by
  have hacts : ∀ j s, Act.hand j s ∈ before ++ .hand i new :: after →
      TurnsUp d path (before ++ .hand i new :: after) s ∧ s.toJson.depth ≤ 127 :=
    fun j s h => ⟨.inr ⟨j, h⟩, hdepth j s h⟩
  have hstart : Sound path {s | TurnsUp d path (before ++ .hand i new :: after) s} ⟨d, []⟩ :=
    ⟨nofun, fun s hs => .inl hs⟩
  have hsound : c.Sound path {s | TurnsUp d path (before ++ .hand i new :: after) s} := by
    rw [hc]
    exact hstart.run fun j s h => hacts j s (List.mem_append_left _ h)
  obtain ⟨hnew, hnewDepth⟩ := hacts i new (List.mem_append_right _ List.mem_cons_self)
  have hparty := List.mem_of_getElem? hf
  have hpath := (hsound.party f hparty).1
  by_cases htaken : f.solution.requireSameProjects new = .ok () ∧
      c.disk.solution? path = some f.solution
  · obtain ⟨hsame, hstored⟩ := htaken
    obtain ⟨d', hcall, hd'⟩ := call_of_current hf hsame
      ((hsound.current_iff hfree hparty).2 hstored) hnewDepth
    rw [hpath] at hcall hd'
    refine ⟨.ok (), _, hcall, iff_of_true rfl ⟨hsame, hstored⟩, fun h => absurd rfl h, fun _ =>
      ⟨hd', rfl, ?_⟩⟩
    rintro mid next rest rfl hmid
    have hi := (List.getElem?_eq_some_iff.1 hf).1
    refine UpToDate.next ⟨hd', _, List.getElem?_set_self hi, rfl⟩ (hsound.taken hnew hd') hfree
      (fun j s h => hacts j s ?_) hmid (hacts i next ?_).2
    · exact List.mem_append_right _ (List.mem_cons_of_mem _ (List.mem_append_left _ h))
    · exact List.mem_append_right _ (List.mem_cons_of_mem _ (List.mem_append_right _
        List.mem_cons_self))
  · have hrefused : ∃ e, c.call compiler i new = some (.error e, c) := by
      cases hsame : f.solution.requireSameProjects new with
      | error e => exact ⟨e, call_of_other_projects hf hsame⟩
      | ok _ => exact call_of_not_stored hsound hfree hf fun h => htaken ⟨hsame, h⟩
    obtain ⟨e, hcall⟩ := hrefused
    exact ⟨.error e, c, hcall, iff_of_false nofun htaken, fun _ => rfl, nofun⟩

/-- A solution whose project has this name. -/
def atelier (name : String) : Solution where
  projects := [{ id := ⟨1⟩, name, assembly := "Atelier", documents := [] }]

def atelierDisk : Disk where
  entries := [(["Atelier.sln"], .file (atelier "Atelier").fileText.toUTF8)]

def atelierParty : SolutionFile :=
  ⟨"Atelier.sln", atelier "Atelier", (atelier "Atelier").snapshotId⟩

/-- Two parties open the file.  The first is taken and the second refused; a third opens the file,
and the first is taken again. -/
def atelierActs : List Act :=
  [.join, .join, .hand 0 (atelier "Werk"), .hand 1 (atelier "Hof"), .join, .hand 0 (atelier "Ort")]

theorem solution?_atelierDisk :
    atelierDisk.solution? "Atelier.sln" = some (atelier "Atelier") := by
  have hfind : atelierDisk.find "Atelier.sln" =
      .ok (["Atelier.sln"], .file (atelier "Atelier").fileText.toUTF8) := rfl
  rw [Disk.solution?_of_readText (Disk.readText_of_find hfind)]
  exact Solution.parse?_fileText _ (by decide +kernel)

theorem run_join_atelier : run .structural "Atelier.sln" ⟨atelierDisk, []⟩ [.join, .join] =
    ⟨atelierDisk, [atelierParty, atelierParty]⟩ := by
  have hopen : SolutionFile.open? atelierDisk "Atelier.sln" = .ok atelierParty :=
    SolutionFile.open?_of_solution? rfl solution?_atelierDisk
  rw [run_cons, step_join, hopen, run_cons, step_join, hopen]
  rfl

theorem turnsUp_atelier {s : Solution} (h : TurnsUp atelierDisk "Atelier.sln" atelierActs s) :
    s ∈ ["Atelier", "Werk", "Hof", "Ort"].map atelier := by
  rcases h with h | ⟨i, h⟩
  · rw [solution?_atelierDisk] at h
    cases h
    exact List.mem_cons_self
  · simp only [atelierActs, List.mem_cons, Act.hand.injEq, reduceCtorEq, List.not_mem_nil, or_false,
      false_or] at h
    rcases h with ⟨-, rfl⟩ | ⟨-, rfl⟩ | ⟨-, rfl⟩ <;> simp

theorem depth_atelier {j : Nat} {s : Solution} (h : Act.hand j s ∈ atelierActs) :
    s.toJson.depth ≤ 127 := by
  have hall : ∀ s ∈ ["Atelier", "Werk", "Hof", "Ort"].map atelier, s.toJson.depth ≤ 127 := by
    decide +kernel
  exact hall s (turnsUp_atelier (.inr ⟨j, h⟩))

theorem injOn_atelier : Set.InjOn Solution.snapshotId
    {s | TurnsUp atelierDisk "Atelier.sln" atelierActs s} := by
  have hdigests : ((["Atelier", "Werk", "Hof", "Ort"].map atelier).map
      Solution.snapshotId).Nodup := by decide +kernel
  intro s hs t ht h
  exact List.inj_on_of_nodup_map hdigests (turnsUp_atelier hs) (turnsUp_atelier ht) h

theorem requireSameProjects_atelier (a b : String) :
    (atelier a).requireSameProjects (atelier b) = .ok () := by
  rw [Solution.requireSameProjects]
  exact if_pos rfl

theorem no_update_lost_atelier :
    (∀ j s, Act.hand j s ∈ atelierActs → s.toJson.depth ≤ 127) ∧
    Set.InjOn Solution.snapshotId {s | TurnsUp atelierDisk "Atelier.sln" atelierActs s} ∧
    ∃ c c₁ c₂, c = run .structural "Atelier.sln" ⟨atelierDisk, []⟩ [.join, .join] ∧
      c.call .structural 0 (atelier "Werk") = some (.ok (), c₁) ∧
      c₁.disk.solution? "Atelier.sln" = some (atelier "Werk") ∧
      (∃ e, c₁.call .structural 1 (atelier "Hof") = some (.error e, c₁)) ∧
      (c₁.run .structural "Atelier.sln" [.hand 1 (atelier "Hof"), .join]).call .structural 0
        (atelier "Ort") = some (.ok (), c₂) := by
  have hdepth : ∀ j s, Act.hand j s ∈ atelierActs → s.toJson.depth ≤ 127 := fun _ _ =>
    depth_atelier
  -- The first party is taken.
  obtain ⟨answer, c₁, hcall, hiff, -, htaken⟩ := no_update_lost .structural "Atelier.sln"
    atelierDisk [.join, .join] _ 0 (atelier "Werk") hdepth injOn_atelier _ run_join_atelier.symm
    atelierParty rfl
  have hok : answer = .ok () := hiff.2 ⟨requireSameProjects_atelier _ _, solution?_atelierDisk⟩
  obtain ⟨hwerk, hset, hnext⟩ := htaken hok
  subst hok
  -- The second party's solution is no longer in the file.
  have hparty : c₁.parties[1]? = some atelierParty := by
    rw [hset]
    rfl
  have hc₁ : c₁ = run .structural "Atelier.sln" ⟨atelierDisk, []⟩
      [.join, .join, .hand 0 (atelier "Werk")] := by
    have hstep : step .structural "Atelier.sln" ⟨atelierDisk, [atelierParty, atelierParty]⟩
        (.hand 0 (atelier "Werk")) = c₁ := step_hand hcall
    rw [← hstep, ← run_join_atelier]
    exact (run_concat .structural "Atelier.sln" ⟨atelierDisk, []⟩ [.join, .join] _).symm
  obtain ⟨answer, c₁', hcall₁, hiff, hrefused, -⟩ := no_update_lost .structural "Atelier.sln"
    atelierDisk [.join, .join, .hand 0 (atelier "Werk")] [.join, .hand 0 (atelier "Ort")] 1
    (atelier "Hof") hdepth injOn_atelier c₁ hc₁ atelierParty hparty
  have hno : answer ≠ .ok () := by
    intro h
    have hheld := (hiff.1 h).2
    rw [hwerk] at hheld
    exact absurd hheld (by decide)
  cases hrefused hno
  obtain ⟨e, rfl⟩ : ∃ e, answer = .error e := by
    cases answer with
    | error e => exact ⟨e, rfl⟩
    | ok _ => exact absurd rfl hno
  -- So nothing was taken in between, and the first party is taken again.
  rcases hnext [.hand 1 (atelier "Hof"), .join] (atelier "Ort") [] rfl (by simp) with
    ⟨c₂, hcall₂⟩ | ⟨mid₁, j, other, mid₂, hmid, -, -, c', htakes⟩
  · rw [requireSameProjects_atelier] at hcall₂
    exact ⟨hdepth, injOn_atelier, _, c₁, c₂, run_join_atelier.symm, hcall, hwerk, ⟨e, hcall₁⟩,
      hcall₂⟩
  · cases mid₁ with
    | nil =>
      cases hmid
      rw [run_nil, hcall₁] at htakes
      cases htakes
    | cons act acts =>
      obtain ⟨-, hmid⟩ := List.cons.inj hmid
      cases acts with
      | nil => cases hmid
      | cons => simp at hmid

end Sharing
end Unweave

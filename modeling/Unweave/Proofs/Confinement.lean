import Unweave.Proofs.Paths
import Unweave.Proofs.Rewriting
import Unweave.Sandbox.Files

/-!
# What a sandbox writes to

The files of a project go below the directory that they are written to, whatever the directory is,
exactly if two kinds of names do not lead out of it: the name of the project, which the project file
is named after, and the name of a document whose path leads out and has no last name that it could
be cut down to (`Sandbox.materialize_confined`).  These files are all that is written.

What the text of a path says is where it leads on every disk on which the walk along it succeeds, so
what a writing step may change is known by the path that it is given.
-/

namespace Unweave

/-! ## Names -/

namespace Sandbox

open Unweave.Path

theorem stays_safeRelative_iff (path fallback : String) :
    stays (safeRelative path fallback) = true ↔
      (isNameless path = true → stays fallback = true) := by
  rw [safeRelative, isNameless]
  split
  · next hescapes =>
    rw [hescapes, Bool.true_and]
    cases hname : fileName? path with
    | none => exact ⟨fun h _ => h, fun h => h rfl⟩
    | some name =>
      refine iff_of_true (stays_of_fileName? hname) fun h => ?_
      cases h
  · next hescapes =>
    rw [Bool.or_eq_true, not_or, Bool.not_eq_true] at hescapes
    obtain ⟨habsolute, hup⟩ := hescapes
    refine iff_of_true ?_ fun h => ?_
    · rw [stays, habsolute]
      exact staysWithin_of_not_mem (fun h => hup (List.contains_iff_mem.mpr h)) 0
    · rw [habsolute, Bool.eq_false_iff.mpr hup] at h
      cases h

/-- The names that files are called by as they are do not lead out of the directory: that of the
project, and those of the documents whose paths cannot be cut down. -/
structure WellNamed (p : Project) : Prop where
  project : stays (p.name ++ ".csproj") = true
  documents : ∀ d ∈ p.documents, isNameless (d.path.getD d.name) = true → stays d.name = true

theorem paths_inside_iff (p : Project) :
    (∀ dir, ∀ path ∈ paths dir p, Inside dir path) ↔ WellNamed p := by
  have hpaths : (∀ dir, ∀ path ∈ paths dir p, Inside dir path) ↔
      (∀ d ∈ p.documents, ∀ dir, Inside dir (documentPath dir d)) ∧
        ∀ dir, Inside dir (manifestPath dir p) := by
    simp only [paths, List.forall_mem_append, List.forall_mem_map, List.forall_mem_singleton]
    constructor
    · intro h
      exact ⟨fun d hd dir => (h dir).1 d hd, fun dir => (h dir).2⟩
    · intro h dir
      exact ⟨fun d hd => h.1 d hd dir, h.2 dir⟩
  simp only [hpaths, documentPath, manifestPath, inside_join_iff, stays_safeRelative_iff]
  exact ⟨fun h => ⟨h.2, h.1⟩, fun h => ⟨h.documents, h.project⟩⟩

end Sandbox

/-! ## What is written -/

namespace Disk

def fileAt (d : Disk) (l : Location) : Option ByteArray :=
  match d.at? l with
  | some (.file content) => some content
  | _ => none

/-- There is a file at a place, or a device. -/
def HoldsFile (d : Disk) (l : Location) : Prop := ∃ e, d.at? l = some e ∧ e.isDirectory = false

/-- Files are the same on both disks, except at some places, and none is gone. -/
structure WritesOnly (places : List Location) (d d' : Disk) : Prop where
  here : d'.here = d.here
  elsewhere : ∀ l ∉ places, d'.fileAt l = d.fileAt l
  stay : ∀ l, d.HoldsFile l → d'.HoldsFile l

variable {places more : List Location} {d d' d'' : Disk}

theorem WritesOnly.refl (places : List Location) (d : Disk) : WritesOnly places d d :=
  ⟨rfl, fun _ _ => rfl, fun _ h => h⟩

theorem WritesOnly.trans (h : WritesOnly places d d') (h' : WritesOnly more d' d'')
    (hmore : more ⊆ places) : WritesOnly places d d'' :=
  ⟨h'.here.trans h.here,
    fun l hl => (h'.elsewhere l fun hmem => hl (hmore hmem)).trans (h.elsewhere l hl),
    fun l hl => h'.stay l (h.stay l hl)⟩

theorem WritesOnly.mono (h : WritesOnly places d d') (hmore : places ⊆ more) :
    WritesOnly more d d' :=
  ⟨h.here, fun l hl => h.elsewhere l fun hmem => hl (hmore hmem), h.stay⟩

/-- What writing files at some places comes to: nothing else changes, and unless it fails, they are
all there. -/
structure Writes {α : Type} (places : List Location) (d : Disk)
    (outcome : Except DiskError α × Disk) : Prop where
  only : WritesOnly places d outcome.2
  all : outcome.1.isOk = true → ∀ l ∈ places, outcome.2.HoldsFile l

theorem Writes.failed {α : Type} (h : WritesOnly places d d') (hmore : places ⊆ more)
    (e : DiskError) : Writes more d ((.error e : Except DiskError α), d') :=
  ⟨h.mono hmore, fun hok => by cases hok⟩

/-- Files that have been written stay while others are. -/
theorem Writes.after {α β : Type} {a : α} {outcome : Except DiskError β × Disk}
    (h : Writes places d (.ok a, d')) (h' : Writes more d' outcome) :
    Writes (places ++ more) d outcome := by
  refine ⟨(h.only.mono (List.subset_append_left _ _)).trans h'.only (List.subset_append_right _ _),
    fun hok => List.forall_mem_append.mpr ⟨fun l hl => ?_, h'.all hok⟩⟩
  exact h'.only.stay l (h.all rfl l hl)

/-- Where the walk along a path ends is said by its text. -/
theorem walk_eq {l l' : Location} {ps : List String} (h : d.walk l ps = .ok l') :
    l'.reverse = ps.foldl Path.step l.reverse := by
  induction ps generalizing l with
  | nil =>
    cases h
    rfl
  | cons part ps ih =>
    rw [walk] at h
    rw [List.foldl_cons, Path.step]
    split at h
    · cases h
    · split at h
      · next hvoid => rw [if_pos hvoid, ih h]
      · next hvoid =>
        rw [if_neg hvoid]
        split at h
        · next hup => rw [if_pos hup, ih h, List.drop_one, List.tail_reverse]
        · next hup =>
          rw [if_neg hup]
          split at h
          · cases h
          · rw [ih h, List.reverse_append, List.reverse_singleton, List.singleton_append]
    · cases h

theorem foldl_step_filter (names ps : List String) :
    (ps.filter (· != "")).foldl Path.step names = ps.foldl Path.step names := by
  rw [List.foldl_filter]
  refine congrArg (fun f => ps.foldl f names) (funext₂ fun names part => ?_)
  split
  · rfl
  · next h =>
    rw [bne_iff_ne, not_not] at h
    rw [h, Path.step_void]

theorem location_eq_resolve {path : String} {t : Target} (h : d.locate path = .ok t) :
    t.location = Path.resolve d.here path := by
  have hl := walk_eq ((locate_eq_ok_iff d path t).mp h).2.1
  rw [foldl_step_filter] at hl
  rw [Path.resolve, ← List.reverse_reverse t.location, hl]
  split <;> rfl

theorem locateFile_eq_resolve {path : String} {l : Location} (h : d.locateFile path = .ok l) :
    l = Path.resolve d.here path := by
  rw [locateFile] at h
  split at h
  · obtain ⟨_, -, h⟩ := (exceptBind_eq_ok_iff _ _ _).mp h
    cases h
  · obtain ⟨t, ht, h⟩ := (exceptBind_eq_ok_iff _ _ _).mp h
    cases h
    exact location_eq_resolve ht

theorem ne_nil_of_at? {l : Location} (h : d.at? l ≠ some .directory) : l ≠ [] := by
  rintro rfl
  exact h rfl

theorem holdsFile_put {l : Location} (hl : l ≠ []) (content : ByteArray) {k : Location}
    (h : k = l ∨ d.HoldsFile k) : (d.put l (.file content)).HoldsFile k := by
  rw [HoldsFile, at?_put hl]
  by_cases hk : k = l
  · rw [if_pos hk]
    exact ⟨_, rfl, rfl⟩
  · rw [if_neg hk]
    exact h.resolve_left hk

theorem writes_writeText {path text : String} (h : d.writeText path text = .ok d') :
    Writes [Path.resolve d.here path] d (.ok (), d') := by
  rw [writeText, writeBytes] at h
  obtain ⟨l, hl, h⟩ := (exceptBind_eq_ok_iff _ _ _).mp h
  obtain rfl := locateFile_eq_resolve hl
  split at h
  · cases h
  · next hdevice =>
    cases h
    exact ⟨.refl _ d, fun _ => List.forall_mem_singleton.mpr ⟨_, hdevice, rfl⟩⟩
  · next hdirectory _ =>
    cases h
    have hplace := ne_nil_of_at? hdirectory
    refine ⟨⟨rfl, fun k hk => ?_, fun k hk => holdsFile_put hplace _ (.inr hk)⟩,
      fun _ => List.forall_mem_singleton.mpr (holdsFile_put hplace _ (.inl rfl))⟩
    rw [fileAt, at?_put hplace, if_neg (mt List.mem_singleton.mpr hk), fileAt]

theorem writesOnly_makeDirectory {path : String} (h : d.makeDirectory path = .ok d') :
    WritesOnly [] d d' := by
  rw [makeDirectory] at h
  obtain ⟨t, -, h⟩ := (exceptBind_eq_ok_iff _ _ _).mp h
  split at h
  · cases h
  · next hnone =>
    cases h
    have hne : d.at? t.location ≠ some .directory := by simp [hnone]
    refine ⟨rfl, fun k _ => ?_, fun k hk => ?_⟩
    · rw [fileAt, at?_put (ne_nil_of_at? hne), fileAt]
      by_cases hk : k = t.location
      · rw [if_pos hk, hk, hnone]
      · rw [if_neg hk]
    · obtain ⟨e, he, hfile⟩ := hk
      have hk : k ≠ t.location := by
        rintro rfl
        cases hnone.symm.trans he
      refine ⟨e, ?_, hfile⟩
      rw [at?_put (ne_nil_of_at? hne), if_neg hk, he]

/-- What making one directory does, and may be done again and again, making all of them does. -/
theorem makeDirectories_induction {R : Disk → Disk → Prop} (hrefl : ∀ d, R d d)
    (htrans : ∀ {d d' d''}, R d d' → R d' d'' → R d d'')
    (hstep : ∀ {d d' path}, makeDirectory d path = .ok d' → R d d') {path : String}
    (h : d.makeDirectories path = .ok d') : R d d' := by
  rw [makeDirectories] at h
  generalize path.length + 2 = n at h
  induction n generalizing d d' path with
  | zero => cases h
  | succ n ih =>
    rw [makeDirectoriesWithin] at h
    split at h
    · cases h
      exact hrefl d
    · split at h
      · next hmade =>
        cases h
        exact hstep hmade
      · split at h
        · cases h
        · -- The directory above is made first, and then this one is tried once more.
          obtain ⟨e, he, h⟩ := (exceptBind_eq_ok_iff _ _ _).mp h
          refine htrans (ih he) ?_
          split at h
          · next hmade =>
            cases h
            exact hstep hmade
          · split at h
            · cases h
              exact hrefl _
            · cases h
      · split at h
        · cases h
          exact hrefl d
        · cases h

theorem writesOnly_makeDirectories {path : String} (h : d.makeDirectories path = .ok d') :
    WritesOnly [] d d' :=
  makeDirectories_induction (WritesOnly.refl []) (fun h h' => h.trans h' (List.Subset.refl _))
    writesOnly_makeDirectory h

end Disk

namespace Sandbox

open Disk

variable (layout : Layout) (dir : String)

theorem writesOnly_makeParent {d d' : Disk} {path : String} (h : makeParent d path = .ok d') :
    WritesOnly [] d d' := by
  rw [makeParent] at h
  split at h
  · cases h
    exact .refl _ _
  · exact writesOnly_makeDirectories h

theorem writes_writeDocument (d : Disk) (x : Document) :
    Writes [Path.resolve d.here (documentPath dir x)] d (writeDocument layout dir d x) := by
  unfold writeDocument
  dsimp only
  cases hmade : makeParent d (documentPath dir x) with
  | error e => exact .failed (.refl _ d) (List.Subset.refl _) e
  | ok made =>
    have hparent := writesOnly_makeParent hmade
    dsimp only
    cases hwritten : made.writeText (documentPath dir x) (layout.root x.root) with
    | error e => exact .failed hparent (List.nil_subset _) e
    | ok written =>
      have hwrite := writes_writeText hwritten
      rw [hparent.here] at hwrite
      exact Writes.after (a := ()) ⟨hparent, fun _ => List.forall_mem_nil _⟩ hwrite

theorem foldl_writeNext_error (ds : List Document) (e : DiskError) (d : Disk) :
    ds.foldl (writeNext layout dir) (.error e, d) = (.error e, d) := by
  induction ds with
  | nil => rfl
  | cons x ds ih => exact ih

theorem writes_writeDocuments (ds : List Document) (d : Disk) :
    Writes (ds.map (Path.resolve d.here ∘ documentPath dir)) d
      (writeDocuments layout dir ds d) := by
  rw [writeDocuments]
  induction ds generalizing d with
  | nil => exact ⟨.refl _ d, fun _ => List.forall_mem_nil _⟩
  | cons x ds ih =>
    have hx := writes_writeDocument layout dir d x
    rw [List.foldl_cons, List.map_cons, Function.comp_apply, writeNext]
    revert hx
    obtain ⟨e | done, written⟩ := writeDocument layout dir d x
    · intro hx
      rw [foldl_writeNext_error]
      exact .failed hx.only (List.cons_subset_cons _ (List.nil_subset _)) e
    · intro hx
      have hds := ih written
      rw [hx.only.here] at hds
      exact hx.after hds

theorem writes_materialize (p : Project) (d : Disk) :
    Writes ((paths dir p).map (Path.resolve d.here)) d (materialize layout p dir d) := by
  have hdocuments := writes_writeDocuments layout dir p.documents d
  rw [paths, List.map_append, List.map_map, List.map_singleton, materialize]
  split
  · next e written hwritten =>
    rw [hwritten] at hdocuments
    exact .failed hdocuments.only (List.subset_append_left _ _) e
  · next written hwritten =>
    rw [hwritten] at hdocuments
    split
    · next e _ => exact .failed hdocuments.only (List.subset_append_left _ _) e
    · next hmanifest =>
      have hwrite := writes_writeText hmanifest
      rw [hdocuments.only.here] at hwrite
      have hall := hdocuments.after hwrite
      exact ⟨hall.only, fun _ => hall.all rfl⟩

theorem eq_paths_of_materialize {p : Project} {d : Disk} {written : List String}
    (h : (materialize layout p dir d).1 = .ok written) : written = paths dir p := by
  rw [materialize] at h
  split at h
  · cases h
  · split at h
    · cases h
    · cases h
      rfl

/-- The files of a project go below the directory that they are written to, whichever it is, exactly
if the project is well named.  These files are written and no others, so for a well-named project
files elsewhere stay as they are. -/
theorem materialize_confined (p : Project) :
    ((∀ dir, ∀ path ∈ paths dir p, Path.Inside dir path) ↔ WellNamed p) ∧
    (∀ layout dir d,
      Writes ((paths dir p).map (Path.resolve d.here)) d (materialize layout p dir d) ∧
      ∀ written, (materialize layout p dir d).1 = .ok written → written = paths dir p) ∧
    (WellNamed p → ∀ layout dir d l, ¬ Path.resolve d.here dir <+: l →
      (materialize layout p dir d).2.fileAt l = d.fileAt l) := by
  refine ⟨paths_inside_iff p, fun layout dir d => ⟨writes_materialize layout dir p d, ?_⟩, ?_⟩
  · exact fun _ => eq_paths_of_materialize layout dir
  · intro hp layout dir d l hl
    refine (writes_materialize layout dir p d).only.elsewhere l fun hmem => hl ?_
    obtain ⟨path, hpath, rfl⟩ := List.mem_map.mp hmem
    exact (paths_inside_iff p).mpr hp dir path hpath d.here

/-- A project with one document, which has nothing in it. -/
def crate (name path document : String) : Project :=
  { id := ⟨1⟩, name, assembly := "Demo",
    documents := [{ id := ⟨1⟩, name := document, path := some path, root := {} }] }

theorem materialize_confined_crate :
    WellNamed (crate "Demo" ".." "A.cs") ∧
      ∀ layout dir d l, ¬ Path.resolve d.here dir <+: l →
        (materialize layout (crate "Demo" ".." "A.cs") dir d).2.fileAt l = d.fileAt l := by
  have hnamed : WellNamed (crate "Demo" ".." "A.cs") := ⟨by decide +kernel, by decide +kernel⟩
  exact ⟨hnamed, (materialize_confined _).2.2 hnamed⟩

/-- The project file is written beside the directory if the project's name goes up, and so is a
document whose name does and whose path has none. -/
theorem materialize_astray :
    (materialize {} (crate "../Demo" "A.cs" "A.cs") "m" (Disk.fresh ["work"])).1 =
      .ok ["m/A.cs", "m/../Demo.csproj"] ∧
    ¬ Path.Inside "m" "m/../Demo.csproj" ∧
    (materialize {} (crate "Demo" ".." "../A.cs") "m" (Disk.fresh ["work"])).1 =
      .ok ["m/../A.cs", "m/Demo.csproj"] ∧
    ¬ Path.Inside "m" "m/../A.cs" := by
  refine ⟨?_, fun h => absurd (h ["work"]) ?_, ?_, fun h => absurd (h ["work"]) ?_⟩
  · decide +kernel
  · decide +kernel
  · decide +kernel
  · decide +kernel

end Sandbox
end Unweave

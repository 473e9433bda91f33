import Unweave.Proofs.Confinement

/-!
# Files that take each other's place

A sandbox writes the documents of a project and its project file one after the other.  A path that
leads out of the directory is cut down to its last name, and then it may lead to where another
document goes; so may any path that is the project file's.  What is written last stays, and the
others are lost without an error.  The files go to different places exactly if no document that is
cut down meets another one, and none meets the project file (`Sandbox.materialize_keeps`).

What a run of writing steps leaves is said by the paths and texts alone (`Disk.Receives`).
-/

namespace Unweave

/-! ## What is left of files -/

namespace Disk

/-- The device at a place, if there is one. -/
def deviceAt (d : Disk) (l : Location) : Option Device :=
  match d.at? l with
  | some (.device v) => some v
  | _ => none

/-- Of files given by path and text, the text of the last one that leads to a place. -/
def lastAt (here : Location) (files : List (String × String)) (l : Location) : Option String :=
  (files.map fun f => (Path.resolve here f.1, f.2)).reverse.lookup l

/-- What writing files one after the other comes to.  Each path leads to a file, which holds the
text that went there last, unless there is a device. -/
structure Receives (files : List (String × String)) (d d' : Disk) : Prop where
  here : d'.here = d.here
  directories : ∀ l, d.at? l = some .directory → d'.at? l = some .directory
  devices : ∀ l, d'.deviceAt l = d.deviceAt l
  found : ∀ f ∈ files, d'.locate f.1 = .ok ⟨Path.resolve d.here f.1, false⟩
  contents : ∀ l, d.deviceAt l = none →
    d'.fileAt l = ((lastAt d.here files l).map String.toUTF8).or (d.fileAt l)

variable {files more : List (String × String)} {d d' d'' : Disk}

theorem lastAt_append (here l : Location) :
    lastAt here (files ++ more) l = (lastAt here more l).or (lastAt here files l) := by
  rw [lastAt, List.map_append, List.reverse_append, List.lookup_append, lastAt, lastAt]

theorem lastAt_singleton (here l : Location) (path text : String) :
    lastAt here [(path, text)] l = if l = Path.resolve here path then some text else none := by
  rw [lastAt, List.map_singleton, List.reverse_singleton, List.lookup_cons, List.lookup_nil]
  by_cases hl : l = Path.resolve here path
  · rw [if_pos hl, beq_iff_eq.mpr hl]
  · rw [if_neg hl, beq_eq_false_iff_ne.mpr hl]

/-- The place of a file has a last text. -/
theorem exists_lastAt (here : Location) {f : String × String} (h : f ∈ files) :
    ∃ text, lastAt here files (Path.resolve here f.1) = some text := by
  obtain ⟨before, after, rfl⟩ := List.append_of_mem h
  rw [← List.singleton_append, lastAt_append, lastAt_append, lastAt_singleton, if_pos rfl]
  cases lastAt here after (Path.resolve here f.1) with
  | none => exact ⟨_, rfl⟩
  | some text => exact ⟨text, rfl⟩

/-- Among files at different places, each is the last at its own. -/
theorem lastAt_of_nodup {here : Location}
    (hnodup : (files.map fun f => Path.resolve here f.1).Nodup) {f : String × String}
    (h : f ∈ files) : lastAt here files (Path.resolve here f.1) = some f.2 := by
  obtain ⟨before, after, rfl⟩ := List.append_of_mem h
  rw [List.map_append, List.map_cons] at hnodup
  have hafter : lastAt here after (Path.resolve here f.1) = none := by
    rw [lastAt, List.lookup_eq_none_iff]
    intro g hg
    obtain ⟨x, hx, rfl⟩ := List.mem_map.mp (List.mem_reverse.mp hg)
    have hne := (List.nodup_cons.mp hnodup.of_append_right).1
    exact bne_iff_ne.mpr fun heq => hne (List.mem_map.mpr ⟨x, hx, heq.symm⟩)
  rw [← List.singleton_append, lastAt_append, lastAt_append, lastAt_singleton, if_pos rfl, hafter]
  rfl

/-! ### Walking on -/

/-- A walk goes through directories only, so it finds its way as long as these stay. -/
theorem walk_of_directories (h : ∀ l, d.at? l = some .directory → d'.at? l = some .directory)
    {l l' : Location} {ps : List String} (hwalk : d.walk l ps = .ok l') :
    d'.walk l ps = .ok l' := by
  induction ps generalizing l with
  | nil => exact hwalk
  | cons part ps ih =>
    rw [walk] at hwalk ⊢
    split at hwalk
    · cases hwalk
    · next hat =>
      rw [h l hat]
      split at hwalk
      · next hvoid => exact (if_pos hvoid).trans (ih hwalk)
      · next hvoid =>
        refine (if_neg hvoid).trans ?_
        split at hwalk
        · next hup => exact (if_pos hup).trans (ih hwalk)
        · next hup =>
          refine (if_neg hup).trans ?_
          split at hwalk
          · cases hwalk
          · next hlong => exact (if_neg hlong).trans (ih hwalk)
    · cases hwalk

theorem locate_of_directories {path : String} {t : Target} (hlocate : d.locate path = .ok t)
    (h : ∀ l, d.at? l = some .directory → d'.at? l = some .directory) (hhere : d'.here = d.here) :
    d'.locate path = .ok t := by
  obtain ⟨hpath, hwalk, hslash⟩ := (locate_eq_ok_iff d path t).mp hlocate
  refine (locate_eq_ok_iff d' path t).mpr ⟨hpath, ?_, hslash⟩
  rw [hhere]
  exact walk_of_directories h hwalk

/-! ### Runs of writing -/

theorem Receives.refl (d : Disk) : Receives [] d d :=
  ⟨rfl, fun _ h => h, fun _ => rfl, List.forall_mem_nil _, fun _ _ => rfl⟩

theorem Receives.trans (h : Receives files d d') (h' : Receives more d' d'') :
    Receives (files ++ more) d d'' where
  here := h'.here.trans h.here
  directories l hl := h'.directories l (h.directories l hl)
  devices l := (h'.devices l).trans (h.devices l)
  found := by
    refine List.forall_mem_append.mpr ⟨fun f hf => ?_, fun f hf => ?_⟩
    · exact locate_of_directories (h.found f hf) h'.directories h'.here
    · rw [h'.found f hf, h.here]
  contents l hl := by
    rw [h'.contents l ((h.devices l).trans hl), h.contents l hl, h.here, lastAt_append]
    cases lastAt d.here more l <;> rfl

theorem fileAt_eq_some_iff (d : Disk) (l : Location) (content : ByteArray) :
    d.fileAt l = some content ↔ d.at? l = some (.file content) := by
  rw [fileAt]
  split
  · next h => rw [h, Option.some.injEq, Option.some.injEq, DiskEntry.file.injEq]
  · next h => exact ⟨fun hnone => (by cases hnone), fun hat => absurd hat (h content)⟩

theorem locate_of_locateFile {path : String} {l : Location} (h : d.locateFile path = .ok l) :
    d.locate path = .ok ⟨l, false⟩ := by
  rw [locateFile] at h
  split at h
  · obtain ⟨_, -, h⟩ := (exceptBind_eq_ok_iff _ _ _).mp h
    cases h
  · next hslash =>
    obtain ⟨t, ht, h⟩ := (exceptBind_eq_ok_iff _ _ _).mp h
    cases h
    have hdirectory := asDirectory_of_locate ht
    rw [Bool.eq_false_iff.mpr hslash] at hdirectory
    rw [ht, ← hdirectory]

/-- A new or changed file, where there is neither a directory nor a device. -/
theorem receives_put {path : String} {l : Location} (hlocate : d.locate path = .ok ⟨l, false⟩)
    (hdirectory : d.at? l ≠ some .directory) (hdevice : ∀ v, d.at? l ≠ some (.device v))
    (text : String) : Receives [(path, text)] d (d.put l (.file text.toUTF8)) := by
  have hl : l = Path.resolve d.here path := location_eq_resolve hlocate
  have hput := at?_put (ne_nil_of_at? hdirectory) d (.file text.toUTF8)
  have hkept : ∀ k, d.at? k = some .directory →
      (d.put l (.file text.toUTF8)).at? k = some .directory := by
    intro k hk
    have hne : k ≠ l := by
      rintro rfl
      exact hdirectory hk
    rw [hput, if_neg hne, hk]
  have hfound : (d.put l (.file text.toUTF8)).locate path = .ok ⟨l, false⟩ :=
    locate_of_directories hlocate hkept rfl
  refine ⟨rfl, hkept, fun k => ?_, List.forall_mem_singleton.mpr (hl ▸ hfound), fun k _ => ?_⟩
  · have hnone : d.deviceAt l = none := by
      rw [deviceAt]
      split
      · next v hsome => exact absurd hsome (hdevice v)
      · rfl
    by_cases hk : k = l
    · rw [hk, hnone, deviceAt, hput, if_pos rfl]
    · rw [deviceAt, deviceAt, hput, if_neg hk]
  · rw [lastAt_singleton, ← hl, fileAt, hput]
    by_cases hk : k = l
    · rw [if_pos hk, if_pos hk]
      rfl
    · rw [if_neg hk, if_neg hk]
      rfl

theorem receives_writeText {path text : String} (h : d.writeText path text = .ok d') :
    Receives [(path, text)] d d' := by
  rw [writeText, writeBytes] at h
  obtain ⟨l, hl, h⟩ := (exceptBind_eq_ok_iff _ _ _).mp h
  have hlocate := locate_of_locateFile hl
  obtain rfl := locateFile_eq_resolve hl
  split at h
  · cases h
  · next v hdevice =>
    -- A device keeps nothing, and no file is at its place.
    cases h
    refine ⟨rfl, fun _ h => h, fun _ => rfl, List.forall_mem_singleton.mpr hlocate, fun k hk => ?_⟩
    have hne : k ≠ Path.resolve d.here path := by
      rintro rfl
      rw [deviceAt, hdevice] at hk
      cases hk
    rw [lastAt_singleton, if_neg hne]
    rfl
  · next hdirectory hdevice =>
    cases h
    exact receives_put hlocate hdirectory hdevice text

theorem receives_makeDirectory {path : String} (h : d.makeDirectory path = .ok d') :
    Receives [] d d' := by
  have honly := writesOnly_makeDirectory h
  rw [makeDirectory] at h
  obtain ⟨t, -, h⟩ := (exceptBind_eq_ok_iff _ _ _).mp h
  split at h
  · cases h
  · next hnone =>
    cases h
    have hne : d.at? t.location ≠ some .directory := by simp [hnone]
    have hput := at?_put (ne_nil_of_at? hne) d .directory
    refine ⟨rfl, fun l hl => ?_, fun l => ?_, List.forall_mem_nil _, fun l _ => ?_⟩
    · rw [hput, hl]
      exact ite_self _
    · rw [deviceAt, deviceAt, hput]
      by_cases heq : l = t.location
      · rw [if_pos heq, heq, hnone]
      · rw [if_neg heq]
    · exact honly.elsewhere l List.not_mem_nil

/-- A file reads as the text that was written there last. -/
theorem Receives.readText (h : Receives files d d') {f : String × String} (hf : f ∈ files)
    (hdevice : d.deviceAt (Path.resolve d.here f.1) = none) :
    ∃ text, lastAt d.here files (Path.resolve d.here f.1) = some text ∧
      d'.readText f.1 = .ok text := by
  obtain ⟨text, htext⟩ := exists_lastAt d.here hf
  have hfile := h.contents _ hdevice
  rw [htext] at hfile
  exact ⟨text, htext, readText_of_find (find_of_locate (h.found f hf)
    ((fileAt_eq_some_iff _ _ _).mp hfile))⟩

end Disk

/-! ## Sandboxes -/

namespace Sandbox

open Disk Unweave.Path

/-- The files of a project, in the order in which they are written. -/
def files (layout : Layout) (dir : String) (p : Project) : List (String × String) :=
  p.documents.map (fun x => (documentPath dir x, layout.root x.root)) ++
    [(manifestPath dir p, manifest p)]

section Writing

variable (layout : Layout) (dir : String)

theorem map_fst_files (p : Project) : (files layout dir p).map (·.1) = paths dir p := by
  rw [files, paths, List.map_append, List.map_map, List.map_singleton]
  rfl

/-- The project file is written last, so it is never lost. -/
theorem manifest_stays (p : Project) (here : Location) :
    (manifestPath dir p, manifest p) ∈ files layout dir p ∧
      lastAt here (files layout dir p) (resolve here (manifestPath dir p)) = some (manifest p) := by
  refine ⟨List.mem_append_right _ List.mem_cons_self, ?_⟩
  rw [files, lastAt_append, lastAt_singleton, if_pos rfl]
  rfl

theorem receives_writeDocument {d d' : Disk} {x : Document}
    (h : writeDocument layout dir d x = (.ok (), d')) :
    Receives [(documentPath dir x, layout.root x.root)] d d' := by
  unfold writeDocument at h
  dsimp only at h
  cases hmade : makeParent d (documentPath dir x) with
  | error e =>
    rw [hmade] at h
    cases h
  | ok made =>
    have hparent : Receives [] d made := by
      rw [makeParent] at hmade
      split at hmade
      · cases hmade
        exact .refl _
      · exact makeDirectories_induction .refl Receives.trans receives_makeDirectory hmade
    rw [hmade] at h
    dsimp only at h
    cases hwritten : made.writeText (documentPath dir x) (layout.root x.root) with
    | error e =>
      rw [hwritten] at h
      cases h
    | ok written =>
      rw [hwritten] at h
      cases h
      exact hparent.trans (receives_writeText hwritten)

theorem receives_writeDocuments {ds : List Document} {d d' : Disk}
    (h : writeDocuments layout dir ds d = (.ok (), d')) :
    Receives (ds.map fun x => (documentPath dir x, layout.root x.root)) d d' := by
  rw [writeDocuments] at h
  induction ds generalizing d with
  | nil =>
    cases h
    exact .refl _
  | cons x ds ih =>
    rw [List.foldl_cons, writeNext] at h
    cases hx : writeDocument layout dir d x with
    | mk outcome written =>
      rw [hx] at h
      cases outcome with
      | error e =>
        rw [foldl_writeNext_error] at h
        cases h
      | ok done => exact (receives_writeDocument layout dir hx).trans (ih h)

theorem receives_materialize {p : Project} {d : Disk} {written : List String}
    (h : (materialize layout p dir d).1 = .ok written) :
    Receives (files layout dir p) d (materialize layout p dir d).2 := by
  rw [materialize] at h ⊢
  split at h
  · cases h
  · next made hmade =>
    have hdocuments := receives_writeDocuments layout dir hmade
    split at h
    · cases h
    · next hmanifest => exact hdocuments.trans (receives_writeText hmanifest)

end Writing

/-! ### Clashes -/

/-- The path that a document has of its own. -/
def ownPath (x : Document) : String := x.path.getD x.name

/-- Whether a document cannot keep its path below the directory. -/
def isCut (x : Document) : Bool := isAbsolute (ownPath x) || goesUp (ownPath x)

/-- The path that a document has below the directory. -/
def relativePath (x : Document) : String := safeRelative (ownPath x) x.name

/-- No file of a project takes the place of another in the directory at `top`: no document that was
cut down meets another document, and none meets the project file. -/
structure Unclashing (top : Location) (p : Project) : Prop where
  documents : p.documents.Pairwise fun x y => isCut x = true ∨ isCut y = true →
    resolve top (relativePath x) ≠ resolve top (relativePath y)
  manifest : ∀ x ∈ p.documents, resolve top (relativePath x) ≠ resolve top (p.name ++ ".csproj")

theorem relativePath_of_uncut {x : Document} (h : isCut x = false) :
    relativePath x = ownPath x ∧ stays (ownPath x) = true := by
  have hsafe : relativePath x = ownPath x := if_neg (Bool.eq_false_iff.mp h)
  refine ⟨hsafe, ?_⟩
  rw [← hsafe, relativePath, stays_safeRelative_iff, isNameless]
  intro hnameless
  rw [isCut] at h
  rw [h] at hnameless
  cases hnameless

theorem places_eq (here : Location) (dir : String) (p : Project) :
    (paths dir p).map (resolve here) =
      p.documents.map (fun x => resolve (resolve here dir) (relativePath x)) ++
        [resolve (resolve here dir) (p.name ++ ".csproj")] := by
  have hdocument : ∀ x, resolve here (documentPath dir x) =
      resolve (resolve here dir) (relativePath x) := fun _ => resolve_join_eq here dir _
  rw [paths, List.map_append, List.map_map, List.map_singleton, manifestPath, resolve_join_eq,
    Function.comp_def]
  simp only [hdocument]

/-- Documents that keep their paths, and differ in them, do not meet. -/
theorem nodup_places_iff {p : Project}
    (h : p.documents.Pairwise fun x y => normal (ownPath x) ≠ normal (ownPath y))
    (here : Location) (dir : String) :
    ((paths dir p).map (resolve here)).Nodup ↔ Unclashing (resolve here dir) p := by
  rw [places_eq, List.nodup_append, List.Nodup, List.pairwise_map]
  constructor
  · rintro ⟨hdocuments, -, hmanifest⟩
    refine ⟨hdocuments.imp ?_, fun x hx => ?_⟩
    · exact fun hne _ => hne
    · exact hmanifest _ (List.mem_map_of_mem hx) _ (List.mem_singleton_self _)
  · intro hfree
    refine ⟨hfree.documents.imp₂ (fun x y hne hnormal => ?_) h, List.nodup_singleton _, ?_⟩
    · by_cases hcut : isCut x = true ∨ isCut y = true
      · exact hne hcut
      · rw [not_or, Bool.not_eq_true, Bool.not_eq_true] at hcut
        obtain ⟨hx, hstaysx⟩ := relativePath_of_uncut hcut.1
        obtain ⟨hy, hstaysy⟩ := relativePath_of_uncut hcut.2
        rw [hx, hy]
        exact resolve_ne_of_stays hstaysx hstaysy hnormal _
    · intro l hl k hk
      obtain ⟨x, hx, rfl⟩ := List.mem_map.mp hl
      rw [List.mem_singleton.mp hk]
      exact hfree.manifest x hx

/-- Where no document is cut down, only the project file can be in the way. -/
theorem unclashing_of_uncut {p : Project} (hcut : ∀ x ∈ p.documents, isCut x = false)
    (hname : stays (p.name ++ ".csproj") = true)
    (hmanifest : ∀ x ∈ p.documents, normal (ownPath x) ≠ normal (p.name ++ ".csproj"))
    (top : Location) : Unclashing top p where
  documents := by
    refine List.pairwise_of_forall_mem_list fun x hx y hy h => ?_
    rw [hcut x hx, hcut y hy] at h
    rcases h with h | h <;> cases h
  manifest x hx := by
    obtain ⟨hsame, hstays⟩ := relativePath_of_uncut (hcut x hx)
    rw [hsame]
    exact resolve_ne_of_stays hstays hname (hmanifest x hx) top

/-- The files of a project whose documents have different paths, in normal form, go to different
places exactly if none of them clash.  Each file then reads as it was written; if some clash, as the
last one that went to its place.  Nothing clashes where no document is cut down and none has the
path of the project file. -/
theorem materialize_keeps {p : Project}
    (h : p.documents.Pairwise fun x y => normal (ownPath x) ≠ normal (ownPath y)) :
    (∀ here dir, ((paths dir p).map (resolve here)).Nodup ↔ Unclashing (resolve here dir) p) ∧
    (∀ layout dir d written, (materialize layout p dir d).1 = .ok written →
      ∀ f ∈ files layout dir p, d.deviceAt (resolve d.here f.1) = none →
        ∃ text, lastAt d.here (files layout dir p) (resolve d.here f.1) = some text ∧
          (materialize layout p dir d).2.readText f.1 = .ok text ∧
          (Unclashing (resolve d.here dir) p → text = f.2)) ∧
    ((∀ x ∈ p.documents, isCut x = false) → stays (p.name ++ ".csproj") = true →
      (∀ x ∈ p.documents, normal (ownPath x) ≠ normal (p.name ++ ".csproj")) →
        ∀ top, Unclashing top p) := by
  refine ⟨nodup_places_iff h, ?_, unclashing_of_uncut⟩
  intro layout dir d written hok f hf hdevice
  obtain ⟨text, htext, hread⟩ := (receives_materialize layout dir hok).readText hf hdevice
  refine ⟨text, htext, hread, fun hfree => ?_⟩
  have hnodup := (nodup_places_iff h d.here dir).mpr hfree
  rw [← map_fst_files layout, List.map_map] at hnodup
  exact Option.some.inj (htext.symm.trans (lastAt_of_nodup hnodup hf))

/-- A project of documents given by a path and the class in it. -/
def bundle (documents : List (String × String)) : Project :=
  { id := ⟨1⟩, name := "Demo", assembly := "Demo"
    documents := documents.map fun x =>
      { id := ⟨1⟩, name := x.1
        root := { members := [.type { kind := .classKind, name := x.2 } []] } } }

theorem materialize_keeps_bundle :
    let p := bundle [("src/A.cs", "First"), ("../escape/B.cs", "Second")]
    let d := Disk.fresh ["work"]
    Unclashing ["work", "m"] p ∧
      (materialize {} p "m" d).1 = .ok ["m/src/A.cs", "m/B.cs", "m/Demo.csproj"] ∧
      (materialize {} p "m" d).2.readText "m/src/A.cs" = .ok "class First\n\x7b\n\x7d\n" ∧
      (materialize {} p "m" d).2.readText "m/B.cs" = .ok "class Second\n\x7b\n\x7d\n" := by
  intro p d
  have hnormal : p.documents.Pairwise fun x y => normal (ownPath x) ≠ normal (ownPath y) := by
    decide +kernel
  obtain ⟨hplaces, hread, -⟩ := materialize_keeps hnormal
  have hfree : Unclashing ["work", "m"] p := (hplaces ["work"] "m").mp (by decide +kernel)
  have hok : (materialize {} p "m" d).1 = .ok ["m/src/A.cs", "m/B.cs", "m/Demo.csproj"] := by
    decide +kernel
  refine ⟨hfree, hok, ?_, ?_⟩
  · obtain ⟨text, -, htext, heq⟩ := hread {} "m" d _ hok ("m/src/A.cs", "class First\n\x7b\n\x7d\n")
      (by decide +kernel) (by decide +kernel)
    rw [htext, heq hfree]
  · obtain ⟨text, -, htext, heq⟩ := hread {} "m" d _ hok ("m/B.cs", "class Second\n\x7b\n\x7d\n")
      (by decide +kernel) (by decide +kernel)
    rw [htext, heq hfree]

/-- Two documents with different paths go to one file, and the first of them is lost; so is a
document that has the path of the project file. -/
theorem materialize_overwrites :
    let p := bundle [("A.cs", "First"), ("../A.cs", "Second")]
    let q := bundle [("Demo.csproj", "First")]
    let d := Disk.fresh ["work"]
    (p.documents.Pairwise fun x y => normal (ownPath x) ≠ normal (ownPath y)) ∧
      (materialize {} p "m" d).1 = .ok ["m/A.cs", "m/A.cs", "m/Demo.csproj"] ∧
      (materialize {} p "m" d).2.readText "m/A.cs" = .ok "class Second\n\x7b\n\x7d\n" ∧
      (materialize {} q "m" d).1 = .ok ["m/Demo.csproj", "m/Demo.csproj"] ∧
      (materialize {} q "m" d).2.readText "m/Demo.csproj" = .ok (manifest q) := by
  intro p q d
  have hok : (materialize {} q "m" d).1 = .ok ["m/Demo.csproj", "m/Demo.csproj"] := by
    decide +kernel
  have hpath : manifestPath "m" q = "m/Demo.csproj" := by decide +kernel
  obtain ⟨hmem, hlast⟩ := manifest_stays {} "m" q d.here
  rw [hpath] at hmem hlast
  obtain ⟨text, htext, hread⟩ := (receives_materialize {} "m" hok).readText hmem (by decide +kernel)
  have heq : text = manifest q := Option.some.inj (htext.symm.trans hlast)
  exact ⟨by decide +kernel, by decide +kernel, by decide +kernel, hok, heq ▸ hread⟩

end Sandbox
end Unweave

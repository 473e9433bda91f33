import Unweave.Proofs.Runs

/-!
# What packing takes

What the three passes take out of a project are three disjoint sets of declarations.  Together with
what is left in the end they are all declarations of the project, and left are exactly the leaves
outside types that no pass selected, each where it was.

The argument goes by sites.  Tidying keeps them, the first two passes filter out those of the leaves
that they select, and the third one all that are not loose.
-/

namespace Unweave

/-! ## Sites of a project from which nodes were taken -/

namespace Project

variable {p : Project} {gone : NodeId → Bool}

theorem sites_eq_flatMap (p : Project) :
    p.sites = p.documents.flatMap fun d => d.entries.map Entry.site := by
  rw [sites, entries_eq_flatMap, List.map_flatMap]

theorem mem_sites {e : Entry} (h : e ∈ p.entries) : e.site ∈ p.sites := List.mem_map_of_mem h

theorem map_id_sites (p : Project) : p.sites.map Site.id = p.entries.map Entry.id := by
  rw [sites, List.map_map]
  rfl

theorem UniqueIds.nodup_sites (h : p.UniqueIds) : (p.sites.map Site.id).Nodup := by
  rw [map_id_sites]
  exact h.nodup_entries

theorem UniqueIds.site_eq_of_id (h : p.UniqueIds) {s s' : Site} (hs : s ∈ p.sites)
    (hs' : s' ∈ p.sites) (hid : s.id = s'.id) : s = s' :=
  List.inj_on_of_nodup_map h.nodup_sites hs hs' hid

section Erase

variable (hblocks : ∀ id ∈ p.blockIds, gone id = false)
include hblocks

theorem blocks_kept {d : Document} (hd : d ∈ p.documents) :
    ∀ id ∈ Member.blockIdsAll d.root.members, gone id = false := fun id hid =>
  hblocks id (List.mem_flatMap.mpr ⟨d, hd, hid⟩)

theorem sites_erase_of_leaves
    (htypes : ∀ e ∈ p.entries, e.declaration.isType = true → gone e.id = false) :
    (p.erase gone).sites = p.sites.filter (Site.survives gone) := by
  rw [sites_eq_flatMap, sites_eq_flatMap, List.filter_flatMap]
  refine flatMap_mapDocuments fun d hd => ?_
  exact Catalogue.map_site_eraseAll_of_leaves d.id (blocks_kept hblocks hd) fun e he =>
    htypes e (mem_entries_iff.mpr ⟨d, hd, he⟩)

theorem sites_erase_of_topTypes
    (hentries : ∀ e ∈ p.entries, e.depth = 0 → gone e.id = e.declaration.isType) :
    (p.erase gone).sites = p.sites.filter Site.isLoose := by
  rw [sites_eq_flatMap, sites_eq_flatMap, List.filter_flatMap]
  refine flatMap_mapDocuments fun d hd => ?_
  exact Catalogue.map_site_eraseAll_of_topTypes d.id (blocks_kept hblocks hd) fun e he =>
    hentries e (mem_entries_iff.mpr ⟨d, hd, he⟩)

theorem spaces_erase : (p.erase gone).spaces = p.spaces := by
  show (p.documents.map (·.erase gone)).map _ = p.documents.map _
  rw [List.map_map]
  refine List.map_congr_left fun d hd => ?_
  exact congrArg (Prod.mk d.id) (Member.spacesAll_eraseAll (blocks_kept hblocks hd) "")

end Erase

/-- The identifiers of entries are not those of blocks. -/
theorem UniqueIds.blocks_kept_of_entries (h : p.UniqueIds) {ids : List NodeId}
    (hids : ∀ id ∈ ids, ∃ e ∈ p.entries, e.id = id) :
    ∀ id ∈ p.blockIds, ids.contains id = false := by
  intro id hblock
  rw [Bool.eq_false_iff]
  intro hmem
  obtain ⟨e, he, rfl⟩ := hids id (List.contains_iff_mem.mp hmem)
  exact h.not_mem_blockIds he hblock

/-- Taking leaves out takes their sites out. -/
theorem UniqueIds.sites_erase_leaves (h : p.UniqueIds) {ids : List NodeId}
    (hids : ∀ id ∈ ids, ∃ e ∈ p.entries, e.id = id ∧ e.declaration.isType = false) :
    (p.erase ids.contains).sites = p.sites.filter (Site.survives ids.contains) := by
  refine sites_erase_of_leaves (h.blocks_kept_of_entries fun id hid => ?_) fun e he htype => ?_
  · obtain ⟨e, he, hid, -⟩ := hids id hid
    exact ⟨e, he, hid⟩
  · rw [Bool.eq_false_iff]
    intro hmem
    obtain ⟨e', he', hid, hleaf⟩ := hids e.id (List.contains_iff_mem.mp hmem)
    rw [h.eq_of_id he' he hid, htype] at hleaf
    cases hleaf

end Project

/-! ## What lies in a type -/

namespace Entry

/-- A type that stands in no other. -/
def isTop (e : Entry) : Bool := e.declaration.isType && e.depth == 0

/-- The declaration and everything declared in it. -/
def covered (e : Entry) : List NodeId :=
  (Catalogue.collect e.document e.space e.container e.depth e.declaration.toMember).map Entry.id

def isBound (e : Entry) : Bool := !e.site.isLoose

theorem covered_of_leaf {e : Entry} (h : e.declaration.isType = false) : e.covered = [e.id] := by
  obtain ⟨declaration, document, container, space, depth⟩ := e
  cases declaration with
  | type head members => cases h
  | leaf l => rfl

end Entry

/-- The top-level types cover everything that is not loose. -/
theorem Catalogue.flatMap_covered_collectAll (document : DocumentId) (space : String)
    (ms : List Member) :
    ((collectAll document space none 0 ms).filter Entry.isTop).flatMap Entry.covered =
      ((collectAll document space none 0 ms).filter Entry.isBound).map Entry.id := by
  induction ms using Member.listInduction generalizing space with
  | nil => rfl
  | block head inner ms ihInner ih =>
    rw [collectAll, collect, List.filter_append, List.filter_append, List.flatMap_append,
      List.map_append, ihInner, ih]
  | type head inner ms _ ih =>
    have hinner : ∀ e ∈ collectAll document space (some head) (0 + 1) inner, 0 + 1 ≤ e.depth :=
      fun e he => depth_le_of_mem_collectAll document he
    have htop : (collectAll document space (some head) (0 + 1) inner).filter Entry.isTop = [] := by
      refine List.filter_eq_nil_iff.mpr fun e he => ?_
      have hdepth := hinner e he
      rw [Entry.isTop, Bool.and_eq_true, beq_iff_eq]
      omega
    have hbound : (collectAll document space (some head) (0 + 1) inner).filter Entry.isBound =
        collectAll document space (some head) (0 + 1) inner := by
      refine List.filter_eq_self.mpr fun e he => ?_
      have hdepth : 0 + 1 ≤ e.site.depth := hinner e he
      rw [Entry.isBound, Site.isLoose, Bool.not_eq_true', Bool.and_eq_false_iff,
        beq_eq_false_iff_ne]
      omega
    have hself : Entry.isTop ⟨.type head inner, document, none, space, 0⟩ = true := rfl
    have hself' : Entry.isBound ⟨.type head inner, document, none, space, 0⟩ = true := rfl
    rw [collectAll, collect, List.filter_append, List.filter_append, List.flatMap_append,
      List.map_append, List.filter_cons_of_pos hself, List.filter_cons_of_pos hself', htop, hbound,
      ih, List.flatMap_cons, List.flatMap_nil, List.append_nil]
    rfl
  | leaf l ms ih =>
    have hself : ¬ Entry.isTop ⟨.leaf l, document, none, space, 0⟩ = true := Bool.false_ne_true
    have hself' : ¬ Entry.isBound ⟨.leaf l, document, none, space, 0⟩ = true := Bool.false_ne_true
    rw [collectAll, collect, List.filter_append, List.filter_append, List.flatMap_append,
      List.map_append, List.filter_cons_of_neg hself, List.filter_cons_of_neg hself', ih]
    rfl

theorem Project.flatMap_covered (p : Project) :
    (p.entries.filter Entry.isTop).flatMap Entry.covered =
      (p.entries.filter Entry.isBound).map Entry.id := by
  rw [entries_eq_flatMap, List.filter_flatMap, List.filter_flatMap, List.flatMap_assoc,
    List.map_flatMap]
  refine congrArg (fun f => p.documents.flatMap f) (funext fun d => ?_)
  exact Catalogue.flatMap_covered_collectAll d.id "" d.root.members

/-! ## The three passes -/

/-- A delegate. -/
def Site.isDelegate (s : Site) : Bool := s.leaf.any (·.form.isDelegate)

theorem Declaration.isTypeMember_of_isExtensionMethod {d : Declaration}
    (h : d.isExtensionMethod = true) : d.isTypeMember = true := by
  cases d with
  | type head members => cases h
  | leaf l =>
    show (!l.form.isDelegate) = true
    have hform : l.form.isExtension = true := h
    cases hl : l.form with
    | delegate name typeParameters result parameters =>
      rw [hl] at hform
      cases hform
    | method => rfl
    | property => rfl
    | constructor => rfl
    | field => rfl

theorem Entry.site_of_isTypeMember {e : Entry} (h : e.declaration.isTypeMember = true) :
    e.declaration.isType = false ∧ e.site.isDelegate = false := by
  obtain ⟨declaration, document, container, space, depth⟩ := e
  cases declaration with
  | type head members => cases h
  | leaf l => exact ⟨rfl, (Bool.not_eq_true' _).mp h⟩

theorem Walker.nodup_answers (w : Walker) {es : List Entry} (h : (es.map Entry.id).Nodup)
    (f : Entry × TypeSet → Bool) : (((w.answerAll es).1.filter f).map (·.1.id)).Nodup := by
  have hids : (w.answerAll es).1.map (·.1.id) = es.map Entry.id := by
    conv_rhs => rw [← w.answerAll_queries es, List.map_map]
    rfl
  rw [← hids] at h
  exact h.sublist ((List.filter_sublist).map _)

/-! ### Containers -/

section Containers

variable {p : Project} (policy : InterweaveConfig) (hp : p.UniqueIds)
include hp

theorem InterweaveConfig.exists_mem_selectContainers_iff (e : Entry) :
    (∃ s ∈ policy.selectContainers (Walker.ofProject p), s.entry = e) ↔
      e ∈ p.entries ∧ e.isTop = true := by
  have htop := hp.mem_topTypes_iff e
  rw [Entry.isTop, Bool.and_eq_true, beq_iff_eq, ← htop]
  constructor
  · rintro ⟨s, hs, rfl⟩
    obtain ⟨e, he, rfl⟩ := List.mem_map.mp hs
    exact he
  · exact fun he => ⟨⟨e, .empty⟩, List.mem_map_of_mem he, rfl⟩

/-- The container pass takes types of the project only. -/
theorem InterweaveConfig.selectContainers_mem :
    ∀ id ∈ (policy.selectContainers (Walker.ofProject p)).map (·.id),
      ∃ e ∈ p.entries, e.id = id := by
  intro id hid
  obtain ⟨s, hs, rfl⟩ := List.mem_map.mp hid
  exact ⟨s.entry, ((policy.exists_mem_selectContainers_iff hp s.entry).mp ⟨s, hs, rfl⟩).1, rfl⟩

theorem Project.sites_erase_containers :
    (p.erase ((policy.selectContainers (Walker.ofProject p)).map (·.id)).contains).sites =
      p.sites.filter Site.isLoose := by
  refine Project.sites_erase_of_topTypes
    (hp.blocks_kept_of_entries (policy.selectContainers_mem hp)) fun e he hdepth => ?_
  rw [Bool.eq_iff_iff, List.contains_iff_mem, List.mem_map]
  constructor
  · rintro ⟨s, hs, hid⟩
    obtain ⟨he', htop⟩ := (policy.exists_mem_selectContainers_iff hp s.entry).mp ⟨s, hs, rfl⟩
    rw [← hp.eq_of_id he' he hid]
    exact (Bool.and_eq_true_iff.mp htop).1
  · intro htype
    have htop : e.isTop = true := by rw [Entry.isTop, htype, hdepth]; rfl
    obtain ⟨s, hs, rfl⟩ := (policy.exists_mem_selectContainers_iff hp e).mpr ⟨he, htop⟩
    exact ⟨s, hs, rfl⟩

/-- In the container pass goes everything that is not loose. -/
theorem InterweaveConfig.flatMap_covered_selectContainers :
    (policy.selectContainers (Walker.ofProject p)).flatMap (·.entry.covered) =
      (p.sites.filter (!·.isLoose)).map Site.id := by
  have htop : (Catalogue.ofProject p).topTypes = p.entries.filter Entry.isTop := by
    rw [Catalogue.topTypes, hp.declarations_eq]
    rfl
  rw [InterweaveConfig.selectContainers, List.flatMap_map]
  show (Catalogue.ofProject p).topTypes.flatMap Entry.covered = _
  rw [htop, p.flatMap_covered, Project.sites, List.filter_map, List.map_map]
  rfl

end Containers

namespace Packing

variable {settings : Settings} {p : Project} (t : Packing settings p)

/-- What the extension pass selected. -/
def extensionSelection : List Selected :=
  (settings.policy.selectExtensions (Walker.ofProject t.tidy)).1

/-- What the member pass selected. -/
def memberSelection : List Selected :=
  (settings.policy.interwovenMembers t.extensions.project).map fun (e, deps) => ⟨e, deps⟩

/-- What the container pass selected. -/
def containerSelection : List Selected :=
  settings.policy.selectContainers (Walker.ofProject t.members.project)

/-- All that was selected, in the order of the packages. -/
def selected : List Selected := t.extensionSelection ++ t.memberSelection ++ t.containerSelection

def extensionIds : List NodeId := t.extensionSelection.map (·.id)

def memberIds : List NodeId := t.memberSelection.map (·.id)

/-- The selected types and everything that is declared in them. -/
def containerIds : List NodeId := t.containerSelection.flatMap (·.entry.covered)

/-- All that was taken out. -/
def takenIds : List NodeId := t.extensionIds ++ t.memberIds ++ t.containerIds

/-- A delegate outside types, or a member outside types that is not interwoven. -/
def leftOver (s : Site) : Bool :=
  s.isLoose && (s.isDelegate || !(t.extensionIds ++ t.memberIds).contains s.id)

variable (hflags : CleanUp.FlagsUsings settings.usings) (hp : p.UniqueIds)
include hflags hp

theorem extensions_project :
    t.extensions.packages =
        t.extensionSelection.map (Extraction.extensionPackage settings.policy settings.layout) ∧
      t.extensions.project = t.tidy.erase t.extensionIds.contains := by
  have h := t.extensions_eq
  rw [Extraction.extensions_eq_ok _ _ (t.uniqueIds_tidy hflags hp), Except.ok.injEq] at h
  rw [← h]
  exact ⟨rfl, rfl⟩

theorem members_project :
    (settings.policy.selectMembers (Walker.ofProject t.extensions.project)).1 =
        .ok t.memberSelection ∧
      t.memberSelection.mapM (Extraction.memberPackage settings.policy settings.layout) =
        .ok t.members.packages ∧
      t.members.project = t.extensions.project.erase t.memberIds.contains := by
  obtain ⟨selected, hselected, hrest⟩ :=
    (Extraction.members_eq_ok_iff (t.uniqueIds_extensions hflags hp) _).mp t.members_eq
  obtain ⟨-, rfl⟩ := (InterweaveConfig.selectMembers_eq_ok_iff selected).mp hselected
  exact ⟨hselected, hrest⟩

theorem containers_project :
    t.containerSelection.mapM (Extraction.containerPackage settings.layout t.members.project) =
        .ok t.containers.packages ∧
      t.containers.project = t.members.project.erase (t.containerSelection.map (·.id)).contains :=
  (Extraction.containers_eq_ok_iff (t.uniqueIds_members hflags hp) _).mp t.containers_eq

/-! ### What each pass takes -/

theorem extensionSelection_entries : ∀ s ∈ t.extensionSelection, s.entry ∈ t.tidy.entries ∧
    s.entry.declaration.isType = false ∧ s.entry.site.isDelegate = false := by
  intro s hs
  obtain ⟨he, hext⟩ :=
    InterweaveConfig.mem_entries_of_mem_selectExtensions (t.uniqueIds_tidy hflags hp) hs
  have hmember := Declaration.isTypeMember_of_isExtensionMethod hext
  exact ⟨he, Entry.site_of_isTypeMember hmember⟩

theorem memberSelection_entries : ∀ s ∈ t.memberSelection, s.entry ∈ t.extensions.project.entries ∧
    s.entry.declaration.isType = false ∧ s.entry.site.isDelegate = false := by
  intro s hs
  obtain ⟨a, ha, rfl⟩ := List.mem_map.mp hs
  obtain ⟨he, hmember, -⟩ := InterweaveConfig.mem_entries_of_mem_interwovenMembers
    (t.uniqueIds_extensions hflags hp) ha
  exact ⟨he, Entry.site_of_isTypeMember hmember⟩

theorem containerSelection_entries : ∀ s ∈ t.containerSelection,
    s.entry ∈ t.members.project.entries := fun s hs =>
  ((settings.policy.exists_mem_selectContainers_iff (t.uniqueIds_members hflags hp) s.entry).mp
    ⟨s, hs, rfl⟩).1

theorem extensionIds_entries : ∀ id ∈ t.extensionIds, ∃ e ∈ t.tidy.entries, e.id = id ∧
    e.declaration.isType = false ∧ e.site.isDelegate = false := by
  intro id hid
  obtain ⟨s, hs, rfl⟩ := List.mem_map.mp hid
  obtain ⟨he, hleaf⟩ := t.extensionSelection_entries hflags hp s hs
  exact ⟨s.entry, he, rfl, hleaf⟩

theorem memberIds_entries : ∀ id ∈ t.memberIds, ∃ e ∈ t.extensions.project.entries, e.id = id ∧
    e.declaration.isType = false ∧ e.site.isDelegate = false := by
  intro id hid
  obtain ⟨s, hs, rfl⟩ := List.mem_map.mp hid
  obtain ⟨he, hleaf⟩ := t.memberSelection_entries hflags hp s hs
  exact ⟨s.entry, he, rfl, hleaf⟩

/-- Of leaves the declaration itself is taken, of types everything in them. -/
theorem flatMap_covered_selected : t.selected.flatMap (·.entry.covered) = t.takenIds := by
  have hleaves : ∀ ss : List Selected, (∀ s ∈ ss, s.entry.declaration.isType = false) →
      ss.flatMap (·.entry.covered) = ss.map (·.id) := by
    intro ss hss
    rw [List.map_eq_flatMap]
    exact List.flatMap_congr fun s hs => Entry.covered_of_leaf (hss s hs)
  have hextensions := hleaves t.extensionSelection fun s hs =>
    (t.extensionSelection_entries hflags hp s hs).2.1
  have hmembers := hleaves t.memberSelection fun s hs =>
    (t.memberSelection_entries hflags hp s hs).2.1
  rw [selected, List.flatMap_append, List.flatMap_append, hextensions, hmembers]
  rfl

theorem nodup_extensionIds : t.extensionIds.Nodup := by
  have htidy := t.uniqueIds_tidy hflags hp
  have hmethods : ((Catalogue.ofProject t.tidy).extensionMethods.map Entry.id).Nodup := by
    rw [Catalogue.extensionMethods, htidy.declarations_eq]
    exact htidy.nodup_entries.sublist ((List.filter_sublist).map _)
  have h := (Walker.ofProject t.tidy).nodup_answers hmethods
    fun (_, deps) => settings.policy.anyInterweave deps
  rw [extensionIds, extensionSelection, InterweaveConfig.selectExtensions, List.map_map]
  exact h

theorem nodup_memberIds : t.memberIds.Nodup := by
  have hextensions := t.uniqueIds_extensions hflags hp
  have hmembers :
      ((Catalogue.ofProject t.extensions.project).typeMembers.map Entry.id).Nodup := by
    rw [Catalogue.typeMembers, hextensions.declarations_eq]
    exact hextensions.nodup_entries.sublist ((List.filter_sublist).map _)
  have h := (Walker.ofProject t.extensions.project).nodup_answers hmembers
    fun (e, deps) => settings.policy.isInterwoven e deps
  rw [memberIds, memberSelection, InterweaveConfig.interwovenMembers, List.map_map]
  exact h

/-! ### Sites after each pass -/

theorem sites_extensions : t.extensions.project.sites =
    p.sites.filter (Site.survives t.extensionIds.contains) := by
  rw [(t.extensions_project hflags hp).2, ← (t.tidied hflags hp).sites_eq]
  refine (t.uniqueIds_tidy hflags hp).sites_erase_leaves fun id hid => ?_
  obtain ⟨e, he, hid, htype, -⟩ := t.extensionIds_entries hflags hp id hid
  exact ⟨e, he, hid, htype⟩

theorem sites_members : t.members.project.sites =
    t.extensions.project.sites.filter (Site.survives t.memberIds.contains) := by
  rw [(t.members_project hflags hp).2.2]
  refine (t.uniqueIds_extensions hflags hp).sites_erase_leaves fun id hid => ?_
  obtain ⟨e, he, hid, htype, -⟩ := t.memberIds_entries hflags hp id hid
  exact ⟨e, he, hid, htype⟩

theorem sites_containers : t.containers.project.sites =
    t.members.project.sites.filter Site.isLoose := by
  rw [(t.containers_project hflags hp).2]
  exact Project.sites_erase_containers _ (t.uniqueIds_members hflags hp)

theorem containerIds_eq : t.containerIds =
    (t.members.project.sites.filter (!·.isLoose)).map Site.id :=
  settings.policy.flatMap_covered_selectContainers (t.uniqueIds_members hflags hp)

/-! ### All together -/

theorem spaces_stripped : t.stripped.spaces = p.spaces := by
  have hextensions : t.extensions.project.spaces = t.tidy.spaces := by
    rw [(t.extensions_project hflags hp).2]
    refine Project.spaces_erase
      ((t.uniqueIds_tidy hflags hp).blocks_kept_of_entries fun id hid => ?_)
    obtain ⟨e, he, hid, -⟩ := t.extensionIds_entries hflags hp id hid
    exact ⟨e, he, hid⟩
  have hmembers : t.members.project.spaces = t.extensions.project.spaces := by
    rw [(t.members_project hflags hp).2.2]
    refine Project.spaces_erase
      ((t.uniqueIds_extensions hflags hp).blocks_kept_of_entries fun id hid => ?_)
    obtain ⟨e, he, hid, -⟩ := t.memberIds_entries hflags hp id hid
    exact ⟨e, he, hid⟩
  have hcontainers : t.containers.project.spaces = t.members.project.spaces := by
    rw [(t.containers_project hflags hp).2]
    exact Project.spaces_erase ((t.uniqueIds_members hflags hp).blocks_kept_of_entries
      (settings.policy.selectContainers_mem (t.uniqueIds_members hflags hp)))
  rw [(t.stripped_tidied hflags hp).spaces_eq, hcontainers, hmembers, hextensions,
    (t.tidied hflags hp).spaces_eq]

/-- What the first two passes take stood in the project, and was a leaf but no delegate. -/
theorem exists_site_of_mem {id : NodeId} (h : id ∈ t.extensionIds ++ t.memberIds) :
    ∃ s ∈ p.sites, s.id = id ∧ s.isDelegate = false ∧ s.leaf.isSome = true := by
  rcases List.mem_append.mp h with h | h
  · obtain ⟨e, he, hid, hleaf, hdelegate⟩ := t.extensionIds_entries hflags hp id h
    refine ⟨e.site, ?_, hid, hdelegate, e.declaration.isSome_bareLeaf?_iff.mpr hleaf⟩
    rw [← (t.tidied hflags hp).sites_eq]
    exact Project.mem_sites he
  · obtain ⟨e, he, hid, hleaf, hdelegate⟩ := t.memberIds_entries hflags hp id h
    refine ⟨e.site, ?_, hid, hdelegate, e.declaration.isSome_bareLeaf?_iff.mpr hleaf⟩
    have hmem := Project.mem_sites he
    rw [t.sites_extensions hflags hp] at hmem
    exact (List.mem_filter.mp hmem).1

/-- A site outlasts the first two passes unless one of them selected it. -/
theorem mem_sites_members_iff (s : Site) : s ∈ t.members.project.sites ↔
    s ∈ p.sites ∧ s.id ∉ t.extensionIds ++ t.memberIds := by
  rw [t.sites_members hflags hp, t.sites_extensions hflags hp, List.mem_filter, List.mem_filter,
    Site.survives_iff, Site.survives_iff, List.mem_append, not_or, and_assoc]

theorem sites_stripped : t.stripped.sites = p.sites.filter t.leftOver := by
  rw [(t.stripped_tidied hflags hp).sites_eq, t.sites_containers hflags hp,
    t.sites_members hflags hp, t.sites_extensions hflags hp, List.filter_filter, List.filter_filter]
  refine List.filter_congr fun s hs => ?_
  -- A delegate is selected by neither pass, so it makes no difference to ask whether it was.
  have hdelegate : s.isDelegate = true → (t.extensionIds ++ t.memberIds).contains s.id = false := by
    intro hs'
    rw [Bool.eq_false_iff]
    intro hmem
    obtain ⟨s₁, hs₁, hid, hnot, -⟩ := t.exists_site_of_mem hflags hp (List.contains_iff_mem.mp hmem)
    rw [hp.site_eq_of_id hs₁ hs hid, hs'] at hnot
    cases hnot
  have hcontains : (t.extensionIds ++ t.memberIds).contains s.id =
      (t.extensionIds.contains s.id || t.memberIds.contains s.id) := List.contains_append
  rw [leftOver, Site.survives, Site.survives]
  rw [hcontains] at hdelegate ⊢
  cases hd : s.isDelegate with
  | true =>
    have hnone := hdelegate hd
    rw [Bool.or_eq_false_iff] at hnone
    rw [hnone.1, hnone.2]
    simp
  | false =>
    rw [Bool.false_or, Bool.not_or, Bool.and_comm (!t.extensionIds.contains s.id), Bool.and_assoc]

theorem nodup_takenIds : t.takenIds.Nodup := by
  have hmembers : ∀ id ∈ t.memberIds, id ∉ t.extensionIds := by
    intro id hid
    obtain ⟨e, he, rfl, -⟩ := t.memberIds_entries hflags hp id hid
    rw [(t.extensions_project hflags hp).2] at he
    have hkept := Project.not_gone_of_mem_erase he
    rw [Bool.eq_false_iff, Ne, List.contains_iff_mem] at hkept
    exact hkept
  have hcontainers : ∀ id ∈ t.containerIds, id ∉ t.extensionIds ++ t.memberIds := by
    intro id hid
    rw [t.containerIds_eq hflags hp] at hid
    obtain ⟨s, hs, rfl⟩ := List.mem_map.mp hid
    exact ((t.mem_sites_members_iff hflags hp s).mp (List.mem_filter.mp hs).1).2
  have hnodup : t.containerIds.Nodup := by
    rw [t.containerIds_eq hflags hp]
    exact (t.uniqueIds_members hflags hp).nodup_sites.sublist ((List.filter_sublist).map _)
  refine List.nodup_append'.mpr ⟨List.nodup_append'.mpr ⟨t.nodup_extensionIds hflags hp,
    t.nodup_memberIds hflags hp, fun id h h' => hmembers id h' h⟩, hnodup, ?_⟩
  exact fun id h h' => hcontainers id h' h

/-- Taken out is exactly what is not left over. -/
theorem perm_takenIds : t.takenIds.Perm ((p.sites.filter (!t.leftOver ·)).map Site.id) := by
  have hnodup : ((p.sites.filter (!t.leftOver ·)).map Site.id).Nodup :=
    hp.nodup_sites.sublist ((List.filter_sublist).map _)
  refine (List.perm_ext_iff_of_nodup (t.nodup_takenIds hflags hp) hnodup).mpr fun id => ?_
  rw [takenIds, List.mem_append, t.containerIds_eq hflags hp]
  constructor
  · rintro (h | h)
    · obtain ⟨s, hs, rfl, hdelegate, -⟩ := t.exists_site_of_mem hflags hp h
      refine List.mem_map_of_mem (List.mem_filter.mpr ⟨hs, ?_⟩)
      rw [leftOver, hdelegate, List.contains_iff_mem.mpr h, Bool.not_true, Bool.or_false,
        Bool.and_false]
      rfl
    · obtain ⟨s, hs, rfl⟩ := List.mem_map.mp h
      obtain ⟨hs, hloose⟩ := List.mem_filter.mp hs
      refine List.mem_map_of_mem (List.mem_filter.mpr
        ⟨((t.mem_sites_members_iff hflags hp s).mp hs).1, ?_⟩)
      rw [leftOver, (Bool.not_eq_true' _).mp hloose, Bool.false_and]
      rfl
  · intro h
    obtain ⟨s, hs, rfl⟩ := List.mem_map.mp h
    obtain ⟨hs, hnot⟩ := List.mem_filter.mp hs
    by_cases hmem : s.id ∈ t.extensionIds ++ t.memberIds
    · exact Or.inl hmem
    · refine Or.inr (List.mem_map_of_mem (List.mem_filter.mpr
        ⟨(t.mem_sites_members_iff hflags hp s).mpr ⟨hs, hmem⟩, ?_⟩))
      have hcontains : (t.extensionIds ++ t.memberIds).contains s.id = false := by
        rw [Bool.eq_false_iff, Ne, List.contains_iff_mem]
        exact hmem
      rw [leftOver, hcontains, Bool.not_false, Bool.or_true, Bool.and_true] at hnot
      exact hnot

end Packing

end Unweave

import Unweave.Proofs.Outlines
import Unweave.Proofs.Repacking

/-!
# Documents that are not to be touched

Clean-ups pass over documents that are not ordinary source and over those with assembly attributes.
The passes do not: they take declarations out of every document.  What is left of such a document
depends on the project alone: its types go, and so do the interwoven extension methods
(`packSolution_protected`).  It comes through unchanged exactly if it has none of them.
-/

namespace Unweave

/-- What is erased inside a top-level type that goes does not matter. -/
theorem Catalogue.eraseAll_congr_of_tops {f g : NodeId → Bool} (document : DocumentId)
    {space : String} {ms : List Member} (husings : ∀ id ∈ Member.usingIdsAll ms, f id = g id)
    (hblocks : ∀ id ∈ Member.blockIdsAll ms, f id = g id)
    (hentries : ∀ e ∈ collectAll document space none 0 ms, e.depth = 0 → f e.id = g e.id)
    (htops : ∀ e ∈ collectAll document space none 0 ms, e.isTop = true → g e.id = true) :
    Member.eraseAll f ms = Member.eraseAll g ms := by
  unfold Member.usingIdsAll at husings
  unfold Member.blockIdsAll at hblocks
  induction ms using Member.listInduction generalizing space with
  | nil => rfl
  | block head inner ms ihInner ih =>
    simp only [Member.gatherAll, Member.gather, List.mem_append, List.mem_singleton]
      at husings hblocks
    simp only [collectAll, collect, List.mem_append] at hentries htops
    have hhead : f (Member.block head inner).id = g (Member.block head inner).id :=
      hblocks _ (.inl (.inl rfl))
    have hheadUsings : eraseUsings f head.usings = eraseUsings g head.usings :=
      List.filter_congr fun u hu => by rw [husings u.id (.inl (.inl (List.mem_map_of_mem hu)))]
    have hinner := ihInner (fun id hid => husings id (.inl (.inr hid)))
      (fun id hid => hblocks id (.inl (.inr hid))) (fun e he => hentries e (.inl he))
      (fun e he => htops e (.inl he))
    have hms := ih (fun id hid => husings id (.inr hid)) (fun id hid => hblocks id (.inr hid))
      (fun e he => hentries e (.inr he)) (fun e he => htops e (.inr he))
    rw [Member.eraseAll, Member.eraseAll, hhead, hms, Member.eraseInside, Member.eraseInside,
      hinner, hheadUsings]
  | type head inner ms _ ih =>
    simp only [Member.gatherAll, List.mem_append] at husings hblocks
    simp only [collectAll, collect, List.mem_append, List.mem_cons] at hentries htops
    have hg : g (Member.type head inner).id = true := htops _ (.inl (.inl rfl)) rfl
    have hf : f (Member.type head inner).id = true := (hentries _ (.inl (.inl rfl)) rfl).trans hg
    rw [Member.eraseAll_cons_of_gone hf, Member.eraseAll_cons_of_gone hg]
    exact ih (fun id hid => husings id (.inr hid)) (fun id hid => hblocks id (.inr hid))
      (fun e he => hentries e (.inr he)) (fun e he => htops e (.inr he))
  | leaf l ms ih =>
    simp only [Member.gatherAll, List.mem_append] at husings hblocks
    simp only [collectAll, collect, List.mem_append, List.mem_singleton] at hentries htops
    have hhead : f (Member.leaf l).id = g (Member.leaf l).id := hentries _ (.inl rfl) rfl
    have hms := ih (fun id hid => husings id (.inr hid)) (fun id hid => hblocks id (.inr hid))
      (fun e he => hentries e (.inr he)) (fun e he => htops e (.inr he))
    rw [Member.eraseAll, Member.eraseAll, hhead, hms, Member.eraseInside, Member.eraseInside]

namespace Project

variable {p : Project} {d : Document}

/-- Of a document with its top-level types erased, only what stands outside them counts. -/
theorem UniqueIds.erase_congr_of_tops (hp : p.UniqueIds) (hd : d ∈ p.documents)
    {ids ids' : List NodeId} (hids : ∀ id ∈ ids, id ∈ p.entries.map Entry.id)
    (hids' : ∀ id ∈ ids', id ∈ p.entries.map Entry.id)
    (hentries : ∀ e ∈ d.entries, e.depth = 0 → (e.id ∈ ids ↔ e.id ∈ ids'))
    (htops : ∀ e ∈ d.entries, e.isTop = true → e.id ∈ ids') :
    d.erase ids.contains = d.erase ids'.contains := by
  have husing : ∀ {ids : List NodeId}, (∀ id ∈ ids, id ∈ p.entries.map Entry.id) →
      ∀ id ∈ d.root.usingIds, ids.contains id = false := by
    intro ids hids id hid
    rw [Bool.eq_false_iff]
    intro hmem
    obtain ⟨e, he, rfl⟩ := List.mem_map.mp (hids id (List.contains_iff_mem.mp hmem))
    exact hp.not_mem_usingIds he (List.mem_flatMap.mpr ⟨d, hd, hid⟩)
  have hblock : ∀ {ids : List NodeId}, (∀ id ∈ ids, id ∈ p.entries.map Entry.id) →
      ∀ id ∈ Member.blockIdsAll d.root.members, ids.contains id = false := by
    intro ids hids
    exact blocks_kept (hp.blocks_kept_of_entries fun id hid => List.mem_map.mp (hids id hid)) hd
  have husings : eraseUsings ids.contains d.root.usings =
      eraseUsings ids'.contains d.root.usings := by
    refine List.filter_congr fun u hu => ?_
    have hu := List.mem_append_left (Member.usingIdsAll d.root.members)
      (List.mem_map_of_mem (f := Using.id) hu)
    rw [husing hids _ hu, husing hids' _ hu]
  have hmembers : Member.eraseAll ids.contains d.root.members =
      Member.eraseAll ids'.contains d.root.members := by
    refine Catalogue.eraseAll_congr_of_tops d.id (fun id hid => ?_) (fun id hid => ?_)
      (fun e he hdepth => ?_) fun e he htop => List.contains_iff_mem.mpr (htops e he htop)
    · have hid := List.mem_append_right (d.root.usings.map Using.id) hid
      rw [husing hids _ hid, husing hids' _ hid]
    · rw [hblock hids _ hid, hblock hids' _ hid]
    · rw [Bool.eq_iff_iff, List.contains_iff_mem, List.contains_iff_mem]
      exact hentries e he hdepth
  rw [Document.erase, Document.erase, Root.erase, Root.erase, husings, hmembers]

/-- What goes from every document: the interwoven extension methods and the top-level types. -/
def taken (policy : InterweaveConfig) (p : Project) : List NodeId :=
  Extraction.extensionIds policy p ++ (p.entries.filter Entry.isTop).map Entry.id

theorem UniqueIds.taken_subset (hp : p.UniqueIds) (policy : InterweaveConfig) :
    ∀ id ∈ p.taken policy, id ∈ p.entries.map Entry.id := by
  intro id hid
  rcases List.mem_append.mp hid with hid | hid
  · obtain ⟨s, hs, rfl⟩ := List.mem_map.mp hid
    exact List.mem_map_of_mem (InterweaveConfig.mem_entries_of_mem_selectExtensions hp hs).1
  · exact (List.filter_sublist.map Entry.id).subset hid

/-- A document without top-level types and interwoven extension methods stays as it is. -/
theorem UniqueIds.erase_taken_eq_self_iff (hp : p.UniqueIds) (hd : d ∈ p.documents)
    (policy : InterweaveConfig) :
    d.erase (p.taken policy).contains = d ↔
      ∀ e ∈ d.entries, e.isTop = false ∧ e.id ∉ Extraction.extensionIds policy p := by
  constructor
  · intro h e he
    have hkept : e.id ∉ p.taken policy := by
      have he' : e ∈ (d.erase (p.taken policy).contains).entries := by rw [h]; exact he
      have hgone := Member.keeps_eraseAll (p.taken policy).contains d.root.members e.id
        (Document.mem_declared_of_mem_entries he')
      rw [Bool.eq_false_iff, Ne, List.contains_iff_mem] at hgone
      exact hgone
    refine ⟨?_, fun hext => hkept (List.mem_append_left _ hext)⟩
    rw [Bool.eq_false_iff]
    intro htop
    have hmem := List.mem_filter.mpr ⟨mem_entries_iff.mpr ⟨d, hd, he⟩, htop⟩
    exact hkept (List.mem_append_right _ (List.mem_map_of_mem hmem))
  · intro h
    have hnone : ∀ id ∈ d.root.nodeIds, (p.taken policy).contains id = false := by
      intro id hid
      rw [Bool.eq_false_iff]
      intro hmem
      have hmem := List.contains_iff_mem.mp hmem
      obtain ⟨e, he, rfl⟩ := List.mem_map.mp (hp.taken_subset policy id hmem)
      obtain ⟨d', hd', hed⟩ := mem_entries_iff.mp he
      have hnode : e.id ∈ d'.root.nodeIds :=
        List.mem_append_right _ (Document.mem_declared_of_mem_entries hed)
      rw [hp.eq_of_mem_nodeIds hd' hd hnode hid] at hed
      obtain ⟨htop, hext⟩ := h e hed
      rcases List.mem_append.mp hmem with hmem | hmem
      · exact hext hmem
      · obtain ⟨e', he', hid'⟩ := List.mem_map.mp hmem
        obtain ⟨he', htop'⟩ := List.mem_filter.mp he'
        rw [hp.eq_of_id he' he hid', htop] at htop'
        cases htop'
    rw [Document.erase, Root.erase_congr hnone, Root.erase_nothing]

end Project

/-! ## Packing a project -/

theorem Entry.isTop_eq_of_site {e' e : Entry} (h : e'.site = e.site) : e'.isTop = e.isTop := by
  have hleaf : e'.declaration.bareLeaf? = e.declaration.bareLeaf? := congrArg Site.leaf h
  have hdepth : e'.depth = e.depth := congrArg Site.depth h
  have htype : e'.declaration.isType = e.declaration.isType := by
    rw [← Bool.not_inj_iff, Bool.eq_iff_iff, Bool.not_eq_true', Bool.not_eq_true',
      ← Declaration.isSome_bareLeaf?_iff, ← Declaration.isSome_bareLeaf?_iff, hleaf]
  rw [isTop, isTop, htype, hdepth]

/-- A clean-up passes over documents that are not editable. -/
theorem CleanUp.Cleaned.mem_of_protected {c : CleanUp} {p q : Project} (h : c.Cleaned p q)
    {d : Document} (hd : d ∈ p.documents) (hprotected : d.isEditable = false) :
    d ∈ q.documents := by
  obtain ⟨g, rfl, hg⟩ := h
  have hgd := hg d hd
  rw [if_neg (by rw [hprotected]; exact Bool.false_ne_true)] at hgd
  exact List.mem_map.mpr ⟨d, hd, hgd⟩

namespace Packing

variable {settings : Settings} {p : Project} (t : Packing settings p)
  (hflags : CleanUp.FlagsUsings settings.usings) (hp : p.UniqueIds)
include hflags hp

/-- The first pass selects in the tidy project what it would select in the project itself. -/
theorem extensionIds_eq : t.extensionIds = Extraction.extensionIds settings.policy p :=
  (t.tidied hflags hp).sameTrees.alike.extensionIds_eq (t.uniqueIds_tidy hflags hp) hp
    settings.policy

/-- The last pass selects the top-level types of the project. -/
theorem mem_containerSelection_iff (id : NodeId) : id ∈ t.containerSelection.map (·.id) ↔
    id ∈ (p.entries.filter Entry.isTop).map Entry.id := by
  have hselected := settings.policy.exists_mem_selectContainers_iff (t.uniqueIds_members hflags hp)
  rw [List.mem_map, List.mem_map]
  constructor
  · rintro ⟨s, hs, rfl⟩
    obtain ⟨he, htop⟩ := (hselected s.entry).mp ⟨s, hs, rfl⟩
    have hsite := ((t.mem_sites_members_iff hflags hp _).mp (Project.mem_sites he)).1
    obtain ⟨e, he, hsite⟩ := List.mem_map.mp hsite
    refine ⟨e, List.mem_filter.mpr ⟨he, ?_⟩, congrArg Site.id hsite⟩
    rw [Entry.isTop_eq_of_site hsite]
    exact htop
  · rintro ⟨e, he, rfl⟩
    obtain ⟨he, htop⟩ := List.mem_filter.mp he
    have hkept : e.site.id ∉ t.extensionIds ++ t.memberIds := by
      intro hmem
      obtain ⟨s, hs, hid, -, hleaf⟩ := t.exists_site_of_mem hflags hp hmem
      rw [hp.site_eq_of_id hs (Project.mem_sites he) hid] at hleaf
      have htype := (Bool.and_eq_true_iff.mp htop).1
      rw [e.declaration.isSome_bareLeaf?_iff.mp hleaf] at htype
      cases htype
    have hsite := (t.mem_sites_members_iff hflags hp _).mpr ⟨Project.mem_sites he, hkept⟩
    obtain ⟨e', he', hsite⟩ := List.mem_map.mp hsite
    have htop' : e'.isTop = true := (Entry.isTop_eq_of_site hsite).trans htop
    obtain ⟨s, hs, rfl⟩ := (hselected e').mpr ⟨he', htop'⟩
    exact ⟨s, hs, congrArg Site.id hsite⟩

/-- The second pass selects nothing that stands outside types. -/
theorem not_mem_memberIds_of_depth {e : Entry} (he : e ∈ p.entries) (hdepth : e.depth = 0) :
    e.id ∉ t.memberIds := by
  intro hmem
  obtain ⟨s, hs, hid⟩ := List.mem_map.mp hmem
  obtain ⟨a, ha, rfl⟩ := List.mem_map.mp hs
  have hextensions := t.uniqueIds_extensions hflags hp
  obtain ⟨hhoused, -⟩ :=
    (InterweaveConfig.selectMembers_eq_ok_iff _).mp (t.members_project hflags hp).1
  have hsite := Project.mem_sites
    (InterweaveConfig.mem_entries_of_mem_interwovenMembers hextensions ha).1
  rw [t.sites_extensions hflags hp] at hsite
  have hsame := hp.site_eq_of_id (List.mem_filter.mp hsite).1 (Project.mem_sites he) hid
  have hcontainer : a.1.container.map (·.id) = e.container.map (·.id) :=
    congrArg Site.container hsame
  obtain ⟨d, -, he⟩ := Project.mem_entries_iff.mp he
  rw [Catalogue.container_of_depth d.id e he hdepth] at hcontainer
  have hsome := hhoused a ha
  rw [Option.map_eq_none_iff.mp hcontainer] at hsome
  cases hsome

/-- A document that is not editable is left without what goes from every document. -/
theorem mem_stripped_of_protected {d : Document} (hd : d ∈ p.documents)
    (hprotected : d.isEditable = false) :
    d.erase (p.taken settings.policy).contains ∈ t.stripped.documents := by
  have htidy : d ∈ t.tidy.documents :=
    t.tidy_cleaned.mem_of_protected (t.regionless_cleaned.mem_of_protected
      (t.partials_cleaned.mem_of_protected hd hprotected) hprotected) hprotected
  have hcontainers : ((d.erase t.extensionIds.contains).erase t.memberIds.contains).erase
      (t.containerSelection.map (·.id)).contains ∈ t.containers.project.documents := by
    rw [(t.containers_project hflags hp).2, (t.members_project hflags hp).2.2,
      (t.extensions_project hflags hp).2]
    exact List.mem_map_of_mem (List.mem_map_of_mem (List.mem_map_of_mem htidy))
  have hgone : ((d.erase t.extensionIds.contains).erase t.memberIds.contains).erase
      (t.containerSelection.map (·.id)).contains =
        d.erase (t.containerSelection.map (·.id) ++ (t.memberIds ++ t.extensionIds)).contains := by
    rw [Document.erase_erase, Document.erase_erase]
    refine congrArg d.erase (funext fun id => ?_)
    rw [List.contains_append, List.contains_append, Bool.or_assoc]
  have htaken : d.erase
      (t.containerSelection.map (·.id) ++ (t.memberIds ++ t.extensionIds)).contains =
        d.erase (p.taken settings.policy).contains := by
    refine hp.erase_congr_of_tops hd (fun id hid => ?_) (hp.taken_subset _) (fun e he hdepth => ?_)
      fun e he htop => ?_
    · rcases List.mem_append.mp hid with hid | hid
      · have hid := (t.mem_containerSelection_iff hflags hp id).mp hid
        exact (List.filter_sublist.map Entry.id).subset hid
      · have hid := List.mem_append.mpr (List.mem_append.mp hid).symm
        obtain ⟨s, hs, rfl, -⟩ := t.exists_site_of_mem hflags hp hid
        rw [← p.map_id_sites]
        exact List.mem_map_of_mem hs
    · have he := Project.mem_entries_iff.mpr ⟨d, hd, he⟩
      have hmember := t.not_mem_memberIds_of_depth hflags hp he hdepth
      rw [Project.taken, List.mem_append, List.mem_append, List.mem_append,
        t.mem_containerSelection_iff hflags hp, ← t.extensionIds_eq hflags hp, or_comm,
        or_iff_right hmember]
    · have hmem := List.mem_filter.mpr ⟨Project.mem_entries_iff.mpr ⟨d, hd, he⟩, htop⟩
      exact List.mem_append_right _ (List.mem_map_of_mem hmem)
  rw [← htaken, ← hgone]
  exact t.stripped_cleaned.mem_of_protected hcontainers hprotected

end Packing

/-! ## Packing a solution -/

/-- Packing takes the top-level types and the interwoven extension methods out of documents that are
not editable, and changes nothing else in them.  Such a document comes through as it was exactly if
it has none of these.  The provider of the diagnostics must call no node needless but usings
(`FlagsUsings`), since the clean-up erases what it calls needless. -/
theorem packSolution_protected {τ : Type} (settings : Settings) (compiler : Compiler τ)
    (solution : Solution) (t t' : τ) (packed : Packed) (finished : List Project)
    (hflags : CleanUp.FlagsUsings settings.usings) (hids : solution.projectIds.Nodup)
    (hunique : ∀ p ∈ solution.projects, p.UniqueIds)
    (h : packSolution settings compiler solution t = (.ok packed, finished, t')) :
    ∀ p ∈ solution.projects, ∃ q, packed.stripped.project? p.id = some q ∧
      ∀ d ∈ p.documents, d.isEditable = false →
        q.document? d.id = some (d.erase (p.taken settings.policy).contains) ∧
        (q.document? d.id = some d ↔
          ∀ e ∈ d.entries, e.isTop = false ∧
            e.id ∉ Extraction.extensionIds settings.policy p) := by
  intro p hp
  obtain ⟨-, shelf, hrun, hshelf⟩ := packSolution_eq_ok h
  obtain ⟨hsame, hpacked⟩ : packed.stripped.projectIds = solution.projectIds ∧
      ∀ q ∈ packed.stripped.projects, q.id ∉ solution.projectIds ∧ q ∈ solution.projects ∨
        q.id ∈ solution.projectIds ∧ ∃ p ∈ solution.projects, p.id = q.id ∧
          ∃ t : Packing settings p, t.stripped = q ∧ t.Compiled (.inMemory compiler) := by
    rw [← hshelf]
    refine Pipeline.packProjects_eq_ok (Workbench.lawful_inMemory compiler) hflags hids ?_ ?_ hrun
    · exact fun _ hid => hid
    · exact fun p hp _ => hunique p hp
  have hknown : p.id ∈ packed.stripped.projectIds := by
    rw [hsame]
    exact List.mem_map_of_mem hp
  obtain ⟨q, hfind⟩ := Solution.exists_project? hknown
  obtain ⟨hq, hid⟩ := Solution.mem_of_project? hfind
  -- The project that stands in its place is what packing left of it.
  obtain ⟨p', hp', hid', packing, rfl, -⟩ : ∃ p' ∈ solution.projects, p'.id = q.id ∧
      ∃ t : Packing settings p', t.stripped = q ∧ t.Compiled (.inMemory compiler) := by
    rcases hpacked q hq with ⟨hout, -⟩ | ⟨-, hpacking⟩
    · exact absurd (hid ▸ List.mem_map_of_mem hp) hout
    · exact hpacking
  obtain rfl := List.inj_on_of_nodup_map hids hp' hp (hid'.trans hid)
  have hp := hunique p' hp
  have hstripped : packing.stripped.UniqueIds :=
    (packing.stripped_tidied hflags hp).uniqueIds (packing.uniqueIds_containers hflags hp)
  refine ⟨packing.stripped, hfind, fun d hd hprotected => ?_⟩
  have hfound : packing.stripped.document? d.id =
      some (d.erase (p'.taken settings.policy).contains) :=
    Project.document?_of_mem hstripped.documents
      (packing.mem_stripped_of_protected hflags hp hd hprotected)
  refine ⟨hfound, ?_⟩
  rw [hfound, Option.some.injEq]
  exact hp.erase_taken_eq_self_iff hd settings.policy

/-- A project with two documents that are not editable.  One is generated, and has a type, an
interwoven extension method and a delegate; the other has assembly attributes, a using that nothing
needs and a delegate. -/
def archive : Project :=
  { id := ⟨1⟩, name := "Archive", assembly := "Archive", documents := [generated, attributes] }
where
  generated : Document :=
    { id := ⟨1⟩, name := "Archive.g.cs", kind := .generated
      root :=
        { members :=
            [.type { id := ⟨1⟩, kind := .classKind, name := "Record" } [],
              Pipeline.parcel.method 2 [⟨"box", Pipeline.parcel.box, true⟩],
              .leaf { id := ⟨3⟩, form := .delegate "Sort" [] .void [] }] } }
  attributes : Document :=
    { id := ⟨2⟩, name := "AssemblyInfo.cs"
      root :=
        { usings := [{ id := ⟨4⟩, name := "Crates" }]
          members := [.leaf { id := ⟨5⟩, form := .delegate "Visit" [] .void [] }] } }

theorem packSolution_protected_archive :
    archive.UniqueIds ∧
    archive.generated.isEditable = false ∧ archive.attributes.isEditable = false ∧
    ∃ packed finished q,
      packSolution {} .structural { projects := [archive] } () = (.ok packed, finished, ()) ∧
      packed.stripped.project? ⟨1⟩ = some q ∧
      q.document? ⟨1⟩ = some (archive.generated.erase [⟨1⟩, ⟨2⟩].contains) ∧
      q.document? ⟨2⟩ = some archive.attributes := by
  have hunique : archive.UniqueIds := by decide +kernel
  have hgenerated : archive.generated.isEditable = false := by decide +kernel
  have hattributes : archive.attributes.isEditable = false := by decide +kernel
  have hok : (packSolution {} .structural { projects := [archive] } ()).1.toOption.isSome =
      true := by decide +kernel
  have hgone : archive.generated.erase (archive.taken {}).contains =
      archive.generated.erase [⟨1⟩, ⟨2⟩].contains := by decide +kernel
  have hfree : ∀ e ∈ archive.attributes.entries, e.isTop = false ∧
      e.id ∉ Extraction.extensionIds {} archive := by decide +kernel
  refine ⟨hunique, hgenerated, hattributes, ?_⟩
  rcases hrun : packSolution {} .structural { projects := [archive] } () with
    ⟨e | packed, finished, t⟩
  · rw [hrun] at hok
    cases hok
  · obtain ⟨q, hq, hdocuments⟩ := packSolution_protected {} .structural { projects := [archive] } ()
      () packed finished CleanUp.flagsUsings_needlessUsings (List.nodup_singleton _)
      (List.forall_mem_singleton.mpr hunique) hrun archive List.mem_cons_self
    have hleft := (hdocuments archive.generated List.mem_cons_self hgenerated).1
    have hsame := (hdocuments archive.attributes (List.mem_cons_of_mem _ List.mem_cons_self)
      hattributes).2
    exact ⟨packed, finished, q, rfl, hq, hleft.trans (congrArg some hgone), hsame.mpr hfree⟩

/-- Not all documents that are not editable come through unchanged. -/
theorem packSolution_changes_protected :
    archive.UniqueIds ∧ archive.generated.isEditable = false ∧
    archive.generated.entries.map Entry.id = [⟨1⟩, ⟨2⟩, ⟨3⟩] ∧
    ((packSolution {} .structural { projects := [archive] } ()).1.toOption.bind fun packed =>
      (packed.stripped.project? archive.id).bind (·.document? archive.generated.id)).map
        (·.entries.map Entry.id) = some [⟨3⟩] := by
  decide +kernel

end Unweave

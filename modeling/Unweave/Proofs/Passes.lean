import Unweave.Proofs.Takings

/-!
# The passes as one

The three extraction passes do the same with different selections: each writes a package for every
declaration that it selects, and leaves the project without these and without what is declared in
them.
-/

namespace Unweave

inductive Pass where
  | extensions
  | members
  | containers
deriving DecidableEq, Repr

namespace Pass

/-- How a failure after the pass names it. -/
def stage : Pass → String
  | extensions => "extract interwoven extension methods"
  | members => "extract interwoven type members"
  | containers => "extract member containers"

def run (settings : Settings) : Pass → Walker → Except Error Extracted
  | extensions => Extraction.extensions settings.policy settings.layout
  | members => Extraction.members settings.policy settings.layout
  | containers => Extraction.containers settings.policy settings.layout

def selection (policy : InterweaveConfig) (p : Project) : Pass → List Selected
  | extensions => (policy.selectExtensions (Walker.ofProject p)).1
  | members => (policy.interwovenMembers p).map fun (e, deps) => ⟨e, deps⟩
  | containers => policy.selectContainers (Walker.ofProject p)

def package (settings : Settings) (p : Project) : Pass → Selected → Except Error Package
  | extensions => fun s => .ok (Extraction.extensionPackage settings.policy settings.layout s)
  | members => Extraction.memberPackage settings.policy settings.layout
  | containers => Extraction.containerPackage settings.layout p

/-- The declarations that the pass takes out: those it selects and all that is declared in them. -/
def takes (policy : InterweaveConfig) (p : Project) (pass : Pass) : List NodeId :=
  (pass.selection policy p).flatMap (·.entry.covered)

variable {settings : Settings} {p : Project} {x : Extracted}

/-- A pass that succeeds wrote one package for each declaration, in order, and erased these. -/
theorem run_eq_ok (hp : p.UniqueIds) {pass : Pass}
    (h : pass.run settings (Walker.ofProject p) = .ok x) :
    (pass.selection settings.policy p).mapM (pass.package settings p) = .ok x.packages ∧
      x.project = p.erase ((pass.selection settings.policy p).map (·.id)).contains := by
  cases pass with
  | extensions =>
    rw [run, Extraction.extensions_eq_ok _ _ hp, Except.ok.injEq] at h
    rw [← h]
    exact ⟨List.mapM_pure, rfl⟩
  | members =>
    obtain ⟨selected, hselected, hrest⟩ := (Extraction.members_eq_ok_iff hp x).mp h
    obtain ⟨-, rfl⟩ := (InterweaveConfig.selectMembers_eq_ok_iff selected).mp hselected
    exact hrest
  | containers => exact (Extraction.containers_eq_ok_iff hp x).mp h

theorem erases_run (settings : Settings) (pass : Pass) : Extraction.Erases (pass.run settings) :=
  fun _ _ hp h => ⟨_, (run_eq_ok hp h).2⟩

/-! ## Declarations -/

theorem takes_of_leaves {policy : InterweaveConfig} {pass : Pass}
    (h : ∀ s ∈ pass.selection policy p, s.entry.declaration.isType = false) :
    pass.takes policy p = (pass.selection policy p).map (·.id) := by
  have hcovered : ∀ s ∈ pass.selection policy p, s.entry.covered = [s.id] :=
    fun s hs => Entry.covered_of_leaf (h s hs)
  rw [takes, List.flatMap_congr hcovered, List.map_eq_flatMap]

/-- The first two passes select leaves. -/
theorem selection_leaves (policy : InterweaveConfig) (hp : p.UniqueIds) {pass : Pass}
    (hpass : pass ≠ containers) : ∀ s ∈ pass.selection policy p,
      s.entry ∈ p.entries ∧ s.entry.declaration.isType = false := by
  intro s hs
  cases pass with
  | extensions =>
    obtain ⟨he, hext⟩ := InterweaveConfig.mem_entries_of_mem_selectExtensions hp hs
    have hmember := Declaration.isTypeMember_of_isExtensionMethod hext
    exact ⟨he, (Entry.site_of_isTypeMember hmember).1⟩
  | members =>
    obtain ⟨a, ha, rfl⟩ := List.mem_map.mp hs
    obtain ⟨he, hmember, -⟩ := InterweaveConfig.mem_entries_of_mem_interwovenMembers hp ha
    exact ⟨he, (Entry.site_of_isTypeMember hmember).1⟩
  | containers => exact absurd rfl hpass

theorem sites_of_leaves (hp : p.UniqueIds) {pass : Pass} (hpass : pass ≠ containers)
    (h : pass.run settings (Walker.ofProject p) = .ok x) :
    x.project.sites = p.sites.filter (Site.survives (pass.takes settings.policy p).contains) := by
  have hleaves := selection_leaves settings.policy hp hpass
  rw [takes_of_leaves fun s hs => (hleaves s hs).2, (run_eq_ok hp h).2]
  refine hp.sites_erase_leaves fun id hid => ?_
  obtain ⟨s, hs, rfl⟩ := List.mem_map.mp hid
  exact ⟨s.entry, (hleaves s hs).1, rfl, (hleaves s hs).2⟩

/-- A pass leaves the sites of what it does not take. -/
theorem sites_run (hp : p.UniqueIds) {pass : Pass}
    (h : pass.run settings (Walker.ofProject p) = .ok x) :
    x.project.sites = p.sites.filter (Site.survives (pass.takes settings.policy p).contains) := by
  cases pass with
  | extensions => exact sites_of_leaves hp (by decide) h
  | members => exact sites_of_leaves hp (by decide) h
  | containers =>
    have htakes : takes settings.policy p containers = (p.sites.filter (!·.isLoose)).map Site.id :=
      settings.policy.flatMap_covered_selectContainers hp
    rw [(run_eq_ok hp h).2, htakes]
    show (p.erase ((settings.policy.selectContainers _).map _).contains).sites = _
    rw [Project.sites_erase_containers _ hp]
    refine List.filter_congr fun s hs => ?_
    rw [Bool.eq_iff_iff, Site.survives, Bool.not_eq_true', Bool.eq_false_iff, Ne,
      List.contains_iff_mem]
    constructor
    · intro hloose hmem
      obtain ⟨s', hs', hid⟩ := List.mem_map.mp hmem
      obtain ⟨hs', hbound⟩ := List.mem_filter.mp hs'
      rw [hp.site_eq_of_id hs' hs hid, hloose] at hbound
      cases hbound
    · intro hnot
      by_contra hbound
      refine hnot (List.mem_map_of_mem (List.mem_filter.mpr ⟨hs, ?_⟩))
      rw [Bool.eq_false_iff.mpr hbound, Bool.not_false]

/-- What a pass takes is declared in the project. -/
theorem takes_subset (policy : InterweaveConfig) (hp : p.UniqueIds) (pass : Pass) :
    ∀ id ∈ pass.takes policy p, id ∈ p.sites.map Site.id := by
  intro id hid
  by_cases hpass : pass = containers
  · subst hpass
    have htakes : takes policy p containers = (p.sites.filter (!·.isLoose)).map Site.id :=
      policy.flatMap_covered_selectContainers hp
    rw [htakes] at hid
    exact (List.filter_sublist.map Site.id).subset hid
  · have hleaves := selection_leaves policy hp hpass
    rw [takes_of_leaves fun s hs => (hleaves s hs).2] at hid
    obtain ⟨s, hs, rfl⟩ := List.mem_map.mp hid
    exact List.mem_map_of_mem (Project.mem_sites (hleaves s hs).1)

end Pass
end Unweave

import Unweave.Proofs.Cohesion
import Unweave.Proofs.Outlines
import Unweave.Proofs.Passes

/-!
# Projects that can be taken apart

A pass leaves a project together exactly if nothing that stays needs what it takes
(`Pass.holdsTogether_leaves_iff`).  A project can be taken apart if this is so for each of the three
passes, one after the other.  Decoration makes no difference to it.
-/

namespace Unweave

namespace Pass

/-- What a pass leaves of a project. -/
def leaves (policy : InterweaveConfig) (p : Project) (pass : Pass) : Project :=
  p.erase ((pass.selection policy p).map (·.id)).contains

/-- Nothing that the pass leaves needs what it takes.  The last pass takes types with all that is in
them, also namespaces: what it leaves must neither refer to any of these nor mention own types. -/
def Clears (policy : InterweaveConfig) (p : Project) : Pass → Prop
  | containers => ∀ s ∈ p.sites, s.isLoose = true → (∀ id ∈ s.references, id ∈ p.outside) ∧
      ∀ t ∈ s.symbols.flatMap (·.parts), t.isOf p.assembly = false
  | pass => ∀ s ∈ p.sites, s.id ∉ pass.takes policy p →
      ∀ id ∈ s.references, id ∉ pass.takes policy p

instance (policy : InterweaveConfig) (p : Project) (pass : Pass) :
    Decidable (pass.Clears policy p) :=
  match pass with
  | extensions => inferInstanceAs (Decidable (∀ s ∈ p.sites, s.id ∉ extensions.takes policy p →
      ∀ id ∈ s.references, id ∉ extensions.takes policy p))
  | members => inferInstanceAs (Decidable (∀ s ∈ p.sites, s.id ∉ members.takes policy p →
      ∀ id ∈ s.references, id ∉ members.takes policy p))
  | containers => inferInstanceAs (Decidable (∀ s ∈ p.sites, s.isLoose = true →
      (∀ id ∈ s.references, id ∈ p.outside) ∧
        ∀ t ∈ s.symbols.flatMap (·.parts), t.isOf p.assembly = false))

variable {policy : InterweaveConfig} {p q : Project}

theorem leaves_remainsOf (policy : InterweaveConfig) (p : Project) (pass : Pass) :
    (pass.leaves policy p).RemainsOf p :=
  p.erase_remainsOf _

theorem clears_iff {pass : Pass} (hpass : pass ≠ containers) : pass.Clears policy p ↔
    ∀ s ∈ p.sites, s.id ∉ pass.takes policy p → ∀ id ∈ s.references, id ∉ pass.takes policy p := by
  cases pass with
  | extensions => rfl
  | members => rfl
  | containers => exact absurd rfl hpass

theorem takes_eq_ids (policy : InterweaveConfig) (hp : p.UniqueIds) {pass : Pass}
    (hpass : pass ≠ containers) :
    pass.takes policy p = (pass.selection policy p).map (·.id) :=
  takes_of_leaves fun s hs => (selection_leaves policy hp hpass s hs).2

/-- A pass leaves a project together exactly if nothing that stays needs what it takes. -/
theorem holdsTogether_leaves_iff (hp : p.UniqueIds) (h : p.HoldsTogether) (pass : Pass) :
    (pass.leaves policy p).HoldsTogether ↔ pass.Clears policy p := by
  by_cases hpass : pass = containers
  · subst hpass
    exact hp.holdsTogether_erase_containers_iff policy
  · rw [clears_iff hpass, takes_eq_ids policy hp hpass, leaves]
    refine Project.HoldsTogether.erase_leaves_iff hp (fun id hid => ?_) h
    obtain ⟨s, hs, rfl⟩ := List.mem_map.mp hid
    obtain ⟨he, hleaf⟩ := selection_leaves policy hp hpass s hs
    exact ⟨s.entry, he, rfl, hleaf⟩

/-! ## Decoration -/

section SameTrees

variable (h : q.SameTrees p) (hq : q.UniqueIds) (hp : p.UniqueIds)
include h hq hp

/-- The first two passes select the same in projects that differ in decoration only. -/
theorem ids_eq (policy : InterweaveConfig) (pass : Pass) (hpass : pass ≠ containers) :
    (pass.selection policy q).map (·.id) = (pass.selection policy p).map (·.id) := by
  cases pass with
  | extensions => exact h.alike.extensionIds_eq hq hp policy
  | members =>
    have hids := h.alike.memberIds_eq hq hp policy
    rw [selection, selection, List.map_map, List.map_map]
    exact hids
  | containers => exact absurd rfl hpass

theorem sameTrees_leaves (policy : InterweaveConfig) (pass : Pass) (hpass : pass ≠ containers) :
    (pass.leaves policy q).SameTrees (pass.leaves policy p) := by
  rw [leaves, leaves, ids_eq h hq hp policy pass hpass]
  exact h.erase _

theorem clears_congr (pass : Pass) : pass.Clears policy q ↔ pass.Clears policy p := by
  by_cases hpass : pass = containers
  · subst hpass
    have houtside : q.outside = p.outside := by
      rw [Project.outside, Project.outside, h.spaces_eq, h.alike.sites_eq]
    rw [Clears, Clears, houtside, h.alike.sites_eq, h.assembly_eq]
  · rw [clears_iff hpass, clears_iff hpass, takes_eq_ids policy hq hpass,
      takes_eq_ids policy hp hpass, ids_eq h hq hp policy pass hpass, h.alike.sites_eq]

end SameTrees

end Pass

/-! ## All passes -/

namespace Project

/-- The passes can take the project apart: each clears what the ones before it left. -/
structure Detachable (policy : InterweaveConfig) (p : Project) : Prop where
  extensions : Pass.extensions.Clears policy p
  members : Pass.members.Clears policy (Pass.extensions.leaves policy p)
  containers :
    Pass.containers.Clears policy (Pass.members.leaves policy (Pass.extensions.leaves policy p))

theorem detachable_iff (policy : InterweaveConfig) (p : Project) : p.Detachable policy ↔
    Pass.extensions.Clears policy p ∧
      Pass.members.Clears policy (Pass.extensions.leaves policy p) ∧
      Pass.containers.Clears policy
        (Pass.members.leaves policy (Pass.extensions.leaves policy p)) :=
  ⟨fun h => ⟨h.extensions, h.members, h.containers⟩, fun ⟨h₁, h₂, h₃⟩ => ⟨h₁, h₂, h₃⟩⟩

instance (policy : InterweaveConfig) (p : Project) : Decidable (p.Detachable policy) :=
  decidable_of_iff _ (detachable_iff policy p).symm

variable {policy : InterweaveConfig} {p q : Project}

theorem SameTrees.detachable_iff (h : q.SameTrees p) (hq : q.UniqueIds) (hp : p.UniqueIds) :
    q.Detachable policy ↔ p.Detachable policy := by
  have h₁ := Pass.sameTrees_leaves h hq hp policy .extensions (by decide)
  have hq₁ : (Pass.extensions.leaves policy q).UniqueIds := hq.erase _
  have hp₁ : (Pass.extensions.leaves policy p).UniqueIds := hp.erase _
  have h₂ := Pass.sameTrees_leaves h₁ hq₁ hp₁ policy .members (by decide)
  rw [Project.detachable_iff, Project.detachable_iff, Pass.clears_congr h hq hp,
    Pass.clears_congr h₁ hq₁ hp₁, Pass.clears_congr h₂ (hq₁.erase _) (hp₁.erase _)]

end Project
end Unweave

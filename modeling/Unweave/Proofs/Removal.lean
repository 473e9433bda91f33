import Unweave.Proofs.Identity
import Unweave.Tree.Build

/-!
# Taking nodes out of a project

Nodes are taken out one document after the other, each time out of what is left of the project so
far.  Where identifiers are distinct this is the same as erasing all of them everywhere at once, so
the order of the list, repetitions and nodes inside other nodes of the list do not matter.  It is
refused exactly if one of the nodes is nowhere, and the error names all that are.
-/

namespace Unweave
namespace Project

theorem missing_eq (p : Project) (ids : List NodeId) :
    ids.filter (!p.contains ·) = ids.filter fun id => decide (id ∉ p.nodeIds) := by
  refine List.filter_congr fun id _ => ?_
  rw [Bool.eq_iff_iff, Bool.not_eq_true', decide_eq_true_iff, ← contains_iff, Bool.not_eq_true]

/-- The nodes that are nowhere, in the order of the list, are what the error is about. -/
theorem removeDeclarations_eq_error_iff (p : Project) (ids : List NodeId) (e : Error) :
    p.removeDeclarations ids = .error e ↔
      (∃ id ∈ ids, id ∉ p.nodeIds) ∧
        e = .invariant
          ("Every member should exist within a document. These did not: " ++
            ", ".intercalate
              ((ids.filter fun id => decide (id ∉ p.nodeIds)).map NodeId.render)) := by
  rw [removeDeclarations, ← missing_eq]
  by_cases hall : ∀ id ∈ ids, id ∈ p.nodeIds
  · rw [if_pos ((p.isEmpty_missing_iff ids).mpr hall)]
    constructor
    · intro h
      cases h
    · rintro ⟨⟨id, hid, hnot⟩, -⟩
      exact absurd (hall id hid) hnot
  · rw [if_neg fun hempty => hall ((p.isEmpty_missing_iff ids).mp hempty), Except.error.injEq]
    have hmissing : ∃ id ∈ ids, id ∉ p.nodeIds := by simpa using hall
    rw [eq_comm, and_iff_right hmissing]

/-- Taking nodes out fails, with a broken invariant, exactly if one of them is in no document.  If
not, all of them are erased from the tree of every document and nothing else changes. -/
theorem removeDeclarations_at_once (p : Project) (hp : p.UniqueIds) (ids : List NodeId) :
    ((∃ message, p.removeDeclarations ids = .error (.invariant message)) ↔
      ∃ id ∈ ids, ∀ d ∈ p.documents, id ∉ d.root.nodeIds) ∧
    ((∀ id ∈ ids, ∃ d ∈ p.documents, id ∈ d.root.nodeIds) →
      p.removeDeclarations ids = .ok
        { p with documents := p.documents.map fun d =>
            { d with root := d.root.erase ids.contains } }) := by
  have hmem : ∀ id, id ∈ p.nodeIds ↔ ∃ d ∈ p.documents, id ∈ d.root.nodeIds :=
    fun id => List.mem_flatMap
  constructor
  · simp only [removeDeclarations_eq_error_iff, Error.invariant.injEq, exists_and_left,
      exists_eq, and_true, hmem, not_exists, not_and]
  · intro h
    exact (removeDeclarations_eq_ok_iff hp ids _).mpr ⟨fun id hid => (hmem id).mpr (h id hid), rfl⟩

/-- Two documents with directives and types at several depths. -/
def orchard : Project where
  id := ⟨1⟩
  name := "Orchard"
  assembly := "Orchard"
  documents :=
    [{ id := ⟨1⟩, name := "Apple.cs"
       root :=
        { usings := [{ id := ⟨1⟩, name := "System" }]
          members :=
            [.block { id := ⟨2⟩, name := "Orchard", usings := [{ id := ⟨3⟩, name := "Tools" }] }
              [.type { id := ⟨4⟩, kind := .classKind, name := "Apple" }
                [.type { id := ⟨5⟩, kind := .structKind, name := "Core" }
                  [.leaf { id := ⟨6⟩, form := .field .int [{ name := "seeds" }] }],
                 .leaf { id := ⟨7⟩, form := .constructor "Apple" [] none }]]] } },
     { id := ⟨2⟩, name := "Pear.cs"
       root :=
        { members :=
            [.type { id := ⟨8⟩, kind := .classKind, name := "Pear" }
              [.leaf { id := ⟨9⟩, form := .constructor "Pear" [] none }]] } }]

/-- A type is listed after one of its members, which is listed twice, next to a directive and a
member of the other document. -/
theorem removeDeclarations_at_once_orchard :
    orchard.UniqueIds ∧
    (∃ message, orchard.removeDeclarations [⟨6⟩, ⟨10⟩] = .error (.invariant message)) ∧
    orchard.removeDeclarations [⟨6⟩, ⟨9⟩, ⟨6⟩, ⟨3⟩, ⟨5⟩] = .ok
      { orchard with documents := orchard.documents.map fun d =>
          { d with root := d.root.erase [⟨6⟩, ⟨9⟩, ⟨6⟩, ⟨3⟩, ⟨5⟩].contains } } := by
  have hids : orchard.UniqueIds := by decide +kernel
  exact ⟨hids, (removeDeclarations_at_once orchard hids _).1.mpr (by decide +kernel),
    (removeDeclarations_at_once orchard hids _).2 (by decide +kernel)⟩

end Project
end Unweave

import Mathlib.Algebra.Group.Nat.Defs
import Mathlib.Data.List.Nodup
import Unweave.Proofs.Building

/-!
# Numbers

The nodes of a solution that have no identifier get the numbers from one on, without a gap, in the
order in which they are read.  All others keep theirs (`Solution.numbers_in_order`).  A number that
was given in advance is not looked at, so it may be given out again; that happens exactly if it is
not beyond the last one given out.
-/

namespace Unweave
namespace Numbering

/-! ## Lists of identifiers -/

/-- Identifiers before and after they are numbered from `n` on; the next number is then `m`. -/
inductive Numbered : Nat → List NodeId → Nat → List NodeId → Prop
  | nil {n : Nat} : Numbered n [] n []
  | kept {n m : Nat} {id : NodeId} {ids ids' : List NodeId} (h : id.isAssigned = true)
      (rest : Numbered n ids m ids') : Numbered n (id :: ids) m (id :: ids')
  | given {n m : Nat} {id : NodeId} {ids ids' : List NodeId} (h : id.isAssigned = false)
      (rest : Numbered (n + 1) ids m ids') : Numbered n (id :: ids) m (⟨UInt32.ofNat n⟩ :: ids')

variable {n m k : Nat} {ids ids' more more' : List NodeId}

theorem Numbered.append (h : Numbered n ids m ids') (h' : Numbered m more k more') :
    Numbered n (ids ++ more) k (ids' ++ more') := by
  induction h with
  | nil => exact h'
  | kept hid _ ih => exact .kept hid (ih h')
  | given hid _ ih => exact .given hid (ih h')

/-- How many of the identifiers are missing. -/
def missing (ids : List NodeId) : Nat := ids.countP (!·.isAssigned)

theorem missing_le_length (ids : List NodeId) : missing ids ≤ ids.length := List.countP_le_length

theorem missing_cons_of_assigned {id : NodeId} (h : id.isAssigned = true) (ids : List NodeId) :
    missing (id :: ids) = missing ids :=
  List.countP_cons_of_neg (by simp [h])

theorem missing_cons_of_unassigned {id : NodeId} (h : id.isAssigned = false) (ids : List NodeId) :
    missing (id :: ids) = missing ids + 1 :=
  List.countP_cons_of_pos (by simp [h])

theorem Numbered.last_eq (h : Numbered n ids m ids') : m = n + missing ids := by
  induction h with
  | nil => rfl
  | kept hid _ ih => rw [missing_cons_of_assigned hid, ih]
  | given hid _ ih =>
    rw [missing_cons_of_unassigned hid, ih]
    omega

/-- The missing identifiers are the numbers from `n` on, in order, and the others stay. -/
structure InOrder (n : Nat) (before after : List NodeId) : Prop where
  length : after.length = before.length
  given : ((before.zip after).filter (!·.1.isAssigned)).map (·.2.val.toNat) =
    List.range' n (missing before)
  kept : ∀ x ∈ before.zip after, x.1.isAssigned = true → x.2 = x.1

theorem toNat_number {n : Nat} (h : n < 2 ^ 32) : (NodeId.mk (UInt32.ofNat n)).val.toNat = n :=
  UInt32.toNat_ofNat_of_lt' h

theorem Numbered.inOrder (h : Numbered n ids m ids') (hm : m ≤ 2 ^ 32) : InOrder n ids ids' := by
  induction h with
  | nil => exact ⟨rfl, rfl, List.forall_mem_nil _⟩
  | @kept n m id ids ids' hid _ ih =>
    obtain ⟨hlength, hgiven, hkept⟩ := ih hm
    refine ⟨congrArg (· + 1) hlength, ?_, ?_⟩
    · rw [List.zip_cons_cons, List.filter_cons_of_neg (by simp [hid]), hgiven,
        missing_cons_of_assigned hid]
    · rw [List.zip_cons_cons, List.forall_mem_cons]
      exact ⟨fun _ => rfl, hkept⟩
  | @given n m id ids ids' hid rest ih =>
    obtain ⟨hlength, hgiven, hkept⟩ := ih hm
    have hn : n < 2 ^ 32 := by
      have := rest.last_eq
      omega
    refine ⟨congrArg (· + 1) hlength, ?_, ?_⟩
    · rw [List.zip_cons_cons, List.filter_cons_of_pos (by simp [hid]), List.map_cons, hgiven,
        missing_cons_of_unassigned hid, List.range'_succ, toNat_number hn]
    · rw [List.zip_cons_cons, List.forall_mem_cons]
      exact ⟨fun h => absurd (hid.symm.trans h) Bool.false_ne_true, hkept⟩

/-- What is there afterwards, with the identifiers given in advance in front. -/
theorem Numbered.perm (h : Numbered n ids m ids') :
    ids'.Perm (ids.filter (·.isAssigned) ++
      (List.range' n (missing ids)).map fun i => ⟨UInt32.ofNat i⟩) := by
  induction h with
  | nil => exact List.Perm.refl _
  | kept hid _ ih =>
    rw [List.filter_cons_of_pos hid, missing_cons_of_assigned hid]
    exact ih.cons _
  | given hid _ ih =>
    rw [List.filter_cons_of_neg (by simp [hid]), missing_cons_of_unassigned hid, List.range'_succ,
      List.map_cons]
    exact (ih.cons _).trans List.perm_middle.symm

theorem isAssigned_iff (id : NodeId) : id.isAssigned = true ↔ 0 < id.val.toNat := by
  rw [NodeId.isAssigned, bne_iff_ne, Nat.pos_iff_ne_zero, ne_eq, ne_eq, not_iff_not]
  constructor
  · rintro rfl
    rfl
  · intro h
    exact congrArg NodeId.mk (UInt32.toNat_inj.mp h)

theorem Numbered.isAssigned (h : Numbered n ids m ids') (hn : 0 < n) (hm : m ≤ 2 ^ 32) :
    ∀ id ∈ ids', id.isAssigned = true := by
  intro id hid
  have hlast := h.last_eq
  rcases List.mem_append.mp (h.perm.mem_iff.mp hid) with hid | hid
  · exact (List.mem_filter.mp hid).2
  · obtain ⟨i, hi, rfl⟩ := List.mem_map.mp hid
    rw [List.mem_range'_1] at hi
    rw [isAssigned_iff, toNat_number (by omega)]
    omega

/-- Numbers that are given out collide with nothing but the same numbers given in advance. -/
theorem Numbered.nodup_iff (h : Numbered n ids m ids') (hm : m ≤ 2 ^ 32) :
    ids'.Nodup ↔ (ids.filter (·.isAssigned)).Nodup ∧
      ∀ id ∈ ids.filter (·.isAssigned), id.val.toNat < n ∨ m ≤ id.val.toNat := by
  have hmem : ∀ i, i ∈ List.range' n (missing ids) ↔ n ≤ i ∧ i < m := by
    intro i
    rw [List.mem_range'_1, h.last_eq]
  have htoNat : ∀ i ∈ List.range' n (missing ids), (NodeId.mk (UInt32.ofNat i)).val.toNat = i :=
    fun i hi => toNat_number (Nat.lt_of_lt_of_le ((hmem i).mp hi).2 hm)
  have hgiven : ((List.range' n (missing ids)).map fun i => (⟨UInt32.ofNat i⟩ : NodeId)).Nodup := by
    refine List.Nodup.map_on (fun i hi j hj hij => ?_) List.nodup_range'
    rw [← htoNat i hi, hij, htoNat j hj]
  rw [h.perm.nodup_iff, List.nodup_append]
  constructor
  · rintro ⟨hpre, -, hapart⟩
    refine ⟨hpre, fun id hid => ?_⟩
    by_contra hwithin
    refine hapart id hid id (List.mem_map.mpr ⟨id.val.toNat, (hmem _).mpr (by omega), ?_⟩) rfl
    rw [UInt32.ofNat_toNat]
  · rintro ⟨hpre, hbeyond⟩
    refine ⟨hpre, hgiven, ?_⟩
    intro id hid id' hid' heq
    obtain ⟨i, hi, rfl⟩ := List.mem_map.mp hid'
    have houtside := hbeyond id hid
    rw [heq, htoNat i hi] at houtside
    have hinside := (hmem i).mp hi
    omega

/-! ## Trees -/

theorem numbered_fresh (n : Nat) (id : NodeId) :
    Numbered n [id] (fresh n id).1 [(fresh n id).2] := by
  rw [fresh]
  split
  · next h => exact .kept h .nil
  · next h => exact .given (Bool.eq_false_iff.mpr h) .nil

theorem numbered_usings (n : Nat) (us : List Using) :
    Numbered n (us.map (·.id)) (usings n us).1 ((usings n us).2.map (·.id)) := by
  induction us generalizing n with
  | nil => exact .nil
  | cons u us ih => exact (numbered_fresh n u.id).append (ih (fresh n u.id).1)

theorem numbered_members (n : Nat) (ms : List Member) :
    Numbered n (Member.nodesAll ms) (members n ms).1 (Member.nodesAll (members n ms).2) := by
  unfold Member.nodesAll
  induction ms using Member.listInduction generalizing n with
  | nil => exact .nil
  | block head inner ms ihInner ih =>
    exact (((numbered_fresh n head.id).append (numbered_usings _ head.usings)).append
      (ihInner _)).append (ih _)
  | type head inner ms ihInner ih =>
    exact ((numbered_fresh n head.id).append (ihInner _)).append (ih _)
  | leaf l ms ih => exact (numbered_fresh n l.id).append (ih _)

theorem numbered_root (n : Nat) (r : Root) : Numbered n r.nodes (root n r).1 (root n r).2.nodes :=
  (numbered_usings n r.usings).append (numbered_members _ r.members)

end Numbering

/-! ## Projects and solutions -/

namespace ProjectDraft

open Unweave.Numbering

theorem numbered_numberAll (n k : Nat) (ds : List DocumentDraft) :
    Numbered n (ds.flatMap (·.root.nodes)) (DocumentDraft.numberAll n k ds).1
      ((DocumentDraft.numberAll n k ds).2.flatMap (·.root.nodes)) := by
  induction ds generalizing n k with
  | nil => exact .nil
  | cons d ds ih => exact (numbered_root n d.root).append (ih _ (k + 1))

theorem numbered_buildFrom (n : Nat) (p : ProjectDraft) :
    Numbered n p.nodes (p.buildFrom n).1 (p.buildFrom n).2.nodes := by
  rw [nodes_buildFrom]
  exact numbered_numberAll n 1 p.documents

theorem numbered_buildAll (n k : Nat) (drafts : List ProjectDraft) :
    Numbered n (drafts.flatMap (·.nodes)) (buildAll n k drafts).1
      ((buildAll n k drafts).2.flatMap (·.nodes)) := by
  induction drafts generalizing n k with
  | nil => exact .nil
  | cons p ps ih =>
    exact (numbered_buildFrom n { p with id := ⟨UInt32.ofNat k⟩ }).append (ih _ (k + 1))

theorem blank_buildAll (n k : Nat) (drafts : List ProjectDraft) :
    (buildAll n k drafts).2.map Project.blank = drafts.map blank := by
  induction drafts generalizing n k with
  | nil => rfl
  | cons p ps ih =>
    rw [buildAll, List.map_cons, List.map_cons, ih, blank_buildFrom]
    rfl

theorem bound_buildFrom (n : Nat) (p : ProjectDraft) :
    List.Forall₂ (fun r r' : SymbolRef => r.declaration.isSome = true → r' = r) p.references
      (p.buildFrom n).2.references := by
  refine forall₂_references n p fun within r hbound => ?_
  obtain ⟨id, hid⟩ := Option.isSome_iff_exists.mp hbound
  rw [Binding.bindRef, hid]

theorem bound_buildAll (n k : Nat) (drafts : List ProjectDraft) :
    List.Forall₂ (fun r r' : SymbolRef => r.declaration.isSome = true → r' = r)
      (drafts.flatMap (·.references)) ((buildAll n k drafts).2.flatMap (·.references)) := by
  induction drafts generalizing n k with
  | nil => exact .nil
  | cons p ps ih =>
    exact List.rel_append (bound_buildFrom n { p with id := ⟨UInt32.ofNat k⟩ }) (ih _ (k + 1))

end ProjectDraft

/-- The identifiers of a solution in reading order. -/
def Solution.nodes (s : Solution) : List NodeId := s.projects.flatMap (·.nodes)

def Solution.references (s : Solution) : List SymbolRef := s.projects.flatMap (·.references)

/-- Building numbers the nodes that have no identifier from one on, in reading order and without a
gap.  It changes nothing else but open references.  So all nodes have identifiers, and these are
distinct exactly if those given in advance are, and lie beyond the numbers given out. -/
theorem Solution.numbers_in_order (drafts : List ProjectDraft)
    (few : (drafts.flatMap (·.nodes)).length < 2 ^ 32) :
    Numbering.InOrder 1 (drafts.flatMap (·.nodes)) (ofDrafts drafts).nodes ∧
    (ofDrafts drafts).projects.map Project.blank = drafts.map ProjectDraft.blank ∧
    List.Forall₂ (fun r r' : SymbolRef => r.declaration.isSome = true → r' = r)
      (drafts.flatMap (·.references)) (ofDrafts drafts).references ∧
    (∀ id ∈ (ofDrafts drafts).nodes, id.isAssigned = true) ∧
    ((ofDrafts drafts).nodes.Nodup ↔
      ((drafts.flatMap (·.nodes)).filter (·.isAssigned)).Nodup ∧
      ∀ id ∈ (drafts.flatMap (·.nodes)).filter (·.isAssigned),
        Numbering.missing (drafts.flatMap (·.nodes)) < id.val.toNat) := by
  have h := ProjectDraft.numbered_buildAll 1 1 drafts
  have hlast := h.last_eq
  have hmissing := Numbering.missing_le_length (drafts.flatMap (·.nodes))
  have hbound : (ProjectDraft.buildAll 1 1 drafts).1 ≤ 2 ^ 32 := by omega
  refine ⟨h.inOrder hbound, ProjectDraft.blank_buildAll 1 1 drafts,
    ProjectDraft.bound_buildAll 1 1 drafts, h.isAssigned Nat.one_pos hbound, ?_⟩
  rw [nodes, ofDrafts, h.nodup_iff hbound]
  refine and_congr_right fun _ => forall₂_congr fun id hid => ?_
  have hpos := (Numbering.isAssigned_iff id).mp (List.mem_filter.mp hid).2
  omega

/-- Two projects with a block and a method whose identifiers are given in advance. -/
def roster : List ProjectDraft :=
  [{ name := "Pumps", assembly := "Pumps",
     documents := [{ name := "Pump.cs", root := pumps }] },
    { name := "Valves", assembly := "Valves",
      documents := [{ name := "Valve.cs", root := valves }] }]
where
  pumps : Root :=
    { usings := [{ name := "System" }]
      members :=
        [.block { id := ⟨9⟩, name := "Plant", usings := [{ name := "System.Text" }] }
          [.type { kind := .classKind, name := "Pump" }
            [.leaf { id := ⟨2⟩, form := .constructor "Pump" [] none },
              .leaf { form := .constructor "Pump" [] none }]]] }
  valves : Root := { members := [.type { kind := .structKind, name := "Valve" } []] }

/-- The number of the constructor is given out once more, that of the block is not. -/
theorem Solution.numbers_in_order_roster :
    (roster.flatMap (·.nodes)).length < 2 ^ 32 ∧
    Numbering.InOrder 1 (roster.flatMap (·.nodes)) (ofDrafts roster).nodes ∧
    (ofDrafts roster).nodes.map (·.val.toNat) = [1, 9, 2, 3, 2, 4, 5] ∧
    ¬ (ofDrafts roster).nodes.Nodup := by
  have few : (roster.flatMap (·.nodes)).length < 2 ^ 32 := by decide +kernel
  obtain ⟨hinOrder, -, -, -, hnodup⟩ := numbers_in_order roster few
  refine ⟨few, hinOrder, by decide +kernel, ?_⟩
  rw [hnodup]
  decide +kernel

end Unweave

import Mathlib.Data.List.Sort
import Unweave.Text.Sorted

/-!
# What sorted sets hold

Which value a sorted set holds for a key depends on the order of insertion; which keys there are
does not.  So membership is stated twice: a value that is found was inserted, and a key is found
exactly if a value of that key was inserted.  The keys are listed alike in all sets that hold the
same (`keys_eq_of_mem_iff`), so a set of values that are their own keys is known by its members
(`Sorted.ext`).
-/

namespace Unweave
namespace SortedSet

variable {α κ : Type} [Ord κ] {key : α → κ}

theorem mem_map_insertByKey [Std.LawfulEqOrd κ] (x : α) (ys : List α) (k : κ) :
    k ∈ (insertByKey key x ys).map key ↔ k = key x ∨ k ∈ ys.map key := by
  induction ys with
  | nil => simp [insertByKey]
  | cons y ys ih =>
    rw [insertByKey]
    split
    · simp
    · next heq => simp [Std.LawfulEqOrd.eq_of_compare heq]
    · rw [List.map_cons, List.mem_cons, ih, List.map_cons, List.mem_cons, or_left_comm]

theorem pairwise_keys (s : SortedSet key) : s.keys.Pairwise fun a b => compare a b = .lt :=
  List.pairwise_map.mpr s.ordered

variable [Std.TransOrd κ]

theorem mem_of_mem_insertAll {s : SortedSet key} {xs : List α} {z : α}
    (h : z ∈ (s.insertAll xs).toList) : z ∈ s.toList ∨ z ∈ xs := by
  induction xs generalizing s with
  | nil => exact .inl h
  | cons x xs ih =>
    rcases ih h with h | h
    · rcases mem_insertByKey key h with rfl | h
      · exact .inr List.mem_cons_self
      · exact .inl h
    · exact .inr (List.mem_cons_of_mem _ h)

theorem mem_of_mem_union {s t : SortedSet key} {z : α} (h : z ∈ (s.union t).toList) :
    z ∈ s.toList ∨ z ∈ t.toList :=
  mem_of_mem_insertAll h

theorem keys_eq_of_mem_iff {s t : SortedSet key} (h : ∀ k, k ∈ s.keys ↔ k ∈ t.keys) :
    s.keys = t.keys := by
  have hirrefl : Std.Irrefl fun a b : κ => compare a b = .lt :=
    ⟨fun _ h => Std.OrientedCmp.not_lt_of_lt h h⟩
  have hanti : Std.Antisymm fun a b : κ => compare a b = .lt :=
    ⟨fun a b h h' => absurd h' (Std.OrientedCmp.not_lt_of_lt h)⟩
  exact s.pairwise_keys.eq_of_mem_iff t.pairwise_keys h

variable [Std.LawfulEqOrd κ]

theorem mem_keys_insertAll (s : SortedSet key) (xs : List α) (k : κ) :
    k ∈ (s.insertAll xs).keys ↔ k ∈ s.keys ∨ k ∈ xs.map key := by
  induction xs generalizing s with
  | nil => simp [insertAll]
  | cons x xs ih =>
    have hstep : s.insertAll (x :: xs) = (s.insert x).insertAll xs := rfl
    have hinsert : k ∈ (s.insert x).keys ↔ k = key x ∨ k ∈ s.keys :=
      mem_map_insertByKey x s.toList k
    rw [hstep, ih, hinsert, List.map_cons, List.mem_cons, or_left_comm, or_assoc]

theorem mem_keys_union (s t : SortedSet key) (k : κ) :
    k ∈ (s.union t).keys ↔ k ∈ s.keys ∨ k ∈ t.keys :=
  mem_keys_insertAll s t.toList k

theorem mem_keys_ofList (xs : List α) (k : κ) :
    k ∈ (ofList xs : SortedSet key).keys ↔ k ∈ xs.map key :=
  (mem_keys_insertAll empty xs k).trans (or_iff_right List.not_mem_nil)

end SortedSet

namespace Sorted

variable {α : Type} [Ord α]

theorem keys_eq (s : Sorted α) : s.keys = s.toList := List.map_id' s.toList

/-- A set is known by its members. -/
theorem ext [Std.TransOrd α] {s t : Sorted α} (h : ∀ x, x ∈ s ↔ x ∈ t) : s = t := by
  have hkeys : s.keys = t.keys := by
    refine SortedSet.keys_eq_of_mem_iff fun x => ?_
    rw [keys_eq, keys_eq]
    exact h x
  rw [keys_eq, keys_eq] at hkeys
  exact SortedSet.ext hkeys

variable [Std.TransOrd α] [Std.LawfulEqOrd α]

theorem mem_union {s t : Sorted α} {x : α} : x ∈ s.union t ↔ x ∈ s ∨ x ∈ t := by
  have h := s.mem_keys_union t x
  rwa [keys_eq, keys_eq, keys_eq] at h

theorem mem_ofList {xs : List α} {x : α} : x ∈ (SortedSet.ofList xs : Sorted α) ↔ x ∈ xs := by
  have h : x ∈ (SortedSet.ofList xs : Sorted α).keys ↔ x ∈ xs.map fun x => x :=
    SortedSet.mem_keys_ofList xs x
  rwa [keys_eq, List.map_id'] at h

/-- It does not matter how the members were grouped. -/
theorem union_assoc (s t u : Sorted α) : (s.union t).union u = s.union (t.union u) := by
  refine ext fun x => ?_
  rw [mem_union, mem_union, mem_union, mem_union, or_assoc]

end Sorted

theorem Text.mem_sortedSet {ss : List String} {u : String} : u ∈ sortedSet ss ↔ u ∈ ss :=
  Sorted.mem_ofList

end Unweave

/-!
# Sorted sets

A sorted set lists values in the strict order of their keys, so it holds one value at most for each
key.  A value goes to its place unless one of its key is there: the first one stays.
-/

namespace Unweave

variable {α κ : Type} [Ord κ] (key : α → κ)

/-- Put a value in its place, unless one of its key is there. -/
def insertByKey (x : α) : List α → List α
  | [] => [x]
  | y :: ys =>
    match compare (key x) (key y) with
    | .lt => x :: y :: ys
    | .eq => y :: ys
    | .gt => y :: insertByKey x ys

theorem mem_insertByKey {x z : α} {ys : List α} (h : z ∈ insertByKey key x ys) :
    z = x ∨ z ∈ ys := by
  induction ys with
  | nil => exact .inl (List.mem_singleton.mp h)
  | cons y ys ih =>
    rw [insertByKey] at h
    split at h
    · exact List.mem_cons.mp h
    · exact .inr h
    · rcases List.mem_cons.mp h with rfl | h
      · exact .inr List.mem_cons_self
      · exact (ih h).imp_right (List.mem_cons_of_mem y)

/-- One value comes before the other in the order of keys. -/
def Precedes (x y : α) : Prop := compare (key x) (key y) = .lt

theorem insertByKey_ordered [Std.TransOrd κ] (x : α) {ys : List α}
    (h : ys.Pairwise (Precedes key)) : (insertByKey key x ys).Pairwise (Precedes key) := by
  induction ys with
  | nil => exact List.pairwise_singleton _ _
  | cons y ys ih =>
    obtain ⟨hy, hys⟩ := List.pairwise_cons.mp h
    rw [insertByKey]
    split
    · next hlt =>
      refine List.pairwise_cons.mpr ⟨fun z hz => ?_, h⟩
      rcases List.mem_cons.mp hz with rfl | hz
      · exact hlt
      · exact Std.TransCmp.lt_trans hlt (hy z hz)
    · exact h
    · next hgt =>
      refine List.pairwise_cons.mpr ⟨fun z hz => ?_, ih hys⟩
      rcases mem_insertByKey key hz with rfl | hz
      · exact Std.OrientedCmp.gt_iff_lt.mp hgt
      · exact hy z hz

/-- Values with different keys, in the order of keys. -/
@[ext]
structure SortedSet where
  toList : List α
  ordered : toList.Pairwise (Precedes key)
deriving DecidableEq

namespace SortedSet

variable {key}

instance : Membership α (SortedSet key) := ⟨fun s x => x ∈ s.toList⟩

instance : CoeOut (SortedSet key) (List α) := ⟨toList⟩

def empty : SortedSet key := ⟨[], .nil⟩

def isEmpty (s : SortedSet key) : Bool := s.toList.isEmpty

def keys (s : SortedSet key) : List κ := s.toList.map key

variable [Std.TransOrd κ]

/-- Add a value, unless one of its key is there. -/
def insert (s : SortedSet key) (x : α) : SortedSet key :=
  ⟨insertByKey key x s.toList, insertByKey_ordered key x s.ordered⟩

def insertAll (s : SortedSet key) (xs : List α) : SortedSet key := xs.foldl insert s

def union (s t : SortedSet key) : SortedSet key := s.insertAll t.toList

def ofList (xs : List α) : SortedSet key := empty.insertAll xs

end SortedSet

/-- A set of values that are their own keys. -/
abbrev Sorted (α : Type) [Ord α] : Type := SortedSet fun x : α => x

end Unweave

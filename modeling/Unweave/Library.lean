import Unweave.Package

/-!
# Libraries

A library holds one package for each key, in the order in which the keys first came.  An index leads
from a key to the slot of its package, so nothing is searched for.
-/

namespace Unweave

theorem no_slots (key : String) (slot : Nat) :
    (none : Option Nat) = some slot ↔ ([] : List Package)[slot]?.map (·.key) = some key :=
  ⟨nofun, nofun⟩

structure Library where
  packages : List Package := []
  /-- The slot of a key that is there. -/
  index : String → Option Nat := fun _ => none
  /-- The index leads to the packages by their keys, and nowhere else. -/
  indexed : ∀ key slot, index key = some slot ↔ packages[slot]?.map (·.key) = some key := by
    exact no_slots

/-- How many packages there are, and how many of each kind. -/
structure Summary where
  projects : Nat := 0
  packages : Nat := 0
  interwovenExtensionMethods : Nat := 0
  interwovenTypeMembers : Nat := 0
  memberContainers : Nat := 0
deriving DecidableEq

namespace Library

def empty : Library := {}

/-- The package in the slot of a key. -/
def get? (l : Library) (key : String) : Option Package :=
  (l.index key).bind fun slot => l.packages[slot]?

theorem slot_lt (l : Library) {key : String} {slot : Nat} (h : l.index key = some slot) :
    slot < l.packages.length := by
  obtain ⟨p, hp, -⟩ := Option.map_eq_some_iff.mp ((l.indexed key slot).mp h)
  exact (List.getElem?_eq_some_iff.mp hp).1

/-- Put a package into a new slot at the end. -/
def push (l : Library) (p : Package) (h : l.index p.key = none) : Library where
  packages := l.packages ++ [p]
  index key := if key = p.key then some l.packages.length else l.index key
  indexed key slot := by
    have hold := l.indexed key slot
    rcases Nat.lt_trichotomy slot l.packages.length with hlt | rfl | hgt
    · rw [List.getElem?_append_left hlt, ← hold]
      by_cases hkey : key = p.key
      · -- The new key is in no old slot.
        rw [if_pos hkey, hkey, h, Option.some.injEq]
        exact ⟨fun heq => absurd heq (Nat.ne_of_gt hlt), nofun⟩
      · rw [if_neg hkey]
    · rw [List.getElem?_concat_length, Option.map_some, Option.some.injEq]
      by_cases hkey : key = p.key
      · rw [if_pos hkey]
        exact ⟨fun _ => hkey.symm, fun _ => rfl⟩
      · rw [if_neg hkey]
        exact ⟨fun hslot => absurd (l.slot_lt hslot) (Nat.lt_irrefl _),
          fun heq => absurd heq.symm hkey⟩
    · have hnone : (l.packages ++ [p])[slot]? = none := by
        rw [List.getElem?_eq_none_iff, List.length_append, List.length_singleton]
        exact hgt
      rw [hnone, Option.map_none]
      refine ⟨fun hslot => ?_, nofun⟩
      by_cases hkey : key = p.key
      · rw [if_pos hkey, Option.some.injEq] at hslot
        omega
      · rw [if_neg hkey] at hslot
        have := l.slot_lt hslot
        omega

/-- Replace the package in a slot by another one of its key. -/
def replace (l : Library) (slot : Nat) (p : Package) (h : l.index p.key = some slot) : Library where
  packages := l.packages.set slot p
  index := l.index
  indexed key n := by
    rw [l.indexed key n, List.getElem?_set]
    by_cases hn : slot = n
    · subst hn
      rw [if_pos rfl, if_pos (l.slot_lt h), (l.indexed p.key slot).mp h, Option.map_some]
    · rw [if_neg hn]

/-- The package that is found by a key. -/
def found (l : Library) {key : String} {slot : Nat} (h : l.index key = some slot) : Package :=
  l.packages.get ⟨slot, l.slot_lt h⟩

theorem key_found (l : Library) {key : String} {slot : Nat} (h : l.index key = some slot) :
    (l.found h).key = key := by
  have hkey := (l.indexed key slot).mp h
  rw [List.getElem?_eq_getElem (l.slot_lt h), Option.map_some, Option.some.injEq] at hkey
  exact hkey

/-- Merge a package into the one that is found by its key. -/
def mergeAt (l : Library) (p : Package) {slot : Nat} (h : l.index p.key = some slot) :
    Except Error Library :=
  match hmerge : (l.found h).merge p with
  | .error e => .error e
  | .ok merged =>
    .ok (l.replace slot merged (by rw [Package.key_of_merge hmerge, l.key_found h, h]))

/-- Merge a package into the one of its key, or put it last. -/
def add (l : Library) (p : Package) : Except Error Library :=
  match h : l.index p.key with
  | none => .ok (l.push p h)
  | some _ => l.mergeAt p h

def addAll (l : Library) (ps : List Package) : Except Error Library := ps.foldlM add l

def keys (l : Library) : List String := l.packages.map (·.key)

def ofKind (l : Library) (k : PackageKind) : List Package := l.packages.filter (·.kind == k)

def infos (l : Library) : List PackageInfo := l.packages.map (·.info)

def summary (l : Library) (projects : Nat) : Summary :=
  { projects, packages := l.packages.length,
    interwovenExtensionMethods := (l.ofKind .interwovenExtensionMethods).length,
    interwovenTypeMembers := (l.ofKind .interwovenTypeMembers).length,
    memberContainers := (l.ofKind .memberContainer).length }

end Library
end Unweave

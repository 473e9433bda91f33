import Mathlib.Data.List.Nodup
import Unweave.Library
import Unweave.Proofs.PackageKeys

/-!
# Slots

The index of a library leads to its packages by their keys, so it says nothing that the list of
packages does not say: libraries with the same packages are the same (`Library.ext_packages`), and a
key is found where a search from the front would find it (`Library.get?_eq_find?`).

Adding through the index is adding to the list (`Library.addAll_eq`): a package is merged into the
first one of its key, and otherwise put last.  It never fails, since packages of one key are of one
kind.
-/

namespace Unweave
namespace Library

theorem index_eq_some_iff (l : Library) {key : String} {slot : Nat} :
    l.index key = some slot ↔ ∃ p, l.packages[slot]? = some p ∧ p.key = key := by
  rw [l.indexed, Option.map_eq_some_iff]

theorem index_eq_none_iff (l : Library) {key : String} :
    l.index key = none ↔ key ∉ l.keys := by
  rw [Option.eq_none_iff_forall_ne_some, keys, List.mem_map]
  constructor
  · rintro h ⟨p, hp, rfl⟩
    obtain ⟨slot, hslot⟩ := List.mem_iff_getElem?.mp hp
    exact h slot (l.index_eq_some_iff.mpr ⟨p, hslot, rfl⟩)
  · intro h slot hslot
    obtain ⟨p, hp, hkey⟩ := l.index_eq_some_iff.mp hslot
    exact h ⟨p, List.mem_of_getElem? hp, hkey⟩

/-- The index is known by the packages. -/
theorem ext_packages {l l' : Library} (h : l.packages = l'.packages) : l = l' := by
  have hindex : l.index = l'.index := by
    funext key
    refine Option.ext fun slot => ?_
    rw [l.indexed, l'.indexed, h]
  obtain ⟨packages, index, _⟩ := l
  obtain ⟨packages', index', _⟩ := l'
  cases h
  cases hindex
  rfl

/-- Two slots with the same key are found by it, so they are one. -/
theorem nodup_keys (l : Library) : l.keys.Nodup := by
  refine List.nodup_iff_getElem?_ne_getElem?.mpr fun i j hij hj heq => ?_
  obtain ⟨key, hkey⟩ : ∃ key, l.keys[j]? = some key := ⟨_, List.getElem?_eq_getElem hj⟩
  have hi := heq.trans hkey
  rw [keys, List.getElem?_map] at hkey hi
  rw [← l.indexed] at hkey hi
  exact absurd (Option.some.inj (hi.symm.trans hkey)) (Nat.ne_of_lt hij)

/-! ## Lookup -/

theorem get?_eq_some_iff {l : Library} {key : String} {p : Package} :
    l.get? key = some p ↔ p ∈ l.packages ∧ p.key = key := by
  rw [get?, Option.bind_eq_some_iff]
  constructor
  · rintro ⟨slot, hslot, hp⟩
    obtain ⟨q, hq, hkey⟩ := l.index_eq_some_iff.mp hslot
    cases hq.symm.trans hp
    exact ⟨List.mem_of_getElem? hp, hkey⟩
  · rintro ⟨hp, hkey⟩
    obtain ⟨slot, hslot⟩ := List.mem_iff_getElem?.mp hp
    exact ⟨slot, l.index_eq_some_iff.mpr ⟨p, hslot, hkey⟩, hslot⟩

theorem get?_eq_find? (l : Library) (key : String) :
    l.get? key = l.packages.find? (·.key == key) := by
  cases hfind : l.packages.find? (·.key == key) with
  | some p =>
    have hkey : p.key = key := by simpa using List.find?_some hfind
    exact get?_eq_some_iff.mpr ⟨List.mem_of_find?_eq_some hfind, hkey⟩
  | none =>
    rw [Option.eq_none_iff_forall_ne_some]
    intro p hp
    obtain ⟨hmem, hkey⟩ := get?_eq_some_iff.mp hp
    exact List.find?_eq_none.mp hfind p hmem (beq_iff_eq.mpr hkey)

/-! ## Adding to a list -/

/-- Merge a package into the first one of its key, or put it last. -/
def put (ps : List Package) (x : Package) : List Package :=
  match ps with
  | [] => [x]
  | p :: ps => if p.key = x.key then p.joined x :: ps else p :: put ps x

theorem put_cons_of_eq {p x : Package} (h : p.key = x.key) (ps : List Package) :
    put (p :: ps) x = p.joined x :: ps := if_pos h

theorem put_cons_of_ne {p x : Package} (h : p.key ≠ x.key) (ps : List Package) :
    put (p :: ps) x = p :: put ps x := if_neg h

/-- Add packages, first to last. -/
def putAll (ps xs : List Package) : List Package := xs.foldl put ps

theorem putAll_cons (ps : List Package) (x : Package) (xs : List Package) :
    putAll ps (x :: xs) = putAll (put ps x) xs := rfl

theorem putAll_append (ps xs ys : List Package) :
    putAll ps (xs ++ ys) = putAll (putAll ps xs) ys := List.foldl_append

theorem keys_put (ps : List Package) (x : Package) :
    (put ps x).map (·.key) =
      if x.key ∈ ps.map (·.key) then ps.map (·.key) else ps.map (·.key) ++ [x.key] := by
  induction ps with
  | nil => rfl
  | cons p ps ih =>
    by_cases hkey : p.key = x.key
    · have hmem : x.key ∈ (p :: ps).map (·.key) := List.mem_cons.mpr (.inl hkey.symm)
      rw [put_cons_of_eq hkey, if_pos hmem]
      rfl
    · have hmem : x.key ∈ (p :: ps).map (·.key) ↔ x.key ∈ ps.map (·.key) := by
        rw [List.map_cons, List.mem_cons, or_iff_right (Ne.symm hkey)]
      rw [put_cons_of_ne hkey, List.map_cons, ih]
      simp only [hmem]
      split <;> rfl

theorem mem_keys_put {ps : List Package} {x : Package} {key : String} :
    key ∈ (put ps x).map (·.key) ↔ key = x.key ∨ key ∈ ps.map (·.key) := by
  rw [keys_put]
  split
  · next hmem => exact ⟨.inr, fun h => h.elim (fun heq => heq ▸ hmem) id⟩
  · rw [List.mem_append, List.mem_singleton, or_comm]

theorem nodup_keys_put {ps : List Package} (h : (ps.map (·.key)).Nodup) (x : Package) :
    ((put ps x).map (·.key)).Nodup := by
  rw [keys_put]
  split
  · exact h
  · next hnew =>
    exact List.nodup_append'.mpr ⟨h, List.nodup_singleton _, List.disjoint_singleton.mpr hnew⟩

theorem nodup_keys_putAll {ps : List Package} (h : (ps.map (·.key)).Nodup) (xs : List Package) :
    ((putAll ps xs).map (·.key)).Nodup := by
  induction xs generalizing ps with
  | nil => exact h
  | cons x xs ih => exact ih (nodup_keys_put h x)

theorem put_of_not_mem {ps : List Package} {x : Package} (h : x.key ∉ ps.map (·.key)) :
    put ps x = ps ++ [x] := by
  induction ps with
  | nil => rfl
  | cons p ps ih =>
    obtain ⟨hne, hrest⟩ := not_or.mp (mt List.mem_cons.mpr h)
    rw [put_cons_of_ne (Ne.symm hne), ih hrest, List.cons_append]

/-- Of packages with different keys, the one in the slot of the key is the first of the key. -/
theorem put_of_getElem? {ps : List Package} (hkeys : (ps.map (·.key)).Nodup) {x p : Package}
    {slot : Nat} (hp : ps[slot]? = some p) (hkey : p.key = x.key) :
    put ps x = ps.set slot (p.joined x) := by
  induction ps generalizing slot with
  | nil => cases hp
  | cons q ps ih =>
    obtain ⟨hq, hkeys⟩ := List.nodup_cons.mp hkeys
    cases slot with
    | zero =>
      cases hp
      exact put_cons_of_eq hkey ps
    | succ slot =>
      have hmem : p ∈ ps := List.mem_of_getElem? hp
      have hne : q.key ≠ x.key := fun heq => hq (List.mem_map.mpr ⟨p, hmem, hkey.trans heq.symm⟩)
      rw [put_cons_of_ne hne, ih hkeys hp, List.set_cons_succ]

/-! ## Adding through the index -/

theorem getElem?_found (l : Library) {key : String} {slot : Nat} (h : l.index key = some slot) :
    l.packages[slot]? = some (l.found h) :=
  List.getElem?_eq_getElem (l.slot_lt h)

theorem exists_mergeAt (l : Library) {x : Package} {slot : Nat} (h : l.index x.key = some slot) :
    ∃ l', l.mergeAt x h = .ok l' ∧ l'.packages = put l.packages x := by
  have hkey := l.key_found h
  have hmerge := Package.merge_eq_joined hkey
  rw [mergeAt]
  split
  · next hfail => cases hmerge.symm.trans hfail
  · next merged hok =>
    cases hmerge.symm.trans hok
    exact ⟨_, rfl, (put_of_getElem? l.nodup_keys (l.getElem?_found h) hkey).symm⟩

/-- Adding through the index never fails, and adds to the list. -/
theorem exists_add (l : Library) (x : Package) :
    ∃ l', l.add x = .ok l' ∧ l'.packages = put l.packages x := by
  rw [add]
  split
  · next h => exact ⟨_, rfl, (put_of_not_mem (l.index_eq_none_iff.mp h)).symm⟩
  · next slot h => exact l.exists_mergeAt h

theorem exists_addAll (l : Library) (xs : List Package) :
    ∃ l', l.addAll xs = .ok l' ∧ l'.packages = putAll l.packages xs := by
  induction xs generalizing l with
  | nil => exact ⟨l, rfl, rfl⟩
  | cons x xs ih =>
    obtain ⟨l₁, hadd, hput⟩ := l.exists_add x
    obtain ⟨l₂, hall, hputAll⟩ := ih l₁
    have hstep : l.addAll (x :: xs) = l.add x >>= fun l' => l'.addAll xs := rfl
    refine ⟨l₂, ?_, by rw [hputAll, hput, putAll_cons]⟩
    rw [hstep, hadd]
    exact hall

theorem addAll_append (l : Library) (xs ys : List Package) :
    l.addAll (xs ++ ys) = l.addAll xs >>= fun l' => l'.addAll ys :=
  List.foldlM_append

/-- The library of a list of packages with different keys. -/
def ofPackages (ps : List Package) (h : (ps.map (·.key)).Nodup) : Library where
  packages := ps
  index key := ps.findIdx? (·.key == key)
  indexed key slot := by
    constructor
    · intro hslot
      obtain ⟨hlt, hkey, -⟩ := List.findIdx?_eq_some_iff_getElem.mp hslot
      rw [List.getElem?_eq_getElem hlt, Option.map_some, beq_iff_eq.mp hkey]
    · intro hslot
      obtain ⟨p, hp, hkey⟩ := Option.map_eq_some_iff.mp hslot
      obtain ⟨hlt, rfl⟩ := List.getElem?_eq_some_iff.mp hp
      refine List.findIdx?_eq_some_iff_getElem.mpr ⟨hlt, beq_iff_eq.mpr hkey, fun n hn heq => ?_⟩
      have hsame : (ps.map (·.key))[n]? = (ps.map (·.key))[slot]? := by
        rw [List.getElem?_map, List.getElem?_map, hp,
          List.getElem?_eq_getElem (Nat.lt_trans hn hlt), Option.map_some, Option.map_some,
          beq_iff_eq.mp heq, hkey]
      exact List.nodup_iff_getElem?_ne_getElem?.mp h n slot hn (by rwa [List.length_map]) hsame

/-- A library with packages added. -/
def plus (l : Library) (xs : List Package) : Library :=
  ofPackages (putAll l.packages xs) (nodup_keys_putAll l.nodup_keys xs)

theorem plus_nil (l : Library) : l.plus [] = l := ext_packages rfl

theorem plus_append (l : Library) (xs ys : List Package) :
    l.plus (xs ++ ys) = (l.plus xs).plus ys :=
  ext_packages (putAll_append l.packages xs ys)

/-- Adding packages is adding them to the list. -/
theorem addAll_eq (l : Library) (xs : List Package) : l.addAll xs = .ok (l.plus xs) := by
  obtain ⟨l', hadd, hpackages⟩ := l.exists_addAll xs
  rw [hadd, Except.ok.injEq]
  exact ext_packages hpackages

end Library
end Unweave

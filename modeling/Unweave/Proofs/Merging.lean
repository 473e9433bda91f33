import Unweave.Proofs.Slots
import Unweave.Proofs.SortedSets

/-!
# Merging packages in groups

Packages of one key are merged, first to last.  Merging is associative: contents are joined, using
directives are a sorted set and of the declarations the first of the longest ones stays.  Hence a
group of packages may first be put into a library of its own, and what comes out of that be added
in the group's place (`Library.plus_alone`).

Nothing that a content says is lost: it stands in one piece in what the library says under its key
(`Library.exists_get?_plus`).
-/

namespace Unweave

/-! ## Two packages -/

namespace Package

theorem joinContents_empty (b : String) : joinContents "" b = b := by
  rw [joinContents]
  split
  · next hempty => exact (String.isEmpty_iff.mp hempty).symm
  · exact if_pos rfl

theorem joinContents_of_isEmpty (a : String) {b : String} (h : b.isEmpty = true) :
    joinContents a b = a := if_pos h

theorem joinContents_of_ne {a b : String} (ha : a.isEmpty = false) (hb : b.isEmpty = false) :
    joinContents a b = a ++ "\n\n" ++ b := by
  rw [joinContents, ha, hb]
  rfl

theorem isEmpty_joinContents {a b : String} (ha : a.isEmpty = false) (hb : b.isEmpty = false) :
    (joinContents a b).isEmpty = false := by
  rw [joinContents_of_ne ha hb]
  simp

theorem joinContents_assoc (a b c : String) :
    joinContents (joinContents a b) c = joinContents a (joinContents b c) := by
  cases ha : a.isEmpty with
  | true => rw [String.isEmpty_iff.mp ha, joinContents_empty, joinContents_empty]
  | false =>
    cases hb : b.isEmpty with
    | true => rw [joinContents_of_isEmpty a hb, String.isEmpty_iff.mp hb, joinContents_empty]
    | false =>
      cases hc : c.isEmpty with
      | true => rw [joinContents_of_isEmpty _ hc, joinContents_of_isEmpty b hc]
      | false =>
        rw [joinContents_of_ne (isEmpty_joinContents ha hb) hc,
          joinContents_of_ne ha (isEmpty_joinContents hb hc), joinContents_of_ne ha hb,
          joinContents_of_ne hb hc]
        simp only [String.append_assoc]

/-- Both contents stand in the joined one. -/
theorem within_joinContents (a b : String) :
    a.toList <:+: (joinContents a b).toList ∧ b.toList <:+: (joinContents a b).toList := by
  cases hb : b.isEmpty with
  | true =>
    rw [joinContents_of_isEmpty a hb, String.isEmpty_iff.mp hb]
    exact ⟨List.infix_rfl, ⟨[], a.toList, rfl⟩⟩
  | false =>
    cases ha : a.isEmpty with
    | true =>
      rw [String.isEmpty_iff.mp ha, joinContents_empty]
      exact ⟨⟨[], b.toList, rfl⟩, List.infix_rfl⟩
    | false =>
      rw [joinContents_of_ne ha hb, String.toList_append, String.toList_append, List.append_assoc]
      refine ⟨⟨[], _, rfl⟩, ⟨a.toList ++ "\n\n".toList, [], ?_⟩⟩
      rw [List.append_nil, List.append_assoc]

/-- The longer of two declarations, the first of two as long. -/
def longer (a b : String) : String := if b.utf8ByteSize > a.utf8ByteSize then b else a

theorem longer_assoc (a b c : String) : longer (longer a b) c = longer a (longer b c) := by
  unfold longer
  by_cases hab : b.utf8ByteSize > a.utf8ByteSize
  · rw [if_pos hab]
    by_cases hbc : c.utf8ByteSize > b.utf8ByteSize
    · rw [if_pos hbc, if_pos (by omega)]
    · rw [if_neg hbc, if_pos hab]
  · rw [if_neg hab]
    by_cases hbc : c.utf8ByteSize > b.utf8ByteSize
    · rw [if_pos hbc]
    · rw [if_neg hbc, if_neg hab, if_neg (by omega)]

theorem mergeDetails_assoc (a b c : ContainerDetails) :
    mergeDetails (mergeDetails a b) c = mergeDetails a (mergeDetails b c) := by
  have husings := Sorted.union_assoc a.usings b.usings c.usings
  have hdeclaration := longer_assoc a.declaration b.declaration c.declaration
  exact (ContainerDetails.mk.injEq ..).mpr ⟨rfl, rfl, rfl, hdeclaration, husings⟩

theorem mergeContainers_assoc (a b c : Option ContainerDetails) :
    mergeContainers (mergeContainers a b) c = mergeContainers a (mergeContainers b c) := by
  rcases a with _ | a
  · rfl
  · rcases b with _ | b
    · rfl
    · rcases c with _ | c
      · rfl
      · exact congrArg some (mergeDetails_assoc a b c)

theorem joined_assoc (a b c : Package) : (a.joined b).joined c = a.joined (b.joined c) := by
  simp only [joined, joinContents_assoc, mergeContainers_assoc]

end Package

/-! ## Groups -/

namespace Library

/-- Packages that will be merged may be merged first. -/
theorem put_joined (ps : List Package) {x y : Package} (hkey : x.key = y.key) :
    put ps (x.joined y) = put (put ps x) y := by
  induction ps with
  | nil => exact (put_cons_of_eq hkey []).symm
  | cons p ps ih =>
    by_cases hpx : p.key = x.key
    · have hjoined : p.key = (x.joined y).key := hpx
      have hagain : (p.joined x).key = y.key := hpx.trans hkey
      rw [put_cons_of_eq hjoined, put_cons_of_eq hpx, put_cons_of_eq hagain, Package.joined_assoc]
    · have hjoined : p.key ≠ (x.joined y).key := hpx
      have hagain : p.key ≠ y.key := fun h => hpx (h.trans hkey.symm)
      rw [put_cons_of_ne hjoined, put_cons_of_ne hpx, put_cons_of_ne hagain, ih]

/-- Adding to a key that is there does not disturb what is added elsewhere. -/
theorem put_comm {ps : List Package} {x y : Package} (hx : x.key ∈ ps.map (·.key))
    (hne : x.key ≠ y.key) : put (put ps x) y = put (put ps y) x := by
  induction ps with
  | nil => cases hx
  | cons p ps ih =>
    by_cases hpx : p.key = x.key
    · have hpy : p.key ≠ y.key := fun h => hne (hpx.symm.trans h)
      have hjoined : (p.joined x).key ≠ y.key := hpy
      rw [put_cons_of_eq hpx, put_cons_of_ne hjoined, put_cons_of_ne hpy, put_cons_of_eq hpx]
    · have hrest : x.key ∈ ps.map (·.key) := (List.mem_cons.mp hx).resolve_left fun h => hpx h.symm
      by_cases hpy : p.key = y.key
      · have hjoined : (p.joined y).key ≠ x.key := hpx
        rw [put_cons_of_ne hpx, put_cons_of_eq hpy, put_cons_of_eq hpy, put_cons_of_ne hjoined]
      · rw [put_cons_of_ne hpx, put_cons_of_ne hpy, put_cons_of_ne hpy, put_cons_of_ne hpx,
          ih hrest]

theorem putAll_comm {ps xs : List Package} {x : Package} (hx : x.key ∈ ps.map (·.key))
    (hxs : x.key ∉ xs.map (·.key)) : putAll (put ps x) xs = put (putAll ps xs) x := by
  induction xs generalizing ps with
  | nil => rfl
  | cons y ys ih =>
    have hne : x.key ≠ y.key := fun h => hxs (List.mem_cons.mpr (.inl h))
    rw [putAll_cons, put_comm hx hne, ih (mem_keys_put.mpr (.inr hx)) fun h =>
      hxs (List.mem_cons.mpr (.inr h)), putAll_cons]

/-- Adding a library to which a package was added is adding the library and then the package. -/
theorem putAll_put (ps : List Package) {xs : List Package} (hkeys : (xs.map (·.key)).Nodup)
    (y : Package) : putAll ps (put xs y) = put (putAll ps xs) y := by
  induction xs generalizing ps with
  | nil => rfl
  | cons x xs ih =>
    obtain ⟨hnot, hkeys⟩ := List.nodup_cons.mp hkeys
    by_cases hkey : x.key = y.key
    · rw [put_cons_of_eq hkey, putAll_cons, putAll_cons, put_joined ps hkey]
      refine putAll_comm (mem_keys_put.mpr (.inl hkey.symm)) ?_
      rw [← hkey]
      exact hnot
    · rw [put_cons_of_ne hkey, putAll_cons, putAll_cons]
      exact ih (put ps x) hkeys

theorem putAll_putAll (ps : List Package) {xs : List Package} (hkeys : (xs.map (·.key)).Nodup)
    (ys : List Package) : putAll ps (putAll xs ys) = putAll (putAll ps xs) ys := by
  induction ys generalizing xs with
  | nil => rfl
  | cons y ys ih =>
    rw [putAll_cons, putAll_cons, ih (nodup_keys_put hkeys y), putAll_put ps hkeys]

/-- A group of packages may be put into a library of its own first. -/
theorem putAll_alone (ps xs : List Package) : putAll ps (putAll [] xs) = putAll ps xs :=
  @putAll_putAll ps [] List.nodup_nil xs

theorem plus_alone (l : Library) (xs : List Package) :
    l.plus (empty.plus xs).packages = l.plus xs :=
  ext_packages (putAll_alone l.packages xs)

/-- Packages may be added one by one, or first be put into a library of their own. -/
theorem addAll_of_own {xs : List Package} {l : Library} (hl : empty.addAll xs = .ok l)
    (shelf : Library) : shelf.addAll xs = shelf.addAll l.packages := by
  rw [addAll_eq, Except.ok.injEq] at hl
  rw [← hl, addAll_eq, addAll_eq, plus_alone]

/-! ## Contents -/

/-- Some package says all that this one says, under its key. -/
def Says (ps : List Package) (x : Package) : Prop :=
  ∃ p ∈ ps, p.key = x.key ∧ x.content.toList <:+: p.content.toList

theorem says_put (ps : List Package) (x : Package) : Says (put ps x) x := by
  induction ps with
  | nil => exact ⟨x, List.mem_singleton_self x, rfl, List.infix_rfl⟩
  | cons p ps ih =>
    rw [put]
    split
    · next hkey =>
      exact ⟨_, List.mem_cons_self, hkey, (Package.within_joinContents p.content x.content).2⟩
    · obtain ⟨q, hq, hsays⟩ := ih
      exact ⟨q, List.mem_cons_of_mem _ hq, hsays⟩

theorem Says.put {ps : List Package} {x : Package} (h : Says ps x) (y : Package) :
    Says (Library.put ps y) x := by
  induction ps with
  | nil =>
    obtain ⟨p, hp, -⟩ := h
    cases hp
  | cons q ps ih =>
    obtain ⟨p, hp, hkey, hcontent⟩ := h
    rw [Library.put]
    split
    · rcases List.mem_cons.mp hp with rfl | hp
      · exact ⟨_, List.mem_cons_self, hkey,
          hcontent.trans (Package.within_joinContents p.content y.content).1⟩
      · exact ⟨p, List.mem_cons_of_mem _ hp, hkey, hcontent⟩
    · rcases List.mem_cons.mp hp with rfl | hp
      · exact ⟨p, List.mem_cons_self, hkey, hcontent⟩
      · obtain ⟨p', hp', hsays⟩ := ih ⟨p, hp, hkey, hcontent⟩
        exact ⟨p', List.mem_cons_of_mem _ hp', hsays⟩

theorem Says.putAll {ps : List Package} {x : Package} (h : Says ps x) (ys : List Package) :
    Says (Library.putAll ps ys) x := by
  induction ys generalizing ps with
  | nil => exact h
  | cons y ys ih => exact ih (h.put y)

theorem says_putAll (ps : List Package) {xs : List Package} {x : Package} (h : x ∈ xs) :
    Says (putAll ps xs) x := by
  induction xs generalizing ps with
  | nil => cases h
  | cons y ys ih =>
    rcases List.mem_cons.mp h with rfl | h
    · exact (says_put ps x).putAll ys
    · exact ih (Library.put ps y) h

/-- What is added is found under its key, perhaps with more before and after it. -/
theorem exists_get?_plus (l : Library) {xs : List Package} {x : Package} (h : x ∈ xs) :
    ∃ p, (l.plus xs).get? x.key = some p ∧ x.content.toList <:+: p.content.toList := by
  obtain ⟨p, hp, hkey, hcontent⟩ := says_putAll l.packages h
  exact ⟨p, get?_eq_some_iff.mpr ⟨hp, hkey⟩, hcontent⟩

end Library
end Unweave

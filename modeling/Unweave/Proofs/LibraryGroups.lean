import Mathlib.Data.List.DropRight
import Mathlib.Data.List.MinMax
import Unweave.Proofs.Merging

/-!
# Libraries group by key

A library to which packages were added holds one package for each key, in the order in which the
keys first came.  Of the packages added under a key, the first gives the kind, the owner and the
dependencies; the contents stand a blank line apart, the using directives are put together, and the
first of the longest declarations stays (`Library.addAll_groups`).

The step is one package more: `Package.Gathers.joined` for its group, `Library.Grouped.put` for the
library.
-/

namespace Unweave

/-! ## Texts -/

namespace Text

theorem dropWhile_dropEnd (cs : List Char) :
    (dropEnd (cs.dropWhile isBlank)).dropWhile isBlank = dropEnd (cs.dropWhile isBlank) := by
  obtain ⟨rest, hrest⟩ := List.rdropWhile_prefix isBlank (cs.dropWhile isBlank)
  change dropEnd (cs.dropWhile isBlank) ++ rest = cs.dropWhile isBlank at hrest
  cases hend : dropEnd (cs.dropWhile isBlank) with
  | nil => rfl
  | cons c ds =>
    -- What is left begins as the text does after its blanks.
    have hhead := List.head?_dropWhile_not isBlank cs
    rw [← hrest, hend] at hhead
    have hc : isBlank c = false := hhead
    exact List.dropWhile_cons_of_neg (by rw [hc]; exact Bool.false_ne_true)

theorem trim_trim (s : String) : trim (trim s) = trim s := by
  have hend : ∀ cs, dropEnd (dropEnd cs) = dropEnd cs := List.rdropWhile_idempotent isBlank
  rw [trim, trim, String.toList_ofList, dropWhile_dropEnd, hend]

/-- Texts a blank line apart, without those that are empty. -/
def paragraphs (ts : List String) : String := "\n\n".intercalate (ts.filter (!·.isEmpty))

theorem isEmpty_paragraphs {ts : List String} (h : ts.filter (!·.isEmpty) ≠ []) :
    (paragraphs ts).isEmpty = false := by
  obtain ⟨t, rest, hts⟩ := List.exists_cons_of_ne_nil h
  have ht : t.isEmpty = false := by
    have hmem : t ∈ ts.filter (!·.isEmpty) := hts ▸ List.mem_cons_self
    simpa using (List.mem_filter.mp hmem).2
  rw [paragraphs, hts]
  cases rest with
  | nil => rwa [String.intercalate_singleton]
  | cons u us =>
    rw [String.intercalate_cons_cons]
    simp

end Text

namespace Package

theorem joinContents_paragraphs (ts : List String) (t : String) :
    joinContents (Text.paragraphs ts) t = Text.paragraphs (ts ++ [t]) := by
  cases ht : t.isEmpty with
  | true =>
    rw [joinContents_of_isEmpty _ ht, Text.paragraphs, Text.paragraphs, List.filter_append]
    simp [ht]
  | false =>
    have hlast : [t].filter (!·.isEmpty) = [t] := by simp [ht]
    by_cases hts : ts.filter (!·.isEmpty) = []
    · have hfirst : Text.paragraphs ts = "" := by
        rw [Text.paragraphs, hts, String.intercalate_nil]
      rw [hfirst, joinContents_empty, Text.paragraphs, List.filter_append, hts, hlast,
        List.nil_append, String.intercalate_singleton]
    · rw [joinContents_of_ne (Text.isEmpty_paragraphs hts) ht, Text.paragraphs, Text.paragraphs,
        List.filter_append, hlast, String.intercalate_append_of_ne_nil hts (List.cons_ne_nil _ _),
        String.intercalate_singleton]

theorem length_le_joinContents (a b : String) :
    a.length ≤ (joinContents a b).length ∧ b.length ≤ (joinContents a b).length := by
  obtain ⟨ha, hb⟩ := within_joinContents a b
  simp only [← String.length_toList]
  exact ⟨ha.length_le, hb.length_le⟩

/-- No text is longer than the paragraphs it stands in. -/
theorem length_le_paragraphs {ts : List String} {t : String} (h : t ∈ ts) :
    t.length ≤ (Text.paragraphs ts).length := by
  induction ts using List.reverseRecOn with
  | nil => cases h
  | append_singleton ts u ih =>
    rw [← joinContents_paragraphs]
    have hle := length_le_joinContents (Text.paragraphs ts) u
    rcases List.mem_append.mp h with h | h
    · exact (ih h).trans hle.1
    · rw [List.mem_singleton.mp h]
      exact hle.2

theorem Constructed.trim_content {p : Package} (h : p.Constructed) :
    Text.trim p.content = p.content := by
  cases h <;> exact Text.trim_trim _

/-! ## One group -/

/-- The package that a group of packages becomes, first to last. -/
structure Gathers (p : Package) (group : List Package) : Prop where
  content : p.content = Text.paragraphs (group.map fun x => Text.trim x.content)
  first : ∃ x, group.head? = some x ∧ p.kind = x.kind ∧ p.owner = x.owner ∧
    p.dependencies = x.dependencies
  usings : ∀ u, u ∈ p.info.usings ↔ ∃ x ∈ group, u ∈ x.info.usings
  /-- The declaration that is longest in bytes, the first of several as long. -/
  declaration :
    p.info.declaration = (group.filterMap (·.info.declaration)).argmax String.utf8ByteSize

theorem Gathers.single {x : Package} (hx : Text.trim x.content = x.content) : x.Gathers [x] where
  content := by
    rw [List.map_singleton, hx, Text.paragraphs]
    cases hempty : x.content.isEmpty with
    | true =>
      rw [List.filter_cons_of_neg (by simp [hempty]), List.filter_nil, String.intercalate_nil]
      exact String.isEmpty_iff.mp hempty
    | false =>
      rw [List.filter_cons_of_pos (by simp [hempty]), List.filter_nil,
        String.intercalate_singleton]
  first := ⟨x, rfl, rfl, rfl, rfl⟩
  usings := fun u => by simp
  declaration := by cases hd : x.info.declaration <;> simp [hd]

theorem mem_usings_joined {p y : Package} {u : String} :
    u ∈ (p.joined y).info.usings ↔ u ∈ p.info.usings ∨ u ∈ y.info.usings := by
  have hjoined : (p.joined y).info.usings =
      ((mergeContainers p.container y.container).map (·.usings.toList)).getD [] := rfl
  rw [hjoined, Package.info, Package.info]
  rcases p.container with _ | a
  · simp [mergeContainers]
  · rcases y.container with _ | b
    · simp [mergeContainers]
    · exact Sorted.mem_union

theorem declaration_joined (p y : Package) :
    (p.joined y).info.declaration =
      (p.info.declaration.elim y.info.declaration fun d =>
        some (y.info.declaration.elim d (longer d))) := by
  have hjoined : (p.joined y).info.declaration =
      (mergeContainers p.container y.container).map (·.declaration) := rfl
  rw [hjoined, Package.info, Package.info]
  rcases p.container with _ | a
  · rfl
  · rcases y.container with _ | b <;> rfl

/-- One more package of the group. -/
theorem Gathers.joined {p y : Package} {group : List Package} (h : p.Gathers group)
    (hy : Text.trim y.content = y.content) : (p.joined y).Gathers (group ++ [y]) where
  content := by
    have hjoined : (p.joined y).content = joinContents p.content y.content := rfl
    rw [hjoined, h.content, joinContents_paragraphs, List.map_append, List.map_singleton, hy]
  first := by
    obtain ⟨x, hx, hfirst⟩ := h.first
    exact ⟨x, by rw [List.head?_append, hx]; rfl, hfirst⟩
  usings := fun u => by
    rw [mem_usings_joined, h.usings]
    simp only [List.mem_append, List.mem_singleton, or_and_right, exists_or, exists_eq_left]
  declaration := by
    rw [declaration_joined, h.declaration, List.filterMap_append]
    cases hd : y.info.declaration with
    | none =>
      rw [List.filterMap_cons_none (f := fun x : Package => x.info.declaration) hd,
        List.filterMap_nil, List.append_nil]
      cases (group.filterMap (·.info.declaration)).argmax String.utf8ByteSize <;> rfl
    | some d =>
      rw [List.filterMap_cons_some (f := fun x : Package => x.info.declaration) hd,
        List.filterMap_nil, List.argmax_concat]
      cases (group.filterMap (·.info.declaration)).argmax String.utf8ByteSize with
      | none => rfl
      | some longest => exact apply_ite some _ _ _

end Package

/-! ## All groups -/

namespace Library

/-- Where a package comes from that is there after one was added. -/
theorem eq_or_joined_of_mem_put {ps : List Package} (hkeys : (ps.map (·.key)).Nodup)
    {y p : Package} (h : p ∈ put ps y) :
    (p ∈ ps ∧ p.key ≠ y.key) ∨ (∃ q ∈ ps, q.key = y.key ∧ p = q.joined y) ∨
      (p = y ∧ y.key ∉ ps.map (·.key)) := by
  induction ps with
  | nil => exact .inr (.inr ⟨List.mem_singleton.mp h, List.not_mem_nil⟩)
  | cons q ps ih =>
    obtain ⟨hq, hkeys⟩ := List.nodup_cons.mp hkeys
    by_cases hkey : q.key = y.key
    · rw [put_cons_of_eq hkey] at h
      rcases List.mem_cons.mp h with rfl | hp
      · exact .inr (.inl ⟨q, List.mem_cons_self, hkey, rfl⟩)
      · refine .inl ⟨List.mem_cons_of_mem _ hp, fun heq => hq ?_⟩
        exact List.mem_map.mpr ⟨p, hp, heq.trans hkey.symm⟩
    · rw [put_cons_of_ne hkey] at h
      rcases List.mem_cons.mp h with rfl | hp
      · exact .inl ⟨List.mem_cons_self, hkey⟩
      · rcases ih hkeys hp with ⟨hmem, hne⟩ | ⟨r, hr, hjoined⟩ | ⟨heq, hnew⟩
        · exact .inl ⟨List.mem_cons_of_mem _ hmem, hne⟩
        · exact .inr (.inl ⟨r, List.mem_cons_of_mem _ hr, hjoined⟩)
        · refine .inr (.inr ⟨heq, fun hmem => ?_⟩)
          exact (List.mem_cons.mp hmem).elim (fun h => hkey h.symm) hnew

theorem eraseDups_concat (ks : List String) (k : String) :
    (ks ++ [k]).eraseDups = if k ∈ ks then ks.eraseDups else ks.eraseDups ++ [k] := by
  rw [List.eraseDups_append]
  by_cases hk : k ∈ ks
  · simp [List.removeAll, hk]
  · simp [List.removeAll, hk, List.eraseDups_cons]

/-- The packages `xs` in their groups. -/
structure Grouped (xs ps : List Package) : Prop where
  keys : ps.map (·.key) = (xs.map (·.key)).eraseDups
  nodup : (ps.map (·.key)).Nodup
  gathers : ∀ p ∈ ps, p.Gathers (xs.filter (·.key == p.key))

theorem Grouped.mem_keys {xs ps : List Package} (h : Grouped xs ps) {key : String} :
    key ∈ ps.map (·.key) ↔ key ∈ xs.map (·.key) := by
  rw [h.keys, List.mem_eraseDups]

theorem Grouped.put {xs ps : List Package} (h : Grouped xs ps) {y : Package}
    (hy : Text.trim y.content = y.content) : Grouped (xs ++ [y]) (put ps y) where
  keys := by
    rw [keys_put, List.map_append, List.map_singleton, eraseDups_concat, h.keys]
    simp only [List.mem_eraseDups]
  nodup := nodup_keys_put h.nodup y
  gathers := fun p hp => by
    rw [List.filter_append]
    rcases eq_or_joined_of_mem_put h.nodup hp with ⟨hmem, hne⟩ | ⟨q, hq, hkey, rfl⟩ | ⟨rfl, hnew⟩
    · -- Another group.
      have hout : [y].filter (·.key == p.key) = [] := by simpa using hne.symm
      rw [hout, List.append_nil]
      exact h.gathers p hmem
    · -- The group that `y` joins.
      have hin : [y].filter (·.key == (q.joined y).key) = [y] := by
        have heq : (q.joined y).key = y.key := hkey
        rw [heq]
        simp
      rw [hin]
      exact (h.gathers q hq).joined hy
    · -- A new group.
      have hin : [p].filter (·.key == p.key) = [p] := by simp
      have hnone : xs.filter (·.key == p.key) = [] := by
        refine List.filter_eq_nil_iff.mpr fun x hx hkey => hnew (h.mem_keys.mpr ?_)
        exact List.mem_map.mpr ⟨x, hx, eq_of_beq hkey⟩
      rw [hin, hnone, List.nil_append]
      exact .single hy

theorem grouped_putAll {xs : List Package} (h : ∀ x ∈ xs, Text.trim x.content = x.content) :
    Grouped xs (putAll [] xs) := by
  induction xs using List.reverseRecOn with
  | nil => exact ⟨rfl, List.nodup_nil, nofun⟩
  | append_singleton xs y ih =>
    obtain ⟨hxs, hy⟩ := List.forall_mem_append.mp h
    rw [putAll_append]
    exact (ih hxs).put (hy y List.mem_cons_self)

theorem exists_grouped {xs : List Package} (h : ∀ x ∈ xs, x.Constructed) :
    ∃ l, empty.addAll xs = .ok l ∧ Grouped xs l.packages :=
  ⟨empty.plus xs, addAll_eq empty xs, grouped_putAll fun x hx => (h x hx).trim_content⟩

/-- Adding never fails, and groups by key. -/
theorem addAll_groups {xs : List Package} (h : ∀ x ∈ xs, x.Constructed) :
    ∃ l, empty.addAll xs = .ok l ∧
      l.keys.Nodup ∧ l.keys = (xs.map (·.key)).eraseDups ∧
      (∀ key p, l.get? key = some p ↔ p ∈ l.packages ∧ p.key = key) ∧
      (∀ key, key ∉ xs.map (·.key) → l.get? key = none) ∧
      ∀ p ∈ l.packages, p.Gathers (xs.filter (·.key == p.key)) := by
  obtain ⟨l, hadd, hgrouped⟩ := exists_grouped h
  refine ⟨l, hadd, hgrouped.nodup, hgrouped.keys, fun _ _ => get?_eq_some_iff, ?_,
    hgrouped.gathers⟩
  · intro key hkey
    cases hget : l.get? key with
    | none => rfl
    | some p =>
      obtain ⟨hp, rfl⟩ := get?_eq_some_iff.mp hget
      exact absurd (hgrouped.mem_keys.mp (List.mem_map_of_mem hp)) hkey

/-- Two keys; under the first one, an empty content and two declarations as long as each other. -/
def shelf : List Package :=
  [.memberContainer ⟨.classKind, "Demo.A", 0, "class A", Text.sortedSet ["System"]⟩ " int X; ",
    .extensionMethods "static void Run() {}" .empty,
    .memberContainer
      ⟨.classKind, "Demo.A", 0, "class A : B", Text.sortedSet ["System", "System.IO"]⟩ "  ",
    .memberContainer ⟨.classKind, "Demo.A", 0, "class A : C", Text.sortedSet ["Lib"]⟩ "int Y;\n"]

theorem addAll_groups_shelf :
    (∀ x ∈ shelf, x.Constructed) ∧
      ∃ l, empty.addAll shelf = .ok l ∧
        l.keys = ["MemberContainer Class Demo.A`0", "ExtensionMethods"] ∧
        ∃ p, l.get? "MemberContainer Class Demo.A`0" = some p ∧ p.content = "int X;\n\nint Y;" ∧
          p.info.declaration = some "class A : B" ∧ "Lib" ∈ p.info.usings := by
  have hconstructed : ∀ x ∈ shelf, x.Constructed := by
    simp only [shelf, List.forall_mem_cons]
    exact ⟨.memberContainer _ _, .extensionMethods _ _, .memberContainer _ _, .memberContainer _ _,
      nofun⟩
  obtain ⟨l, hadd, -, hkeys, hget, -, hgathers⟩ := addAll_groups hconstructed
  have hall : l.keys = ["MemberContainer Class Demo.A`0", "ExtensionMethods"] := by
    rw [hkeys]
    decide +kernel
  have hmem : "MemberContainer Class Demo.A`0" ∈ l.keys := by
    rw [hall]
    exact List.mem_cons_self
  obtain ⟨p, hp, hkey⟩ := List.mem_map.mp hmem
  have hgroup := hgathers p hp
  rw [hkey] at hgroup
  refine ⟨hconstructed, l, hadd, hall, p, (hget _ p).mpr ⟨hp, hkey⟩, ?_, ?_, ?_⟩
  · rw [hgroup.content]
    decide +kernel
  · rw [hgroup.declaration]
    decide +kernel
  · rw [hgroup.usings]
    decide +kernel

end Library
end Unweave

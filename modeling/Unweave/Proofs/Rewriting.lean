import Unweave.Disk.Basic
import Unweave.Proofs.Jobs

/-!
# Rewriting a file

A path that leads to a file leads to it after its content was replaced, and the text that was
written is the text that is then read.  Walking a path asks of each place only whether a directory
is there, so it does not see what a file holds.
-/

namespace Unweave
namespace Disk

theorem lookup_putEntry (l k : Location) (e : DiskEntry) (entries : List (Location × DiskEntry)) :
    (putEntry l e entries).lookup k = if k = l then some e else entries.lookup k := by
  induction entries with
  | nil =>
    by_cases hk : k = l
    · simp [putEntry, hk]
    · simp [putEntry, List.lookup_cons, beq_eq_false_iff_ne.2 hk, hk]
  | cons entry entries ih =>
    obtain ⟨m, x⟩ := entry
    by_cases hm : m = l
    · rw [putEntry, if_pos hm, List.lookup_cons, List.lookup_cons, hm]
      by_cases hk : k = l
      · simp [hk]
      · simp [beq_eq_false_iff_ne.2 hk, hk]
    · rw [putEntry, if_neg hm, List.lookup_cons, List.lookup_cons, ih]
      by_cases hk : k = m
      · simp [hk, hm]
      · simp [beq_eq_false_iff_ne.2 hk]

theorem at?_put {l : Location} (hl : l ≠ []) (d : Disk) (e : DiskEntry) (k : Location) :
    (d.put l e).at? k = if k = l then some e else d.at? k := by
  cases k with
  | nil => rw [if_neg (Ne.symm hl)]; rfl
  | cons name k =>
    show (putEntry l e d.entries).lookup (name :: k) = _
    rw [lookup_putEntry]
    rfl

section Replacing

variable {d : Disk} {l : Location} {old : ByteArray} (hat : d.at? l = some (.file old))
  (content : ByteArray)
include hat

theorem ne_nil_of_at?_file : l ≠ [] := by
  rintro rfl
  cases hat

theorem walk_put (k : Location) (parts : List String) :
    (d.put l (.file content)).walk k parts = d.walk k parts := by
  have hput := at?_put (ne_nil_of_at?_file hat) d (.file content)
  induction parts generalizing k with
  | nil => rfl
  | cons part parts ih =>
    rw [walk, walk, hput k]
    by_cases hk : k = l
    · rw [if_pos hk, hk, hat]
    · rw [if_neg hk]
      simp only [ih]

theorem locate_put (path : String) : (d.put l (.file content)).locate path = d.locate path := by
  simp only [locate]
  rw [walk_put hat]
  rfl

end Replacing

/-- A path is found if it can be one and the walk along it succeeds. -/
theorem locate_eq_ok_iff (d : Disk) (path : String) (t : Target) :
    d.locate path = .ok t ↔
      (path.isEmpty = false ∧ path.toList.contains (Char.ofNat 0) = false ∧
        ¬ path.utf8ByteSize ≥ 4096) ∧
      d.walk (if Path.isAbsolute path then [] else d.here) ((Path.parts path).filter (· != "")) =
        .ok t.location ∧
      t.asDirectory = (path.toList.getLast? == some '/') := by
  simp only [locate]
  split
  · next hempty =>
    refine ⟨fun h => (by cases h), fun h => ?_⟩
    cases h.1.1.symm.trans hempty
  split
  · next hzero =>
    refine ⟨fun h => (by cases h), fun h => ?_⟩
    cases h.1.2.1.symm.trans hzero
  split
  · next hlong => exact ⟨fun h => (by cases h), fun h => absurd hlong h.1.2.2⟩
  · next hempty hzero hlong =>
    rw [and_iff_right ⟨Bool.eq_false_iff.mpr hempty, Bool.eq_false_iff.mpr hzero, hlong⟩]
    cases d.walk (if Path.isAbsolute path then [] else d.here)
      ((Path.parts path).filter (· != "")) with
    | error e => exact ⟨fun h => (by cases h), fun h => (by cases h.1)⟩
    | ok l =>
      obtain ⟨location, asDirectory⟩ := t
      simp only [Except.map, Except.ok.injEq, Target.mk.injEq]
      exact and_congr_right fun _ => eq_comm

theorem asDirectory_of_locate {d : Disk} {path : String} {t : Target} (h : d.locate path = .ok t) :
    t.asDirectory = (path.toList.getLast? == some '/') := ((locate_eq_ok_iff d path t).mp h).2.2

section Files

variable {d : Disk} {path : String} {l : Location} {old : ByteArray}

theorem locate_of_find (h : d.find path = .ok (l, .file old)) :
    d.locate path = .ok ⟨l, false⟩ ∧ d.at? l = some (.file old) := by
  obtain ⟨⟨k, slash⟩, hlocate, h⟩ := (exceptBind_eq_ok_iff _ _ _).mp h
  split at h
  · cases h
  · cases h
  · next e _ hat =>
    cases slash with
    | true => cases h
    | false =>
      cases h
      exact ⟨hlocate, hat⟩

theorem find_of_locate (hlocate : d.locate path = .ok ⟨l, false⟩)
    (hat : d.at? l = some (.file old)) : d.find path = .ok (l, .file old) := by
  rw [find, hlocate]
  simp only [bind, Except.bind, hat]
  rfl

theorem readText_of_find {text : String} (h : d.find path = .ok (l, .file text.toUTF8)) :
    d.readText path = .ok text := by
  have hbytes : d.readBytes path = .ok text.toUTF8 := by
    rw [readBytes, h]
    rfl
  have htext : String.fromUTF8? text.toUTF8 = some text := dif_pos text.isValidUTF8
  rw [readText, hbytes]
  simp only [bind, Except.bind, htext]

variable (hfind : d.find path = .ok (l, .file old))
include hfind

theorem find_put (content : ByteArray) :
    (d.put l (.file content)).find path = .ok (l, .file content) := by
  obtain ⟨hlocate, hat⟩ := locate_of_find hfind
  refine find_of_locate ?_ ?_
  · rw [locate_put hat, hlocate]
  · rw [at?_put (ne_nil_of_at?_file hat), if_pos rfl]

theorem writeText_eq_put (text : String) :
    d.writeText path text = .ok (d.put l (.file text.toUTF8)) := by
  obtain ⟨hlocate, hat⟩ := locate_of_find hfind
  have hslash : (path.toList.getLast? == some '/') = false := (asDirectory_of_locate hlocate).symm
  have hplace : d.locateFile path = .ok l := by
    rw [locateFile, hslash, hlocate]
    rfl
  rw [writeText, writeBytes, hplace]
  simp only [bind, Except.bind, hat]

/-- The text of a file can be replaced, and is then what was written. -/
theorem exists_writeText (text : String) :
    ∃ d', d.writeText path text = .ok d' ∧ d'.readText path = .ok text :=
  ⟨_, writeText_eq_put hfind text, readText_of_find (find_put hfind _)⟩

end Files

end Disk
end Unweave

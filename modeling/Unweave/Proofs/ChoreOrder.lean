import Unweave.Proofs.CleanSolutions

/-!
# Clean-ups in any order

The three clean-ups touch different parts of a document, so any two of them can change places, and
each finds nothing to do where it has been.  A list of clean-ups is then as good as the set of those
that occur in it: neither their order nor repetitions matter.

Changing places needs no condition on identifiers.  Doing the using directives a second time does:
if a directive shares its identifier with a declaration, that goes as well and may leave more
directives needless.
-/

namespace Unweave

/-! ## Types and erasing -/

namespace Member

variable {f : TypeHead → TypeHead} (hf : ∀ h, (f h).id = h.id)
include hf

theorem id_mapTopTypes (m : Member) : (mapTopTypes f m).id = m.id := by
  cases m with
  | block head inner => rfl
  | type head inner => exact hf head
  | leaf l => rfl

theorem mapTopTypesAll_eraseAll_cons {gone : NodeId → Bool} {m : Member} {ms : List Member}
    (hm : mapTopTypes f (eraseInside gone m) = eraseInside gone (mapTopTypes f m))
    (hms : mapTopTypesAll f (eraseAll gone ms) = eraseAll gone (mapTopTypesAll f ms)) :
    mapTopTypesAll f (eraseAll gone (m :: ms)) = eraseAll gone (mapTopTypesAll f (m :: ms)) := by
  rw [mapTopTypesAll, eraseAll, eraseAll, id_mapTopTypes hf]
  split
  · exact hms
  · rw [mapTopTypesAll, hm, hms]

theorem mapTopTypesAll_eraseAll (gone : NodeId → Bool) (ms : List Member) :
    mapTopTypesAll f (eraseAll gone ms) = eraseAll gone (mapTopTypesAll f ms) := by
  induction ms using listInduction with
  | nil => rfl
  | block head inner ms ihInner ih =>
    refine mapTopTypesAll_eraseAll_cons hf ?_ ih
    rw [eraseInside, mapTopTypes, mapTopTypes, eraseInside, ihInner]
  | type head inner ms _ ih => exact mapTopTypesAll_eraseAll_cons hf rfl ih
  | leaf l ms ih => exact mapTopTypesAll_eraseAll_cons hf rfl ih

end Member

namespace CleanUp

theorem id_makePartial (h : TypeHead) : (makePartial h).id = h.id := by
  rw [makePartial]
  split <;> rfl

theorem makePartial_makePartial (h : TypeHead) : makePartial (makePartial h) = makePartial h :=
  if_pos (isPartial_makePartial h)

end CleanUp

/-! ## Two clean-ups -/

namespace Chore

variable (d : Document)

theorem partials_regions : partials.edit (regions.edit d) = regions.edit (partials.edit d) := by
  simp only [edit, Root.mapTopTypes, Root.keepTrivia,
    Member.keepTriviaAll_mapTopTypesAll (CleanUp.makePartial_keepTrivia _)]

/-- Where the same directives are reported, the same ones go. -/
theorem usings_edit_of_reports {d e : Document}
    (h : Check.needlessUsings e = Check.needlessUsings d) :
    usings.edit e = e.erase (CleanUp.needless (Check.needlessUsings d)).contains := by
  rw [← h]
  rfl

theorem partials_usings : partials.edit (usings.edit d) = usings.edit (partials.edit d) := by
  have hreports : Check.needlessUsings (partials.edit d) = Check.needlessUsings d :=
    CleanUp.needlessUsings_mapTopTypes d CleanUp.bare_makePartial
  rw [usings_edit_of_reports hreports]
  simp only [edit, Document.erase, Root.erase, Root.mapTopTypes,
    Member.mapTopTypesAll_eraseAll CleanUp.id_makePartial]

theorem regions_usings : regions.edit (usings.edit d) = usings.edit (regions.edit d) := by
  have hreports : Check.needlessUsings (regions.edit d) = Check.needlessUsings d :=
    CleanUp.needlessUsings_keepTrivia d _
  rw [usings_edit_of_reports hreports]
  simp only [edit, Document.erase, Root.keepTrivia_erase]

theorem edit_comm (c c' : Chore) : c.edit (c'.edit d) = c'.edit (c.edit d) := by
  cases c <;> cases c'
  case partials.regions => exact partials_regions d
  case regions.partials => exact (partials_regions d).symm
  case partials.usings => exact partials_usings d
  case usings.partials => exact (partials_usings d).symm
  case regions.usings => exact regions_usings d
  case usings.regions => exact (regions_usings d).symm
  all_goals rfl

variable {d}

/-- A clean-up finds nothing to do where it has been. -/
theorem edit_edit (c : Chore) (hd : d.root.nodeIds.Nodup) : c.edit (c.edit d) = c.edit d := by
  cases c with
  | partials =>
    have htwice : CleanUp.makePartial ∘ CleanUp.makePartial = CleanUp.makePartial :=
      funext CleanUp.makePartial_makePartial
    simp only [edit, Root.mapTopTypes, Member.mapTopTypesAll_mapTopTypesAll, htwice]
  | regions => simp only [edit, Root.keepTrivia_keepTrivia]
  | usings =>
    have hnone : Check.needlessUsings (usings.edit d) = [] :=
      CleanUp.needlessUsings_erase_needless hd
    rw [edit, hnone]
    exact Document.erase_nothing _

theorem nodup_edit (c : Chore) (hd : d.root.nodeIds.Nodup) : (c.edit d).root.nodeIds.Nodup :=
  hd.sublist (c.tidied_edit hd).nodeIds_sublist

/-! ## Lists of clean-ups -/

theorem editAll_edit (cs : List Chore) (c : Chore) (d : Document) :
    editAll cs (c.edit d) = c.edit (editAll cs d) := by
  induction cs generalizing d with
  | nil => rfl
  | cons c' cs ih => rw [editAll_cons, edit_comm, ih, editAll_cons]

theorem editAll_comm (cs cs' : List Chore) (d : Document) :
    editAll cs (editAll cs' d) = editAll cs' (editAll cs d) := by
  induction cs' generalizing d with
  | nil => rfl
  | cons c cs' ih => rw [editAll_cons, ih, editAll_edit, editAll_cons]

/-- A clean-up that is yet to come need not be done first. -/
theorem editAll_edit_of_mem {c : Chore} {cs : List Chore} (hc : c ∈ cs)
    (hd : d.root.nodeIds.Nodup) : editAll cs (c.edit d) = editAll cs d := by
  induction cs generalizing d with
  | nil => cases hc
  | cons c' cs ih =>
    rw [editAll_cons, editAll_cons]
    -- The clean-up moves on past those before it until it meets its like.
    rcases List.mem_cons.mp hc with rfl | hc
    · rw [c.edit_edit hd]
    · rw [edit_comm, ih hc (c'.nodup_edit hd)]

theorem editAll_editAll_of_subset {cs cs' : List Chore} (h : cs' ⊆ cs)
    (hd : d.root.nodeIds.Nodup) : editAll cs (editAll cs' d) = editAll cs d := by
  induction cs' generalizing d with
  | nil => rfl
  | cons c cs' ih =>
    obtain ⟨hc, hcs'⟩ := List.cons_subset.mp h
    rw [editAll_cons, ih hcs' (c.nodup_edit hd), editAll_edit_of_mem hc hd]

/-- What comes out depends on which clean-ups are done only. -/
theorem editAll_congr {cs cs' : List Chore} (h : ∀ c, c ∈ cs ↔ c ∈ cs')
    (hd : d.root.nodeIds.Nodup) : editAll cs d = editAll cs' d :=
  calc editAll cs d
    _ = editAll cs (editAll cs' d) :=
      (editAll_editAll_of_subset (fun c hc => (h c).mpr hc) hd).symm
    _ = editAll cs' (editAll cs d) := editAll_comm cs cs' d
    _ = editAll cs' d := editAll_editAll_of_subset (fun c hc => (h c).mp hc) hd

theorem foldlM_apply (project : Document → Project) (cs : List Chore) (d : Document) :
    (cs.map Chore.cleanUp).foldlM (fun d c => c.apply (project d) d) d = .ok (editAll cs d) := by
  induction cs generalizing d with
  | nil => rfl
  | cons c cs ih =>
    rw [List.map_cons, List.foldlM_cons, apply_cleanUp]
    exact ih (c.edit d)

/-- Two lists of clean-ups in which the same ones occur both succeed and make the same document,
whatever project the document is part of on the way. -/
theorem order_immaterial (project : Document → Project) (d : Document)
    (hd : d.root.nodeIds.Nodup) (cs cs' : List Chore) (h : ∀ c, c ∈ cs ↔ c ∈ cs') :
    ∃ e, (cs.map Chore.cleanUp).foldlM (fun d c => c.apply (project d) d) d = .ok e ∧
      (cs'.map Chore.cleanUp).foldlM (fun d c => c.apply (project d) d) d = .ok e := by
  refine ⟨editAll cs d, foldlM_apply project cs d, ?_⟩
  rw [editAll_congr h hd]
  exact foldlM_apply project cs' d

theorem order_immaterial_bench :
    let d := workshop.bench 1 "Bench.cs" .regular
    let project := fun d : Document =>
      ({ id := ⟨1⟩, name := "Workshop", assembly := "Workshop", documents := [d] } : Project)
    d.root.nodeIds.Nodup ∧
    (∀ c, c ∈ [usings, partials, regions] ↔ c ∈ [regions, usings, regions, partials, usings]) ∧
    ∃ e, ([usings, partials, regions].map Chore.cleanUp).foldlM
        (fun d c => c.apply (project d) d) d = .ok e ∧
      ([regions, usings, regions, partials, usings].map Chore.cleanUp).foldlM
        (fun d c => c.apply (project d) d) d = .ok e ∧
      Layout.root {} e.root =
        "using S = Saws;\n\nnamespace Bench1\n\x7b\n    // holds\n" ++
          "    public partial class Vise\n    \x7b\n        struct Jaw\n        \x7b\n" ++
          "        \x7d\n    \x7d\n    // end\n\x7d\n" := by
  intro d project
  have hd : d.root.nodeIds.Nodup := by decide +kernel
  have hsame : ∀ c, c ∈ [usings, partials, regions] ↔
      c ∈ [regions, usings, regions, partials, usings] := by
    intro c
    cases c <;> decide
  obtain ⟨e, he, he'⟩ := order_immaterial project d hd _ _ hsame
  obtain rfl : editAll [usings, partials, regions] d = e :=
    Except.ok.inj ((foldlM_apply project _ d).symm.trans he)
  exact ⟨hd, hsame, _, he, he', by decide +kernel⟩

end Chore
end Unweave

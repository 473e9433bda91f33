import Mathlib.Data.List.Flatten
import Unweave.Proofs.Acceptance

/-!
# What the clean-ups do to a document

Each of the three clean-ups brings one condition about: every top-level type is partial, no region
directive is left, no using directive is needless.  None of them undoes what another one did, so
after any number of them, in any order, the conditions of all that were run hold.

What they keep is the core of the tree: all of it but using directives, region directives and the
word that makes a top-level type partial.
-/

namespace Unweave

/-! ## Trivia -/

theorem flatMap_leading_keepTrivia (keep : Trivia → Bool) (us : List Using) :
    (us.map (·.keepTrivia keep)).flatMap (·.leading) = (us.flatMap (·.leading)).filter keep := by
  rw [List.flatMap_map, List.filter_flatMap]
  rfl

namespace Member

/-- All trivia of the members, at whichever place it stands. -/
def triviaAll (ms : List Member) : List Trivia :=
  gatherAll ⟨fun h => h.leading ++ h.usings.flatMap (·.leading) ++ h.closing,
    fun h => h.leading ++ h.closing, fun l => l.leading⟩ ms

theorem triviaAll_keepTriviaAll (keep : Trivia → Bool) (ms : List Member) :
    triviaAll (keepTriviaAll keep ms) = (triviaAll ms).filter keep := by
  unfold triviaAll
  induction ms using listInduction with
  | nil => rfl
  | block head inner ms ihInner ih =>
    simp only [keepTriviaAll, Member.keepTrivia, gatherAll, gather, ihInner, ih,
      flatMap_leading_keepTrivia, List.filter_append]
  | type head inner ms ihInner ih =>
    simp only [keepTriviaAll, Member.keepTrivia, gatherAll, gather, ihInner, ih,
      List.filter_append]
  | leaf l ms ih =>
    simp only [keepTriviaAll, Member.keepTrivia, gatherAll, gather, ih, List.filter_append]

theorem triviaAll_eraseAll_sublist (gone : NodeId → Bool) (ms : List Member) :
    (triviaAll (eraseAll gone ms)).Sublist (triviaAll ms) := by
  refine gatherAll_eraseAll_sublist _ gone (fun h => ?_) ms
  have husings : ((eraseUsings gone h.usings).flatMap (·.leading)).Sublist
      (h.usings.flatMap (·.leading)) := List.filter_sublist.flatMap _
  exact ((List.Sublist.refl h.leading).append husings).append (List.Sublist.refl h.closing)

end Member

namespace Root

/-- All trivia of the tree. -/
def trivia (r : Root) : List Trivia :=
  r.usings.flatMap (·.leading) ++ Member.triviaAll r.members ++ r.ending

theorem trivia_keepTrivia (r : Root) (keep : Trivia → Bool) :
    (r.keepTrivia keep).trivia = r.trivia.filter keep := by
  rw [trivia, trivia, List.filter_append, List.filter_append, ← Member.triviaAll_keepTriviaAll,
    ← flatMap_leading_keepTrivia]
  rfl

theorem trivia_erase_sublist (r : Root) (gone : NodeId → Bool) :
    (r.erase gone).trivia.Sublist r.trivia := by
  have husings : ((eraseUsings gone r.usings).flatMap (·.leading)).Sublist
      (r.usings.flatMap (·.leading)) := List.filter_sublist.flatMap _
  exact (husings.append (Member.triviaAll_eraseAll_sublist gone r.members)).append
    (List.Sublist.refl r.ending)

theorem trivia_mapTopTypes {f : TypeHead → TypeHead}
    (hf : ∀ h, (f h).leading = h.leading ∧ (f h).closing = h.closing) (r : Root) :
    (r.mapTopTypes f).trivia = r.trivia := by
  have hmembers : Member.triviaAll (Member.mapTopTypesAll f r.members) =
      Member.triviaAll r.members := by
    refine Member.gatherAll_mapTopTypesAll _ f (fun h => ?_) r.members
    show (f h).leading ++ (f h).closing = h.leading ++ h.closing
    rw [(hf h).1, (hf h).2]
  show r.usings.flatMap (·.leading) ++ Member.triviaAll (Member.mapTopTypesAll f r.members) ++ _ = _
  rw [hmembers]
  rfl

end Root

/-! ## Top-level types -/

namespace Member

theorem topTypesAll_mapTopTypesAll (f : TypeHead → TypeHead) (ms : List Member) :
    topTypesAll (mapTopTypesAll f ms) = (topTypesAll ms).map f := by
  induction ms using listInduction with
  | nil => rfl
  | block head inner ms ihInner ih =>
    rw [mapTopTypesAll, mapTopTypes, topTypesAll, topTypes, ihInner, ih, topTypesAll, topTypes,
      List.map_append]
  | type head inner ms _ ih =>
    rw [mapTopTypesAll, mapTopTypes, topTypesAll, topTypes, ih, topTypesAll, topTypes,
      List.map_append, List.map_singleton]
  | leaf l ms ih =>
    rw [mapTopTypesAll, mapTopTypes, topTypesAll, topTypes, ih, topTypesAll, topTypes,
      List.map_append, List.map_nil]

theorem topTypesAll_keepTriviaAll (keep : Trivia → Bool) (ms : List Member) :
    topTypesAll (keepTriviaAll keep ms) = (topTypesAll ms).map fun h =>
      { h with leading := h.leading.filter keep, closing := h.closing.filter keep } := by
  induction ms using listInduction with
  | nil => rfl
  | block head inner ms ihInner ih =>
    rw [keepTriviaAll, Member.keepTrivia, topTypesAll, topTypes, ihInner, ih, topTypesAll, topTypes,
      List.map_append]
  | type head inner ms _ ih =>
    rw [keepTriviaAll, Member.keepTrivia, topTypesAll, topTypes, ih, topTypesAll, topTypes,
      List.map_append, List.map_singleton]
  | leaf l ms ih =>
    rw [keepTriviaAll, Member.keepTrivia, topTypesAll, topTypes, ih, topTypesAll, topTypes,
      List.map_append, List.map_nil]

theorem topTypesAll_eraseAll_sublist (gone : NodeId → Bool) (ms : List Member) :
    (topTypesAll (eraseAll gone ms)).Sublist (topTypesAll ms) := by
  induction ms using eraseInduction gone with
  | nil => exact List.Sublist.refl _
  | drop m ms hg ih =>
    rw [eraseAll_cons_of_gone hg]
    exact ih.trans (List.sublist_append_right _ _)
  | block head inner ms hg ihInner ih =>
    rw [eraseAll_cons_of_kept hg]
    exact ihInner.append ih
  | type head inner ms hg _ ih =>
    rw [eraseAll_cons_of_kept hg]
    exact (List.Sublist.refl [head]).append ih
  | leaf l ms hg ih =>
    rw [eraseAll_cons_of_kept hg]
    exact ih

end Member

/-! ## Needless using directives -/

namespace CleanUp

section Usings

variable (used : List String) (document : String) (seen : List UsingKey)

theorem usingsOf_keepTrivia (keep : Trivia → Bool) (us : List Using) :
    Check.usingsOf used document seen (us.map (·.keepTrivia keep)) =
      Check.usingsOf used document seen us := by
  induction us generalizing seen with
  | nil => rfl
  | cons u us ih =>
    rw [List.map_cons, Check.usingsOf, Check.usingsOf]
    show (if seen.contains u.key then
        _ :: Check.usingsOf used document (u.key :: seen) (us.map (·.keepTrivia keep))
      else if u.isImport && !used.contains u.name then
        _ :: Check.usingsOf used document (u.key :: seen) (us.map (·.keepTrivia keep))
      else Check.usingsOf used document (u.key :: seen) (us.map (·.keepTrivia keep))) = _
    rw [ih]
    rfl

theorem keys_keepTrivia (keep : Trivia → Bool) (us : List Using) :
    (us.map (·.keepTrivia keep)).map Using.key = us.map Using.key := by
  rw [List.map_map]
  rfl

theorem blockUsingsAll_keepTriviaAll (keep : Trivia → Bool) (ms : List Member) :
    Check.blockUsingsAll used document seen (Member.keepTriviaAll keep ms) =
      Check.blockUsingsAll used document seen ms := by
  induction ms using Member.listInduction generalizing seen with
  | nil => rfl
  | block head inner ms ihInner ih =>
    rw [Member.keepTriviaAll, Member.keepTrivia, Check.blockUsingsAll, Check.blockUsings,
      usingsOf_keepTrivia, keys_keepTrivia, ihInner, ih, Check.blockUsingsAll, Check.blockUsings]
  | type head inner ms _ ih => exact ih seen
  | leaf l ms ih => exact ih seen

theorem blockUsingsAll_mapTopTypesAll (f : TypeHead → TypeHead) (ms : List Member) :
    Check.blockUsingsAll used document seen (Member.mapTopTypesAll f ms) =
      Check.blockUsingsAll used document seen ms := by
  induction ms using Member.listInduction generalizing seen with
  | nil => rfl
  | block head inner ms ihInner ih =>
    rw [Member.mapTopTypesAll, Member.mapTopTypes, Check.blockUsingsAll, Check.blockUsings,
      ihInner, ih, Check.blockUsingsAll, Check.blockUsings]
  | type head inner ms _ ih => exact ih seen
  | leaf l ms ih => exact ih seen

end Usings

theorem needlessUsings_keepTrivia (d : Document) (keep : Trivia → Bool) :
    Check.needlessUsings { d with root := d.root.keepTrivia keep } = Check.needlessUsings d := by
  have hused : (d.root.keepTrivia keep).usedNamespaces = d.root.usedNamespaces :=
    usedNamespaces_eq_of_bareAll (Member.bareAll_keepTriviaAll keep d.root.members)
  show Check.usingsOf (d.root.keepTrivia keep).usedNamespaces d.name []
      (d.root.usings.map (·.keepTrivia keep)) ++
    Check.blockUsingsAll (d.root.keepTrivia keep).usedNamespaces d.name
      ((d.root.usings.map (·.keepTrivia keep)).map Using.key)
      (Member.keepTriviaAll keep d.root.members) = _
  rw [hused, usingsOf_keepTrivia, keys_keepTrivia, blockUsingsAll_keepTriviaAll]
  rfl

theorem needlessUsings_mapTopTypes (d : Document) {f : TypeHead → TypeHead}
    (hf : ∀ h, (f h).bare = h.bare) :
    Check.needlessUsings { d with root := d.root.mapTopTypes f } = Check.needlessUsings d := by
  have hused : (d.root.mapTopTypes f).usedNamespaces = d.root.usedNamespaces :=
    usedNamespaces_eq_of_bareAll (Member.bareAll_mapTopTypesAll hf d.root.members)
  show Check.usingsOf (d.root.mapTopTypes f).usedNamespaces d.name [] d.root.usings ++
    Check.blockUsingsAll (d.root.mapTopTypes f).usedNamespaces d.name
      (d.root.usings.map Using.key) (Member.mapTopTypesAll f d.root.members) = _
  rw [hused, blockUsingsAll_mapTopTypesAll]
  rfl

end CleanUp

/-! ## The core of a tree -/

namespace Member

mutual

def withoutUsings : Member → Member
  | block head members => block { head with usings := [] } (withoutUsingsAll members)
  | type head members => type head (withoutUsingsAll members)
  | leaf l => leaf l

def withoutUsingsAll : List Member → List Member
  | [] => []
  | m :: ms => withoutUsings m :: withoutUsingsAll ms

end

theorem withoutUsingsAll_keepTriviaAll (keep : Trivia → Bool) (ms : List Member) :
    withoutUsingsAll (keepTriviaAll keep ms) = keepTriviaAll keep (withoutUsingsAll ms) := by
  induction ms using listInduction with
  | nil => rfl
  | block head inner ms ihInner ih =>
    simp only [keepTriviaAll, Member.keepTrivia, withoutUsingsAll, withoutUsings, ihInner, ih,
      List.map_nil]
  | type head inner ms ihInner ih =>
    simp only [keepTriviaAll, Member.keepTrivia, withoutUsingsAll, withoutUsings, ihInner, ih]
  | leaf l ms ih =>
    simp only [keepTriviaAll, Member.keepTrivia, withoutUsingsAll, withoutUsings, ih]

theorem withoutUsingsAll_mapTopTypesAll (f : TypeHead → TypeHead) (ms : List Member) :
    withoutUsingsAll (mapTopTypesAll f ms) = mapTopTypesAll f (withoutUsingsAll ms) := by
  induction ms using listInduction with
  | nil => rfl
  | block head inner ms ihInner ih =>
    simp only [mapTopTypesAll, mapTopTypes, withoutUsingsAll, withoutUsings, ihInner, ih]
  | type head inner ms _ ih =>
    simp only [mapTopTypesAll, mapTopTypes, withoutUsingsAll, withoutUsings, ih]
  | leaf l ms ih => simp only [mapTopTypesAll, mapTopTypes, withoutUsingsAll, withoutUsings, ih]

theorem withoutUsingsAll_eraseAll {gone : NodeId → Bool} {ms : List Member} (h : Keeps gone ms) :
    withoutUsingsAll (eraseAll gone ms) = withoutUsingsAll ms := by
  induction ms using listInduction with
  | nil => rfl
  | block head inner ms ihInner ih =>
    obtain ⟨hg, hinner, hms⟩ := h.of_block
    rw [eraseAll_cons_of_kept hg, eraseInside, withoutUsingsAll, withoutUsings, ihInner hinner,
      ih hms, withoutUsingsAll, withoutUsings]
  | type head inner ms ihInner ih =>
    obtain ⟨hg, hinner, hms⟩ := h.of_type
    rw [eraseAll_cons_of_kept hg, eraseInside, withoutUsingsAll, withoutUsings, ihInner hinner,
      ih hms, withoutUsingsAll, withoutUsings]
  | leaf l ms ih =>
    obtain ⟨hg, hms⟩ := h.of_leaf
    rw [eraseAll_cons_of_kept hg, eraseInside, withoutUsingsAll, ih hms, withoutUsingsAll]

theorem keepTriviaAll_mapTopTypesAll {keep : Trivia → Bool} {f : TypeHead → TypeHead}
    (hf : ∀ h : TypeHead,
      f { h with leading := h.leading.filter keep, closing := h.closing.filter keep } =
        { f h with leading := (f h).leading.filter keep, closing := (f h).closing.filter keep })
    (ms : List Member) :
    keepTriviaAll keep (mapTopTypesAll f ms) = mapTopTypesAll f (keepTriviaAll keep ms) := by
  induction ms using listInduction with
  | nil => rfl
  | block head inner ms ihInner ih =>
    simp only [mapTopTypesAll, mapTopTypes, keepTriviaAll, Member.keepTrivia, ihInner, ih]
  | type head inner ms _ ih =>
    simp only [mapTopTypesAll, mapTopTypes, keepTriviaAll, Member.keepTrivia, ih, hf]
  | leaf l ms ih => simp only [mapTopTypesAll, mapTopTypes, keepTriviaAll, Member.keepTrivia, ih]

theorem mapTopTypesAll_mapTopTypesAll (g f : TypeHead → TypeHead) (ms : List Member) :
    mapTopTypesAll g (mapTopTypesAll f ms) = mapTopTypesAll (g ∘ f) ms := by
  induction ms using listInduction with
  | nil => rfl
  | block head inner ms ihInner ih => simp only [mapTopTypesAll, mapTopTypes, ihInner, ih]
  | type head inner ms _ ih => simp only [mapTopTypesAll, mapTopTypes, ih, Function.comp_apply]
  | leaf l ms ih => simp only [mapTopTypesAll, mapTopTypes, ih]

end Member

def TypeHead.withoutPartial (h : TypeHead) : TypeHead :=
  { h with modifiers := h.modifiers.filter (· != "partial") }

/-- The tree without using directives, region directives and what makes top-level types partial. -/
def Root.core (r : Root) : Root where
  usings := []
  members := Member.mapTopTypesAll TypeHead.withoutPartial
    (Member.keepTriviaAll (!·.isRegion) (Member.withoutUsingsAll r.members))
  ending := r.ending.filter (!·.isRegion)

namespace CleanUp

theorem withoutPartial_makePartial (h : TypeHead) :
    (makePartial h).withoutPartial = h.withoutPartial := by
  rw [makePartial]
  split
  · rfl
  · show { h with modifiers := (h.modifiers ++ ["partial"]).filter (· != "partial") } = _
    rw [List.filter_append, show ["partial"].filter (· != "partial") = [] by decide,
      List.append_nil]
    rfl

theorem trivia_makePartial (h : TypeHead) :
    (makePartial h).leading = h.leading ∧ (makePartial h).closing = h.closing := by
  rw [makePartial]
  split <;> exact ⟨rfl, rfl⟩

/-- Whether a type is partial does not depend on its trivia. -/
theorem makePartial_keepTrivia (keep : Trivia → Bool) (h : TypeHead) :
    makePartial { h with leading := h.leading.filter keep, closing := h.closing.filter keep } =
      { makePartial h with
        leading := (makePartial h).leading.filter keep
        closing := (makePartial h).closing.filter keep } := by
  by_cases hpartial : h.isPartial = true
  · have hself : makePartial h = h := if_pos hpartial
    rw [hself]
    exact if_pos hpartial
  · have hnew : makePartial h = { h with modifiers := h.modifiers ++ ["partial"] } :=
      if_neg hpartial
    rw [hnew]
    exact if_neg hpartial

theorem isPartial_makePartial (h : TypeHead) : (makePartial h).isPartial = true := by
  rw [makePartial]
  split
  · next hpartial => exact hpartial
  · rw [TypeHead.isPartial, List.contains_iff_mem]
    exact List.mem_append_right _ (List.mem_singleton_self _)

end CleanUp

namespace Root

variable (r : Root)

theorem core_keepTrivia : (r.keepTrivia (!·.isRegion)).core = r.core := by
  simp only [core, keepTrivia, Member.withoutUsingsAll_keepTriviaAll,
    Member.keepTriviaAll_keepTriviaAll, List.filter_filter, Bool.and_self]

theorem core_makePartial : (r.mapTopTypes CleanUp.makePartial).core = r.core := by
  have hpartial : TypeHead.withoutPartial ∘ CleanUp.makePartial = TypeHead.withoutPartial :=
    funext CleanUp.withoutPartial_makePartial
  simp only [core, mapTopTypes, Member.withoutUsingsAll_mapTopTypesAll,
    Member.keepTriviaAll_mapTopTypesAll (CleanUp.makePartial_keepTrivia _),
    Member.mapTopTypesAll_mapTopTypesAll, hpartial]

theorem core_erase {gone : NodeId → Bool} (h : Member.Keeps gone r.members) :
    (r.erase gone).core = r.core := by
  simp only [core, erase, Member.withoutUsingsAll_eraseAll h]

end Root

/-! ## Chores -/

/-- The clean-ups that a solution can be put through. -/
inductive Chore where
  | partials
  | regions
  | usings
  deriving DecidableEq

namespace Chore

def cleanUp : Chore → CleanUp
  | partials => .ensurePartial
  | regions => .removeRegions
  | usings => .removeUsings fun _ d => Check.needlessUsings d

/-- What a clean-up is for. -/
def Done (d : Document) : Chore → Prop
  | partials => ∀ h ∈ d.root.topTypes, h.isPartial = true
  | regions => ∀ t ∈ d.root.trivia, t.isRegion = false
  | usings => Check.needlessUsings d = []

/-- The document after the clean-up. -/
def edit (d : Document) : Chore → Document
  | partials => { d with root := d.root.mapTopTypes CleanUp.makePartial }
  | regions => { d with root := d.root.keepTrivia (!·.isRegion) }
  | usings => d.erase (CleanUp.needless (Check.needlessUsings d)).contains

theorem apply_cleanUp (c : Chore) (p : Project) (d : Document) :
    c.cleanUp.apply p d = .ok (c.edit d) := by
  cases c with
  | partials => rfl
  | regions => rfl
  | usings => exact CleanUp.removeUsings_apply _ p d

theorem careful_cleanUp (c : Chore) : c.cleanUp.Careful := by
  cases c with
  | partials => exact CleanUp.careful_ensurePartial
  | regions => exact CleanUp.careful_removeRegions
  | usings => exact CleanUp.careful_removeUsings CleanUp.flagsUsings_needlessUsings

theorem keepsIds_cleanUp (c : Chore) : c.cleanUp.KeepsIds := by
  cases c with
  | partials => exact CleanUp.keepsIds_ensurePartial
  | regions => exact CleanUp.keepsIds_removeRegions
  | usings => exact CleanUp.keepsIds_removeUsings _

theorem tidied_edit (c : Chore) {d : Document} (hd : d.root.nodeIds.Nodup) :
    (c.edit d).Tidied d :=
  c.careful_cleanUp.tidies { id := ⟨0⟩, name := "", assembly := "" } d _ hd (c.apply_cleanUp _ d)

theorem core_edit (c : Chore) {d : Document} (hd : d.root.nodeIds.Nodup) :
    (c.edit d).root.core = d.root.core := by
  cases c with
  | partials => exact d.root.core_makePartial
  | regions => exact d.root.core_keepTrivia
  | usings => exact d.root.core_erase (CleanUp.keeps_needlessUsings hd)

theorem mem_topTypes_makePartial {d : Document} {h : TypeHead}
    (hh : h ∈ (partials.edit d).root.topTypes) : h ∈ d.root.topTypes.map CleanUp.makePartial := by
  rw [Root.topTypes, ← Member.topTypesAll_mapTopTypesAll]
  exact hh

/-- A clean-up does what it is for. -/
theorem done_edit (c : Chore) {d : Document} (hd : d.root.nodeIds.Nodup) : c.Done (c.edit d) := by
  cases c with
  | partials =>
    intro h hh
    obtain ⟨h₀, -, rfl⟩ := List.mem_map.mp (mem_topTypes_makePartial hh)
    exact CleanUp.isPartial_makePartial h₀
  | regions =>
    intro t ht
    have hfilter : t ∈ d.root.trivia.filter (!·.isRegion) := by
      rw [← Root.trivia_keepTrivia]
      exact ht
    simpa using (List.mem_filter.mp hfilter).2
  | usings => exact CleanUp.needlessUsings_erase_needless hd

/-- What was done before stays done. -/
theorem Done.edit {c : Chore} {d : Document} (h : c.Done d) (c' : Chore) : c.Done (c'.edit d) := by
  cases c with
  | partials =>
    intro head hhead
    cases c' with
    | partials =>
      obtain ⟨h₀, -, rfl⟩ := List.mem_map.mp (mem_topTypes_makePartial hhead)
      exact CleanUp.isPartial_makePartial h₀
    | regions =>
      have hmem : head ∈ Member.topTypesAll
          (Member.keepTriviaAll (!·.isRegion) d.root.members) := hhead
      rw [Member.topTypesAll_keepTriviaAll] at hmem
      obtain ⟨h₀, hh₀, rfl⟩ := List.mem_map.mp hmem
      exact h h₀ hh₀
    | usings => exact h head ((Member.topTypesAll_eraseAll_sublist _ _).subset hhead)
  | regions =>
    intro t ht
    cases c' with
    | partials =>
      rw [Chore.edit, Root.trivia_mapTopTypes CleanUp.trivia_makePartial] at ht
      exact h t ht
    | regions =>
      rw [Chore.edit, Root.trivia_keepTrivia] at ht
      exact h t (List.mem_filter.mp ht).1
    | usings => exact h t ((d.root.trivia_erase_sublist _).subset ht)
  | usings =>
    cases c' with
    | partials => exact (CleanUp.needlessUsings_mapTopTypes d CleanUp.bare_makePartial).trans h
    | regions => exact (CleanUp.needlessUsings_keepTrivia d _).trans h
    | usings =>
      have hnone : Check.needlessUsings d = [] := h
      have hself : Chore.usings.edit d = d := by
        rw [Chore.edit, hnone]
        exact d.erase_nothing
      rw [hself]
      exact h

/-! ### One after the other -/

/-- The document after a list of clean-ups. -/
def editAll (cs : List Chore) (d : Document) : Document := cs.foldl Chore.edit d

theorem editAll_cons (c : Chore) (cs : List Chore) (d : Document) :
    editAll (c :: cs) d = editAll cs (c.edit d) := rfl

theorem tidied_editAll (cs : List Chore) {d : Document} (hd : d.root.nodeIds.Nodup) :
    (editAll cs d).Tidied d := by
  induction cs generalizing d with
  | nil => exact .refl d
  | cons c cs ih =>
    have hedit := c.tidied_edit hd
    exact (ih (hd.sublist hedit.nodeIds_sublist)).trans hedit

theorem Done.editAll {c : Chore} {d : Document} (h : c.Done d) (cs : List Chore) :
    c.Done (editAll cs d) := by
  induction cs generalizing d with
  | nil => exact h
  | cons c' cs ih => exact ih (h.edit c')

theorem done_editAll {cs : List Chore} {c : Chore} (hc : c ∈ cs) {d : Document}
    (hd : d.root.nodeIds.Nodup) : c.Done (editAll cs d) := by
  induction cs generalizing d with
  | nil => cases hc
  | cons c' cs ih =>
    rw [editAll_cons]
    rcases List.mem_cons.mp hc with rfl | hc
    · exact (c.done_edit hd).editAll cs
    · exact ih hc (hd.sublist (c'.tidied_edit hd).nodeIds_sublist)

theorem core_editAll (cs : List Chore) {d : Document} (hd : d.root.nodeIds.Nodup) :
    (editAll cs d).root.core = d.root.core := by
  induction cs generalizing d with
  | nil => rfl
  | cons c cs ih =>
    rw [editAll_cons, ih (hd.sublist (c.tidied_edit hd).nodeIds_sublist), c.core_edit hd]

end Chore
end Unweave

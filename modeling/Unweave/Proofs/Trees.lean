import Mathlib.Data.List.Nodup
import Unweave.Check.Usings
import Unweave.Proofs.Reach

/-!
# Trees and what is read off them

Erasing, thinning out trivia and changing top-level types are recursions over a tree, and so are the
lists that are read off it.  Most of these lists gather something from each head and each leaf in
the order of the text.  They are instances of `gatherAll`, and how an edit changes a list is then a
question about single heads.
-/

namespace Unweave
namespace Member

/-- Induction over lists of members, with the members inside the first one as a second case. -/
theorem listInduction {P : List Member → Prop} (nil : P [])
    (block : ∀ head inner ms, P inner → P ms → P (.block head inner :: ms))
    (type : ∀ head inner ms, P inner → P ms → P (.type head inner :: ms))
    (leaf : ∀ l ms, P ms → P (.leaf l :: ms)) : ∀ ms, P ms
  | [] => nil
  | .block head inner :: ms =>
    block head inner ms (listInduction nil block type leaf inner)
      (listInduction nil block type leaf ms)
  | .type head inner :: ms =>
    type head inner ms (listInduction nil block type leaf inner)
      (listInduction nil block type leaf ms)
  | .leaf l :: ms => leaf l ms (listInduction nil block type leaf ms)

/-! ## Gathering -/

/-- What to read off a block, a type and a leaf. -/
structure Reading (α : Type) where
  block : BlockHead → List α
  type : TypeHead → List α
  leaf : Leaf → List α

mutual

def gather {α : Type} (v : Reading α) : Member → List α
  | block head members => v.block head ++ gatherAll v members
  | type head members => v.type head ++ gatherAll v members
  | leaf l => v.leaf l

def gatherAll {α : Type} (v : Reading α) : List Member → List α
  | [] => []
  | m :: ms => gather v m ++ gatherAll v ms

end

/-- The identifiers of the using directives in blocks. -/
def usingIdsAll (ms : List Member) : List NodeId :=
  gatherAll ⟨fun h => h.usings.map (·.id), fun _ => [], fun _ => []⟩ ms

/-- The identifiers of the blocks. -/
def blockIdsAll (ms : List Member) : List NodeId :=
  gatherAll ⟨fun h => [h.id], fun _ => [], fun _ => []⟩ ms

/-- The identifiers of the blocks and the types. -/
def headIdsAll (ms : List Member) : List NodeId :=
  gatherAll ⟨fun h => [h.id], fun h => [h.id], fun _ => []⟩ ms

theorem declaredAll_eq_gatherAll (ms : List Member) :
    declaredAll ms = gatherAll ⟨fun h => [h.id], fun h => [h.id], fun l => [l.id]⟩ ms := by
  induction ms using listInduction with
  | nil => rfl
  | block head inner ms ihInner ih =>
    rw [declaredAll, declared, gatherAll, gather, ihInner, ih, List.singleton_append]
  | type head inner ms ihInner ih =>
    rw [declaredAll, declared, gatherAll, gather, ihInner, ih, List.singleton_append]
  | leaf l ms ih => rw [declaredAll, declared, gatherAll, gather, ih]

theorem symbolsAll_eq_gatherAll (ms : List Member) :
    symbolsAll ms =
      gatherAll ⟨fun _ => [], fun h => h.bases.map (·.symbol), fun l => l.symbols⟩ ms := by
  induction ms using listInduction with
  | nil => rfl
  | block head inner ms ihInner ih =>
    rw [symbolsAll, symbols, gatherAll, gather, ihInner, ih, List.nil_append]
  | type head inner ms ihInner ih => rw [symbolsAll, symbols, gatherAll, gather, ihInner, ih]
  | leaf l ms ih => rw [symbolsAll, symbols, gatherAll, gather, ih]

theorem referencesAll_eq_gatherAll (ms : List Member) :
    referencesAll ms = gatherAll ⟨fun _ => [], fun _ => [], fun l => l.references⟩ ms := by
  induction ms using listInduction with
  | nil => rfl
  | block head inner ms ihInner ih =>
    rw [referencesAll, references, gatherAll, gather, ihInner, ih, List.nil_append]
  | type head inner ms ihInner ih =>
    rw [referencesAll, references, gatherAll, gather, ihInner, ih, List.nil_append]
  | leaf l ms ih => rw [referencesAll, references, gatherAll, gather, ih]

theorem anyContains_iff (id : NodeId) (ms : List Member) :
    anyContains id ms = true ↔ id ∈ usingIdsAll ms ∨ id ∈ declaredAll ms := by
  unfold usingIdsAll
  induction ms using listInduction with
  | nil => simp [anyContains, gatherAll, declaredAll]
  | block head inner ms ihInner ih =>
    simp only [anyContains, contains, gatherAll, gather, declaredAll, declared, Bool.or_eq_true,
      beq_iff_eq, ihInner, ih, List.mem_append, List.mem_cons, List.any_eq_true, List.mem_map]
    grind
  | type head inner ms ihInner ih =>
    simp only [anyContains, contains, gatherAll, gather, declaredAll, declared, Bool.or_eq_true,
      beq_iff_eq, ihInner, ih, List.mem_append, List.mem_cons]
    grind
  | leaf l ms ih =>
    simp only [anyContains, contains, gatherAll, gather, declaredAll, declared, Bool.or_eq_true,
      beq_iff_eq, ih, List.mem_append, List.mem_cons]
    grind

/-! ## Gathering from an edited tree -/

theorem eraseAll_cons_of_gone {gone : NodeId → Bool} {m : Member} (h : gone m.id = true)
    (ms : List Member) : eraseAll gone (m :: ms) = eraseAll gone ms := by
  rw [eraseAll, if_pos h]

theorem eraseAll_cons_of_kept {gone : NodeId → Bool} {m : Member} (h : gone m.id = false)
    (ms : List Member) :
    eraseAll gone (m :: ms) = eraseInside gone m :: eraseAll gone ms := by
  rw [eraseAll, if_neg (by rw [h]; exact Bool.false_ne_true)]

/-- Induction along the erasing of nodes: a member goes with all that is inside it, or it stays. -/
theorem eraseInduction (gone : NodeId → Bool) {P : List Member → Prop} (nil : P [])
    (drop : ∀ m ms, gone m.id = true → P ms → P (m :: ms))
    (block : ∀ head inner ms, gone (Member.block head inner).id = false → P inner → P ms →
      P (.block head inner :: ms))
    (type : ∀ head inner ms, gone (Member.type head inner).id = false → P inner → P ms →
      P (.type head inner :: ms))
    (leaf : ∀ l ms, gone (Member.leaf l).id = false → P ms → P (.leaf l :: ms))
    (ms : List Member) : P ms := by
  induction ms using listInduction with
  | nil => exact nil
  | block head inner ms ihInner ih =>
    cases hg : gone (Member.block head inner).id with
    | true => exact drop _ ms hg ih
    | false => exact block head inner ms hg ihInner ih
  | type head inner ms ihInner ih =>
    cases hg : gone (Member.type head inner).id with
    | true => exact drop _ ms hg ih
    | false => exact type head inner ms hg ihInner ih
  | leaf l ms ih =>
    cases hg : gone (Member.leaf l).id with
    | true => exact drop _ ms hg ih
    | false => exact leaf l ms hg ih

theorem gatherAll_eraseAll_sublist {α : Type} (v : Reading α) (gone : NodeId → Bool)
    (hblock : ∀ h : BlockHead,
      (v.block { h with usings := eraseUsings gone h.usings }).Sublist (v.block h))
    (ms : List Member) : (gatherAll v (eraseAll gone ms)).Sublist (gatherAll v ms) := by
  induction ms using eraseInduction gone with
  | nil => exact List.Sublist.refl _
  | drop m ms hg ih =>
    rw [eraseAll_cons_of_gone hg, gatherAll]
    exact ih.trans (List.sublist_append_right _ _)
  | block head inner ms hg ihInner ih =>
    rw [eraseAll_cons_of_kept hg, eraseInside, gatherAll, gather, gatherAll, gather]
    exact ((hblock head).append ihInner).append ih
  | type head inner ms hg ihInner ih =>
    rw [eraseAll_cons_of_kept hg, eraseInside, gatherAll, gather, gatherAll, gather]
    exact ((List.Sublist.refl _).append ihInner).append ih
  | leaf l ms hg ih =>
    rw [eraseAll_cons_of_kept hg, eraseInside, gatherAll, gather, gatherAll, gather]
    exact (List.Sublist.refl _).append ih

/-- No declaration in the list is erased. -/
def Keeps (gone : NodeId → Bool) (ms : List Member) : Prop := ∀ id ∈ declaredAll ms, gone id = false

section Keeps

variable {gone : NodeId → Bool} {inner ms : List Member}

theorem Keeps.of_block {head : BlockHead} (h : Keeps gone (block head inner :: ms)) :
    gone (block head inner).id = false ∧ Keeps gone inner ∧ Keeps gone ms := by
  simp only [Keeps, declaredAll, declared, List.cons_append, List.mem_cons, List.mem_append] at h
  exact ⟨h _ (Or.inl rfl), fun id hid => h id (Or.inr (Or.inl hid)),
    fun id hid => h id (Or.inr (Or.inr hid))⟩

theorem Keeps.of_type {head : TypeHead} (h : Keeps gone (type head inner :: ms)) :
    gone (type head inner).id = false ∧ Keeps gone inner ∧ Keeps gone ms := by
  simp only [Keeps, declaredAll, declared, List.cons_append, List.mem_cons, List.mem_append] at h
  exact ⟨h _ (Or.inl rfl), fun id hid => h id (Or.inr (Or.inl hid)),
    fun id hid => h id (Or.inr (Or.inr hid))⟩

theorem Keeps.of_leaf {l : Leaf} (h : Keeps gone (leaf l :: ms)) :
    gone (leaf l).id = false ∧ Keeps gone ms := by
  simp only [Keeps, declaredAll, declared, List.singleton_append, List.mem_cons] at h
  exact ⟨h _ (Or.inl rfl), fun id hid => h id (Or.inr hid)⟩

theorem Keeps.heads (h : Keeps gone ms) : ∀ id ∈ headIdsAll ms, gone id = false := by
  intro id hid
  refine h id ?_
  rw [declaredAll_eq_gatherAll]
  have hsublist : (headIdsAll ms).Sublist
      (gatherAll ⟨fun h => [h.id], fun h => [h.id], fun l => [l.id]⟩ ms) := by
    unfold headIdsAll
    clear h hid
    induction ms using listInduction with
    | nil => exact List.Sublist.refl _
    | block head inner ms ihInner ih =>
      simp only [gatherAll, gather]
      exact ((List.Sublist.refl _).append ihInner).append ih
    | type head inner ms ihInner ih =>
      simp only [gatherAll, gather]
      exact ((List.Sublist.refl _).append ihInner).append ih
    | leaf l ms ih =>
      simp only [gatherAll, gather]
      exact (List.nil_sublist _).append ih
  exact hsublist.subset hid

/-- Where blocks and types stay, what does not come from leaves stays. -/
theorem gatherAll_eraseAll_of_heads {α : Type} (v : Reading α) (hleaf : ∀ l, v.leaf l = [])
    (hblock : ∀ h : BlockHead, v.block { h with usings := eraseUsings gone h.usings } = v.block h)
    (h : ∀ id ∈ headIdsAll ms, gone id = false) :
    gatherAll v (eraseAll gone ms) = gatherAll v ms := by
  unfold headIdsAll at h
  induction ms using listInduction with
  | nil => rfl
  | block head inner ms ihInner ih =>
    simp only [gatherAll, gather, List.mem_append, List.mem_singleton] at h
    have hg : gone (block head inner).id = false := h _ (Or.inl (Or.inl rfl))
    rw [eraseAll_cons_of_kept hg, eraseInside, gatherAll, gather, hblock,
      ihInner fun id hid => h id (Or.inl (Or.inr hid)), ih fun id hid => h id (Or.inr hid),
      gatherAll, gather]
  | type head inner ms ihInner ih =>
    simp only [gatherAll, gather, List.mem_append, List.mem_singleton] at h
    have hg : gone (type head inner).id = false := h _ (Or.inl (Or.inl rfl))
    rw [eraseAll_cons_of_kept hg, eraseInside, gatherAll, gather,
      ihInner fun id hid => h id (Or.inl (Or.inr hid)), ih fun id hid => h id (Or.inr hid),
      gatherAll, gather]
  | leaf l ms ih =>
    simp only [gatherAll, gather, List.nil_append] at h
    cases hg : gone (leaf l).id with
    | true => rw [eraseAll_cons_of_gone hg, ih h, gatherAll, gather, hleaf, List.nil_append]
    | false => rw [eraseAll_cons_of_kept hg, eraseInside, gatherAll, ih h, gatherAll]

end Keeps

theorem gatherAll_keepTriviaAll {α : Type} (v : Reading α) (keep : Trivia → Bool)
    (hblock : ∀ h : BlockHead, v.block
      { h with
        leading := h.leading.filter keep
        usings := h.usings.map (·.keepTrivia keep)
        closing := h.closing.filter keep } = v.block h)
    (htype : ∀ h : TypeHead, v.type
      { h with leading := h.leading.filter keep, closing := h.closing.filter keep } = v.type h)
    (hleaf : ∀ l : Leaf, v.leaf { l with leading := l.leading.filter keep } = v.leaf l)
    (ms : List Member) : gatherAll v (keepTriviaAll keep ms) = gatherAll v ms := by
  induction ms using listInduction with
  | nil => rfl
  | block head inner ms ihInner ih =>
    rw [keepTriviaAll, Member.keepTrivia, gatherAll, gather, hblock, ihInner, ih, gatherAll, gather]
  | type head inner ms ihInner ih =>
    rw [keepTriviaAll, Member.keepTrivia, gatherAll, gather, htype, ihInner, ih, gatherAll, gather]
  | leaf l ms ih =>
    rw [keepTriviaAll, Member.keepTrivia, gatherAll, gather, hleaf, ih, gatherAll, gather]

theorem gatherAll_mapTopTypesAll {α : Type} (v : Reading α) (f : TypeHead → TypeHead)
    (htype : ∀ h : TypeHead, v.type (f h) = v.type h) (ms : List Member) :
    gatherAll v (mapTopTypesAll f ms) = gatherAll v ms := by
  induction ms using listInduction with
  | nil => rfl
  | block head inner ms ihInner ih =>
    rw [mapTopTypesAll, mapTopTypes, gatherAll, gather, ihInner, ih, gatherAll, gather]
  | type head inner ms _ ih =>
    rw [mapTopTypesAll, mapTopTypes, gatherAll, gather, htype, ih, gatherAll, gather]
  | leaf l ms ih => rw [mapTopTypesAll, mapTopTypes, gatherAll, ih, gatherAll]

/-! ## Erasing -/

/-- What is erased is no longer declared. -/
theorem keeps_eraseAll (gone : NodeId → Bool) (ms : List Member) :
    Keeps gone (eraseAll gone ms) := by
  induction ms using eraseInduction gone with
  | nil =>
    intro id hid
    cases hid
  | drop m ms hg ih =>
    rw [eraseAll_cons_of_gone hg]
    exact ih
  | block head inner ms hg ihInner ih =>
    rw [eraseAll_cons_of_kept hg, eraseInside]
    intro id hid
    rw [declaredAll, declared, List.cons_append, List.mem_cons, List.mem_append] at hid
    rcases hid with rfl | hid | hid
    · exact hg
    · exact ihInner id hid
    · exact ih id hid
  | type head inner ms hg ihInner ih =>
    rw [eraseAll_cons_of_kept hg, eraseInside]
    intro id hid
    rw [declaredAll, declared, List.cons_append, List.mem_cons, List.mem_append] at hid
    rcases hid with rfl | hid | hid
    · exact hg
    · exact ihInner id hid
    · exact ih id hid
  | leaf l ms hg ih =>
    rw [eraseAll_cons_of_kept hg, eraseInside]
    intro id hid
    rw [declaredAll, declared, List.singleton_append, List.mem_cons] at hid
    rcases hid with rfl | hid
    · exact hg
    · exact ih id hid

/-- Only the identifiers in the tree decide what erasing does. -/
theorem eraseAll_congr {f g : NodeId → Bool} {ms : List Member}
    (husing : ∀ id ∈ usingIdsAll ms, f id = g id) (hdecl : ∀ id ∈ declaredAll ms, f id = g id) :
    eraseAll f ms = eraseAll g ms := by
  unfold usingIdsAll at husing
  induction ms using listInduction with
  | nil => rfl
  | block head inner ms ihInner ih =>
    simp only [gatherAll, gather, declaredAll, declared, List.mem_append, List.mem_cons]
      at husing hdecl
    have hms := ih (fun id hid => husing id (Or.inr hid)) (fun id hid => hdecl id (Or.inr hid))
    have hinner := ihInner (fun id hid => husing id (Or.inl (Or.inr hid)))
      (fun id hid => hdecl id (Or.inl (Or.inr hid)))
    have hhead : f (block head inner).id = g (block head inner).id := hdecl _ (Or.inl (Or.inl rfl))
    have husings : eraseUsings f head.usings = eraseUsings g head.usings :=
      List.filter_congr fun u hu => by
        rw [husing u.id (Or.inl (Or.inl (List.mem_map_of_mem hu)))]
    rw [eraseAll, eraseAll, hhead, hms, eraseInside, eraseInside, hinner, husings]
  | type head inner ms ihInner ih =>
    simp only [gatherAll, gather, declaredAll, declared, List.mem_append, List.mem_cons]
      at husing hdecl
    have hms := ih (fun id hid => husing id (Or.inr hid)) (fun id hid => hdecl id (Or.inr hid))
    have hinner := ihInner (fun id hid => husing id (Or.inl (Or.inr hid)))
      (fun id hid => hdecl id (Or.inl (Or.inr hid)))
    have hhead : f (type head inner).id = g (type head inner).id := hdecl _ (Or.inl (Or.inl rfl))
    rw [eraseAll, eraseAll, hhead, hms, eraseInside, eraseInside, hinner]
  | leaf l ms ih =>
    simp only [gatherAll, gather, declaredAll, declared, List.mem_append, List.mem_cons]
      at husing hdecl
    have hms := ih (fun id hid => husing id (Or.inr hid)) (fun id hid => hdecl id (Or.inr hid))
    have hhead : f (leaf l).id = g (leaf l).id := hdecl _ (Or.inl (Or.inl rfl))
    rw [eraseAll, eraseAll, hhead, hms, eraseInside, eraseInside]

/-- Erasing twice is erasing both at once. -/
theorem eraseAll_eraseAll (f g : NodeId → Bool) (ms : List Member) :
    eraseAll f (eraseAll g ms) = eraseAll (fun id => f id || g id) ms := by
  have husings : ∀ us : List Using, eraseUsings f (eraseUsings g us) =
      eraseUsings (fun id => f id || g id) us := by
    intro us
    simp only [eraseUsings, List.filter_filter, Bool.not_or]
  have hcons : ∀ (m : Member) (ms : List Member), (eraseInside g m).id = m.id →
      eraseInside f (eraseInside g m) = eraseInside (fun id => f id || g id) m →
      eraseAll f (eraseAll g ms) = eraseAll (fun id => f id || g id) ms →
      eraseAll f (eraseAll g (m :: ms)) = eraseAll (fun id => f id || g id) (m :: ms) := by
    intro m ms hid hinside ih
    cases hg : g m.id with
    | true =>
      have hboth : (f m.id || g m.id) = true := by rw [hg, Bool.or_true]
      rw [eraseAll_cons_of_gone hg, eraseAll_cons_of_gone hboth, ih]
    | false =>
      have hboth : (f m.id || g m.id) = f m.id := by rw [hg, Bool.or_false]
      rw [eraseAll_cons_of_kept hg]
      cases hf : f m.id with
      | true =>
        rw [eraseAll_cons_of_gone (hid ▸ hf), eraseAll_cons_of_gone (hboth.trans hf), ih]
      | false =>
        rw [eraseAll_cons_of_kept (hid ▸ hf), eraseAll_cons_of_kept (hboth.trans hf), hinside, ih]
  induction ms using listInduction with
  | nil => rfl
  | block head inner ms ihInner ih =>
    refine hcons _ _ rfl ?_ ih
    rw [eraseInside, eraseInside, eraseInside, ihInner, husings]
  | type head inner ms ihInner ih =>
    refine hcons _ _ rfl ?_ ih
    rw [eraseInside, eraseInside, eraseInside, ihInner]
  | leaf l ms ih => exact hcons _ _ rfl rfl ih

theorem eraseAll_nothing (ms : List Member) : eraseAll (fun _ => false) ms = ms := by
  have husings : ∀ us : List Using, eraseUsings (fun _ => false) us = us := fun us =>
    List.filter_eq_self.mpr fun _ _ => rfl
  induction ms using listInduction with
  | nil => rfl
  | block head inner ms ihInner ih =>
    rw [eraseAll_cons_of_kept rfl, eraseInside, ihInner, ih, husings]
  | type head inner ms ihInner ih => rw [eraseAll_cons_of_kept rfl, eraseInside, ihInner, ih]
  | leaf l ms ih => rw [eraseAll_cons_of_kept rfl, eraseInside, ih]

end Member
end Unweave

import Unweave.Proofs.Trees

/-!
# Sites

A site says where a declaration stands and, for a leaf, what it declares.  Edits that erase no
declaration keep all sites in order.  Erasing keeps some of them: every entry of the smaller tree is
what remains of an entry of the larger one (`Entry.RemainsOf`), and two kinds of erasing are
described exactly, that of leaves and that of all top-level types.
-/

namespace Unweave

/-! ## Trees without decoration -/

/-- A leaf without the text in front of it. -/
def Leaf.bare (l : Leaf) : Leaf := { l with leading := [] }

def BlockHead.bare (h : BlockHead) : BlockHead := { id := h.id, name := h.name }

def TypeHead.bare (h : TypeHead) : TypeHead :=
  { h with leading := [], modifiers := [], closing := [] }

namespace Member

mutual

/-- The tree without trivia, using directives and modifiers of types. -/
def bare : Member → Member
  | block head members => block head.bare (bareAll members)
  | type head members => type head.bare (bareAll members)
  | leaf l => leaf l.bare

def bareAll : List Member → List Member
  | [] => []
  | m :: ms => bare m :: bareAll ms

end

theorem bareAll_keepTriviaAll (keep : Trivia → Bool) (ms : List Member) :
    bareAll (keepTriviaAll keep ms) = bareAll ms := by
  induction ms using listInduction with
  | nil => rfl
  | block head inner ms ihInner ih =>
    rw [keepTriviaAll, Member.keepTrivia, bareAll, bare, ihInner, ih]
    rfl
  | type head inner ms ihInner ih =>
    rw [keepTriviaAll, Member.keepTrivia, bareAll, bare, ihInner, ih]
    rfl
  | leaf l ms ih =>
    rw [keepTriviaAll, Member.keepTrivia, bareAll, ih]
    rfl

theorem bareAll_mapTopTypesAll {f : TypeHead → TypeHead} (hf : ∀ h, (f h).bare = h.bare)
    (ms : List Member) : bareAll (mapTopTypesAll f ms) = bareAll ms := by
  induction ms using listInduction with
  | nil => rfl
  | block head inner ms ihInner ih =>
    rw [mapTopTypesAll, mapTopTypes, bareAll, bare, ihInner, ih]
    rfl
  | type head inner ms _ ih =>
    rw [mapTopTypesAll, mapTopTypes, bareAll, bare, hf, ih]
    rfl
  | leaf l ms ih =>
    rw [mapTopTypesAll, mapTopTypes, bareAll, ih]
    rfl

theorem bareAll_eraseAll_of_keeps {gone : NodeId → Bool} {ms : List Member}
    (hkeep : Keeps gone ms) : bareAll (eraseAll gone ms) = bareAll ms := by
  induction ms using listInduction with
  | nil => rfl
  | block head inner ms ihInner ih =>
    obtain ⟨hg, hinner, hms⟩ := hkeep.of_block
    rw [eraseAll_cons_of_kept hg, eraseInside, bareAll, bare, ihInner hinner, ih hms]
    rfl
  | type head inner ms ihInner ih =>
    obtain ⟨hg, hinner, hms⟩ := hkeep.of_type
    rw [eraseAll_cons_of_kept hg, eraseInside, bareAll, bare, ihInner hinner, ih hms]
    rfl
  | leaf l ms ih =>
    obtain ⟨hg, hms⟩ := hkeep.of_leaf
    rw [eraseAll_cons_of_kept hg, eraseInside, bareAll, ih hms]
    rfl

/-- The identifiers of the members themselves, blocks aside. -/
def memberIds (ms : List Member) : List NodeId := (ms.filter (!·.isBlock)).map (·.id)

@[simp] theorem memberIds_block (head : BlockHead) (inner ms : List Member) :
    memberIds (block head inner :: ms) = memberIds ms := rfl

@[simp] theorem memberIds_type (head : TypeHead) (inner ms : List Member) :
    memberIds (type head inner :: ms) = head.id :: memberIds ms := rfl

@[simp] theorem memberIds_leaf (l : Leaf) (ms : List Member) :
    memberIds (leaf l :: ms) = l.id :: memberIds ms := rfl

theorem memberIds_bareAll (ms : List Member) : memberIds (bareAll ms) = memberIds ms := by
  induction ms with
  | nil => rfl
  | cons m ms ih =>
    rw [bareAll]
    cases m with
    | block head inner => rw [bare, memberIds_block, memberIds_block, ih]
    | type head inner =>
      rw [bare, memberIds_type, memberIds_type, ih]
      rfl
    | leaf l =>
      rw [bare, memberIds_leaf, memberIds_leaf, ih]
      rfl

theorem memberIds_eraseAll (gone : NodeId → Bool) (ms : List Member) :
    memberIds (eraseAll gone ms) = (memberIds ms).filter (!gone ·) := by
  induction ms with
  | nil => rfl
  | cons m ms ih =>
    cases m with
    | block head inner =>
      cases hg : gone (block head inner).id with
      | true => rw [eraseAll_cons_of_gone hg, ih, memberIds_block]
      | false => rw [eraseAll_cons_of_kept hg, eraseInside, memberIds_block, ih, memberIds_block]
    | type head inner =>
      rw [memberIds_type, List.filter_cons]
      cases hg : gone head.id with
      | true => exact (congrArg memberIds (eraseAll_cons_of_gone hg ms)).trans ih
      | false =>
        refine (congrArg memberIds (eraseAll_cons_of_kept hg ms)).trans ?_
        rw [eraseInside, memberIds_type, ih]
        rfl
    | leaf l =>
      rw [memberIds_leaf, List.filter_cons]
      cases hg : gone l.id with
      | true => exact (congrArg memberIds (eraseAll_cons_of_gone hg ms)).trans ih
      | false =>
        refine (congrArg memberIds (eraseAll_cons_of_kept hg ms)).trans ?_
        rw [eraseInside, memberIds_leaf, ih]
        rfl

mutual

/-- The namespace blocks that stand in no type, with their dotted names.  A block inside a type is
left out: it belongs to the type and leaves with it. -/
def spaces (outer : String) : Member → List (NodeId × String)
  | block head members =>
    (head.id, Text.qualify outer head.name) :: spacesAll (Text.qualify outer head.name) members
  | type .. => []
  | leaf _ => []

def spacesAll (outer : String) : List Member → List (NodeId × String)
  | [] => []
  | m :: ms => spaces outer m ++ spacesAll outer ms

end

theorem spacesAll_bareAll (outer : String) (ms : List Member) :
    spacesAll outer (bareAll ms) = spacesAll outer ms := by
  induction ms using listInduction generalizing outer with
  | nil => rfl
  | block head inner ms ihInner ih =>
    rw [bareAll, bare, spacesAll, spaces, spacesAll, spaces, ih]
    show (head.id, Text.qualify outer head.name) ::
      spacesAll (Text.qualify outer head.name) (bareAll inner) ++ _ = _
    rw [ihInner]
  | type head inner ms _ ih => rw [bareAll, bare, spacesAll, spaces, spacesAll, spaces, ih]
  | leaf l ms ih => rw [bareAll, bare, spacesAll, spaces, spacesAll, spaces, ih]

/-- Blocks outlast the erasing of other things. -/
theorem spacesAll_eraseAll {gone : NodeId → Bool} {ms : List Member}
    (hblocks : ∀ id ∈ blockIdsAll ms, gone id = false) (outer : String) :
    spacesAll outer (eraseAll gone ms) = spacesAll outer ms := by
  unfold blockIdsAll at hblocks
  induction ms using listInduction generalizing outer with
  | nil => rfl
  | block head inner ms ihInner ih =>
    simp only [gatherAll, gather, List.mem_append, List.mem_cons] at hblocks
    have hg : gone (block head inner).id = false := hblocks _ (Or.inl (Or.inl (Or.inl rfl)))
    rw [eraseAll_cons_of_kept hg, eraseInside, spacesAll, spaces, spacesAll, spaces,
      ih (fun id hid => hblocks id (Or.inr hid))]
    show (head.id, Text.qualify outer head.name) ::
      spacesAll (Text.qualify outer head.name) (eraseAll gone inner) ++ _ = _
    rw [ihInner (fun id hid => hblocks id (Or.inl (Or.inr hid)))]
  | type head inner ms _ ih =>
    simp only [gatherAll, List.mem_append] at hblocks
    have hms := ih (fun id hid => hblocks id (Or.inr hid)) outer
    cases hg : gone (type head inner).id with
    | true => rw [eraseAll_cons_of_gone hg, spacesAll, spaces, List.nil_append, hms]
    | false =>
      rw [eraseAll_cons_of_kept hg, eraseInside, spacesAll, spaces, spacesAll, spaces, hms]
  | leaf l ms ih =>
    simp only [gatherAll, List.mem_append] at hblocks
    have hms := ih (fun id hid => hblocks id (Or.inr hid)) outer
    cases hg : gone (leaf l).id with
    | true => rw [eraseAll_cons_of_gone hg, spacesAll, spaces, List.nil_append, hms]
    | false =>
      rw [eraseAll_cons_of_kept hg, eraseInside, spacesAll, spaces, spacesAll, spaces, hms]

end Member

/-! ## Sites of entries -/

/-- Where a declaration stands and, for a leaf, what it declares. -/
structure Site where
  id : NodeId
  document : DocumentId
  /-- The dotted name of the namespace. -/
  space : String
  /-- The type around the declaration. -/
  container : Option NodeId
  /-- The open name of the type around the declaration. -/
  owner : Option String
  depth : Nat
  /-- The leaf without the text in front of it; a type has none. -/
  leaf : Option Leaf
deriving DecidableEq

namespace Site

/-- The declaration is not itself erased. -/
def survives (gone : NodeId → Bool) (s : Site) : Bool := !gone s.id

theorem survives_iff (ids : List NodeId) (s : Site) :
    s.survives ids.contains = true ↔ s.id ∉ ids := by
  rw [survives, Bool.not_eq_true', Bool.eq_false_iff, Ne, List.contains_iff_mem]

/-- A leaf that stands in no type. -/
def isLoose (s : Site) : Bool := s.leaf.isSome && s.depth == 0

end Site

def Declaration.bareLeaf? : Declaration → Option Leaf
  | type .. => none
  | leaf l => some l.bare

theorem Declaration.isSome_bareLeaf?_iff (d : Declaration) :
    d.bareLeaf?.isSome = true ↔ d.isType = false := by
  cases d with
  | type head members => exact ⟨fun h => (nomatch h), fun h => (nomatch h)⟩
  | leaf l => exact ⟨fun _ => rfl, fun _ => rfl⟩

namespace Entry

def site (e : Entry) : Site where
  id := e.id
  document := e.document
  space := e.space
  container := e.container.map (·.id)
  owner := e.containerOpenName
  depth := e.depth
  leaf := e.declaration.bareLeaf?

/-- The site, and where a walk may go from the declaration. -/
def sketch (e : Entry) : Site × List NodeId := (e.site, e.declaration.callees)

/-- The first entry is what an edit may have left of the second: at the same place and, if it is a
leaf, the same, while a type may have lost members. -/
structure RemainsOf (e' e : Entry) : Prop where
  site_eq : e'.site = e.site
  callees : e'.declaration.callees ⊆ e.declaration.callees

theorem RemainsOf.refl (e : Entry) : e.RemainsOf e := ⟨rfl, fun _ h => h⟩

theorem RemainsOf.trans {e'' e' e : Entry} (h' : e''.RemainsOf e') (h : e'.RemainsOf e) :
    e''.RemainsOf e :=
  ⟨h'.site_eq.trans h.site_eq, fun _ hid => h.callees (h'.callees hid)⟩

theorem RemainsOf.of_sketch {e' e : Entry} (h : e'.sketch = e.sketch) : e'.RemainsOf e :=
  ⟨(Prod.mk.inj h).1, fun _ hid => (Prod.mk.inj h).2 ▸ hid⟩

theorem RemainsOf.id_eq {e' e : Entry} (h : e'.RemainsOf e) : e'.id = e.id :=
  congrArg Site.id h.site_eq

/-- Either both are types, or both are leaves that differ only in the text in front of them. -/
theorem RemainsOf.cases {e' e : Entry} (h : e'.RemainsOf e) :
    (∃ head' members' head members, e'.declaration = .type head' members' ∧
        e.declaration = .type head members) ∨
      ∃ l' l : Leaf, e'.declaration = .leaf l' ∧ e.declaration = .leaf l ∧ l'.bare = l.bare := by
  have hleaf : e'.declaration.bareLeaf? = e.declaration.bareLeaf? := congrArg Site.leaf h.site_eq
  cases hd' : e'.declaration with
  | type head' members' =>
    cases hd : e.declaration with
    | type head members => exact Or.inl ⟨head', members', head, members, rfl, rfl⟩
    | leaf l =>
      rw [hd', hd] at hleaf
      cases hleaf
  | leaf l' =>
    cases hd : e.declaration with
    | type head members =>
      rw [hd', hd] at hleaf
      cases hleaf
    | leaf l =>
      rw [hd', hd] at hleaf
      exact Or.inr ⟨l', l, rfl, rfl, Option.some.inj hleaf⟩

end Entry

/-- Erase below a declaration that itself stays. -/
def Declaration.eraseInside (gone : NodeId → Bool) : Declaration → Declaration
  | type head members => type head (Member.eraseAll gone members)
  | leaf l => leaf l

/-- A declaration loses its way to what is erased and to nothing else, leaves not even that. -/
theorem Declaration.mem_callees_eraseInside (gone : NodeId → Bool) (d : Declaration) (id : NodeId) :
    (id ∈ (d.eraseInside gone).callees → id ∈ d.callees) ∧
      (gone id = false → id ∈ d.callees → id ∈ (d.eraseInside gone).callees) := by
  cases d with
  | type head members =>
    show (id ∈ Member.memberIds (Member.eraseAll gone members) → id ∈ Member.memberIds members) ∧
      (gone id = false → id ∈ Member.memberIds members →
        id ∈ Member.memberIds (Member.eraseAll gone members))
    rw [Member.memberIds_eraseAll, List.mem_filter]
    exact ⟨And.left, fun hkept hid => ⟨hid, by rw [hkept]; rfl⟩⟩
  | leaf l => exact ⟨fun hid => hid, fun _ hid => hid⟩

/-- What erasing leaves of an entry that stays. -/
def Entry.eraseInside (gone : NodeId → Bool) (e : Entry) : Entry :=
  { e with declaration := e.declaration.eraseInside gone }

theorem Entry.eraseInside_remainsOf (gone : NodeId → Bool) (e : Entry) :
    (e.eraseInside gone).RemainsOf e := by
  refine ⟨?_, fun id hid => (e.declaration.mem_callees_eraseInside gone id).1 hid⟩
  obtain ⟨d, document, container, space, depth⟩ := e
  cases d <;> rfl

namespace Catalogue

open Member

variable (document : DocumentId)

theorem sketch_bare {d d' : Declaration} (hid : d'.id = d.id)
    (hleaf : d'.bareLeaf? = d.bareLeaf?) (hcallees : d'.callees = d.callees)
    (container : Option TypeHead) (space : String) (depth : Nat) :
    Entry.sketch ⟨d', document, container.map TypeHead.bare, space, depth⟩ =
      Entry.sketch ⟨d, document, container, space, depth⟩ := by
  -- The type around shows in a site by its identifier and its open name only.
  have hcontainer : (container.map TypeHead.bare).map (·.id) = container.map (·.id) := by
    cases container <;> rfl
  have howner : Entry.containerOpenName ⟨d', document, container.map TypeHead.bare, space, depth⟩ =
      Entry.containerOpenName ⟨d, document, container, space, depth⟩ := by
    cases container <;> rfl
  simp only [Entry.sketch, Entry.site, Entry.id, hid, hleaf, hcallees, hcontainer, howner]

theorem map_sketch_collectAll_bareAll (space : String) (container : Option TypeHead) (depth : Nat)
    (ms : List Member) :
    (collectAll document space (container.map TypeHead.bare) depth (bareAll ms)).map Entry.sketch =
      (collectAll document space container depth ms).map Entry.sketch := by
  induction ms using listInduction generalizing space container depth with
  | nil => rfl
  | block head inner ms ihInner ih =>
    rw [bareAll, bare, collectAll, collect, collectAll, collect, List.map_append, List.map_append]
    exact congrArg₂ (· ++ ·) (ihInner _ _ _) (ih _ _ _)
  | type head inner ms ihInner ih =>
    have hcallees : (Declaration.type head.bare (bareAll inner)).callees =
        (Declaration.type head inner).callees := memberIds_bareAll inner
    have hself : Entry.sketch ⟨.type head.bare (bareAll inner), document,
        container.map TypeHead.bare, space, depth⟩ =
        Entry.sketch ⟨.type head inner, document, container, space, depth⟩ := by
      refine sketch_bare document ?_ ?_ hcallees container space depth
      · rfl
      · rfl
    rw [bareAll, bare, collectAll, collect, collectAll, collect, List.map_append, List.map_append,
      List.map_cons, List.map_cons, hself]
    exact congrArg₂ (· ++ ·) (congrArg _ (ihInner space (some head) (depth + 1))) (ih _ _ _)
  | leaf l ms ih =>
    have hself : Entry.sketch ⟨.leaf l.bare, document, container.map TypeHead.bare, space, depth⟩ =
        Entry.sketch ⟨.leaf l, document, container, space, depth⟩ :=
      sketch_bare document rfl rfl rfl container space depth
    rw [bareAll, bare, collectAll, collect, collectAll, collect, List.map_append, List.map_append,
      List.map_singleton, List.map_singleton, hself, ih]

/-- Trees that are alike when bare have the same sketches. -/
theorem map_sketch_collectAll_congr {ms ms' : List Member} (h : bareAll ms' = bareAll ms) :
    (collectAll document "" none 0 ms').map Entry.sketch =
      (collectAll document "" none 0 ms).map Entry.sketch := by
  have h' := map_sketch_collectAll_bareAll document "" none 0 ms'
  rw [h] at h'
  exact h'.symm.trans (map_sketch_collectAll_bareAll document "" none 0 ms)

/-- Each entry of what erasing leaves is what it leaves of an entry. -/
theorem exists_of_mem_collectAll_eraseAll (gone : NodeId → Bool) {space : String}
    {container : Option TypeHead} {depth : Nat} {ms : List Member} {e' : Entry}
    (h : e' ∈ collectAll document space container depth (eraseAll gone ms)) :
    ∃ e ∈ collectAll document space container depth ms, e' = e.eraseInside gone := by
  induction ms using eraseInduction gone generalizing space container depth with
  | nil => cases h
  | drop m ms hg ih =>
    rw [eraseAll_cons_of_gone hg] at h
    obtain ⟨e, he, heq⟩ := ih h
    exact ⟨e, List.mem_append_right _ he, heq⟩
  | block head inner ms hg ihInner ih =>
    rw [eraseAll_cons_of_kept hg, Member.eraseInside, collectAll, collect, List.mem_append] at h
    rw [collectAll, collect]
    rcases h with h | h
    · obtain ⟨e, he, heq⟩ := ihInner h
      exact ⟨e, List.mem_append_left _ he, heq⟩
    · obtain ⟨e, he, heq⟩ := ih h
      exact ⟨e, List.mem_append_right _ he, heq⟩
  | type head inner ms hg ihInner ih =>
    rw [eraseAll_cons_of_kept hg, Member.eraseInside, collectAll, collect, List.mem_append,
      List.mem_cons] at h
    rw [collectAll, collect]
    rcases h with (rfl | h) | h
    · exact ⟨_, List.mem_append_left _ List.mem_cons_self, rfl⟩
    · obtain ⟨e, he, heq⟩ := ihInner h
      exact ⟨e, List.mem_append_left _ (List.mem_cons_of_mem _ he), heq⟩
    · obtain ⟨e, he, heq⟩ := ih h
      exact ⟨e, List.mem_append_right _ he, heq⟩
  | leaf l ms hg ih =>
    rw [eraseAll_cons_of_kept hg, Member.eraseInside, collectAll, collect, List.mem_append,
      List.mem_singleton] at h
    rw [collectAll, collect]
    rcases h with rfl | h
    · exact ⟨_, List.mem_append_left _ (List.mem_singleton_self _), rfl⟩
    · obtain ⟨e, he, heq⟩ := ih h
      exact ⟨e, List.mem_append_right _ he, heq⟩

/-! ## Two kinds of erasing, exactly -/

/-- Erasing leaves takes their sites away and no others. -/
theorem map_site_eraseAll_of_leaves {gone : NodeId → Bool} {space : String}
    {container : Option TypeHead} {depth : Nat} {ms : List Member}
    (hblocks : ∀ id ∈ blockIdsAll ms, gone id = false)
    (htypes : ∀ e ∈ collectAll document space container depth ms,
      e.declaration.isType = true → gone e.id = false) :
    (collectAll document space container depth (eraseAll gone ms)).map Entry.site =
      ((collectAll document space container depth ms).map Entry.site).filter
        (Site.survives gone) := by
  unfold blockIdsAll at hblocks
  induction ms using listInduction generalizing space container depth with
  | nil => rfl
  | block head inner ms ihInner ih =>
    simp only [gatherAll, gather, List.mem_append, List.mem_cons] at hblocks
    simp only [collectAll, collect, List.mem_append] at htypes
    have hg : gone (Member.block head inner).id = false :=
      hblocks _ (Or.inl (Or.inl (Or.inl rfl)))
    rw [eraseAll_cons_of_kept hg, eraseInside, collectAll, collect, collectAll, collect,
      List.map_append, List.map_append, List.filter_append,
      ← ihInner (fun id hid => hblocks id (Or.inl (Or.inr hid))) (fun e he => htypes e (Or.inl he)),
      ← ih (fun id hid => hblocks id (Or.inr hid)) (fun e he => htypes e (Or.inr he))]
  | type head inner ms ihInner ih =>
    simp only [gatherAll, gather, List.mem_append, List.nil_append] at hblocks
    simp only [collectAll, collect, List.mem_append, List.mem_cons] at htypes
    have hg : gone (Member.type head inner).id = false := htypes _ (Or.inl (Or.inl rfl)) rfl
    have hself : Site.survives gone (Entry.site ⟨.type head inner, document, container, space,
        depth⟩) = true := by
      show (!gone (Member.type head inner).id) = true
      rw [hg, Bool.not_false]
    rw [eraseAll_cons_of_kept hg, eraseInside, collectAll, collect, collectAll, collect,
      List.map_append, List.map_append, List.filter_append, List.map_cons, List.map_cons,
      List.filter_cons_of_pos hself,
      ← ihInner (fun id hid => hblocks id (Or.inl hid)) (fun e he => htypes e (Or.inl (Or.inr he))),
      ← ih (fun id hid => hblocks id (Or.inr hid)) (fun e he => htypes e (Or.inr he))]
    rfl
  | leaf l ms ih =>
    simp only [gatherAll, List.mem_append] at hblocks
    simp only [collectAll, collect, List.mem_append] at htypes
    have hms := ih (fun id hid => hblocks id (Or.inr hid)) (fun e he => htypes e (Or.inr he))
    rw [collectAll, collect, List.map_append, List.filter_append, ← hms, List.map_singleton]
    cases hg : gone (Member.leaf l).id with
    | true =>
      have hself : ¬ Site.survives gone (Entry.site ⟨.leaf l, document, container, space,
          depth⟩) = true := by
        show ¬ (!gone (Member.leaf l).id) = true
        rw [hg]
        simp
      rw [eraseAll_cons_of_gone hg, List.filter_cons_of_neg hself, List.filter_nil, List.nil_append]
    | false =>
      have hself : Site.survives gone (Entry.site ⟨.leaf l, document, container, space,
          depth⟩) = true := by
        show (!gone (Member.leaf l).id) = true
        rw [hg, Bool.not_false]
      rw [eraseAll_cons_of_kept hg, eraseInside, collectAll, collect, List.map_append,
        List.map_singleton, List.filter_cons_of_pos hself, List.filter_nil]

theorem depth_le_of_mem_collectAll {space : String} {container : Option TypeHead} {depth : Nat}
    {ms : List Member} {e : Entry} (h : e ∈ collectAll document space container depth ms) :
    depth ≤ e.depth := by
  induction ms using listInduction generalizing space container depth with
  | nil => cases h
  | block head inner ms ihInner ih =>
    rw [collectAll, collect, List.mem_append] at h
    exact h.elim ihInner ih
  | type head inner ms ihInner ih =>
    rw [collectAll, collect, List.mem_append, List.mem_cons] at h
    rcases h with (rfl | h) | h
    · exact le_rfl
    · exact le_trans (Nat.le_succ depth) (ihInner h)
    · exact ih h
  | leaf l ms ih =>
    rw [collectAll, collect, List.mem_append, List.mem_singleton] at h
    rcases h with rfl | h
    · exact le_rfl
    · exact ih h

theorem document_of_mem_collectAll {space : String} {container : Option TypeHead} {depth : Nat}
    {ms : List Member} :
    ∀ e ∈ collectAll document space container depth ms, e.document = document := by
  induction ms using listInduction generalizing space container depth with
  | nil => exact fun _ h => nomatch h
  | block head inner ms ihInner ih =>
    rw [collectAll, collect]
    exact List.forall_mem_append.mpr ⟨ihInner, ih⟩
  | type head inner ms ihInner ih =>
    rw [collectAll, collect]
    exact List.forall_mem_append.mpr ⟨List.forall_mem_cons.mpr ⟨rfl, ihInner⟩, ih⟩
  | leaf l ms ih =>
    rw [collectAll, collect]
    exact List.forall_mem_append.mpr ⟨List.forall_mem_singleton.mpr rfl, ih⟩

/-- What is no deeper than where the list stands has the type around the list around it. -/
theorem container_of_depth {space : String} {container : Option TypeHead} {depth : Nat}
    {ms : List Member} :
    ∀ e ∈ collectAll document space container depth ms, e.depth = depth →
      e.container = container := by
  induction ms using listInduction generalizing space container depth with
  | nil => exact fun _ h => nomatch h
  | block head inner ms ihInner ih =>
    rw [collectAll, collect]
    exact List.forall_mem_append.mpr ⟨ihInner, ih⟩
  | type head inner ms ihInner ih =>
    rw [collectAll, collect]
    refine List.forall_mem_append.mpr ⟨List.forall_mem_cons.mpr ⟨fun _ => rfl, ?_⟩, ih⟩
    intro e he hdepth
    have hdeeper := depth_le_of_mem_collectAll document he
    omega
  | leaf l ms ih =>
    rw [collectAll, collect]
    exact List.forall_mem_append.mpr ⟨List.forall_mem_singleton.mpr fun _ => rfl, ih⟩

/-- Erasing all top-level types takes away everything that is in a type, and nothing else. -/
theorem map_site_eraseAll_of_topTypes {gone : NodeId → Bool} {space : String} {ms : List Member}
    (hblocks : ∀ id ∈ blockIdsAll ms, gone id = false)
    (hentries : ∀ e ∈ collectAll document space none 0 ms,
      e.depth = 0 → gone e.id = e.declaration.isType) :
    (collectAll document space none 0 (eraseAll gone ms)).map Entry.site =
      ((collectAll document space none 0 ms).map Entry.site).filter Site.isLoose := by
  unfold blockIdsAll at hblocks
  induction ms using listInduction generalizing space with
  | nil => rfl
  | block head inner ms ihInner ih =>
    simp only [gatherAll, gather, List.mem_append, List.mem_cons] at hblocks
    simp only [collectAll, collect, List.mem_append] at hentries
    have hg : gone (Member.block head inner).id = false :=
      hblocks _ (Or.inl (Or.inl (Or.inl rfl)))
    rw [eraseAll_cons_of_kept hg, eraseInside, collectAll, collect, collectAll, collect,
      List.map_append, List.map_append, List.filter_append,
      ← ihInner (fun id hid => hblocks id (Or.inl (Or.inr hid)))
        (fun e he => hentries e (Or.inl he)),
      ← ih (fun id hid => hblocks id (Or.inr hid)) (fun e he => hentries e (Or.inr he))]
  | type head inner ms _ ih =>
    simp only [gatherAll, List.mem_append] at hblocks
    simp only [collectAll, collect, List.mem_append, List.mem_cons] at hentries
    have hg : gone (Member.type head inner).id = true := hentries _ (Or.inl (Or.inl rfl)) rfl
    have hinside : ((collectAll document space (some head) (0 + 1) inner).map Entry.site).filter
        Site.isLoose = [] := by
      refine List.filter_eq_nil_iff.mpr fun s hs => ?_
      obtain ⟨e, he, rfl⟩ := List.mem_map.mp hs
      have hdepth : 0 + 1 ≤ e.site.depth := depth_le_of_mem_collectAll document he
      rw [Site.isLoose, Bool.and_eq_true, beq_iff_eq]
      omega
    have hself : ¬ Site.isLoose (Entry.site ⟨.type head inner, document, none, space, 0⟩) = true :=
      Bool.false_ne_true
    rw [eraseAll_cons_of_gone hg, collectAll, collect, List.map_append, List.filter_append,
      List.map_cons, List.filter_cons_of_neg hself, hinside, List.nil_append,
      ih (fun id hid => hblocks id (Or.inr hid)) (fun e he => hentries e (Or.inr he))]
  | leaf l ms ih =>
    simp only [gatherAll, List.mem_append] at hblocks
    simp only [collectAll, collect, List.mem_append, List.mem_singleton] at hentries
    have hg : gone (Member.leaf l).id = false := hentries _ (Or.inl rfl) rfl
    have hself : Site.isLoose (Entry.site ⟨.leaf l, document, none, space, 0⟩) = true := rfl
    rw [eraseAll_cons_of_kept hg, eraseInside, collectAll, collect, collectAll, collect,
      List.map_append, List.map_append, List.filter_append, List.map_singleton,
      List.filter_cons_of_pos hself, List.filter_nil,
      ih (fun id hid => hblocks id (Or.inr hid)) (fun e he => hentries e (Or.inr he))]

end Catalogue
end Unweave

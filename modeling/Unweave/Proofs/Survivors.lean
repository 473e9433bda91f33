import Unweave.Proofs.Identity

/-!
# What survives in a tree

Erasing and looking for a node are separate recursions over a tree, and using directives stand at the
root and in blocks but not in types.  Both are compared here with one list: the nodes of a tree in
the order of its text, each without what is inside it and with the declarations around it.

A node survives if neither its identifier nor that of a declaration around it is gone.  The list of
the tree that remains is the list of the survivors (`Root.occurrences_erase`), and a list belongs to
one tree only (`Root.eq_of_occurrences`), so this says all about erasing.  Identifiers may repeat.
-/

namespace Unweave

/-- A node without the directives and the members inside it. -/
inductive Node where
  | directive (u : Using)
  | block (head : BlockHead)
  | type (head : TypeHead)
  | leaf (l : Leaf)

def Node.id : Node → NodeId
  | directive u => u.id
  | block head => head.id
  | type head => head.id
  | leaf l => l.id

/-- A node and the declarations around it, innermost first. -/
structure Occurrence where
  node : Node
  around : List Node

namespace Occurrence

def isDirective (o : Occurrence) : Bool :=
  match o.node with
  | .directive _ => true
  | _ => false

/-- Neither the node nor a declaration around it is gone. -/
def survives (gone : NodeId → Bool) (o : Occurrence) : Bool :=
  !gone o.node.id && o.around.all (!gone ·.id)

theorem survives_iff (gone : NodeId → Bool) (o : Occurrence) :
    o.survives gone = true ↔ gone o.node.id = false ∧ ∀ a ∈ o.around, gone a.id = false := by
  simp only [survives, Bool.and_eq_true, Bool.not_eq_true', List.all_eq_true]

end Occurrence

/-! ## Members, taken apart -/

namespace Member

def node : Member → Node
  | block head _ => .block { head with usings := [] }
  | type head _ => .type head
  | leaf l => .leaf l

def directives : Member → List Using
  | block head _ => head.usings
  | _ => []

def inner : Member → List Member
  | block _ members => members
  | type _ members => members
  | leaf _ => []

theorem id_node (m : Member) : m.node.id = m.id := by cases m <;> rfl

/-- A member is its node with its directives and what is inside it. -/
theorem eq_of_parts {m m' : Member} (hnode : m.node = m'.node)
    (hdirectives : m.directives = m'.directives) (hinner : m.inner = m'.inner) : m = m' := by
  cases m with
  | block head members =>
    cases m' with
    | block head' members' =>
      obtain ⟨id, leading, name, usings, closing⟩ := head
      obtain ⟨id', leading', name', usings', closing'⟩ := head'
      simp only [node, directives, inner, Node.block.injEq, BlockHead.mk.injEq] at *
      simp [hnode, hdirectives, hinner]
    | type head' members' => cases hnode
    | leaf l' => cases hnode
  | type head members =>
    cases m' with
    | block head' members' => cases hnode
    | type head' members' => rw [Node.type.inj hnode, show members = members' from hinner]
    | leaf l' => cases hnode
  | leaf l =>
    cases m' with
    | block head' members' => cases hnode
    | type head' members' => cases hnode
    | leaf l' => rw [Node.leaf.inj hnode]

theorem node_eraseInside (gone : NodeId → Bool) (m : Member) :
    (eraseInside gone m).node = m.node := by cases m <;> rfl

theorem directives_eraseInside (gone : NodeId → Bool) (m : Member) :
    (eraseInside gone m).directives = eraseUsings gone m.directives := by cases m <;> rfl

theorem inner_eraseInside (gone : NodeId → Bool) (m : Member) :
    (eraseInside gone m).inner = eraseAll gone m.inner := by cases m <;> rfl

theorem contains_iff_parts (id : NodeId) (m : Member) : contains id m = true ↔
    m.node.id = id ∨ (∃ u ∈ m.directives, u.id = id) ∨ anyContains id m.inner = true := by
  cases m <;> simp [contains, anyContains, node, directives, inner, Node.id, or_assoc]

/-- Induction over lists of members, whatever the first one is. -/
theorem innerInduction {P : List Member → Prop} (nil : P [])
    (cons : ∀ m ms, P m.inner → P ms → P (m :: ms)) (ms : List Member) : P ms := by
  induction ms using listInduction with
  | nil => exact nil
  | block head inner ms ihInner ih => exact cons (.block head inner) ms ihInner ih
  | type head inner ms ihInner ih => exact cons (.type head inner) ms ihInner ih
  | leaf l ms ih => exact cons (.leaf l) ms nil ih

/-! ## The nodes of a tree -/

def directiveOccurrences (around : List Node) (us : List Using) : List Occurrence :=
  us.map fun u => ⟨.directive u, around⟩

mutual

/-- The nodes at and below a member, in the order of the text. -/
def occurrences (around : List Node) : Member → List Occurrence
  | block head members =>
    let self := Node.block { head with usings := [] }
    ⟨self, around⟩ ::
      (directiveOccurrences (self :: around) head.usings ++
        occurrencesAll (self :: around) members)
  | type head members => ⟨.type head, around⟩ :: occurrencesAll (.type head :: around) members
  | leaf l => [⟨.leaf l, around⟩]

def occurrencesAll (around : List Node) : List Member → List Occurrence
  | [] => []
  | m :: ms => occurrences around m ++ occurrencesAll around ms

end

/-- What stands inside a member. -/
def occurrencesInside (around : List Node) (m : Member) : List Occurrence :=
  directiveOccurrences (m.node :: around) m.directives ++
    occurrencesAll (m.node :: around) m.inner

theorem occurrences_eq (around : List Node) (m : Member) :
    occurrences around m = ⟨m.node, around⟩ :: occurrencesInside around m := by
  cases m <;> rfl

theorem occurrencesAll_cons (around : List Node) (m : Member) (ms : List Member) :
    occurrencesAll around (m :: ms) =
      ⟨m.node, around⟩ :: (occurrencesInside around m ++ occurrencesAll around ms) := by
  rw [occurrencesAll, occurrences_eq, List.cons_append]

/-- What is listed below some declarations has them around it. -/
theorem suffix_around_of_mem {around : List Node} {ms : List Member} {o : Occurrence}
    (h : o ∈ occurrencesAll around ms) : around <:+ o.around := by
  induction ms using innerInduction generalizing around with
  | nil => cases h
  | cons m ms ihInner ih =>
    rw [occurrencesAll_cons, List.mem_cons, List.mem_append, occurrencesInside,
      List.mem_append] at h
    rcases h with rfl | (h | h) | h
    · exact List.suffix_refl _
    · obtain ⟨u, -, rfl⟩ := List.mem_map.mp h
      exact List.suffix_cons _ _
    · exact (List.suffix_cons _ _).trans (ihInner h)
    · exact ih h

theorem mem_around_of_mem_inside {around : List Node} {m : Member} {o : Occurrence}
    (h : o ∈ occurrencesInside around m) : m.node ∈ o.around := by
  rcases List.mem_append.mp h with h | h
  · obtain ⟨u, -, rfl⟩ := List.mem_map.mp h
    exact List.mem_cons_self
  · exact (suffix_around_of_mem h).subset List.mem_cons_self

/-- A node is found exactly if it occurs. -/
theorem anyContains_iff_occurs (id : NodeId) (around : List Node) (ms : List Member) :
    anyContains id ms = true ↔ ∃ o ∈ occurrencesAll around ms, o.node.id = id := by
  induction ms using innerInduction generalizing around with
  | nil => simp [anyContains, occurrencesAll]
  | cons m ms ihInner ih =>
    rw [anyContains, Bool.or_eq_true, contains_iff_parts, ihInner (m.node :: around), ih around,
      occurrencesAll_cons, occurrencesInside, directiveOccurrences]
    simp only [List.mem_cons, List.mem_append, List.mem_map, or_and_right, exists_or,
      exists_eq_left, or_assoc, exists_exists_and_eq_and, Node.id]

/-! ## Survivors -/

theorem survives_of_around {gone : NodeId → Bool} {around : List Node}
    (haround : ∀ a ∈ around, gone a.id = false) (n : Node) :
    Occurrence.survives gone ⟨n, around⟩ = !gone n.id := by
  rw [Occurrence.survives, List.all_eq_true.mpr fun a ha => by rw [haround a ha, Bool.not_false],
    Bool.and_true]

theorem directiveOccurrences_eraseUsings {gone : NodeId → Bool} {around : List Node}
    (haround : ∀ a ∈ around, gone a.id = false) (us : List Using) :
    directiveOccurrences around (eraseUsings gone us) =
      (directiveOccurrences around us).filter (Occurrence.survives gone) := by
  rw [directiveOccurrences, directiveOccurrences, eraseUsings, List.filter_map]
  refine congrArg _ (List.filter_congr fun u _ => ?_)
  exact (survives_of_around haround (.directive u)).symm

/-- Nothing inside of what is gone survives. -/
theorem filter_survives_inside {gone : NodeId → Bool} {m : Member} (hgone : gone m.id = true)
    (around : List Node) :
    (occurrencesInside around m).filter (Occurrence.survives gone) = [] := by
  refine List.filter_eq_nil_iff.mpr fun o ho hsurvives => ?_
  have hself := ((o.survives_iff gone).mp hsurvives).2 _ (mem_around_of_mem_inside ho)
  rw [id_node, hgone] at hself
  cases hself

/-- Erasing leaves the survivors, in their order. -/
theorem occurrencesAll_eraseAll {gone : NodeId → Bool} {around : List Node}
    (haround : ∀ a ∈ around, gone a.id = false) (ms : List Member) :
    occurrencesAll around (eraseAll gone ms) =
      (occurrencesAll around ms).filter (Occurrence.survives gone) := by
  induction ms using innerInduction generalizing around with
  | nil => rfl
  | cons m ms ihInner ih =>
    have hself := survives_of_around haround m.node
    rw [id_node] at hself
    rw [occurrencesAll_cons]
    cases hgone : gone m.id with
    | true =>
      rw [hgone, Bool.not_true] at hself
      rw [eraseAll_cons_of_gone hgone, List.filter_cons_of_neg (by rw [hself]; simp),
        List.filter_append, filter_survives_inside hgone, List.nil_append, ih haround]
    | false =>
      rw [hgone, Bool.not_false] at hself
      have hinside : ∀ a ∈ m.node :: around, gone a.id = false := by
        intro a ha
        rcases List.mem_cons.mp ha with rfl | ha
        · rw [id_node, hgone]
        · exact haround a ha
      rw [eraseAll_cons_of_kept hgone, occurrencesAll_cons, List.filter_cons_of_pos hself,
        List.filter_append, ih haround, occurrencesInside, occurrencesInside, List.filter_append,
        node_eraseInside, directives_eraseInside, inner_eraseInside, ihInner hinside,
        directiveOccurrences_eraseUsings hinside]

/-! ## A list belongs to one tree -/

/-- The list does not go on with a directive or with something that deep inside. -/
def Closes (depth : Nat) (rest : List Occurrence) : Prop :=
  ∀ o ∈ rest.head?, o.isDirective = false ∧ o.around.length < depth

theorem closes_append {around : List Node} {ms : List Member} {rest : List Occurrence}
    {depth : Nat} (hdepth : around.length < depth) (hrest : Closes around.length rest) :
    Closes depth (occurrencesAll around ms ++ rest) := by
  cases ms with
  | nil => exact fun o ho => ⟨(hrest o ho).1, (hrest o ho).2.trans hdepth⟩
  | cons m ms =>
    rw [occurrencesAll_cons]
    rintro o ho
    obtain rfl : ⟨m.node, around⟩ = o := Option.some.inj ho
    refine ⟨?_, hdepth⟩
    cases m <;> rfl

/-- Where a list of members ends is seen from what comes next. -/
theorem eq_nil_of_closes {around : List Node} {ms : List Member} {rest rest' : List Occurrence}
    (hrest : Closes around.length rest) (h : rest = occurrencesAll around ms ++ rest') :
    ms = [] := by
  cases ms with
  | nil => rfl
  | cons m ms =>
    rw [occurrencesAll_cons] at h
    have hhead := hrest ⟨m.node, around⟩ (by rw [h]; rfl)
    exact absurd hhead.2 (Nat.lt_irrefl _)

/-- Directives come first, so they can be told from what follows. -/
theorem directiveOccurrences_append_inj {around : List Node} {us us' : List Using}
    {rest rest' : List Occurrence} (hrest : ∀ o ∈ rest.head?, o.isDirective = false)
    (hrest' : ∀ o ∈ rest'.head?, o.isDirective = false)
    (h : directiveOccurrences around us ++ rest = directiveOccurrences around us' ++ rest') :
    us = us' ∧ rest = rest' := by
  induction us generalizing us' with
  | nil =>
    cases us' with
    | nil => exact ⟨rfl, h⟩
    | cons u' us' => cases hrest ⟨.directive u', around⟩ (by rw [show rest = _ from h]; rfl)
  | cons u us ih =>
    cases us' with
    | nil => cases hrest' ⟨.directive u, around⟩ (by rw [← show _ = rest' from h]; rfl)
    | cons u' us' =>
      obtain ⟨hhead, htail⟩ := List.cons.inj h
      obtain ⟨rfl, hrests⟩ := ih htail
      cases hhead
      exact ⟨rfl, hrests⟩

theorem occurrencesAll_append_inj {around : List Node} {ms ms' : List Member}
    {rest rest' : List Occurrence} (hrest : Closes around.length rest)
    (hrest' : Closes around.length rest')
    (h : occurrencesAll around ms ++ rest = occurrencesAll around ms' ++ rest') :
    ms = ms' ∧ rest = rest' := by
  induction ms using innerInduction generalizing around ms' rest rest' with
  | nil =>
    obtain rfl := eq_nil_of_closes hrest h
    exact ⟨rfl, h⟩
  | cons m ms ihInner ih =>
    cases ms' with
    | nil => cases eq_nil_of_closes hrest' h.symm
    | cons m' ms' =>
      simp only [occurrencesAll_cons, occurrencesInside, List.cons_append, List.append_assoc,
        List.cons.injEq, Occurrence.mk.injEq, and_true] at h
      obtain ⟨hnode, h⟩ := h
      rw [← hnode] at h
      have hnext : ∀ ms rest, Closes around.length rest →
          Closes (m.node :: around).length (occurrencesAll around ms ++ rest) :=
        fun ms rest hrest => closes_append (Nat.lt_succ_self _) hrest
      -- First the directives, then the members inside, then those that follow.
      obtain ⟨hdirectives, h⟩ := directiveOccurrences_append_inj
        (fun o ho => (closes_append (Nat.lt_succ_self _) (hnext ms rest hrest) o ho).1)
        (fun o ho => (closes_append (Nat.lt_succ_self _) (hnext ms' rest' hrest') o ho).1) h
      obtain ⟨hinner, h⟩ := ihInner (hnext ms rest hrest) (hnext ms' rest' hrest') h
      obtain ⟨rfl, hrests⟩ := ih hrest hrest' h
      rw [eq_of_parts hnode hdirectives hinner]
      exact ⟨rfl, hrests⟩

end Member

/-! ## Trees -/

namespace Root

open Member

/-- The nodes of a tree, in the order of the text. -/
def occurrences (r : Root) : List Occurrence :=
  directiveOccurrences [] r.usings ++ occurrencesAll [] r.members

theorem contains_iff_occurs (r : Root) (id : NodeId) :
    r.contains id = true ↔ ∃ o ∈ r.occurrences, o.node.id = id := by
  rw [contains, Bool.or_eq_true, anyContains_iff_occurs id [], occurrences, directiveOccurrences]
  simp only [List.any_eq_true, beq_iff_eq, List.mem_append, List.mem_map, or_and_right, exists_or,
    exists_exists_and_eq_and, Node.id]

theorem occurrences_erase (r : Root) (gone : NodeId → Bool) :
    (r.erase gone).occurrences = r.occurrences.filter (Occurrence.survives gone) := by
  have hnone : ∀ a ∈ ([] : List Node), gone a.id = false := fun a ha => nomatch ha
  rw [occurrences, occurrences, List.filter_append, erase,
    directiveOccurrences_eraseUsings hnone, occurrencesAll_eraseAll hnone]

/-- Trees with the same nodes and the same ending are the same. -/
theorem eq_of_occurrences {r r' : Root} (hending : r.ending = r'.ending)
    (h : r.occurrences = r'.occurrences) : r = r' := by
  have hend : ∀ depth, Closes depth [] := fun _ o ho => nomatch ho
  have hmembers : ∀ ms : List Member, ∀ o ∈ (occurrencesAll [] ms).head?,
      o.isDirective = false := by
    intro ms o ho
    rw [← List.append_nil (occurrencesAll [] ms)] at ho
    exact (closes_append Nat.one_pos (hend _) o ho).1
  obtain ⟨husings, h⟩ := directiveOccurrences_append_inj (hmembers _) (hmembers _) h
  have hms := (occurrencesAll_append_inj (hend _) (hend _) (congrArg (· ++ []) h)).1
  cases r
  cases r'
  simp_all

/-- Erasing in two turns is erasing at once, so the order does not matter.  A node is found
afterwards exactly if it occurs somewhere with neither its own identifier nor that of a declaration
around it erased.  What remains is the one tree with the same ending whose nodes are the survivors:
in their order, with everything that belongs to them, and inside the same declarations. -/
theorem erase_leaves_survivors (r : Root) (f g : NodeId → Bool) :
    (r.erase f).erase g = (r.erase g).erase f ∧
    (r.erase f).erase g = r.erase (fun id => f id || g id) ∧
    (∀ id, (r.erase f).contains id = true ↔ ∃ o ∈ r.occurrences, o.node.id = id ∧
      f o.node.id = false ∧ ∀ a ∈ o.around, f a.id = false) ∧
    ∀ r' : Root, r' = r.erase f ↔ r'.ending = r.ending ∧
      r'.occurrences = r.occurrences.filter (Occurrence.survives f) := by
  refine ⟨?_, ?_, fun id => ?_, fun r' => ⟨?_, ?_⟩⟩
  · rw [erase_erase, erase_erase]
    exact congrArg r.erase (funext fun id => Bool.or_comm _ _)
  · rw [erase_erase]
    exact congrArg r.erase (funext fun id => Bool.or_comm _ _)
  · rw [contains_iff_occurs, occurrences_erase]
    simp only [List.mem_filter, Occurrence.survives_iff, and_comm, and_left_comm]
  · rintro rfl
    exact ⟨rfl, r.occurrences_erase f⟩
  · rintro ⟨hending, hoccurrences⟩
    exact eq_of_occurrences hending (hoccurrences.trans (r.occurrences_erase f).symm)

end Root
end Unweave

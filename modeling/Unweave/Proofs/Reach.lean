import Mathlib.Logic.Relation
import Unweave.Proofs.TypeSets
import Unweave.Walk

/-!
# Reachable declarations

What a walk should find, said without a walk.  An edge leads from a type to each of its members and
from a leaf to each leaf that its bodies refer to.  A declaration depends on every type mentioned by
a declaration that it reaches.

Identifiers may repeat.  A catalogue then gives one declaration for each, and edges lead only to the
declarations that it gives, so on these an identifier names one declaration (`Lists.eq_of_id`).
-/

namespace Unweave

/-- The declaration itself mentions the type. -/
def Declaration.Mentions (d : Declaration) (t : TypeRef) : Prop := TypeSet.Mentioned d.symbols t

namespace Catalogue

variable {c : Catalogue} {a b d x y : Declaration} {t : TypeRef}

/-! ## Look-up -/

theorem mem_entries_of_find? {id : NodeId} {e : Entry} (h : c.find? id = some e) :
    e ∈ c.entries ∧ e.id = id := by
  have hmem := List.mem_filter.mp (List.mem_of_getLast? h)
  exact ⟨hmem.1, eq_of_beq hmem.2⟩

/-- Every identifier of the catalogue is found. -/
theorem exists_find? {e : Entry} (h : e ∈ c.entries) : ∃ e', c.find? e.id = some e' := by
  have hne : c.entries.filter (·.id == e.id) ≠ [] :=
    List.ne_nil_of_mem (List.mem_filter.mpr ⟨h, beq_self_eq_true _⟩)
  exact ⟨_, List.getLast?_eq_some_getLast hne⟩

/-- The declaration is the one that the catalogue gives for its identifier. -/
def Lists (c : Catalogue) (d : Declaration) : Prop :=
  ∃ e, c.find? d.id = some e ∧ e.declaration = d

theorem lists_of_find? {id : NodeId} {e : Entry} (h : c.find? id = some e) :
    c.Lists e.declaration := by
  have hid : e.declaration.id = id := (mem_entries_of_find? h).2
  exact ⟨e, by rw [hid]; exact h, rfl⟩

theorem lists_of_mem_declarations {e : Entry} (h : e ∈ c.declarations) : c.Lists e.declaration := by
  obtain ⟨_, _, he⟩ := List.mem_filterMap.mp h
  exact lists_of_find? he

theorem Lists.eq_of_id (ha : c.Lists a) (hb : c.Lists b) (h : a.id = b.id) : a = b := by
  obtain ⟨e, he, rfl⟩ := ha
  obtain ⟨e', he', rfl⟩ := hb
  rw [h, he', Option.some.injEq] at he
  rw [he]

theorem Lists.mem_ids (h : c.Lists d) : d.id ∈ c.entries.map Entry.id := by
  obtain ⟨e, he, rfl⟩ := h
  exact List.mem_map_of_mem (mem_entries_of_find? he).1

/-! ## Edges -/

/-- Where a walk may go from a declaration: from a type to its members, blocks aside, and from a
leaf to the leaves that its bodies refer to.  What the catalogue does not have is left out. -/
inductive Edge (c : Catalogue) : Declaration → Declaration → Prop
  | member {head : TypeHead} {members : List Member} {m : Member} {e : Entry} :
      m ∈ members → m.isBlock = false → c.find? m.id = some e →
      Edge c (.type head members) e.declaration
  | reference {l : Leaf} {x : Expression} {r : SymbolRef} {id : NodeId} {e : Entry} :
      x ∈ l.expressions → x.symbol = some r → r.declaration = some id → c.find? id = some e →
      e.declaration.isCallable = true → Edge c (.leaf l) e.declaration

theorem Edge.lists (h : c.Edge a b) : c.Lists b := by
  cases h with
  | member _ _ hfind => exact lists_of_find? hfind
  | reference _ _ _ hfind _ => exact lists_of_find? hfind

/-- A walk steps along the edges. -/
theorem mem_targets_iff (c : Catalogue) (a b : Declaration) :
    b ∈ Walk.targets c a ↔ c.Edge a b := by
  rw [Walk.targets, List.mem_filter, List.mem_filterMap]
  constructor
  · rintro ⟨⟨id, hid, hb⟩, hcall⟩
    obtain ⟨e, he, rfl⟩ := Option.map_eq_some_iff.mp hb
    cases a with
    | type head members =>
      obtain ⟨m, hm, rfl⟩ := List.mem_map.mp hid
      obtain ⟨hm, hblock⟩ := List.mem_filter.mp hm
      exact Edge.member hm (by simpa using hblock) he
    | leaf l =>
      obtain ⟨r, hr, hrid⟩ := List.mem_filterMap.mp hid
      obtain ⟨x, hx, hxr⟩ := List.mem_filterMap.mp hr
      exact Edge.reference hx hxr hrid he (by simpa [Declaration.isType] using hcall)
  · intro h
    cases h with
    | member hm hblock hfind =>
      refine ⟨⟨_, List.mem_map_of_mem (List.mem_filter.mpr ⟨hm, by simpa using hblock⟩), ?_⟩, rfl⟩
      rw [hfind]
      rfl
    | reference hx hxr hrid hfind hcall =>
      have hr := List.mem_filterMap.mpr ⟨_, hx, hxr⟩
      refine ⟨⟨_, List.mem_filterMap.mpr ⟨_, hr, hrid⟩, ?_⟩, by simpa using Or.inr hcall⟩
      rw [hfind]
      rfl

/-! ## Dependencies -/

def Reaches (c : Catalogue) : Declaration → Declaration → Prop := Relation.ReflTransGen c.Edge

/-- Some declaration that is reached mentions the type. -/
def DependsOn (c : Catalogue) (d : Declaration) (t : TypeRef) : Prop :=
  ∃ x, c.Reaches d x ∧ x.Mentions t

theorem Reaches.lists (h : c.Reaches a b) (ha : c.Lists a) : c.Lists b := by
  induction h with
  | refl => exact ha
  | tail _ hedge _ => exact hedge.lists

theorem dependsOn_of_mentions (h : d.Mentions t) : c.DependsOn d t := ⟨d, .refl, h⟩

theorem DependsOn.of_reaches (h : c.Reaches a b) (ht : c.DependsOn b t) : c.DependsOn a t := by
  obtain ⟨x, hx, hm⟩ := ht
  exact ⟨x, h.trans hx, hm⟩

theorem DependsOn.of_edge (h : c.Edge a b) (ht : c.DependsOn b t) : c.DependsOn a t :=
  ht.of_reaches (.single h)

/-- A set of types that answers for a declaration: each of them is a dependency, and each dependency
is there under its full name. -/
structure Answers (c : Catalogue) (d : Declaration) (deps : TypeSet) : Prop where
  sound : ∀ t ∈ deps.refs, c.DependsOn d t
  complete : ∀ t, c.DependsOn d t → t.fullName ∈ deps.names

theorem Answers.mem_names_iff {deps : TypeSet} (h : c.Answers d deps) (n : String) :
    n ∈ deps.names ↔ ∃ t, c.DependsOn d t ∧ t.fullName = n := by
  constructor
  · intro hn
    obtain ⟨t, ht, rfl⟩ := List.mem_map.mp hn
    exact ⟨t, h.sound t ht, rfl⟩
  · rintro ⟨t, ht, rfl⟩
    exact h.complete t ht

/-- Two answers for one declaration have the same names in the same order. -/
theorem Answers.names_eq {deps deps' : TypeSet} (h : c.Answers d deps) (h' : c.Answers d deps') :
    deps.names = deps'.names :=
  SortedSet.keys_eq_of_mem_iff fun n => (h.mem_names_iff n).trans (h'.mem_names_iff n).symm

/-- Declarations that reach each other have the same answers. -/
theorem Answers.of_reaches {deps : TypeSet} (h : c.Answers a deps) (hab : c.Reaches a b)
    (hba : c.Reaches b a) : c.Answers b deps where
  sound t ht := (h.sound t ht).of_reaches hba
  complete t ht := h.complete t (ht.of_reaches hab)

end Catalogue
end Unweave

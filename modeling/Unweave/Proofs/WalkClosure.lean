import Mathlib.Data.List.Perm.Subperm
import Unweave.Proofs.Reach

/-!
# A walk finds the closure

A walk leaves the stack it was given as it was, with a segment of new declarations on top: those
that it entered and that are on a cycle with something further down.  What holds of a walk is said
about this segment (`Walked`).  Each declaration in it has had its own types collected.  Each of its
edges leads into the segment, or to a declaration whose whole closure was collected, or down the
stack to a place no lower than the one that the walk reports.

When the report is no lower than the declaration itself, edges of the segment stay in the segment or
lead to what was collected, so the collected types are the closure of every declaration in it.  This
is the only moment at which answers are written down, and it does not matter where on a cycle the
walk came in, nor what was answered before.
-/

namespace Unweave
namespace Walk

open Catalogue

variable {c : Catalogue}

/-! ## Heights -/

theorem heightOf_eq_none_iff (id : NodeId) (xs : List NodeId) :
    heightOf id xs = none ↔ id ∉ xs := by
  induction xs with
  | nil => simp [heightOf]
  | cons x xs ih =>
    rw [heightOf]
    by_cases hx : x = id
    · simp [hx]
    · simp [hx, ih, Ne.symm hx]

theorem heightOf_lt {id : NodeId} {xs : List NodeId} {h : Nat} (hh : heightOf id xs = some h) :
    h < xs.length := by
  induction xs with
  | nil => cases hh
  | cons x xs ih =>
    rw [heightOf] at hh
    rw [List.length_cons]
    by_cases hx : x = id
    · rw [if_pos hx, Option.some.injEq] at hh
      omega
    · rw [if_neg hx] at hh
      have := ih hh
      omega

/-- A height within a longer stack is one in the upper part, or a height within the lower part. -/
theorem heightOf_append {id : NodeId} {new xs : List NodeId} {h : Nat}
    (hh : heightOf id (new ++ xs) = some h) :
    (id ∈ new ∧ xs.length ≤ h) ∨ heightOf id xs = some h := by
  induction new with
  | nil => exact Or.inr hh
  | cons x new ih =>
    rw [List.cons_append, heightOf] at hh
    by_cases hx : x = id
    · rw [if_pos hx, Option.some.injEq, List.length_append] at hh
      exact Or.inl ⟨by rw [hx]; exact List.mem_cons_self, by omega⟩
    · rw [if_neg hx] at hh
      exact (ih hh).imp_left fun hmem => ⟨List.mem_cons_of_mem _ hmem.1, hmem.2⟩

/-! ## Settling -/

theorem settle_append {id : NodeId} {new : List NodeId} (hid : id ∉ new) (deps : TypeSet)
    (cache : List (NodeId × TypeSet)) (xs : List NodeId) :
    settle id deps cache (new ++ id :: xs) =
      ⟨((new ++ [id]).map fun x => (x, deps)).reverse ++ cache, xs⟩ := by
  induction new generalizing cache with
  | nil => simp [settle]
  | cons x new ih =>
    have hx : x ≠ id := fun h => hid (by rw [h]; exact List.mem_cons_self)
    rw [List.cons_append, settle, if_neg hx, ih (fun h => hid (List.mem_cons_of_mem _ h))]
    simp

/-! ## The loop of a walk -/

/-- Collect what a walk found, and how far down it got. -/
def absorb (r : (TypeSet × Nat) × State) (w : (TypeSet × Option Nat) × State) :
    (TypeSet × Nat) × State :=
  ((r.1.1.union w.1.1, min r.1.2 (w.1.2.getD r.1.2)), w.2)

/-- One turn of the loop. -/
def visit (c : Catalogue) (fuel : Nat) (r : (TypeSet × Nat) × State) (t : Declaration) :
    (TypeSet × Nat) × State :=
  absorb r (walk c fuel t r.2)

/-- What follows the loop: the declaration stays open, or its segment of the stack is settled. -/
def leave (d : Declaration) (height : Nat) (r : (TypeSet × Nat) × State) :
    (TypeSet × Option Nat) × State :=
  if r.1.2 < height then ((r.1.1, some r.1.2), r.2)
  else ((r.1.1, none), settle d.id r.1.1 r.2.cache r.2.stack)

theorem walk_cached {fuel : Nat} {d : Declaration} {s : State} {deps : TypeSet}
    (h : s.cache.lookup d.id = some deps) : walk c (fuel + 1) d s = ((deps, none), s) := by
  rw [walk, h]

theorem walk_open {fuel : Nat} {d : Declaration} {s : State} {height : Nat}
    (hc : s.cache.lookup d.id = none) (h : heightOf d.id s.stack = some height) :
    walk c (fuel + 1) d s = ((.empty, some height), s) := by
  rw [walk, hc, h]

theorem walk_fresh {fuel : Nat} {d : Declaration} {s : State}
    (hc : s.cache.lookup d.id = none) (h : heightOf d.id s.stack = none) :
    walk c (fuel + 1) d s =
      leave d s.stack.length ((targets c d).foldl (visit c fuel)
        ((TypeSet.ofSymbols d.symbols, s.stack.length), ⟨s.cache, d.id :: s.stack⟩)) := by
  rw [walk, hc, h]
  rfl

/-! ## What holds of a walk -/

/-- Every answer that was written down is one. -/
def Faithful (c : Catalogue) (cache : List (NodeId × TypeSet)) : Prop :=
  ∀ a ∈ cache, ∃ d, c.Lists d ∧ d.id = a.1 ∧ c.Answers d a.2

/-- A segment of distinct declarations that can stand on top of a stack. -/
structure Segment (c : Catalogue) (stack new : List NodeId) : Prop where
  nodup : new.Nodup
  apart : ∀ id ∈ new, id ∉ stack
  listed : ∀ id ∈ new, ∃ x, c.Lists x ∧ x.id = id

/-- The whole closure of the declaration was collected. -/
def Covers (c : Catalogue) (deps : TypeSet) (d : Declaration) : Prop :=
  ∀ t, c.DependsOn d t → t.fullName ∈ deps.names

/-- Where a declaration may stand that an edge of a segment leads to. -/
def Accounted (c : Catalogue) (deps : TypeSet) (new stack : List NodeId) (low : Nat)
    (d : Declaration) : Prop :=
  Covers c deps d ∨ d.id ∈ new ∨ ∃ h, heightOf d.id stack = some h ∧ low ≤ h

/-- What is known of the declarations in a segment above `stack`, when `deps` was collected for `d`
and `low` is as far down as was seen.  `done x y` says that the edge from `x` to `y` was followed.
-/
structure Collected (c : Catalogue) (d : Declaration) (done : Declaration → Declaration → Prop)
    (stack new : List NodeId) (deps : TypeSet) (low : Nat) : Prop where
  segment : Segment c stack new
  sound : ∀ t ∈ deps.refs, c.DependsOn d t
  own : ∀ x, c.Lists x → x.id ∈ new → ∀ t, x.Mentions t → t.fullName ∈ deps.names
  edges : ∀ x, c.Lists x → x.id ∈ new → ∀ y, done x y → Accounted c deps new stack low y
  forth : ∀ x, c.Lists x → x.id ∈ new → c.Reaches d x

/-- The outcome of walking `d`, which left the segment `new` open. -/
structure Walked (c : Catalogue) (d : Declaration) (s : State)
    (r : (TypeSet × Option Nat) × State) (new : List NodeId) : Prop where
  stack_eq : r.2.stack = new ++ s.stack
  faithful : Faithful c r.2.cache
  collected : Collected c d c.Edge s.stack new r.1.1 (r.1.2.getD s.stack.length)
  self : Accounted c r.1.1 new s.stack (r.1.2.getD s.stack.length) d
  low : ∀ l, r.1.2 = some l → ∃ y, c.Reaches d y ∧ heightOf y.id s.stack = some l
  back : ∀ x, c.Lists x → x.id ∈ new → ∃ y h, c.Reaches x y ∧
    heightOf y.id s.stack = some h ∧ r.1.2.getD s.stack.length ≤ h

/-- The loop of a walk of `d` above `stack`, after the targets in `seen`. -/
structure Explored (c : Catalogue) (d : Declaration) (stack : List NodeId)
    (seen : List Declaration) (r : (TypeSet × Nat) × State) (new : List NodeId) : Prop where
  stack_eq : r.2.stack = new ++ d.id :: stack
  faithful : Faithful c r.2.cache
  collected : Collected c d (fun x y => c.Edge x y ∧ (x = d → y ∈ seen)) stack (new ++ [d.id])
    r.1.1 r.1.2
  low_le : r.1.2 ≤ stack.length
  low : r.1.2 < stack.length → ∃ y, c.Reaches d y ∧ heightOf y.id stack = some r.1.2
  back : ∀ x, c.Lists x → x.id ∈ new → c.Reaches x d ∨ ∃ y h, c.Reaches x y ∧
    heightOf y.id stack = some h ∧ r.1.2 ≤ h

/-- Fuel for the declarations that are not on the stack yet.  Only what lies above the stack of the
first call is known to be of the catalogue. -/
def Room (c : Catalogue) (fuel : Nat) (stack : List NodeId) : Prop :=
  ∃ mine base, stack = mine ++ base ∧ Segment c base mine ∧ c.entries.length < fuel + mine.length

/-! ## Segments and room -/

theorem segment_nil (stack : List NodeId) : Segment c stack [] :=
  ⟨List.nodup_nil, by simp, by simp⟩

theorem segment_singleton {d : Declaration} {stack : List NodeId} (hd : c.Lists d)
    (h : d.id ∉ stack) : Segment c stack [d.id] := by
  refine ⟨List.nodup_singleton _, fun id hid => ?_, fun id hid => ?_⟩
  · rw [List.mem_singleton.mp hid]
    exact h
  · exact ⟨d, hd, (List.mem_singleton.mp hid).symm⟩

theorem Segment.append {stack below new : List NodeId} (h : Segment c (below ++ stack) new)
    (hb : Segment c stack below) : Segment c stack (new ++ below) where
  nodup := List.Nodup.append h.nodup hb.nodup
    fun id hid hmem => h.apart id hid (List.mem_append_left _ hmem)
  apart id hid hmem := by
    rcases List.mem_append.mp hid with hid | hid
    · exact h.apart id hid (List.mem_append_right _ hmem)
    · exact hb.apart id hid hmem
  listed id hid := (List.mem_append.mp hid).elim (h.listed id) (hb.listed id)

theorem Segment.length_le {stack new : List NodeId} (h : Segment c stack new) :
    new.length ≤ c.entries.length := by
  have hsub : new ⊆ c.entries.map Entry.id := fun id hid => by
    obtain ⟨x, hx, rfl⟩ := h.listed id hid
    exact hx.mem_ids
  have hlen := (h.nodup.subperm hsub).length_le
  rwa [List.length_map] at hlen

theorem not_room_zero (stack : List NodeId) : ¬ Room c 0 stack := by
  rintro ⟨mine, base, -, hmine, hlt⟩
  have := hmine.length_le
  omega

/-- Each declaration that is put on the stack leaves room for the next. -/
theorem Room.push {fuel : Nat} {stack new : List NodeId} {d : Declaration}
    (h : Room c (fuel + 1) stack) (hnew : Segment c stack (new ++ [d.id])) :
    Room c fuel (new ++ d.id :: stack) := by
  obtain ⟨mine, base, rfl, hmine, hlt⟩ := h
  refine ⟨(new ++ [d.id]) ++ mine, base, by simp, hnew.append hmine, ?_⟩
  simp only [List.length_append, List.length_singleton]
  omega

/-! ## One turn of the loop -/

theorem Covers.mono {deps deps' : TypeSet} {d : Declaration} (h : Covers c deps d)
    (hsub : deps.names ⊆ deps'.names) : Covers c deps' d :=
  fun t ht => hsub (h t ht)

theorem Accounted.mono {deps deps' : TypeSet} {new new' stack : List NodeId} {low low' : Nat}
    {d : Declaration} (h : Accounted c deps new stack low d) (hdeps : deps.names ⊆ deps'.names)
    (hnew : new ⊆ new') (hlow : low' ≤ low) : Accounted c deps' new' stack low' d := by
  rcases h with h | h | ⟨height, hh, hle⟩
  · exact Or.inl (h.mono hdeps)
  · exact Or.inr (Or.inl (hnew h))
  · exact Or.inr (Or.inr ⟨height, hh, le_trans hlow hle⟩)

/-- A report no higher than a place that is below its bound was really made. -/
theorem exists_of_getD_le {low : Option Nat} {bound h : Nat} (hle : low.getD bound ≤ h)
    (hlt : h < bound) : ∃ l, low = some l ∧ l ≤ h := by
  cases low with
  | none => exact absurd hle (not_le.mpr hlt)
  | some l => exact ⟨l, rfl, hle⟩

/-- What is accounted for above a longer stack is accounted for above its lower part, the upper part
becoming part of the segment. -/
theorem Accounted.lower {deps : TypeSet} {new upper stack : List NodeId} {low : Option Nat}
    {low' : Nat} {d : Declaration}
    (h : Accounted c deps new (upper ++ stack) (low.getD (upper ++ stack).length) d)
    (hlow : ∀ l, low = some l → low' ≤ l) : Accounted c deps (new ++ upper) stack low' d := by
  rcases h with h | h | ⟨height, hh, hle⟩
  · exact Or.inl h
  · exact Or.inr (Or.inl (List.mem_append_left _ h))
  · rcases heightOf_append hh with ⟨hmem, -⟩ | hstack
    · exact Or.inr (Or.inl (List.mem_append_right _ hmem))
    · obtain ⟨l, hl, hlh⟩ := exists_of_getD_le hle (heightOf_lt hh)
      exact Or.inr (Or.inr ⟨height, hstack, le_trans (hlow l hl) hlh⟩)

theorem names_subset_union_left (s t : TypeSet) : s.names ⊆ (s.union t).keys :=
  fun n hn => (s.mem_keys_union t n).mpr (Or.inl hn)

theorem names_subset_union_right (s t : TypeSet) : t.names ⊆ (s.union t).keys :=
  fun n hn => (s.mem_keys_union t n).mpr (Or.inr hn)

variable {d τ : Declaration} {stack new new' : List NodeId} {seen : List Declaration}
  {r : (TypeSet × Nat) × State} {w : (TypeSet × Option Nat) × State}

theorem Explored.stack_append (h : Explored c d stack seen r new) :
    r.2.stack = (new ++ [d.id]) ++ stack := by
  rw [h.stack_eq, List.append_assoc, List.singleton_append]

theorem low_absorb_le (r : (TypeSet × Nat) × State) {l : Nat} (hl : w.1.2 = some l) :
    (absorb r w).1.2 ≤ l := by
  show min r.1.2 (w.1.2.getD r.1.2) ≤ l
  rw [hl]
  exact min_le_right _ _

/-- The part of the invariant that speaks of the segment. -/
theorem Explored.collected_absorb (hedge : c.Edge d τ)
    (h : Explored c d stack seen r new) (hw : Walked c τ r.2 w new') :
    Collected c d (fun x y => c.Edge x y ∧ (x = d → y ∈ seen ++ [τ])) stack
      (new' ++ (new ++ [d.id])) (absorb r w).1.1 (absorb r w).1.2 := by
  have hstack := h.stack_append
  have hsub : Collected c τ c.Edge ((new ++ [d.id]) ++ stack) new' w.1.1
      (w.1.2.getD ((new ++ [d.id]) ++ stack).length) := by
    rw [← hstack]
    exact hw.collected
  have hself : Accounted c w.1.1 new' ((new ++ [d.id]) ++ stack)
      (w.1.2.getD ((new ++ [d.id]) ++ stack).length) τ := by
    rw [← hstack]
    exact hw.self
  have hleft := names_subset_union_left r.1.1 w.1.1
  have hright := names_subset_union_right r.1.1 w.1.1
  -- An edge of the new part is accounted for by the walk, one of the old part by what was known.
  have hbelow : ∀ y, Accounted c w.1.1 new' ((new ++ [d.id]) ++ stack)
      (w.1.2.getD ((new ++ [d.id]) ++ stack).length) y →
      Accounted c (absorb r w).1.1 (new' ++ (new ++ [d.id])) stack (absorb r w).1.2 y :=
    fun y hy => (hy.lower fun l hl => low_absorb_le r hl).mono hright (fun _ hx => hx) le_rfl
  refine ⟨hsub.segment.append h.collected.segment, fun t ht => ?_, ?_, ?_, ?_⟩
  · rcases SortedSet.mem_of_mem_union ht with ht | ht
    · exact h.collected.sound t ht
    · exact (hsub.sound t ht).of_edge hedge
  · intro x hx hmem t ht
    rcases List.mem_append.mp hmem with hmem | hmem
    · exact hright (hsub.own x hx hmem t ht)
    · exact hleft (h.collected.own x hx hmem t ht)
  · rintro x hx hmem y ⟨hxy, hdone⟩
    rcases List.mem_append.mp hmem with hmem | hmem
    · exact hbelow y (hsub.edges x hx hmem y hxy)
    · by_cases hold : x = d → y ∈ seen
      · exact (h.collected.edges x hx hmem y ⟨hxy, hold⟩).mono hleft
          (List.subset_append_right _ _) (min_le_left _ _)
      · obtain ⟨hxd, hnew⟩ := Classical.not_imp.mp hold
        rcases List.mem_append.mp (hdone hxd) with hy | hy
        · exact absurd hy hnew
        · rw [List.mem_singleton.mp hy]
          exact hbelow τ hself
  · intro x hx hmem
    rcases List.mem_append.mp hmem with hmem | hmem
    · exact (hsub.forth x hx hmem).head hedge
    · exact h.collected.forth x hx hmem

/-- Walking one more target keeps the invariant of the loop. -/
theorem Explored.absorb (hd : c.Lists d) (hedge : c.Edge d τ)
    (h : Explored c d stack seen r new) (hw : Walked c τ r.2 w new') :
    Explored c d stack (seen ++ [τ]) (absorb r w) (new' ++ new) where
  stack_eq := by
    show w.2.stack = _
    rw [hw.stack_eq, h.stack_eq, List.append_assoc]
  faithful := hw.faithful
  collected := by
    rw [List.append_assoc]
    exact h.collected_absorb hedge hw
  low_le := le_trans (min_le_left _ _) h.low_le
  low hlt := by
    have hmin : (Walk.absorb r w).1.2 = min r.1.2 (w.1.2.getD r.1.2) := rfl
    by_cases hle : r.1.2 ≤ w.1.2.getD r.1.2
    · rw [hmin, min_eq_left hle] at hlt ⊢
      exact h.low hlt
    · obtain ⟨l, hl, -⟩ := exists_of_getD_le le_rfl (not_le.mp hle)
      have hmin' : (Walk.absorb r w).1.2 = l := by
        rw [hl] at hle
        rw [hmin, hl]
        exact min_eq_right (le_of_lt (not_le.mp hle))
      obtain ⟨y, hy, hheight⟩ := hw.low l hl
      rw [h.stack_append] at hheight
      rw [hmin'] at hlt ⊢
      rcases heightOf_append hheight with ⟨-, hge⟩ | hstack
      · exact absurd hge (not_le.mpr hlt)
      · exact ⟨y, hy.head hedge, hstack⟩
  back x hx hmem := by
    have hold : ∀ y, c.Lists y → y.id ∈ new → c.Reaches y d ∨ ∃ z height, c.Reaches y z ∧
        heightOf z.id stack = some height ∧ (Walk.absorb r w).1.2 ≤ height := fun y hy hmem =>
      (h.back y hy hmem).imp_right fun ⟨z, height, hz, hheight, hle⟩ =>
        ⟨z, height, hz, hheight, le_trans (min_le_left _ _) hle⟩
    rcases List.mem_append.mp hmem with hmem | hmem
    · obtain ⟨y, height, hxy, hheight, hle⟩ := hw.back x hx hmem
      have hy : c.Lists y := hxy.lists hx
      obtain ⟨l, hl, hlh⟩ := exists_of_getD_le hle (heightOf_lt hheight)
      rw [h.stack_append] at hheight
      rcases heightOf_append hheight with ⟨hmem, -⟩ | hstack
      · rcases List.mem_append.mp hmem with hmem | hmem
        · exact (hold y hy hmem).imp hxy.trans fun ⟨z, k, hz, hrest⟩ => ⟨z, k, hxy.trans hz, hrest⟩
        · rw [hy.eq_of_id hd (List.mem_singleton.mp hmem)] at hxy
          exact Or.inl hxy
      · exact Or.inr ⟨y, height, hxy, hstack, le_trans (low_absorb_le r hl) hlh⟩
    · exact hold x hx hmem

/-! ## The end of the loop -/

/-- When all targets were walked, every edge of the segment was followed. -/
theorem Explored.accounted (h : Explored c d stack (targets c d) r new) {x y : Declaration}
    (hx : c.Lists x) (hmem : x.id ∈ new ++ [d.id]) (hxy : c.Edge x y) :
    Accounted c r.1.1 (new ++ [d.id]) stack r.1.2 y := by
  refine h.collected.edges x hx hmem y ⟨hxy, fun hxd => ?_⟩
  rw [hxd] at hxy
  exact (mem_targets_iff c d y).mpr hxy

/-- A segment from which nothing leads further down has collected all closures of its own. -/
theorem Explored.covers (h : Explored c d stack (targets c d) r new) (hlow : stack.length ≤ r.1.2)
    {x : Declaration} (hx : c.Lists x) (hmem : x.id ∈ new ++ [d.id]) : Covers c r.1.1 x := by
  rintro t ⟨z, hxz, hz⟩
  -- Along the path: as long as it stays in the segment the edges are accounted for.
  induction hxz using Relation.ReflTransGen.head_induction_on with
  | refl => exact h.collected.own z hx hmem t hz
  | head hxy hyz ih =>
    rcases h.accounted hx hmem hxy with hcov | hin | ⟨height, hheight, hle⟩
    · exact hcov t ⟨z, hyz, hz⟩
    · exact ih hxy.lists hin
    · have := heightOf_lt hheight
      omega

/-- In such a segment everything is on a cycle with the declaration that opened it. -/
theorem Explored.answers (hd : c.Lists d) (h : Explored c d stack (targets c d) r new)
    (hlow : stack.length ≤ r.1.2) {x : Declaration} (hx : c.Lists x)
    (hmem : x.id ∈ new ++ [d.id]) : c.Answers x r.1.1 := by
  have hself : c.Answers d r.1.1 :=
    ⟨h.collected.sound, h.covers hlow hd (List.mem_append_right _ List.mem_cons_self)⟩
  have hback : c.Reaches x d := by
    rcases List.mem_append.mp hmem with hmem | hmem
    · rcases h.back x hx hmem with hback | ⟨y, height, -, hheight, hle⟩
      · exact hback
      · have := heightOf_lt hheight
        omega
    · rw [hx.eq_of_id hd (List.mem_singleton.mp hmem)]
      exact .refl
  exact hself.of_reaches (h.collected.forth x hx hmem) hback

theorem Explored.leave_open {s : State} (hd : c.Lists d)
    (h : Explored c d s.stack (targets c d) r new) (hlt : r.1.2 < s.stack.length) :
    Walked c d s (leave d s.stack.length r) (new ++ [d.id]) := by
  rw [leave, if_pos hlt]
  obtain ⟨y, hy, hheight⟩ := h.low hlt
  refine ⟨h.stack_append, h.faithful, ?_, ?_, ?_, ?_⟩
  · exact { h.collected with edges := fun x hx hmem y hxy => h.accounted hx hmem hxy }
  · exact Or.inr (Or.inl (List.mem_append_right _ List.mem_cons_self))
  · intro l hl
    rw [← Option.some.inj hl]
    exact ⟨y, hy, hheight⟩
  · intro x hx hmem
    have hdown : c.Reaches x d → ∃ y height, c.Reaches x y ∧
        heightOf y.id s.stack = some height ∧ r.1.2 ≤ height :=
      fun hxd => ⟨y, r.1.2, hxd.trans hy, hheight, le_rfl⟩
    rcases List.mem_append.mp hmem with hmem | hmem
    · exact (h.back x hx hmem).elim hdown id
    · rw [hx.eq_of_id hd (List.mem_singleton.mp hmem)] at hdown ⊢
      exact hdown .refl

theorem Explored.leave_closed {s : State} (hd : c.Lists d)
    (h : Explored c d s.stack (targets c d) r new) (hge : ¬ r.1.2 < s.stack.length) :
    Walked c d s (leave d s.stack.length r) [] := by
  have hlow : s.stack.length ≤ r.1.2 := not_lt.mp hge
  have hnew : d.id ∉ new := by
    have hnodup := h.collected.segment.nodup
    rw [List.nodup_append_comm] at hnodup
    exact (List.nodup_cons.mp hnodup).1
  have hsettle : settle d.id r.1.1 r.2.cache r.2.stack =
      ⟨((new ++ [d.id]).map fun x => (x, r.1.1)).reverse ++ r.2.cache, s.stack⟩ := by
    rw [h.stack_eq, settle_append hnew]
  have hself := h.answers hd hlow hd (List.mem_append_right _ List.mem_cons_self)
  rw [leave, if_neg hge, hsettle]
  refine ⟨rfl, ?_, ⟨segment_nil _, hself.sound, ?_, ?_, ?_⟩, Or.inl hself.complete,
    ?_, ?_⟩
  · intro a ha
    rcases List.mem_append.mp ha with ha | ha
    · obtain ⟨id, hid, rfl⟩ := List.mem_map.mp (List.mem_reverse.mp ha)
      obtain ⟨x, hx, rfl⟩ := h.collected.segment.listed id hid
      exact ⟨x, hx, rfl, h.answers hd hlow hx hid⟩
    · exact h.faithful a ha
  all_goals simp

theorem Explored.leave {s : State} (hd : c.Lists d)
    (h : Explored c d s.stack (targets c d) r new) :
    ∃ new', Walked c d s (leave d s.stack.length r) new' := by
  by_cases hlt : r.1.2 < s.stack.length
  · exact ⟨_, h.leave_open hd hlt⟩
  · exact ⟨_, h.leave_closed hd hlt⟩

/-! ## Walks -/

/-- A walk that found its declaration answered or open changes nothing. -/
theorem walked_of_unchanged {s : State} {deps : TypeSet} {low : Option Nat}
    (hs : Faithful c s.cache) (hsound : ∀ t ∈ deps.refs, c.DependsOn d t)
    (hself : Accounted c deps [] s.stack (low.getD s.stack.length) d)
    (hlow : ∀ l, low = some l → heightOf d.id s.stack = some l) :
    Walked c d s ((deps, low), s) [] := by
  refine ⟨rfl, hs, ⟨segment_nil _, hsound, ?_, ?_, ?_⟩, hself, ?_, ?_⟩
  · simp
  · simp
  · simp
  · exact fun l hl => ⟨d, .refl, hlow l hl⟩
  · simp

/-- The state in which the loop begins. -/
theorem explored_start {s : State} (hd : c.Lists d) (hs : Faithful c s.cache)
    (hopen : d.id ∉ s.stack) :
    Explored c d s.stack [] ((TypeSet.ofSymbols d.symbols, s.stack.length),
      ⟨s.cache, d.id :: s.stack⟩) [] := by
  have hself : ∀ x, c.Lists x → x.id ∈ [] ++ [d.id] → x = d :=
    fun x hx hmem => hx.eq_of_id hd (List.mem_singleton.mp hmem)
  refine ⟨rfl, hs, ⟨segment_singleton hd hopen, ?_, ?_, ?_, ?_⟩,
    le_rfl, ?_, ?_⟩
  · exact fun t ht => dependsOn_of_mentions (TypeSet.mem_ofSymbols ht)
  · intro x hx hmem t ht
    rw [hself x hx hmem] at ht
    exact TypeSet.mem_names_ofSymbols ht
  · rintro x hx hmem y ⟨-, hdone⟩
    exact nomatch hdone (hself x hx hmem)
  · intro x hx hmem
    rw [hself x hx hmem]
    exact .refl
  · exact fun hlt => absurd hlt (lt_irrefl _)
  · simp

/-- Walking all of some targets keeps the invariant of the loop. -/
theorem Explored.foldl {fuel : Nat} (hd : c.Lists d)
    (hwalk : ∀ t s, c.Lists t → Faithful c s.cache → Room c fuel s.stack →
      ∃ new, Walked c t s (walk c fuel t s) new)
    (hroom : Room c (fuel + 1) stack) (ts : List Declaration) (hts : ∀ t ∈ ts, c.Edge d t)
    (h : Explored c d stack seen r new) :
    ∃ new', Explored c d stack (seen ++ ts) (ts.foldl (visit c fuel) r) new' := by
  induction ts generalizing seen r new with
  | nil =>
    rw [List.append_nil]
    exact ⟨new, h⟩
  | cons t ts ih =>
    have hedge := hts t List.mem_cons_self
    have hroom' : Room c fuel r.2.stack := by
      rw [h.stack_eq]
      exact hroom.push h.collected.segment
    obtain ⟨new', hw⟩ := hwalk t r.2 hedge.lists h.faithful hroom'
    have hnext := ih (fun t ht => hts t (List.mem_cons_of_mem _ ht)) (h.absorb hd hedge hw)
    rw [List.append_assoc, List.singleton_append] at hnext
    exact hnext

/-- What a walk does, from any state with faithful answers and room on the stack. -/
theorem walk_spec (fuel : Nat) (d : Declaration) (s : State) (hd : c.Lists d)
    (hs : Faithful c s.cache) (hroom : Room c fuel s.stack) :
    ∃ new, Walked c d s (walk c fuel d s) new := by
  induction fuel generalizing d s with
  | zero => exact absurd hroom (not_room_zero _)
  | succ fuel ih =>
    cases hcache : s.cache.lookup d.id with
    | some deps =>
      rw [walk_cached hcache]
      have hmem : (d.id, deps) ∈ s.cache := by
        obtain ⟨before, after, hsplit, -⟩ := List.lookup_eq_some_iff.mp hcache
        rw [hsplit]
        exact List.mem_append_right _ List.mem_cons_self
      obtain ⟨x, hx, hid, hans⟩ := hs _ hmem
      rw [hx.eq_of_id hd hid] at hans
      exact ⟨[], walked_of_unchanged hs hans.sound (Or.inl hans.complete) (by simp)⟩
    | none =>
      cases hheight : heightOf d.id s.stack with
      | some height =>
        rw [walk_open hcache hheight]
        refine ⟨[], walked_of_unchanged hs ?_ ?_ ?_⟩
        · exact fun t ht => nomatch ht
        · exact Or.inr (Or.inr ⟨height, hheight, le_rfl⟩)
        · exact fun l hl => hheight.trans hl
      | none =>
        rw [walk_fresh hcache hheight]
        have hopen := (heightOf_eq_none_iff d.id s.stack).mp hheight
        obtain ⟨new, h⟩ := (explored_start hd hs hopen).foldl hd
          (fun t s => ih t s) hroom (targets c d) (fun t ht => (mem_targets_iff c d t).mp ht)
        rw [List.nil_append] at h
        exact h.leave hd

end Walk

/-! ## Walkers -/

namespace Walker

open Catalogue

/-- Everything that the walker remembers is an answer. -/
def Faithful (w : Walker) : Prop := Walk.Faithful w.catalogue w.cache

theorem faithful_ofProject (p : Project) : (ofProject p).Faithful := fun _ h => nomatch h

theorem room_start (c : Catalogue) (stack : List NodeId) :
    Walk.Room c (c.entries.length + 1) stack :=
  ⟨[], stack, rfl, Walk.segment_nil stack, by simp⟩

/-- A query on its own leaves nothing open, so it finds the whole closure. -/
theorem answers_dependencies {w : Walker} {d : Declaration} (hw : w.Faithful)
    (hd : w.catalogue.Lists d) : w.catalogue.Answers d (w.dependencies d).1 := by
  obtain ⟨new, h⟩ := Walk.walk_spec _ d ⟨w.cache, []⟩ hd hw (room_start w.catalogue [])
  refine ⟨h.collected.sound, ?_⟩
  have hnew : new = [] := by
    refine List.eq_nil_iff_forall_not_mem.mpr fun id hid => ?_
    obtain ⟨x, hx, rfl⟩ := h.collected.segment.listed id hid
    obtain ⟨y, height, -, hheight, -⟩ := h.back x hx hid
    cases hheight
  rcases h.self with hcov | hin | ⟨height, hheight, -⟩
  · exact hcov
  · rw [hnew] at hin
    cases hin
  · cases hheight

theorem faithful_dependencies {w : Walker} {d : Declaration} (hw : w.Faithful)
    (hd : w.catalogue.Lists d) : (w.dependencies d).2.Faithful := by
  obtain ⟨new, h⟩ := Walk.walk_spec _ d ⟨w.cache, []⟩ hd hw (room_start w.catalogue [])
  exact h.faithful

@[simp] theorem catalogue_dependencies (w : Walker) (d : Declaration) :
    (w.dependencies d).2.catalogue = w.catalogue := rfl

@[simp] theorem catalogue_answerAll (w : Walker) (es : List Entry) :
    (w.answerAll es).2.catalogue = w.catalogue := by
  induction es generalizing w with
  | nil => rfl
  | cons e es ih =>
    exact (ih (w.dependencies e.declaration).2).trans (w.catalogue_dependencies e.declaration)

/-- A run of queries answers each of them, in order. -/
theorem answerAll_queries (w : Walker) (es : List Entry) :
    (w.answerAll es).1.map Prod.fst = es := by
  induction es generalizing w with
  | nil => rfl
  | cons e es ih => exact congrArg (e :: ·) (ih (w.dependencies e.declaration).2)

/-- Whatever was asked before, each answer of a run is one. -/
theorem answers_answerAll {w : Walker} {es : List Entry} (hw : w.Faithful)
    (hes : ∀ e ∈ es, w.catalogue.Lists e.declaration) :
    ∀ a ∈ (w.answerAll es).1, w.catalogue.Answers a.1.declaration a.2 := by
  induction es generalizing w with
  | nil => exact fun a ha => nomatch ha
  | cons e es ih =>
    have he := hes e List.mem_cons_self
    intro a ha
    rcases List.mem_cons.mp ha with rfl | ha
    · exact answers_dependencies hw he
    · exact ih (faithful_dependencies hw he) (fun e he => hes e (List.mem_cons_of_mem _ he)) a ha

/-- Answers to queries on one walker, in any order and number, are the full names in the closures:
those of the types without an unknown part, and of everything inside them, that the reachable
declarations mention.  They do not depend on the other queries. -/
theorem answerAll_names_iff_closure (p : Project) (queries : List Entry)
    (hqueries : ∀ e ∈ queries, e ∈ (Catalogue.ofProject p).declarations) :
    ((ofProject p).answerAll queries).1.map Prod.fst = queries ∧
    (∀ a ∈ ((ofProject p).answerAll queries).1, ∀ n, n ∈ a.2.names ↔
      ∃ x, (Catalogue.ofProject p).Reaches a.1.declaration x ∧
        ∃ s ∈ x.symbols, s.containsError = false ∧
          ∃ r ∈ s.parts, ∃ t, TypeRef.ofSymbol? r = some t ∧ t.fullName = n) ∧
    ∀ others : List Entry, (∀ e ∈ others, e ∈ (Catalogue.ofProject p).declarations) →
      ∀ a ∈ ((ofProject p).answerAll queries).1, ∀ b ∈ ((ofProject p).answerAll others).1,
        a.1.declaration = b.1.declaration → a.2.names = b.2.names := by
  have hanswers : ∀ es : List Entry, (∀ e ∈ es, e ∈ (Catalogue.ofProject p).declarations) →
      ∀ a ∈ ((ofProject p).answerAll es).1,
        (Catalogue.ofProject p).Answers a.1.declaration a.2 := fun es hes =>
    answers_answerAll (faithful_ofProject p) fun e he => lists_of_mem_declarations (hes e he)
  refine ⟨answerAll_queries _ _, fun a ha n => ?_, fun others hothers a ha b hb hab => ?_⟩
  · rw [(hanswers queries hqueries a ha).mem_names_iff]
    constructor
    · rintro ⟨t, ⟨x, hx, s, hs, hok, r, hr, ht⟩, hn⟩
      exact ⟨x, hx, s, hs, hok, r, hr, t, ht, hn⟩
    · rintro ⟨x, hx, s, hs, hok, r, hr, t, ht, hn⟩
      exact ⟨t, ⟨x, hx, s, hs, hok, r, hr, ht⟩, hn⟩
  · have h := hanswers queries hqueries a ha
    rw [hab] at h
    exact h.names_eq (hanswers others hothers b hb)

/-- A field whose initializer refers to some declarations. -/
def ringField (id : UInt32) (type : TypeSymbol) (callees : List UInt32) : Member :=
  .leaf
    { id := ⟨id⟩
      form := .field ⟨type.name, type⟩
        [{ name := "next"
           initializer := some
            { kind := .arrow, text := "",
              expressions := callees.map fun callee =>
                { text := ""
                  symbol := some { name := "next", declaration := some ⟨callee⟩ } } } }] }

/-- Two cycles with a declaration in common, inside a type. -/
def ring : Project :=
  { id := ⟨1⟩, name := "Ring", assembly := "Ring"
    documents :=
      [{ id := ⟨1⟩, name := "Ring.cs"
         root :=
          { members :=
              [.type { id := ⟨1⟩, kind := .classKind, name := "Ring" }
                [ringField 2 (.named "A" "" "X") [3], ringField 3 (.named "B" "" "Y") [2, 4],
                  ringField 4 (.array (.named "C" "" "Z")) [3]]] } }] }

theorem answerAll_names_ring :
    ((ofProject ring).answerAll (Catalogue.ofProject ring).declarations).1.map (·.2.names) =
      List.replicate 4 ["[A]X", "[B]Y", "[C]Z", "[C]Z[]"] ∧
    ∀ a ∈ ((ofProject ring).answerAll (Catalogue.ofProject ring).declarations).1,
      ∀ n, n ∈ a.2.names ↔
        ∃ x, (Catalogue.ofProject ring).Reaches a.1.declaration x ∧
          ∃ s ∈ x.symbols, s.containsError = false ∧
            ∃ r ∈ s.parts, ∃ t, TypeRef.ofSymbol? r = some t ∧ t.fullName = n :=
  ⟨by rfl, (answerAll_names_iff_closure ring _ fun _ h => h).2.1⟩

end Walker
end Unweave

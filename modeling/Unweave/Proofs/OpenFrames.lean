import Unweave.Proofs.WalkClosure

/-!
# Walking inside of open declarations

A caller that is itself inside of some declarations hands their stack to a walk.  The walk may run
into them again, and what is on such a cycle cannot be answered yet.  The caller still gets its
stack back as it was, nothing incomplete is written down, and the types of everything that can be
reached without passing through the caller's declarations are in the result.

All of this is read off the specification of a walk (`Walk.walk_spec`), which speaks of the segment
that the walk leaves on top of the caller's stack.
-/

namespace Unweave

namespace Catalogue

/-- The second declaration is reached without stepping into any of the identifiers. -/
def ReachesAvoiding (c : Catalogue) (ids : List NodeId) : Declaration → Declaration → Prop :=
  Relation.ReflTransGen fun a b => c.Edge a b ∧ b.id ∉ ids

theorem ReachesAvoiding.reaches {c : Catalogue} {ids : List NodeId} {a b : Declaration}
    (h : c.ReachesAvoiding ids a b) : c.Reaches a b := by
  induction h with
  | refl => exact .refl
  | tail _ hedge ih => exact ih.tail hedge.1

end Catalogue

namespace Walk

open Catalogue

variable {c : Catalogue} {d : Declaration} {new : List NodeId}

/-- On a stack without repetition heights are places, counted from the bottom. -/
theorem heightOf_eq_some_iff {xs : List NodeId} (hxs : xs.Nodup) (id : NodeId) (h : Nat) :
    heightOf id xs = some h ↔ xs.reverse[h]? = some id := by
  induction xs with
  | nil => simp [heightOf]
  | cons x xs ih =>
    obtain ⟨hx, hxs⟩ := List.nodup_cons.mp hxs
    have hlength : xs.reverse.length = xs.length := List.length_reverse
    rw [heightOf, List.reverse_cons]
    rcases Nat.lt_trichotomy h xs.length with hlt | rfl | hgt
    · rw [List.getElem?_append_left (by omega)]
      by_cases hid : x = id
      · have hnot : ¬ xs.reverse[h]? = some id := fun hget =>
          hx (hid ▸ List.mem_reverse.mp (List.mem_of_getElem? hget))
        rw [if_pos hid, Option.some.injEq]
        exact ⟨fun heq => by omega, fun hget => absurd hget hnot⟩
      · rw [if_neg hid, ih hxs]
    · rw [← hlength, List.getElem?_concat_length, hlength, Option.some.injEq]
      by_cases hid : x = id
      · rw [if_pos hid, eq_true hid, eq_self]
      · rw [if_neg hid]
        exact ⟨fun heq => absurd (heightOf_lt heq) (Nat.lt_irrefl _), fun heq => absurd heq hid⟩
    · rw [List.getElem?_eq_none (by rw [List.length_append, List.length_singleton]; omega)]
      refine ⟨fun heq => ?_, fun heq => by cases heq⟩
      have hlt : h < (x :: xs).length := heightOf_lt heq
      rw [List.length_cons] at hlt
      omega

/-- What is off the stack and accounted for is covered or in the segment. -/
theorem Accounted.covers_or_mem {deps : TypeSet} {stack : List NodeId} {low : Nat}
    (h : Accounted c deps new stack low d) (hd : d.id ∉ stack) : Covers c deps d ∨ d.id ∈ new := by
  rcases h with hcov | hin | ⟨height, hheight, -⟩
  · exact .inl hcov
  · exact .inr hin
  · rw [(heightOf_eq_none_iff d.id stack).mpr hd] at hheight
    cases hheight

/-- A path that avoids the stack stays in the segment until it comes to what is covered. -/
theorem Collected.mem_names_of_avoiding {stack : List NodeId} {deps : TypeSet} {low : Nat}
    (h : Collected c d c.Edge stack new deps low) {a x : Declaration} (ha : c.Lists a)
    (hoff : a.id ∉ stack) (hacc : Accounted c deps new stack low a)
    (hx : c.ReachesAvoiding stack a x) {t : TypeRef} (ht : x.Mentions t) :
    t.fullName ∈ deps.names := by
  induction hx using Relation.ReflTransGen.head_induction_on with
  | refl =>
    rcases hacc.covers_or_mem hoff with hcov | hin
    · exact hcov t (dependsOn_of_mentions ht)
    · exact h.own x ha hin t ht
  | head hab hbx ih =>
    rcases hacc.covers_or_mem hoff with hcov | hin
    · exact hcov t ⟨x, (ReachesAvoiding.reaches hbx).head hab.1, ht⟩
    · exact ih hab.1.lists hab.2 (h.edges _ ha hin _ hab.1)

end Walk

namespace Walker

open Catalogue

/-- Dropping what a walk left on top gives the caller's stack. -/
theorem drop_of_stack_eq {stack new xs : List NodeId} (h : xs = new ++ stack) :
    xs.drop (xs.length - stack.length) = stack := by
  rw [h, List.length_append, Nat.add_sub_cancel, List.drop_left]

/-- Walking inside of a caller's declarations gives their stack back as it was, so each keeps its
place, and leaves only complete answers behind.  The result holds dependencies of the declaration
only.  They are all of those that can be reached without stepping into the caller's declarations, if
the declaration itself is not one of them; if it is, and has no answer yet, the result is empty. -/
theorem dependenciesWith_transparent (w : Walker) (hw : w.Faithful) (d : Declaration)
    (hd : w.catalogue.Lists d) (v : Visited) :
    (w.dependenciesWith d v).2.2 = v ∧
    (v.stack.Nodup → ∀ id height, Walk.heightOf id (w.dependenciesWith d v).2.2.stack =
      some height ↔ v.stack.reverse[height]? = some id) ∧
    (w.dependenciesWith d v).2.1.catalogue = w.catalogue ∧
    (w.dependenciesWith d v).2.1.Faithful ∧
    (∀ t ∈ (w.dependenciesWith d v).1.refs, w.catalogue.DependsOn d t) ∧
    (d.id ∉ v.stack → ∀ x, w.catalogue.ReachesAvoiding v.stack d x → ∀ t, x.Mentions t →
      t.fullName ∈ (w.dependenciesWith d v).1.names) ∧
    (d.id ∈ v.stack → w.isCached d.id = false → (w.dependenciesWith d v).1 = .empty) := by
  obtain ⟨new, h⟩ :=
    Walk.walk_spec _ d ⟨w.cache, v.stack⟩ hd hw (room_start w.catalogue v.stack)
  have hback : (w.dependenciesWith d v).2.2 = v := by
    refine congrArg Visited.mk ?_
    exact drop_of_stack_eq h.stack_eq
  refine ⟨hback, fun hnodup id height => ?_, rfl, h.faithful, h.collected.sound, ?_, ?_⟩
  · rw [hback, Walk.heightOf_eq_some_iff hnodup]
  · exact fun hoff x hx t ht => h.collected.mem_names_of_avoiding hd hoff h.self hx ht
  · intro hon hcached
    have hlookup : w.cache.lookup d.id = none :=
      Option.isNone_iff_eq_none.mp (Option.isSome_eq_false_iff.mp hcached)
    obtain ⟨height, hheight⟩ : ∃ height, Walk.heightOf d.id v.stack = some height :=
      Option.ne_none_iff_exists'.mp fun hnone => (Walk.heightOf_eq_none_iff _ _).mp hnone hon
    rw [dependenciesWith, Walk.walk_open hlookup hheight]

/-- The third field is walked while the caller is inside of the second.  Their cycle stays open, so
the result lacks the type of the second field and is not written down. -/
theorem dependenciesWith_transparent_ring :
    (ofProject ring).Faithful ∧ ∃ d, (Catalogue.ofProject ring).Lists d ∧ d.id = ⟨3⟩ ∧
      ((ofProject ring).dependenciesWith d ⟨[⟨2⟩]⟩).1.names = ["[B]Y", "[C]Z", "[C]Z[]"] ∧
      ((ofProject ring).dependencies d).1.names = ["[A]X", "[B]Y", "[C]Z", "[C]Z[]"] ∧
      ((ofProject ring).dependenciesWith d ⟨[⟨2⟩]⟩).2.1.isCached d.id = false ∧
      ((ofProject ring).dependenciesWith d ⟨[⟨2⟩]⟩).2.2 = ⟨[⟨2⟩]⟩ ∧
      ((ofProject ring).dependenciesWith d ⟨[⟨2⟩]⟩).2.1.Faithful ∧
      ∀ x, (Catalogue.ofProject ring).ReachesAvoiding [⟨2⟩] d x → ∀ t, x.Mentions t →
        t.fullName ∈ ((ofProject ring).dependenciesWith d ⟨[⟨2⟩]⟩).1.names := by
  have hfaithful := faithful_ofProject ring
  have hresults : ((Catalogue.ofProject ring).find? ⟨3⟩).map (fun e =>
      (((ofProject ring).dependenciesWith e.declaration ⟨[⟨2⟩]⟩).1.names,
        ((ofProject ring).dependencies e.declaration).1.names,
        ((ofProject ring).dependenciesWith e.declaration ⟨[⟨2⟩]⟩).2.1.isCached e.id)) =
      some (["[B]Y", "[C]Z", "[C]Z[]"], ["[A]X", "[B]Y", "[C]Z", "[C]Z[]"], false) := by
    decide +kernel
  obtain ⟨e, he, hresults⟩ := Option.map_eq_some_iff.mp hresults
  obtain ⟨hnames, hresults⟩ := Prod.mk.inj hresults
  obtain ⟨hcomplete, hcached⟩ := Prod.mk.inj hresults
  have hlists := lists_of_find? he
  have hid : e.declaration.id = ⟨3⟩ := (mem_entries_of_find? he).2
  obtain ⟨hback, -, -, hafter, -, havoiding, -⟩ :=
    dependenciesWith_transparent (ofProject ring) hfaithful e.declaration hlists ⟨[⟨2⟩]⟩
  refine ⟨hfaithful, e.declaration, hlists, hid, hnames, hcomplete, hcached, hback, hafter, ?_⟩
  exact havoiding (by rw [hid]; decide)

end Walker
end Unweave

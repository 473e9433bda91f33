import Unweave.Proofs.SortedSets
import Unweave.TypeRef

/-!
# Type sets and the symbols they come from

A type set keeps one reference for each full name.  The set that is made of symbols holds references
to types that the symbols mention, and the full names of all of them.
-/

namespace Unweave

/-! ## References and the symbols they come from -/

namespace TypeRef

mutual

/-- A symbol has a reference exactly if nothing in it is missing. -/
theorem isSome_ofSymbol? : ∀ s : TypeSymbol, (ofSymbol? s).isSome = !s.containsError
  | ⟨kind, name, space, assembly, arguments⟩ => by
    have hargs := isSome_ofSymbols? arguments
    rw [TypeSymbol.containsError, ofSymbol?]
    cases hss : ofSymbols? arguments with
    | none =>
      rw [hss] at hargs
      have herr : TypeSymbol.anyError arguments = true := by simpa using hargs.symm
      cases kind <;> simp [shapeOf?, herr]
    | some ts =>
      rw [hss] at hargs
      have herr : TypeSymbol.anyError arguments = false := by simpa using hargs.symm
      cases kind <;> simp [shapeOf?, herr]

theorem isSome_ofSymbols? :
    ∀ ss : List TypeSymbol, (ofSymbols? ss).isSome = !TypeSymbol.anyError ss
  | [] => rfl
  | s :: ss => by
    have hs := isSome_ofSymbol? s
    have hss := isSome_ofSymbols? ss
    rw [TypeSymbol.anyError, Bool.not_or, ← hs, ← hss, ofSymbols?]
    cases ofSymbol? s <;> cases ofSymbols? ss <;> rfl

end

/-- What the reference to a symbol is made of. -/
theorem ofSymbol?_eq_some {kind : SymbolKind} {name assembly : String} {space : Option String}
    {arguments : List TypeSymbol} {t : TypeRef}
    (h : ofSymbol? ⟨kind, name, space, assembly, arguments⟩ = some t) :
    ∃ shape ts, ofSymbols? arguments = some ts ∧
      t = ⟨shape, name, space.getD "", assembly, ts⟩ := by
  rw [ofSymbol?] at h
  split at h
  · next shape ts _ hts => exact ⟨shape, ts, hts, (Option.some.inj h).symm⟩
  · cases h

mutual

/-- The types inside a reference are the references to the symbols inside its symbol. -/
theorem mem_parts_iff : ∀ {s : TypeSymbol} {t : TypeRef}, ofSymbol? s = some t → ∀ u : TypeRef,
    u ∈ t.parts ↔ ∃ r ∈ s.parts, ofSymbol? r = some u
  | ⟨kind, name, space, assembly, arguments⟩, t, h, u => by
    obtain ⟨shape, ts, hts, rfl⟩ := ofSymbol?_eq_some h
    have hinner := mem_partsOf_iff hts u
    rw [parts, TypeSymbol.parts, List.mem_append, List.mem_singleton, hinner]
    constructor
    · rintro (⟨r, hr, hu⟩ | rfl)
      · exact ⟨r, List.mem_cons_of_mem _ hr, hu⟩
      · exact ⟨_, List.mem_cons_self, h⟩
    · rintro ⟨r, hr, hu⟩
      rcases List.mem_cons.mp hr with rfl | hr
      · rw [h] at hu
        exact Or.inr (Option.some.inj hu).symm
      · exact Or.inl ⟨r, hr, hu⟩

theorem mem_partsOf_iff : ∀ {ss : List TypeSymbol} {ts : List TypeRef}, ofSymbols? ss = some ts →
    ∀ u : TypeRef, u ∈ partsOf ts ↔ ∃ r ∈ TypeSymbol.partsOf ss, ofSymbol? r = some u
  | [], ts, h, u => by
    rw [ofSymbols?, Option.some.injEq] at h
    subst h
    simp [partsOf, TypeSymbol.partsOf]
  | s :: ss, ts, h, u => by
    rw [ofSymbols?] at h
    split at h
    · next t ts' ht hts' =>
      cases h
      rw [partsOf, TypeSymbol.partsOf, List.mem_append, mem_parts_iff ht u, mem_partsOf_iff hts' u]
      simp only [List.mem_append, or_and_right, exists_or]
    · cases h

end

end TypeRef

namespace TypeSet

/-! ## The types that symbols mention -/

/-- The type is one of the symbols, or stands inside one; a symbol in which something was not found
mentions nothing. -/
def Mentioned (ss : List TypeSymbol) (t : TypeRef) : Prop :=
  ∃ s ∈ ss, s.containsError = false ∧ ∃ r ∈ s.parts, TypeRef.ofSymbol? r = some t

theorem mem_mentioned_iff (ss : List TypeSymbol) (t : TypeRef) :
    t ∈ (ss.filterMap TypeRef.ofSymbol?).flatMap TypeRef.parts ↔ Mentioned ss t := by
  rw [List.mem_flatMap]
  constructor
  · rintro ⟨w, hw, ht⟩
    obtain ⟨s, hs, hsw⟩ := List.mem_filterMap.mp hw
    have hok : s.containsError = false := by
      have h := TypeRef.isSome_ofSymbol? s
      rw [hsw] at h
      simpa using h.symm
    exact ⟨s, hs, hok, (TypeRef.mem_parts_iff hsw t).mp ht⟩
  · rintro ⟨s, hs, hok, hr⟩
    have h := TypeRef.isSome_ofSymbol? s
    rw [hok] at h
    obtain ⟨w, hw⟩ := Option.isSome_iff_exists.mp h
    exact ⟨w, List.mem_filterMap.mpr ⟨s, hs, hw⟩, (TypeRef.mem_parts_iff hw t).mpr hr⟩

theorem mem_ofSymbols {ss : List TypeSymbol} {t : TypeRef} (h : t ∈ (ofSymbols ss).refs) :
    Mentioned ss t := by
  rcases SortedSet.mem_of_mem_insertAll h with h | h
  · cases h
  · exact (mem_mentioned_iff ss t).mp h

theorem mem_names_ofSymbols {ss : List TypeSymbol} {t : TypeRef} (h : Mentioned ss t) :
    t.fullName ∈ (ofSymbols ss).names := by
  refine (SortedSet.mem_keys_ofList _ _).mpr ?_
  exact List.mem_map_of_mem ((mem_mentioned_iff ss t).mpr h)

end TypeSet
end Unweave

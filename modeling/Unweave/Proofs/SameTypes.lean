import Unweave.Policy
import Unweave.Proofs.TypeNames
import Unweave.Proofs.TypeSets

/-!
# Types of one full name

Sets of types keep one type for each full name, so a full name should tell what the type is.  It
does, as far as a name can (`TypeRef.fullName_faithful`): types have the same full name exactly if
they are arrays of elements of one full name, type parameters of one name, or types of one assembly
and name whose arguments have the same full names one by one.  Their open names are then the same.

A tuple is not told from a named type that is called like it.  A policy may judge these two
differently, and this is the only case in which it judges types of one full name differently.
-/

namespace Unweave

/-! ## Symbols from a front end -/

/-- Identifiers hold no brackets and no commas, and an array has one type of elements. -/
structure TypeSymbol.Regular (s : TypeSymbol) : Prop where
  name_ne : s.name ≠ ""
  name : s.name.toList.any Text.isMark = false
  space : s.spaceName.toList.any Text.isMark = false
  assembly : s.assembly.toList.any Text.isMark = false
  array : s.kind = .array → s.arguments.length = 1

instance (s : TypeSymbol) : Decidable s.Regular :=
  decidable_of_iff (s.name ≠ "" ∧ s.name.toList.any Text.isMark = false ∧
      s.spaceName.toList.any Text.isMark = false ∧ s.assembly.toList.any Text.isMark = false ∧
      (s.kind = .array → s.arguments.length = 1))
    ⟨fun h => ⟨h.1, h.2.1, h.2.2.1, h.2.2.2.1, h.2.2.2.2⟩,
      fun h => ⟨h.name_ne, h.name, h.space, h.assembly, h.array⟩⟩

namespace TypeRef

/-- A reference to a regular symbol. -/
structure Regular (t : TypeRef) : Prop extends t.WellNamed where
  array : t.isArray = true → ∃ element, t.arguments = [element]

theorem length_ofSymbols? {ss : List TypeSymbol} {ts : List TypeRef}
    (h : ofSymbols? ss = some ts) : ts.length = ss.length := by
  induction ss generalizing ts with
  | nil =>
    rw [ofSymbols?, Option.some.injEq] at h
    rw [← h]
    rfl
  | cons s ss ih =>
    rw [ofSymbols?] at h
    split at h
    · next t ts' _ hts' =>
      cases h
      rw [List.length_cons, List.length_cons, ih hts']
    · cases h

theorem regular_of_ofSymbol? {s : TypeSymbol} {t : TypeRef} (hs : s.Regular)
    (h : ofSymbol? s = some t) : t.Regular := by
  obtain ⟨kind, name, space, assembly, arguments⟩ := s
  rw [ofSymbol?] at h
  split at h
  · next shape ts hshape hts =>
    cases h
    refine ⟨⟨hs.name_ne, Text.of_any_eq_false hs.name, Text.of_any_eq_false hs.space,
      fun hmem => ?_⟩, fun harray => ?_⟩
    · exact absurd (Text.of_any_eq_false hs.assembly _ hmem) (by decide)
    · have harray : shape = .array := beq_iff_eq.mp harray
      have hkind : kind = .array := by
        rw [harray] at hshape
        cases kind <;> cases hshape
        rfl
      have hlength := hs.array hkind
      rw [← length_ofSymbols? hts] at hlength
      exact List.length_eq_one_iff.mp hlength
  · cases h

theorem regular_parts {s : TypeSymbol} {t : TypeRef} (hs : ∀ r ∈ s.parts, r.Regular)
    (h : ofSymbol? s = some t) : ∀ u ∈ t.parts, u.Regular := by
  intro u hu
  obtain ⟨r, hr, hru⟩ := (mem_parts_iff h u).mp hu
  exact regular_of_ofSymbol? (hs r hr) hru

/-! ## Likeness -/

/-- As much alike as full names tell. -/
inductive Alike (t t' : TypeRef) : Prop
  | array {e e' : TypeRef} (isArray : t.isArray = true) (isArray' : t'.isArray = true)
      (element : t.arguments = [e]) (element' : t'.arguments = [e'])
      (same : e.fullName = e'.fullName)
  | parameter (isParameter : t.isParameter = true) (isParameter' : t'.isParameter = true)
      (name : t.name = t'.name)
  | nominal (isNominal : t.isNominal = true) (isNominal' : t'.isNominal = true)
      (assembly : t.assembly = t'.assembly)
      (name : Text.qualify t.space t.name = Text.qualify t'.space t'.name)
      (arguments : List.Forall₂ (fun a a' => a.fullName = a'.fullName) t.arguments t'.arguments)

theorem fullNames_eq_map (ts : List TypeRef) : fullNames ts = ts.map fullName := by
  induction ts with
  | nil => rfl
  | cons t ts ih => rw [fullNames, ih, List.map_cons]

theorem fullNames_eq_iff {ts ts' : List TypeRef} :
    fullNames ts = fullNames ts' ↔ List.Forall₂ (fun a a' => a.fullName = a'.fullName) ts ts' := by
  rw [fullNames_eq_map, fullNames_eq_map, ← List.forall₂_eq_eq_eq, List.forall₂_map_left_iff,
    List.forall₂_map_right_iff]

section Faithful

variable {t t' : TypeRef}

theorem fullName_of_element {e : TypeRef} (h : t.isArray = true) (he : t.arguments = [e]) :
    t.fullName = e.fullName ++ "[]" := by
  rw [fullName_of_array h, he]
  rfl

theorem Alike.fullName_eq (h : t.Alike t') : t.fullName = t'.fullName := by
  cases h with
  | array isArray isArray' element element' same =>
    rw [fullName_of_element isArray element, fullName_of_element isArray' element', same]
  | parameter isParameter isParameter' name =>
    rw [fullName_of_parameter isParameter, fullName_of_parameter isParameter', name]
  | nominal isNominal isNominal' assembly name arguments =>
    refine String.toList_inj.mp ?_
    rw [fullName_of_nominal isNominal, fullName_of_nominal isNominal', assembly, name, argumentList,
      argumentList, fullNames_eq_iff.mpr arguments]

theorem Alike.isNominal_eq (h : t.Alike t') : t.isNominal = t'.isNominal := by
  cases h with
  | array isArray isArray' =>
    rw [TypeRef.isNominal, TypeRef.isNominal, isArray, isArray', Bool.not_true, Bool.false_and,
      Bool.false_and]
  | parameter isParameter isParameter' =>
    rw [TypeRef.isNominal, TypeRef.isNominal, isParameter, isParameter', Bool.not_true,
      Bool.and_false, Bool.and_false]
  | nominal isNominal isNominal' => rw [isNominal, isNominal']

theorem Alike.assembly_eq (h : t.Alike t') (hn : t.isNominal = true) :
    t.assembly = t'.assembly := by
  cases h with
  | array isArray =>
    rw [TypeRef.isNominal, isArray] at hn
    cases hn
  | parameter isParameter =>
    rw [TypeRef.isNominal, isParameter, Bool.and_comm] at hn
    cases hn
  | nominal _ _ assembly => exact assembly

theorem alike_of_fullName_eq (ht : ∀ u ∈ t.parts, u.Regular) (ht' : ∀ u ∈ t'.parts, u.Regular)
    (h : t.fullName = t'.fullName) : t.Alike t' := by
  have hself := ht t t.self_mem_parts
  have hself' := ht' t' t'.self_mem_parts
  -- A closed bracket in the name tells type parameters from the rest, at its end arrays.
  have hparameter : t.isParameter = t'.isParameter := by
    rw [← Bool.not_inj_iff, Bool.eq_iff_iff, Bool.not_eq_true', Bool.not_eq_true',
      ← mem_fullName_iff hself.toWellNamed, ← mem_fullName_iff hself'.toWellNamed, h]
  rcases t.cases_isNominal with hnominal | harray | hparam
  · have hnominal' := isNominal_of_fullName_eq hself.toWellNamed hself'.toWellNamed h hnominal
    obtain ⟨hassembly, hname, harguments⟩ := nominal_of_fullName_eq
      (fun u hu => (ht u hu).toWellNamed) (fun u hu => (ht' u hu).toWellNamed) h hnominal
    exact .nominal hnominal hnominal' hassembly hname (fullNames_eq_iff.mp harguments)
  · have harray' : t'.isArray = true := by
      rcases t'.cases_isNominal with hnominal' | harray' | hparam'
      · have hnominal := isNominal_of_fullName_eq hself'.toWellNamed hself.toWellNamed h.symm
          hnominal'
        rw [isNominal, harray] at hnominal
        cases hnominal
      · exact harray'
      · rw [← hparameter, isParameter_of_isArray harray] at hparam'
        cases hparam'
    obtain ⟨e, he⟩ := hself.array harray
    obtain ⟨e', he'⟩ := hself'.array harray'
    rw [fullName_of_element harray he, fullName_of_element harray' he'] at h
    exact .array harray harray' he he' ((String.append_left_inj _).mp h)
  · have hparam' : t'.isParameter = true := hparameter ▸ hparam
    rw [fullName_of_parameter hparam, fullName_of_parameter hparam'] at h
    exact .parameter hparam hparam' h

theorem fullName_eq_iff_alike (ht : ∀ u ∈ t.parts, u.Regular) (ht' : ∀ u ∈ t'.parts, u.Regular) :
    t.fullName = t'.fullName ↔ t.Alike t' :=
  ⟨alike_of_fullName_eq ht ht', Alike.fullName_eq⟩

theorem openName_of_parameter (h : t.isParameter = true) : t.openName = t.name := by
  obtain ⟨shape, name, space, assembly, arguments⟩ := t
  cases shape with
  | parameter => rfl
  | named => cases h
  | tuple => cases h
  | array => cases h

theorem openName_of_element {e : TypeRef} (h : t.isArray = true) (he : t.arguments = [e]) :
    t.openName = e.openName ++ "[]" := by
  obtain ⟨shape, name, space, assembly, arguments⟩ := t
  cases he
  cases shape with
  | array => rfl
  | named => cases h
  | tuple => cases h
  | parameter => cases h

theorem parts_subset_of_mem {e : TypeRef} (he : e ∈ t.arguments) : e.parts ⊆ t.parts := by
  obtain ⟨shape, name, space, assembly, arguments⟩ := t
  have hinner : ∀ {es : List TypeRef}, e ∈ es → e.parts ⊆ partsOf es := by
    intro es hmem
    induction es with
    | nil => cases hmem
    | cons u us ih =>
      rw [partsOf]
      rcases List.mem_cons.mp hmem with rfl | hmem
      · exact List.subset_append_left _ _
      · exact List.subset_append_of_subset_right _ (ih hmem)
  rw [parts.eq_1 shape]
  exact List.subset_append_of_subset_left _ (hinner he)

theorem sizeOf_lt_of_mem {e : TypeRef} (he : e ∈ t.arguments) : sizeOf e < sizeOf t := by
  obtain ⟨shape, name, space, assembly, arguments⟩ := t
  have hlt := List.sizeOf_lt_of_mem he
  simp only [mk.sizeOf_spec] at hlt ⊢
  omega

end Faithful

/-- Types of one full name have one open name, arrays since their elements have. -/
theorem openName_eq_of_fullName_eq {t t' : TypeRef} (ht : ∀ u ∈ t.parts, u.Regular)
    (ht' : ∀ u ∈ t'.parts, u.Regular) (h : t.fullName = t'.fullName) :
    t.openName = t'.openName := by
  cases alike_of_fullName_eq ht ht' h with
  | @array e e' isArray isArray' element element' same =>
    have he : e ∈ t.arguments := element ▸ List.mem_singleton_self e
    have he' : e' ∈ t'.arguments := element' ▸ List.mem_singleton_self e'
    have hsize := sizeOf_lt_of_mem he
    have hopen := openName_eq_of_fullName_eq (fun u hu => ht u (parts_subset_of_mem he hu))
      (fun u hu => ht' u (parts_subset_of_mem he' hu)) same
    rw [openName_of_element isArray element, openName_of_element isArray' element', hopen]
  | parameter isParameter isParameter' name =>
    rw [openName_of_parameter isParameter, openName_of_parameter isParameter', name]
  | nominal isNominal =>
    exact (of_fullName_eq (fun u hu => (ht u hu).toWellNamed) (fun u hu => (ht' u hu).toWellNamed)
      h isNominal).2
termination_by sizeOf t

/-! ## Policies -/

/-- One is a tuple, the other one a named type. -/
def TupleAndNamed (t t' : TypeRef) : Prop :=
  t.shape = .tuple ∧ t'.shape = .named ∨ t.shape = .named ∧ t'.shape = .tuple

theorem TupleAndNamed.isNominal {t t' : TypeRef} (h : t.TupleAndNamed t') : t.isNominal = true := by
  rcases h with ⟨hshape, -⟩ | ⟨hshape, -⟩ <;>
    simp [TypeRef.isNominal, isArray, isParameter, hshape]

theorem tupleAndNamed_iff {t t' : TypeRef} (h : t.isNominal = true) (h' : t'.isNominal = true) :
    t.TupleAndNamed t' ↔ t.isTuple ≠ t'.isTuple := by
  have hshape : ∀ {u : TypeRef}, u.isNominal = true → u.shape = .named ∨ u.shape = .tuple := by
    rintro ⟨shape, name, space, assembly, arguments⟩ hu
    cases shape with
    | named => exact .inl rfl
    | tuple => exact .inr rfl
    | array => cases hu
    | parameter => cases hu
  rcases hshape h with hs | hs <;> rcases hshape h' with hs' | hs' <;>
    simp [TupleAndNamed, isTuple, hs, hs']

end TypeRef

namespace InterweaveConfig

theorem isInterweave_of_nominal (policy : InterweaveConfig) {t : TypeRef}
    (h : t.isNominal = true) : policy.isInterweave t =
      (t.isTuple && policy.tuplesForeign ||
        (policy.alwaysForeign.any (Text.sameFolded t.assembly) || !policy.trusts t.assembly)) := by
  rw [TypeRef.isNominal, ← Bool.not_or, Bool.not_eq_true'] at h
  rw [isInterweave, h]
  cases t.isTuple && policy.tuplesForeign <;> rfl

theorem isInterweave_of_not_nominal (policy : InterweaveConfig) {t : TypeRef}
    (h : t.isNominal = false) : policy.isInterweave t = false := by
  rw [TypeRef.isNominal, ← Bool.not_or, Bool.not_eq_false'] at h
  rw [isInterweave, h]
  rfl

/-- A policy tells a tuple from a named type if tuples are foreign to it and the assembly is not. -/
theorem isInterweave_eq_iff (policy : InterweaveConfig) {t t' : TypeRef} (h : t.Alike t') :
    policy.isInterweave t = policy.isInterweave t' ↔
      ¬ (t.TupleAndNamed t' ∧ policy.tuplesForeign = true ∧ policy.trusts t.assembly = true ∧
        policy.alwaysForeign.any (Text.sameFolded t.assembly) = false) := by
  cases hn : t.isNominal with
  | false =>
    rw [policy.isInterweave_of_not_nominal hn,
      policy.isInterweave_of_not_nominal (h.isNominal_eq ▸ hn)]
    refine iff_of_true rfl fun hboth => ?_
    rw [hboth.1.isNominal] at hn
    cases hn
  | true =>
    have hn' : t'.isNominal = true := h.isNominal_eq ▸ hn
    rw [policy.isInterweave_of_nominal hn, policy.isInterweave_of_nominal hn',
      TypeRef.tupleAndNamed_iff hn hn', h.assembly_eq hn]
    have hbits : ∀ a b tuples always trusted : Bool,
        (a && tuples || (always || !trusted)) = (b && tuples || (always || !trusted)) ↔
          ¬ (a ≠ b ∧ tuples = true ∧ trusted = true ∧ always = false) := by decide
    exact hbits _ _ _ _ _

end InterweaveConfig

namespace TypeRef

/-- A full name tells all of a type but whether it is a tuple. -/
theorem fullName_faithful {s s' : TypeSymbol} {t t' : TypeRef} (hs : ∀ r ∈ s.parts, r.Regular)
    (hs' : ∀ r ∈ s'.parts, r.Regular) (ht : ofSymbol? s = some t) (ht' : ofSymbol? s' = some t') :
    (t.fullName = t'.fullName ↔ t.Alike t') ∧
    (t.fullName = t'.fullName → t.openName = t'.openName ∧
      ∀ policy : InterweaveConfig, policy.isInterweave t = policy.isInterweave t' ↔
        ¬ (t.TupleAndNamed t' ∧ policy.tuplesForeign = true ∧ policy.trusts t.assembly = true ∧
          policy.alwaysForeign.any (Text.sameFolded t.assembly) = false)) := by
  have hparts := regular_parts hs ht
  have hparts' := regular_parts hs' ht'
  refine ⟨fullName_eq_iff_alike hparts hparts', fun h => ⟨?_, fun policy => ?_⟩⟩
  · exact openName_eq_of_fullName_eq hparts hparts' h
  · exact policy.isInterweave_eq_iff (alike_of_fullName_eq hparts hparts' h)

/-- A pair of a number and an array, as a tuple. -/
def pairTuple : TypeSymbol := .tuple [.system "Int32", .array (.typeParameter "T")]

/-- The type behind the tuple, by its name. -/
def pairNamed : TypeSymbol := { pairTuple with kind := .named }

theorem fullName_faithful_pair :
    (∀ r ∈ pairTuple.parts, r.Regular) ∧ (∀ r ∈ pairNamed.parts, r.Regular) ∧
    ∃ t t', ofSymbol? pairTuple = some t ∧ ofSymbol? pairNamed = some t' ∧
      t.fullName = "[System.ValueTuple]System.ValueTuple<[System.Runtime]System.Int32,T[]>" ∧
      t.fullName = t'.fullName ∧ t.Alike t' ∧ t.openName = t'.openName ∧
      ∀ policy : InterweaveConfig, policy.isInterweave t = policy.isInterweave t' ↔
        ¬ (t.TupleAndNamed t' ∧ policy.tuplesForeign = true ∧ policy.trusts t.assembly = true ∧
          policy.alwaysForeign.any (Text.sameFolded t.assembly) = false) := by
  have htuple : ∀ r ∈ pairTuple.parts, r.Regular := by decide +kernel
  have hnamed : ∀ r ∈ pairNamed.parts, r.Regular := by decide +kernel
  refine ⟨htuple, hnamed, _, _, rfl, rfl, by decide +kernel, by decide +kernel, ?_⟩
  obtain ⟨hiff, hrest⟩ := fullName_faithful htuple hnamed rfl rfl
  exact ⟨hiff.mp (by decide +kernel), hrest (by decide +kernel)⟩

end TypeRef
end Unweave

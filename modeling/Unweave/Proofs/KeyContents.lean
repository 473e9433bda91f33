import Unweave.Proofs.PackageKeys
import Unweave.Proofs.SortedSets
import Unweave.Proofs.TypeNames

/-!
# What a key tells

A key is the kind of a package, its owner and its dependencies in a row.  Blanks and commas separate
them, and open names of generic types hold commas themselves.  The kind is the first word, whatever
follows.  The rest can be read back if all names in it are open names: the commas that belong to one
stand between its angle brackets, so keys are equal exactly if everything in them is
(`Package.keys_unambiguous`).  Merging packages by their keys then mixes nothing.
-/

namespace Unweave

/-! ## Open names -/

/-- The characters that separate the parts of a key, and those that open names end with. -/
def Text.isKeyMark (c : Char) : Bool := " ,<>`".toList.contains c

/-- A dotted name, and after it nothing or the brackets of a generic type. -/
def IsOpenName (s : String) : Prop :=
  ∃ dotted arity, dotted ≠ [] ∧ dotted.any Text.isKeyMark = false ∧
    s.toList = dotted ++ arityMarks arity

theorem isOpenName_openTypeName {space name : String} (hne : name ≠ "")
    (hspace : space.toList.any Text.isKeyMark = false)
    (hname : name.toList.any Text.isKeyMark = false) (arity : Nat) :
    IsOpenName (openTypeName space name arity) := by
  refine ⟨(Text.qualify space name).toList, arity, ?_, ?_, toList_openTypeName space name arity⟩
  · exact fun hempty => Text.qualify_ne hne (String.toList_eq_nil_iff.mp hempty)
  · rw [toList_qualify, List.any_append, hname, Bool.or_false, spaceLead]
    split
    · rfl
    · rw [List.any_append, hspace]
      decide

/-- The brackets after a name end where a comma or nothing follows. -/
theorem arityMarks_append_inj {arity arity' : Nat} {rest rest' : List Char}
    (hrest : ∀ c ∈ rest.head?, c = ',') (hrest' : ∀ c ∈ rest'.head?, c = ',')
    (h : arityMarks arity ++ rest = arityMarks arity' ++ rest') :
    arity = arity' ∧ rest = rest' := by
  have hcommas : ∀ n, '>' ∉ List.replicate n ',' := fun n hmem =>
    absurd (List.eq_of_mem_replicate hmem) (by decide)
  unfold arityMarks at h
  split at h <;> split at h
  · next hzero hzero' => exact ⟨hzero.trans hzero'.symm, h⟩
  · -- A comma or nothing is no bracket.
    rw [List.nil_append, List.cons_append, List.cons_append] at h
    rw [h] at hrest
    exact absurd (hrest _ rfl) (by decide)
  · rw [List.nil_append, List.cons_append, List.cons_append] at h
    rw [← h] at hrest'
    exact absurd (hrest' _ rfl) (by decide)
  · rw [List.cons_append, List.cons_append, List.cons_append, List.cons_append, List.append_assoc,
      List.append_assoc] at h
    obtain ⟨hbetween, hafter⟩ := Text.append_inj_of_stop (hcommas _) (hcommas _) (by simp) (by simp)
      (List.cons.inj h).2
    have hlength := congrArg List.length hbetween
    rw [List.length_replicate, List.length_replicate] at hlength
    exact ⟨by omega, (List.cons.inj hafter).2⟩

theorem separable_isOpenName : Text.Separable IsOpenName where
  ne := by
    rintro n ⟨dotted, arity, hne, -, hn⟩ rfl
    exact hne (List.append_eq_nil_iff.mp hn.symm).1
  cut := by
    rintro n m rest rest' ⟨dotted, arity, -, hdotted, hn⟩ ⟨dotted', arity', -, hdotted', hm⟩
      hrest hrest' h
    rw [hn, hm, List.append_assoc, List.append_assoc] at h
    have hstop : ∀ {k : Nat} {r : List Char}, (∀ c ∈ r.head?, c = ',') →
        ∀ c ∈ (arityMarks k ++ r).head?, Text.isKeyMark c = true := by
      intro k r hr c hc
      rw [arityMarks] at hc
      split at hc
      · rw [hr c hc]
        decide
      · rw [← Option.some.inj hc]
        decide
    obtain ⟨hname, htail⟩ := Text.append_inj_of_stops (Text.of_any_eq_false hdotted)
      (Text.of_any_eq_false hdotted') (hstop hrest) (hstop hrest') h
    obtain ⟨harity, hafter⟩ := arityMarks_append_inj hrest hrest' htail
    exact ⟨String.toList_inj.mp (by rw [hn, hm, hname, harity]), hafter⟩

theorem IsOpenName.not_mem_space {s : String} (h : IsOpenName s) : ' ' ∉ s.toList := by
  obtain ⟨dotted, arity, -, hdotted, hs⟩ := h
  rw [hs, List.mem_append]
  rintro (hmem | hmem)
  · exact absurd (Text.of_any_eq_false hdotted ' ' hmem) (by decide)
  · rcases mem_arityMarks hmem with h | h | h <;> cases h

/-! ## Keys of each kind -/

namespace Package

theorem joined_of_extensionMethods_key {text text' : String} {ns ns' : TextSet}
    (h : (extensionMethods text ns).key = (extensionMethods text' ns').key) :
    ",".intercalate ns = ",".intercalate ns' := by
  simp only [extensionMethods, SortedSet.isEmpty, List.isEmpty_iff] at h
  have hlonger : ∀ s : String, PackageKind.extensionMethods.keyName ≠
      PackageKind.extensionMethods.keyName ++ " " ++ s := by
    intro s heq
    have hlength := congrArg String.length heq
    simp only [String.length_append] at hlength
    have hspace : " ".length = 1 := by decide
    omega
  by_cases hempty : ns.toList = []
  · by_cases hempty' : ns'.toList = []
    · rw [hempty, hempty']
    · rw [if_pos hempty, if_neg hempty'] at h
      exact absurd h (hlonger _)
  · by_cases hempty' : ns'.toList = []
    · rw [if_neg hempty, if_pos hempty'] at h
      exact absurd h.symm (hlonger _)
    · rw [if_neg hempty, if_neg hempty'] at h
      exact (String.append_right_inj _).mp h

theorem joined_of_interwovenExtensionMethods_key {text text' : String} {ns ns' : TextSet}
    (h : (interwovenExtensionMethods text ns).key = (interwovenExtensionMethods text' ns').key) :
    ",".intercalate ns = ",".intercalate ns' :=
  (String.append_right_inj _).mp h

/-- A key of type members tells the owner, if there is no blank in it. -/
theorem owner_of_interwovenTypeMembers_key {owner owner' text text' : String}
    {ns ns' : TextSet} (howner : ' ' ∉ owner.toList) (howner' : ' ' ∉ owner'.toList)
    (h : (interwovenTypeMembers owner text ns).key =
      (interwovenTypeMembers owner' text' ns').key) :
    owner = owner' ∧ ",".intercalate ns = ",".intercalate ns' := by
  have hkey : ∀ (o t : String) (ks : TextSet),
      (interwovenTypeMembers o t ks).key.toList =
        (PackageKind.interwovenTypeMembers.keyName ++ " ").toList ++
          (o.toList ++ ' ' :: (",".intercalate ks).toList) := by
    intro o t ks
    simp only [interwovenTypeMembers, String.toList_append, List.append_assoc]
    rfl
  have hlist := congrArg String.toList h
  rw [hkey, hkey] at hlist
  obtain ⟨heq, hjoined⟩ := Text.append_inj_of_stop howner howner' (by simp) (by simp)
    (List.append_cancel_left hlist)
  exact ⟨String.toList_inj.mp heq, String.toList_inj.mp (List.cons.inj hjoined).2⟩

end Package

/-- What the key of a container says of its type. -/
def ContainerDetails.label (c : ContainerDetails) : TypeKind × String × Nat :=
  (c.kind, c.name, c.arity)

theorem toDigits_injective {m n : Nat} (h : Nat.toDigits 10 m = Nat.toDigits 10 n) : m = n := by
  calc
    m = Nat.ofDigitChars 10 (Nat.toDigits 10 m) 0 := Nat.ofDigitChars_ten_toDigits.symm
    _ = Nat.ofDigitChars 10 (Nat.toDigits 10 n) 0 := by rw [h]
    _ = n := Nat.ofDigitChars_ten_toDigits

/-- The arity is the digits at the end of a key, and the kind of the type is a word. -/
theorem Package.label_of_memberContainer_key {c c' : ContainerDetails} {text text' : String}
    (h : (memberContainer c text).key = (memberContainer c' text').key) : c.label = c'.label := by
  have hkey : ∀ (d : ContainerDetails) (t : String), (memberContainer d t).key.toList =
      (PackageKind.memberContainer.keyName ++ " ").toList ++
        (d.kind.title.toList ++ ' ' :: (d.name.toList ++ '\x60' :: Nat.toDigits 10 d.arity)) := by
    intro d t
    have hdigits : (toString d.arity).toList = Nat.toDigits 10 d.arity := Nat.toList_repr
    simp only [memberContainer, String.toList_append, List.append_assoc, hdigits]
    rfl
  have htitle : ∀ k : TypeKind, ' ' ∉ k.title.toList := by
    intro k
    cases k <;> decide
  have hlist := congrArg String.toList h
  rw [hkey, hkey] at hlist
  obtain ⟨hkind, hrest⟩ := Text.append_inj_of_stop (htitle c.kind) (htitle c'.kind) (by simp)
    (by simp) (List.append_cancel_left hlist)
  -- A name may hold anything, so the digits are read from the end.
  have hreverse := congrArg List.reverse (List.cons.inj hrest).2
  rw [List.reverse_append, List.reverse_append, List.reverse_cons, List.reverse_cons,
    List.append_assoc, List.append_assoc] at hreverse
  have hdigits : ∀ n : Nat, ∀ d ∈ (Nat.toDigits 10 n).reverse, (!d.isDigit) = false := by
    intro n d hd
    rw [Nat.isDigit_of_mem_toDigits (by decide) (by decide) (List.mem_reverse.mp hd)]
    rfl
  have htick : ∀ n : String, ∀ d ∈ (['\x60'] ++ n.toList.reverse).head?, (!d.isDigit) = true := by
    intro n d hd
    rw [← Option.some.inj hd]
    rfl
  obtain ⟨harity, hname⟩ := Text.append_inj_of_stops (hdigits c.arity) (hdigits c'.arity)
    (htick c.name) (htick c'.name) hreverse
  have hkinds : c.kind = c'.kind := by
    revert hkind
    cases c.kind <;> cases c'.kind <;> decide
  have hnames := String.toList_inj.mp (List.reverse_inj.mp (List.cons.inj hname).2)
  rw [ContainerDetails.label, ContainerDetails.label, hkinds, hnames,
    toDigits_injective (List.reverse_inj.mp harity)]

namespace Package

/-! ## Keys of all kinds -/

/-- The names in a key. -/
def names (p : Package) : List String := p.owner.toList ++ p.dependencies.toList

/-- Packages of one kind were made in one way. -/
@[elab_as_elim]
theorem Constructed.together {motive : Package → Package → Prop} {p q : Package}
    (hp : p.Constructed) (hq : q.Constructed) (hkind : p.kind = q.kind)
    (extensionMethods : ∀ text ns text' ns',
      motive (.extensionMethods text ns) (.extensionMethods text' ns'))
    (interwovenExtensionMethods : ∀ text ns text' ns',
      motive (.interwovenExtensionMethods text ns) (.interwovenExtensionMethods text' ns'))
    (interwovenTypeMembers : ∀ owner text ns owner' text' ns',
      motive (.interwovenTypeMembers owner text ns) (.interwovenTypeMembers owner' text' ns'))
    (memberContainer : ∀ c text c' text',
      motive (.memberContainer c text) (.memberContainer c' text')) : motive p q := by
  cases hp with
  | extensionMethods text ns =>
    cases hq with
    | extensionMethods text' ns' => exact extensionMethods text ns text' ns'
    | _ => cases hkind
  | interwovenExtensionMethods text ns =>
    cases hq with
    | interwovenExtensionMethods text' ns' => exact interwovenExtensionMethods text ns text' ns'
    | _ => cases hkind
  | interwovenTypeMembers owner text ns =>
    cases hq with
    | interwovenTypeMembers owner' text' ns' =>
      exact interwovenTypeMembers owner text ns owner' text' ns'
    | _ => cases hkind
  | memberContainer c text =>
    cases hq with
    | memberContainer c' text' => exact memberContainer c text c' text'
    | _ => cases hkind

theorem container_of_key_eq {p q : Package} (hp : p.Constructed) (hq : q.Constructed)
    (h : p.key = q.key) : p.container.map (·.label) = q.container.map (·.label) := by
  have hkind := kind_eq_of_key_eq h
  revert h
  refine hp.together hq hkind ?_ ?_ ?_ ?_
  · exact fun _ _ _ _ _ => rfl
  · exact fun _ _ _ _ _ => rfl
  · exact fun _ _ _ _ _ _ _ => rfl
  · exact fun _ _ _ _ h => congrArg some (label_of_memberContainer_key h)

/-- Of packages of one kind with open names, keys tell all the rest. -/
theorem key_eq_iff_of_kind_eq {p q : Package} (hp : p.Constructed) (hq : q.Constructed)
    (hkind : p.kind = q.kind) (hpn : ∀ n ∈ p.names, IsOpenName n)
    (hqn : ∀ n ∈ q.names, IsOpenName n) :
    p.key = q.key ↔ p.owner = q.owner ∧ p.dependencies = q.dependencies ∧
      p.container.map (·.label) = q.container.map (·.label) := by
  have hsplit : ∀ {ns ns' : TextSet}, (∀ n ∈ ns, IsOpenName n) → (∀ n ∈ ns', IsOpenName n) →
      ",".intercalate ns = ",".intercalate ns' → ns = ns' := fun hns hns' h =>
    SortedSet.ext (separable_isOpenName.intercalate_injective hns hns' h)
  revert hpn hqn
  refine hp.together hq hkind ?_ ?_ ?_ ?_
  · intro text ns text' ns' hns hns'
    constructor
    · intro h
      exact ⟨rfl, hsplit hns hns' (joined_of_extensionMethods_key h), rfl⟩
    · rintro ⟨-, rfl, -⟩
      rfl
  · intro text ns text' ns' hns hns'
    constructor
    · intro h
      exact ⟨rfl, hsplit hns hns' (joined_of_interwovenExtensionMethods_key h), rfl⟩
    · rintro ⟨-, rfl, -⟩
      rfl
  · intro owner text ns owner' text' ns' hnames hnames'
    obtain ⟨howner, hns⟩ := List.forall_mem_cons.mp hnames
    obtain ⟨howner', hns'⟩ := List.forall_mem_cons.mp hnames'
    constructor
    · intro h
      obtain ⟨heq, hjoined⟩ :=
        owner_of_interwovenTypeMembers_key howner.not_mem_space howner'.not_mem_space h
      exact ⟨congrArg some heq, hsplit hns hns' hjoined, rfl⟩
    · rintro ⟨heq, rfl, -⟩
      cases heq
      rfl
  · intro c text c' text' _ _
    constructor
    · intro h
      have hlabel := label_of_memberContainer_key h
      have howner := congrArg (fun l : TypeKind × String × Nat => some l.2.1) hlabel
      exact ⟨howner, rfl, congrArg some hlabel⟩
    · rintro ⟨-, -, hlabel⟩
      simp only [ContainerDetails.label, memberContainer, Option.map_some, Option.some.injEq,
        Prod.mk.injEq] at hlabel ⊢
      rw [hlabel.1, hlabel.2.1, hlabel.2.2]

/-- Packages of one key are of one kind and, if they are containers, of one type, whatever the names
in the key.  If these are open names, keys are equal exactly if kind, owner, dependencies and type
are. -/
theorem keys_unambiguous {p q : Package} (hp : p.Constructed) (hq : q.Constructed) :
    (p.key = q.key →
      p.kind = q.kind ∧ p.container.map (·.label) = q.container.map (·.label)) ∧
    ((∀ n ∈ p.names, IsOpenName n) → (∀ n ∈ q.names, IsOpenName n) →
      (p.key = q.key ↔ p.kind = q.kind ∧ p.owner = q.owner ∧ p.dependencies = q.dependencies ∧
        p.container.map (·.label) = q.container.map (·.label))) := by
  refine ⟨fun h => ⟨kind_eq_of_key_eq h, container_of_key_eq hp hq h⟩,
    fun hpn hqn => ?_⟩
  constructor
  · intro h
    have hkind := kind_eq_of_key_eq h
    exact ⟨hkind, (key_eq_iff_of_kind_eq hp hq hkind hpn hqn).mp h⟩
  · rintro ⟨hkind, hrest⟩
    exact (key_eq_iff_of_kind_eq hp hq hkind hpn hqn).mpr hrest

/-- A member of a generic type that uses two types, one of them generic. -/
def ofPairs (text : String) : Package :=
  .interwovenTypeMembers (openTypeName "Demo" "Crate" 1) text
    (Text.sortedSet [openTypeName "Foreign.Lib" "Pair" 2, openTypeName "Foreign.Lib" "Widget" 0])

theorem keys_unambiguous_ofPairs :
    (ofPairs "void Load();").Constructed ∧ (ofPairs "void Store();").Constructed ∧
    (ofPairs "void Load();").key =
      "InterwovenTypeMembers Demo.Crate<> Foreign.Lib.Pair<,>,Foreign.Lib.Widget" ∧
    (∀ n ∈ (ofPairs "void Load();").names, IsOpenName n) ∧
    (∀ n ∈ (ofPairs "void Store();").names, IsOpenName n) ∧
    (ofPairs "void Load();").key = (ofPairs "void Store();").key ∧
    ((ofPairs "void Load();").kind = (ofPairs "void Store();").kind ∧
      (ofPairs "void Load();").owner = (ofPairs "void Store();").owner ∧
      (ofPairs "void Load();").dependencies = (ofPairs "void Store();").dependencies) := by
  have hconstructed : ∀ text, (ofPairs text).Constructed := fun _ => .interwovenTypeMembers _ _ _
  have hnames : ∀ text, ∀ n ∈ (ofPairs text).names, IsOpenName n := by
    intro text
    refine List.forall_mem_cons.mpr ⟨?_, fun n hn => ?_⟩
    · exact isOpenName_openTypeName (by decide) (by decide) (by decide) _
    · have hmem : n ∈ [openTypeName "Foreign.Lib" "Pair" 2,
          openTypeName "Foreign.Lib" "Widget" 0] := Sorted.mem_ofList.mp hn
      rcases List.mem_cons.mp hmem with rfl | hmem
      · exact isOpenName_openTypeName (by decide) (by decide) (by decide) _
      · rw [List.mem_singleton.mp hmem]
        exact isOpenName_openTypeName (by decide) (by decide) (by decide) _
  obtain ⟨-, hiff⟩ := keys_unambiguous (hconstructed "void Load();") (hconstructed "void Store();")
  obtain ⟨hkind, howner, hdependencies, -⟩ := (hiff (hnames _) (hnames _)).mp (by decide +kernel)
  exact ⟨hconstructed _, hconstructed _, by decide +kernel, hnames _, hnames _, by decide +kernel,
    hkind, howner, hdependencies⟩

end Package
end Unweave

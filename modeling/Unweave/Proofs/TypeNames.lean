import Mathlib.Data.List.Basic
import Mathlib.Data.List.TakeWhile
import Unweave.TypeRef

/-!
# What the name of a type tells

Identifiers hold no brackets and no commas.  A name then has its commas inside brackets, and a list
of names can be read back from its text with commas between
(`Text.Separable.intercalate_injective`).  So a full name tells whether it is that of an array or of
a type parameter.  If it is neither, it tells assembly, name and arguments, and so the open name
(`TypeRef.of_fullName_eq`); only tuples cannot be told from named types.
-/

namespace Unweave

/-! ## Brackets -/

namespace Text

/-- The characters that brackets and lists are made of. -/
def isMark (c : Char) : Bool := c == ',' || c == '<' || c == '>' || c == '[' || c == ']'

/-- Where a reader of names is: how deep in angle brackets, and whether in square ones. -/
structure Nesting where
  depth : Nat
  quoted : Bool

namespace Nesting

/-- One character on.  A comma outside all brackets ends the name. -/
def next (s : Nesting) (c : Char) : Option Nesting :=
  if s.quoted then some ⟨s.depth, c != ']'⟩
  else if c = '[' then some ⟨s.depth, true⟩
  else if c = '<' then some ⟨s.depth + 1, false⟩
  else if c = '>' then some ⟨s.depth - 1, false⟩
  else if c = ',' ∧ s.depth = 0 then none
  else some s

def read (s : Nesting) (cs : List Char) : Option Nesting := cs.foldlM next s

theorem read_cons (s : Nesting) (c : Char) (cs : List Char) :
    s.read (c :: cs) = (s.next c).bind (·.read cs) := List.foldlM_cons

theorem read_append (s : Nesting) (cs ds : List Char) :
    s.read (cs ++ ds) = (s.read cs).bind (·.read ds) := List.foldlM_append

end Nesting

/-- Read at some depth or deeper, the text ends where it began. -/
def Balanced (least : Nat) (cs : List Char) : Prop :=
  ∀ depth, least ≤ depth → Nesting.read ⟨depth, false⟩ cs = some ⟨depth, false⟩

namespace Balanced

variable {least : Nat} {cs ds : List Char}

theorem nil (least : Nat) : Balanced least [] := fun _ _ => rfl

theorem append (hcs : Balanced least cs) (hds : Balanced least ds) : Balanced least (cs ++ ds) := by
  intro depth hdepth
  rw [Nesting.read_append, hcs depth hdepth]
  exact hds depth hdepth

theorem deeper (h : Balanced least cs) : Balanced (least + 1) cs :=
  fun depth hdepth => h depth (by omega)

theorem of_unmarked (h : ∀ c ∈ cs, isMark c = false) : Balanced least cs := by
  induction cs with
  | nil => exact nil least
  | cons c cs ih =>
    obtain ⟨hc, hcs⟩ := List.forall_mem_cons.mp h
    intro depth hdepth
    have hnext : Nesting.next ⟨depth, false⟩ c = some ⟨depth, false⟩ := by
      simp only [isMark, Bool.or_eq_false_iff, beq_eq_false_iff_ne] at hc
      simp [Nesting.next, hc]
    rw [Nesting.read_cons, hnext]
    exact ih hcs depth hdepth

theorem comma : Balanced 1 [','] := by
  intro depth hdepth
  have hne : depth ≠ 0 := by omega
  simp [Nesting.read, Nesting.next, hne]

/-- A text in square brackets, whatever it is, if it does not close them. -/
theorem quote (h : ']' ∉ cs) : Balanced least ('[' :: cs ++ [']']) := by
  have hinside : ∀ depth, Nesting.read ⟨depth, true⟩ cs = some ⟨depth, true⟩ := by
    intro depth
    induction cs with
    | nil => rfl
    | cons c cs ih =>
      have hc : c ≠ ']' := (List.ne_of_not_mem_cons h).symm
      have hnext : Nesting.next ⟨depth, true⟩ c = some ⟨depth, true⟩ := by
        simp [Nesting.next, hc]
      rw [Nesting.read_cons, hnext]
      exact ih (List.not_mem_of_not_mem_cons h)
  intro depth _
  rw [List.cons_append, Nesting.read_cons]
  show Nesting.read ⟨depth, true⟩ (cs ++ [']']) = _
  rw [Nesting.read_append, hinside]
  rfl

/-- A text in angle brackets. -/
theorem angle (h : Balanced (least + 1) cs) : Balanced least ('<' :: cs ++ ['>']) := by
  intro depth hdepth
  rw [List.cons_append, Nesting.read_cons]
  show Nesting.read ⟨depth + 1, false⟩ (cs ++ ['>']) = _
  rw [Nesting.read_append, h (depth + 1) (by omega)]
  rfl

theorem flatMap {ns : List String} (h : ∀ n ∈ ns, Balanced least n.toList) :
    Balanced (least + 1) (ns.flatMap fun n => ',' :: n.toList) := by
  induction ns with
  | nil => exact nil _
  | cons n ns ih =>
    obtain ⟨hn, hns⟩ := List.forall_mem_cons.mp h
    rw [List.flatMap_cons]
    refine append ?_ (ih hns)
    intro depth hdepth
    exact append (fun d hd => comma d (by omega)) hn.deeper depth hdepth

end Balanced

/-! ## Lists of names -/

theorem toList_intercalate_cons (n : String) (ns : List String) :
    (",".intercalate (n :: ns)).toList = n.toList ++ ns.flatMap fun m => ',' :: m.toList := by
  induction ns generalizing n with
  | nil => simp
  | cons m ns ih =>
    rw [String.intercalate_cons_cons, String.toList_append, String.toList_append, ih,
      List.flatMap_cons, List.append_assoc]
    rfl

theorem Balanced.intercalate {ns : List String} (h : ∀ n ∈ ns, Balanced 0 n.toList) :
    Balanced 1 (",".intercalate ns).toList := by
  cases ns with
  | nil => exact .nil 1
  | cons n ns =>
    obtain ⟨hn, hns⟩ := List.forall_mem_cons.mp h
    rw [toList_intercalate_cons]
    exact hn.deeper.append (.flatMap hns)

/-- Nothing comes after a name but a comma. -/
theorem Balanced.eq_of_append_eq {cs ds rest rest' : List Char} (hcs : Balanced 0 cs)
    (hds : Balanced 0 ds) (hrest : ∀ c ∈ rest.head?, c = ',') (hrest' : ∀ c ∈ rest'.head?, c = ',')
    (h : cs ++ rest = ds ++ rest') : cs = ds ∧ rest = rest' := by
  -- Otherwise the longer of the two has a comma outside brackets.
  have hstop : ∀ {as bs tail : List Char}, Balanced 0 as → Balanced 0 (as ++ bs) →
      (∀ c ∈ (bs ++ tail).head?, c = ',') → bs = [] := by
    intro as bs tail has habs hhead
    cases bs with
    | nil => rfl
    | cons c bs =>
      have hread := habs 0 le_rfl
      rw [Nesting.read_append, has 0 le_rfl, hhead c rfl] at hread
      cases hread
  rcases List.append_eq_append_iff.mp h with ⟨as, rfl, rfl⟩ | ⟨as, rfl, rfl⟩
  · have has := hstop hcs hds hrest
    subst has
    exact ⟨(List.append_nil cs).symm, rfl⟩
  · have has := hstop hds hcs hrest'
    subst has
    exact ⟨List.append_nil ds, rfl⟩

/-- Texts of this kind are seen to end where a comma or nothing follows. -/
structure Separable (Kind : String → Prop) : Prop where
  ne : ∀ {n : String}, Kind n → n ≠ ""
  cut : ∀ {n m : String} {rest rest' : List Char}, Kind n → Kind m → (∀ c ∈ rest.head?, c = ',') →
    (∀ c ∈ rest'.head?, c = ',') → n.toList ++ rest = m.toList ++ rest' → n = m ∧ rest = rest'

namespace Separable

variable {Kind : String → Prop} {ns ms : List String}

theorem head?_flatMap (ns : List String) :
    ∀ c ∈ (ns.flatMap fun n => ',' :: n.toList).head?, c = ',' := by
  intro c hc
  cases ns with
  | nil => cases hc
  | cons n ns =>
    rw [List.flatMap_cons, List.cons_append, List.head?_cons] at hc
    exact (Option.some.inj hc).symm

theorem flatMap_injective (hkind : Separable Kind) (hns : ∀ n ∈ ns, Kind n) (hms : ∀ m ∈ ms, Kind m)
    (h : (ns.flatMap fun n => ',' :: n.toList) = ms.flatMap fun m => ',' :: m.toList) :
    ns = ms := by
  induction ns generalizing ms with
  | nil =>
    cases ms with
    | nil => rfl
    | cons m ms => cases h
  | cons n ns ih =>
    cases ms with
    | nil => cases h
    | cons m ms =>
      obtain ⟨hn, hns⟩ := List.forall_mem_cons.mp hns
      obtain ⟨hm, hms⟩ := List.forall_mem_cons.mp hms
      rw [List.flatMap_cons, List.flatMap_cons, List.cons_append, List.cons_append] at h
      obtain ⟨hnm, hrest⟩ :=
        hkind.cut hn hm (head?_flatMap ns) (head?_flatMap ms) (List.cons.inj h).2
      rw [hnm, ih hns hms hrest]

/-- The texts can be read back from a list of them. -/
theorem intercalate_injective (hkind : Separable Kind) (hns : ∀ n ∈ ns, Kind n)
    (hms : ∀ m ∈ ms, Kind m) (h : ",".intercalate ns = ",".intercalate ms) : ns = ms := by
  have hcons : ∀ {n : String} {ks : List String}, n ≠ "" → ",".intercalate (n :: ks) ≠ "" := by
    intro n ks hn hempty
    have hlist := congrArg String.toList hempty
    rw [toList_intercalate_cons] at hlist
    exact hn (String.toList_eq_nil_iff.mp (List.append_eq_nil_iff.mp hlist).1)
  cases ns with
  | nil =>
    cases ms with
    | nil => rfl
    | cons m ms => exact absurd h.symm (hcons (hkind.ne (hms m List.mem_cons_self)))
  | cons n ns =>
    cases ms with
    | nil => exact absurd h (hcons (hkind.ne (hns n List.mem_cons_self)))
    | cons m ms =>
      obtain ⟨hn, hns⟩ := List.forall_mem_cons.mp hns
      obtain ⟨hm, hms⟩ := List.forall_mem_cons.mp hms
      have hlist := congrArg String.toList h
      rw [toList_intercalate_cons, toList_intercalate_cons] at hlist
      obtain ⟨hnm, hrest⟩ := hkind.cut hn hm (head?_flatMap ns) (head?_flatMap ms) hlist
      rw [hnm, hkind.flatMap_injective hns hms hrest]

end Separable

/-- A text that stands for itself in a list. -/
structure IsName (s : String) : Prop where
  ne : s ≠ ""
  balanced : Balanced 0 s.toList

theorem separable_isName : Separable IsName where
  ne := IsName.ne
  cut := by
    intro n m rest rest' hn hm hrest hrest' h
    obtain ⟨hnm, htail⟩ := hn.balanced.eq_of_append_eq hm.balanced hrest hrest' h
    exact ⟨String.toList_inj.mp hnm, htail⟩

theorem of_any_eq_false {stops : Char → Bool} {cs : List Char} (h : cs.any stops = false) :
    ∀ c ∈ cs, stops c = false := fun c hc => Bool.eq_false_iff.mpr (List.any_eq_false.mp h c hc)

/-- A text that is read up to a character of some kind. -/
theorem append_inj_of_stops {stops : Char → Bool} {xs ys rest rest' : List Char}
    (hxs : ∀ c ∈ xs, stops c = false) (hys : ∀ c ∈ ys, stops c = false)
    (hrest : ∀ c ∈ rest.head?, stops c = true) (hrest' : ∀ c ∈ rest'.head?, stops c = true)
    (h : xs ++ rest = ys ++ rest') : xs = ys ∧ rest = rest' := by
  have hread : ∀ {zs r : List Char}, (∀ c ∈ zs, stops c = false) →
      (∀ c ∈ r.head?, stops c = true) → (zs ++ r).takeWhile (!stops ·) = zs := by
    intro zs r hzs hr
    rw [List.takeWhile_append_of_pos fun c hc => (Bool.not_eq_true' _).mpr (hzs c hc)]
    cases r with
    | nil => exact List.append_nil zs
    | cons c r =>
      rw [List.takeWhile_cons_of_neg (by rw [hr c rfl]; simp), List.append_nil]
  have hxy : xs = ys := by rw [← hread hxs hrest, h, hread hys hrest']
  subst hxy
  exact ⟨rfl, List.append_cancel_left h⟩

/-- A text that is read up to a character. -/
theorem append_inj_of_stop {stop : Char} {xs ys rest rest' : List Char} (hxs : stop ∉ xs)
    (hys : stop ∉ ys) (hrest : ∀ c ∈ rest.head?, c = stop) (hrest' : ∀ c ∈ rest'.head?, c = stop)
    (h : xs ++ rest = ys ++ rest') : xs = ys ∧ rest = rest' := by
  have hgo : ∀ {zs : List Char}, stop ∉ zs → ∀ c ∈ zs, (c == stop) = false := fun hzs c hc =>
    beq_eq_false_iff_ne.mpr fun heq => hzs (heq ▸ hc)
  exact append_inj_of_stops (hgo hxs) (hgo hys) (fun c hc => beq_iff_eq.mpr (hrest c hc))
    (fun c hc => beq_iff_eq.mpr (hrest' c hc)) h

theorem qualify_unmarked {space name : String} (hspace : ∀ c ∈ space.toList, isMark c = false)
    (hname : ∀ c ∈ name.toList, isMark c = false) :
    ∀ c ∈ (qualify space name).toList, isMark c = false := by
  rw [qualify]
  split
  · exact hname
  · intro c hc
    rw [String.toList_append, String.toList_append, List.mem_append, List.mem_append] at hc
    rcases hc with (hc | hc) | hc
    · exact hspace c hc
    · cases List.mem_singleton.mp hc
      decide
    · exact hname c hc

theorem qualify_ne {space name : String} (hname : name ≠ "") : qualify space name ≠ "" := by
  rw [qualify]
  split
  · exact hname
  · simp [hname]

end Text

/-! ## Types -/

/-- The brackets after the name of a generic type. -/
def arityMarks (arity : Nat) : List Char :=
  if arity = 0 then [] else '<' :: List.replicate (arity - 1) ',' ++ ['>']

theorem mem_arityMarks {arity : Nat} {c : Char} (h : c ∈ arityMarks arity) :
    c = '<' ∨ c = ',' ∨ c = '>' := by
  rw [arityMarks] at h
  split at h
  · cases h
  · rcases List.mem_append.mp h with h | h
    · rcases List.mem_cons.mp h with h | h
      · exact .inl h
      · exact .inr (.inl (List.eq_of_mem_replicate h))
    · exact .inr (.inr (List.mem_singleton.mp h))

theorem arityMarks_injective {arity arity' : Nat} (h : arityMarks arity = arityMarks arity') :
    arity = arity' := by
  have hlength : ∀ n, (arityMarks n).length = if n = 0 then 0 else n + 1 := by
    intro n
    rw [arityMarks]
    split
    · rfl
    · rw [List.length_append, List.length_cons, List.length_replicate, List.length_singleton]
      omega
  have heq := congrArg List.length h
  rw [hlength, hlength] at heq
  split at heq <;> split at heq <;> omega

/-- A namespace as it stands before a name. -/
def spaceLead (space : String) : List Char := if space.isEmpty then [] else space.toList ++ ['.']

theorem spaceLead_injective {space space' : String} (h : spaceLead space = spaceLead space') :
    space = space' := by
  unfold spaceLead at h
  split at h
  · next hempty =>
    split at h
    · next hempty' => rw [String.isEmpty_iff.mp hempty, String.isEmpty_iff.mp hempty']
    · exact absurd h.symm (List.append_ne_nil_of_right_ne_nil _ (List.cons_ne_nil _ _))
  · split at h
    · exact absurd h (List.append_ne_nil_of_right_ne_nil _ (List.cons_ne_nil _ _))
    · exact String.toList_inj.mp (List.append_cancel_right h)

theorem toList_qualify (space name : String) :
    (Text.qualify space name).toList = spaceLead space ++ name.toList := by
  rw [Text.qualify, spaceLead]
  split
  · rfl
  · rw [String.toList_append, String.toList_append]
    rfl

theorem toList_openTypeName (space name : String) (arity : Nat) :
    (openTypeName space name arity).toList =
      (Text.qualify space name).toList ++ arityMarks arity := by
  rw [openTypeName, String.toList_append, arityMarks]
  split
  · rfl
  · simp only [String.toList_append, String.toList_ofList]
    rfl

theorem balanced_arityMarks (arity : Nat) : Text.Balanced 0 (arityMarks arity) := by
  have hcommas : ∀ n, Text.Balanced 1 (List.replicate n ',') := by
    intro n
    induction n with
    | zero => exact .nil 1
    | succ n ih => exact Text.Balanced.comma.append ih
  rw [arityMarks]
  split
  · exact .nil 0
  · exact (hcommas (arity - 1)).angle

theorem isName_openTypeName {space name : String} (hne : name ≠ "")
    (hspace : ∀ c ∈ space.toList, Text.isMark c = false)
    (hname : ∀ c ∈ name.toList, Text.isMark c = false) (arity : Nat) :
    Text.IsName (openTypeName space name arity) where
  ne := by
    rw [openTypeName]
    intro hempty
    exact Text.qualify_ne hne (String.append_eq_empty_iff.mp hempty).1
  balanced := by
    rw [toList_openTypeName]
    exact .append (.of_unmarked (Text.qualify_unmarked hspace hname)) (balanced_arityMarks arity)

/-- A namespace ends with the last dot. -/
theorem spaceLead_append_injective {space space' : String} {cs cs' : List Char} (hdot : '.' ∉ cs)
    (hdot' : '.' ∉ cs') (h : spaceLead space ++ cs = spaceLead space' ++ cs') :
    space = space' ∧ cs = cs' := by
  have hlead : ∀ s : String, ∀ c ∈ (spaceLead s).reverse.head?, c = '.' := by
    intro s c hc
    rw [spaceLead] at hc
    split at hc
    · cases hc
    · rw [List.reverse_append] at hc
      cases hc
      rfl
  have hreverse := congrArg List.reverse h
  rw [List.reverse_append, List.reverse_append] at hreverse
  obtain ⟨htail, hspace⟩ := Text.append_inj_of_stop (mt List.mem_reverse.mp hdot)
    (mt List.mem_reverse.mp hdot') (hlead space) (hlead space') hreverse
  exact ⟨spaceLead_injective (List.reverse_inj.mp hspace), List.reverse_inj.mp htail⟩

/-- A dotted name tells the namespace, if there is no dot in the name. -/
theorem qualify_injective {space name space' name' : String} (hdot : '.' ∉ name.toList)
    (hdot' : '.' ∉ name'.toList) (h : Text.qualify space name = Text.qualify space' name') :
    space = space' ∧ name = name' := by
  have hlist := congrArg String.toList h
  rw [toList_qualify, toList_qualify] at hlist
  obtain ⟨hspace, hname⟩ := spaceLead_append_injective hdot hdot' hlist
  exact ⟨hspace, String.toList_inj.mp hname⟩

/-- An open name tells namespace, name and arity, if there is neither a dot nor a bracket in the
name. -/
theorem openTypeName_injective {space name space' name' : String} {arity arity' : Nat}
    (hdot : '.' ∉ name.toList) (hbracket : '<' ∉ name.toList) (hdot' : '.' ∉ name'.toList)
    (hbracket' : '<' ∉ name'.toList)
    (h : openTypeName space name arity = openTypeName space' name' arity') :
    space = space' ∧ name = name' ∧ arity = arity' := by
  have hdots : ∀ {n : String} {k : Nat}, '.' ∉ n.toList → '.' ∉ n.toList ++ arityMarks k := by
    intro n k hn hc
    rcases List.mem_append.mp hc with hc | hc
    · exact hn hc
    · rcases mem_arityMarks hc with h | h | h <;> cases h
  have hmarks : ∀ k : Nat, ∀ c ∈ (arityMarks k).head?, c = '<' := by
    intro k c hc
    rw [arityMarks] at hc
    split at hc
    · cases hc
    · cases hc
      rfl
  have hlist := congrArg String.toList h
  rw [toList_openTypeName, toList_openTypeName, toList_qualify, toList_qualify, List.append_assoc,
    List.append_assoc] at hlist
  obtain ⟨hspace, htail⟩ := spaceLead_append_injective (hdots hdot) (hdots hdot') hlist
  obtain ⟨hnames, harity⟩ := Text.append_inj_of_stop hbracket hbracket'
    (hmarks arity) (hmarks arity') htail
  exact ⟨hspace, String.toList_inj.mp hnames, arityMarks_injective harity⟩

namespace TypeRef

/-- Brackets and commas are not part of identifiers; of an assembly, only the bracket that closes
it matters. -/
structure WellNamed (t : TypeRef) : Prop where
  name_ne : t.name ≠ ""
  name : ∀ c ∈ t.name.toList, Text.isMark c = false
  space : ∀ c ∈ t.space.toList, Text.isMark c = false
  assembly : ']' ∉ t.assembly.toList

instance (t : TypeRef) : Decidable t.WellNamed :=
  decidable_of_iff (t.name ≠ "" ∧ t.name.toList.all (!Text.isMark ·) = true ∧
      t.space.toList.all (!Text.isMark ·) = true ∧ ']' ∉ t.assembly.toList) <| by
    simp only [List.all_eq_true, Bool.not_eq_true']
    exact ⟨fun ⟨h₁, h₂, h₃, h₄⟩ => ⟨h₁, h₂, h₃, h₄⟩, fun ⟨h₁, h₂, h₃, h₄⟩ => ⟨h₁, h₂, h₃, h₄⟩⟩

/-- Neither an array nor a type parameter: a type with an assembly of its own. -/
def isNominal (t : TypeRef) : Bool := !t.isArray && !t.isParameter

/-- The arguments as a full name shows them. -/
def argumentList (t : TypeRef) : List Char :=
  if (fullNames t.arguments).isEmpty then []
  else '<' :: (",".intercalate (fullNames t.arguments)).toList ++ ['>']

theorem fullName_of_nominal {t : TypeRef} (h : t.isNominal = true) :
    t.fullName.toList = ('[' :: t.assembly.toList ++ [']']) ++
      ((Text.qualify t.space t.name).toList ++ t.argumentList) := by
  obtain ⟨shape, name, space, assembly, arguments⟩ := t
  have hname : fullName ⟨shape, name, space, assembly, arguments⟩ =
      "[" ++ assembly ++ "]" ++ Text.qualify space name ++
        if (fullNames arguments).isEmpty then ""
        else "<" ++ ",".intercalate (fullNames arguments) ++ ">" := by
    cases shape with
    | named => rfl
    | tuple => rfl
    | array => cases h
    | parameter => cases h
  rw [hname, argumentList, String.toList_append, String.toList_append, String.toList_append,
    String.toList_append, List.append_assoc]
  split
  · rfl
  · rw [String.toList_append, String.toList_append]
    rfl

theorem fullName_of_array {t : TypeRef} (h : t.isArray = true) :
    t.fullName = (fullNames t.arguments).headD "?" ++ "[]" := by
  obtain ⟨shape, name, space, assembly, arguments⟩ := t
  cases shape with
  | array => rfl
  | named => cases h
  | tuple => cases h
  | parameter => cases h

theorem fullName_of_parameter {t : TypeRef} (h : t.isParameter = true) : t.fullName = t.name := by
  obtain ⟨shape, name, space, assembly, arguments⟩ := t
  cases shape with
  | parameter => rfl
  | named => cases h
  | tuple => cases h
  | array => cases h

theorem cases_isNominal (t : TypeRef) :
    t.isNominal = true ∨ t.isArray = true ∨ t.isParameter = true := by
  obtain ⟨shape, name, space, assembly, arguments⟩ := t
  cases shape with
  | named => exact .inl rfl
  | tuple => exact .inl rfl
  | array => exact .inr (.inl rfl)
  | parameter => exact .inr (.inr rfl)

theorem isParameter_of_isArray {t : TypeRef} (h : t.isArray = true) : t.isParameter = false := by
  rw [isArray, beq_iff_eq] at h
  rw [isParameter, h]
  rfl

theorem openName_of_nominal {t : TypeRef} (h : t.isNominal = true) :
    t.openName = openTypeName t.space t.name t.arguments.length := by
  obtain ⟨shape, name, space, assembly, arguments⟩ := t
  cases shape with
  | named => rfl
  | tuple => rfl
  | array => cases h
  | parameter => cases h

theorem length_fullNames (ts : List TypeRef) : (fullNames ts).length = ts.length := by
  induction ts with
  | nil => rfl
  | cons t ts ih => rw [fullNames, List.length_cons, ih, List.length_cons]

theorem self_mem_parts (t : TypeRef) : t ∈ t.parts := by
  obtain ⟨shape, name, space, assembly, arguments⟩ := t
  rw [parts]
  exact List.mem_append_right _ List.mem_cons_self

mutual

theorem parts_subset : ∀ {w t : TypeRef}, t ∈ w.parts → t.parts ⊆ w.parts
  | ⟨shape, name, space, assembly, arguments⟩, t, h => by
    rw [parts] at h
    rcases List.mem_append.mp h with h | h
    · rw [parts.eq_1 shape]
      exact List.subset_append_of_subset_left _ (partsOf_subset h)
    · rw [List.mem_singleton.mp h]
      exact List.Subset.refl _

theorem partsOf_subset : ∀ {ws : List TypeRef} {t : TypeRef}, t ∈ partsOf ws → t.parts ⊆ partsOf ws
  | [], t, h => by cases h
  | w :: ws, t, h => by
    rw [partsOf] at h ⊢
    rcases List.mem_append.mp h with h | h
    · exact List.subset_append_of_subset_left _ (parts_subset h)
    · exact List.subset_append_of_subset_right _ (partsOf_subset h)

end

mutual

theorem isName_fullName : ∀ t : TypeRef, (∀ u ∈ t.parts, u.WellNamed) → Text.IsName t.fullName
  | ⟨shape, name, space, assembly, arguments⟩, h => by
    have hself := h _ (self_mem_parts _)
    have harguments : ∀ n ∈ fullNames arguments, Text.IsName n := by
      refine isName_fullNames arguments fun u hu => h u ?_
      rw [parts]
      exact List.mem_append_left _ hu
    rcases cases_isNominal ⟨shape, name, space, assembly, arguments⟩ with hnominal | harray | hparam
    · have hlist := fullName_of_nominal hnominal
      refine ⟨fun hempty => ?_, ?_⟩
      · rw [hempty] at hlist
        cases hlist
      · rw [hlist]
        refine .append (.quote hself.assembly) (.append ?_ ?_)
        · exact .of_unmarked (Text.qualify_unmarked hself.space hself.name)
        · rw [argumentList]
          split
          · exact .nil 0
          · exact .angle (.intercalate fun n hn => (harguments n hn).balanced)
    · rw [fullName_of_array harray]
      refine ⟨fun hempty => ?_, ?_⟩
      · exact absurd (String.append_eq_empty_iff.mp hempty).2 (by decide)
      · rw [String.toList_append]
        refine .append ?_ (@Text.Balanced.quote 0 [] List.not_mem_nil)
        show Text.Balanced 0 ((fullNames arguments).headD "?").toList
        cases hnames : fullNames arguments with
        | nil => exact .of_unmarked (List.forall_mem_singleton.mpr rfl)
        | cons n ns =>
          rw [hnames] at harguments
          exact (harguments n List.mem_cons_self).balanced
    · rw [fullName_of_parameter hparam]
      exact ⟨hself.name_ne, .of_unmarked hself.name⟩

theorem isName_fullNames :
    ∀ ts : List TypeRef, (∀ u ∈ partsOf ts, u.WellNamed) → ∀ n ∈ fullNames ts, Text.IsName n
  | [], _ => by
    rw [fullNames]
    nofun
  | t :: ts, h => by
    rw [partsOf] at h
    obtain ⟨ht, hts⟩ := List.forall_mem_append.mp h
    rw [fullNames]
    exact List.forall_mem_cons.mpr ⟨isName_fullName t ht, isName_fullNames ts hts⟩

end

/-! ### Types of one full name -/

/-- Type parameters are those whose full names close no bracket. -/
theorem mem_fullName_iff {t : TypeRef} (ht : t.WellNamed) :
    ']' ∈ t.fullName.toList ↔ t.isParameter = false := by
  rcases t.cases_isNominal with hnominal | harray | hparam
  · rw [fullName_of_nominal hnominal]
    have hfalse : t.isParameter = false := by
      rw [isNominal, Bool.and_eq_true, Bool.not_eq_true', Bool.not_eq_true'] at hnominal
      exact hnominal.2
    simp [hfalse]
  · rw [fullName_of_array harray, String.toList_append]
    simp [isParameter_of_isArray harray]
  · rw [fullName_of_parameter hparam, hparam]
    refine ⟨fun hmem => ?_, fun h => nomatch h⟩
    have hmark := ht.name _ hmem
    cases hmark

/-- Of the others, arrays are those whose full names end with a closed bracket. -/
theorem getLast?_fullName {t : TypeRef} (ht : t.WellNamed) (hnominal : t.isNominal = true) :
    t.fullName.toList.getLast? ≠ some ']' := by
  have hname : (Text.qualify t.space t.name).toList ≠ [] := fun h =>
    Text.qualify_ne ht.name_ne (String.toList_eq_nil_iff.mp h)
  rw [fullName_of_nominal hnominal, argumentList]
  split
  · rw [List.append_nil, List.getLast?_append_of_ne_nil _ hname]
    intro hlast
    have hmark := Text.qualify_unmarked ht.space ht.name _ (List.mem_of_getLast? hlast)
    cases hmark
  · rw [← List.append_assoc, ← List.append_assoc, List.getLast?_concat]
    decide

theorem isNominal_of_fullName_eq {t t' : TypeRef} (ht : t.WellNamed) (ht' : t'.WellNamed)
    (h : t.fullName = t'.fullName) (hnominal : t.isNominal = true) : t'.isNominal = true := by
  have hparam : t'.isParameter = false := by
    rw [← mem_fullName_iff ht', ← h, mem_fullName_iff ht]
    rw [isNominal, Bool.and_eq_true, Bool.not_eq_true', Bool.not_eq_true'] at hnominal
    exact hnominal.2
  rcases t'.cases_isNominal with hnominal' | harray | hparam'
  · exact hnominal'
  · refine absurd ?_ (getLast?_fullName ht hnominal)
    have hbrackets : "[]".toList ≠ [] := by decide
    rw [h, fullName_of_array harray, String.toList_append,
      List.getLast?_append_of_ne_nil _ hbrackets]
    rfl
  · rw [hparam] at hparam'
    cases hparam'

theorem head?_argumentList (t : TypeRef) : ∀ c ∈ t.argumentList.head?, c = '<' := by
  intro c hc
  rw [argumentList] at hc
  split at hc
  · cases hc
  · cases hc
    rfl

theorem fullNames_eq_of_argumentList_eq {t t' : TypeRef} (ht : ∀ u ∈ t.parts, u.WellNamed)
    (ht' : ∀ u ∈ t'.parts, u.WellNamed) (h : t.argumentList = t'.argumentList) :
    fullNames t.arguments = fullNames t'.arguments := by
  have hnames : ∀ {u : TypeRef}, (∀ v ∈ u.parts, v.WellNamed) →
      ∀ n ∈ fullNames u.arguments, Text.IsName n := by
    rintro ⟨shape, name, space, assembly, arguments⟩ hu
    refine isName_fullNames arguments fun v hv => hu v ?_
    rw [parts]
    exact List.mem_append_left _ hv
  unfold argumentList at h
  split at h
  · next hempty =>
    split at h
    · next hempty' => rw [List.isEmpty_iff.mp hempty, List.isEmpty_iff.mp hempty']
    · cases h
  · split at h
    · cases h
    · have hjoined := List.append_cancel_right (List.cons.inj h).2
      exact Text.separable_isName.intercalate_injective (hnames ht) (hnames ht')
        (String.toList_inj.mp hjoined)

/-- The full name of a type with an assembly tells the assembly, the name and the arguments. -/
theorem nominal_of_fullName_eq {t t' : TypeRef} (ht : ∀ u ∈ t.parts, u.WellNamed)
    (ht' : ∀ u ∈ t'.parts, u.WellNamed) (h : t.fullName = t'.fullName)
    (hnominal : t.isNominal = true) :
    t.assembly = t'.assembly ∧ Text.qualify t.space t.name = Text.qualify t'.space t'.name ∧
      fullNames t.arguments = fullNames t'.arguments := by
  have hself := ht t t.self_mem_parts
  have hself' := ht' t' t'.self_mem_parts
  have hnominal' := isNominal_of_fullName_eq hself hself' h hnominal
  have hlist := congrArg String.toList h
  rw [fullName_of_nominal hnominal, fullName_of_nominal hnominal', List.append_assoc,
    List.append_assoc, List.cons_append, List.cons_append] at hlist
  obtain ⟨hassembly, hrest⟩ := Text.append_inj_of_stop hself.assembly hself'.assembly
    (by simp) (by simp) (List.cons.inj hlist).2
  have hopen : ∀ {u : TypeRef}, u.WellNamed → '<' ∉ (Text.qualify u.space u.name).toList :=
    fun hu hc => nomatch Text.qualify_unmarked hu.space hu.name _ hc
  obtain ⟨hname, harguments⟩ := Text.append_inj_of_stop (hopen hself) (hopen hself')
    (head?_argumentList t) (head?_argumentList t') (List.cons.inj hrest).2
  exact ⟨String.toList_inj.mp hassembly, String.toList_inj.mp hname,
    fullNames_eq_of_argumentList_eq ht ht' harguments⟩

/-- The full name of a type with an assembly tells the assembly and the open name. -/
theorem of_fullName_eq {t t' : TypeRef} (ht : ∀ u ∈ t.parts, u.WellNamed)
    (ht' : ∀ u ∈ t'.parts, u.WellNamed) (h : t.fullName = t'.fullName)
    (hnominal : t.isNominal = true) : t.assembly = t'.assembly ∧ t.openName = t'.openName := by
  have hnominal' := isNominal_of_fullName_eq (ht t t.self_mem_parts) (ht' t' t'.self_mem_parts) h
    hnominal
  obtain ⟨hassembly, hname, harguments⟩ := nominal_of_fullName_eq ht ht' h hnominal
  refine ⟨hassembly, ?_⟩
  rw [openName_of_nominal hnominal, openName_of_nominal hnominal', openTypeName, openTypeName,
    hname, ← length_fullNames, harguments, length_fullNames]

end TypeRef
end Unweave

import Unweave.Grouping
import Unweave.Proofs.Completeness
import Unweave.Proofs.KeyContents
import Unweave.Proofs.LibraryGroups
import Unweave.Proofs.SameTypes

/-!
# Extension methods by what they depend on

Extension methods are packed under the open names of the types that they depend on, joined by
commas.  If identifiers hold no brackets and no commas, two methods get the same package exactly if
they depend on the same names (`Library.exists_groups`).

A dependency is known to a walk only by its full name, which a tuple may share with a named type.
Where the policy treats these two alike, and for local types always, what a walk finds says on which
names a method depends (`Project.Tells`).  Where it does not, the answer hangs on which of them the
method mentions first (`extensions_by_mention`).
-/

namespace Unweave

/-! ## Names of dependencies -/

theorem mem_describe {ts : List TypeRef} {n : String} :
    n ∈ describe ts ↔ ∃ t ∈ ts, t.openName = n :=
  Text.mem_sortedSet.trans List.mem_map

namespace Project

/-- All types of the project are well named. -/
def WellNamed (p : Project) : Prop := ∀ t ∈ p.typeRefs, t.WellNamed
deriving Decidable

theorem WellNamed.parts {p : Project} (h : p.WellNamed) {t : TypeRef} (ht : t ∈ p.typeRefs) :
    ∀ u ∈ t.parts, u.WellNamed := by
  intro u hu
  obtain ⟨w, hw, ht⟩ := List.mem_flatMap.mp ht
  exact h u (List.mem_flatMap.mpr ⟨w, hw, TypeRef.parts_subset ht hu⟩)

/-- The declaration depends on a type of some kind with this open name. -/
def DependsOnName (p : Project) (kind : TypeRef → Bool) (e : Entry) (n : String) : Prop :=
  ∃ t, (Catalogue.ofProject p).DependsOn e.declaration t ∧ kind t = true ∧ t.openName = n

/-- A kind of types with assemblies, of which dependencies of one full name are together. -/
structure Tells (p : Project) (kind : TypeRef → Bool) (e : Entry) : Prop where
  nominal : ∀ t, kind t = true → t.isNominal = true
  alike : ∀ t t', (Catalogue.ofProject p).DependsOn e.declaration t →
    (Catalogue.ofProject p).DependsOn e.declaration t' → t.fullName = t'.fullName →
      kind t = true → kind t' = true

section Names

variable {p : Project} (hnames : p.WellNamed) {kind : TypeRef → Bool} {e : Entry}
  (hlist : (Catalogue.ofProject p).Lists e.declaration)
include hnames hlist

/-- The full name of a dependency tells what a policy looks at, but for tuples. -/
theorem WellNamed.of_fullName_eq {t t' : TypeRef}
    (ht : (Catalogue.ofProject p).DependsOn e.declaration t)
    (ht' : (Catalogue.ofProject p).DependsOn e.declaration t') (hname : t.fullName = t'.fullName)
    (hnominal : t.isNominal = true) :
    t'.isNominal = true ∧ t.assembly = t'.assembly ∧ t.openName = t'.openName := by
  have hmem := mem_typeRefs_of_dependsOn hlist ht
  have hmem' := mem_typeRefs_of_dependsOn hlist ht'
  exact ⟨TypeRef.isNominal_of_fullName_eq (hnames t hmem) (hnames t' hmem') hname hnominal,
    TypeRef.of_fullName_eq (hnames.parts hmem) (hnames.parts hmem') hname hnominal⟩

section Answers

variable (hkind : p.Tells kind e) {deps : TypeSet}
  (hans : (Catalogue.ofProject p).Answers e.declaration deps)
include hkind hans

theorem mem_describe_iff (n : String) :
    n ∈ describe (deps.refs.filter kind) ↔ p.DependsOnName kind e n := by
  rw [mem_describe]
  constructor
  · rintro ⟨t, ht, hn⟩
    obtain ⟨ht, hk⟩ := List.mem_filter.mp ht
    exact ⟨t, hans.sound t ht, hk, hn⟩
  · rintro ⟨t, ht, hk, rfl⟩
    obtain ⟨t', ht', hname⟩ := List.mem_map.mp (hans.complete t ht)
    have hdep' := hans.sound t' ht'
    obtain ⟨-, -, hopen⟩ :=
      hnames.of_fullName_eq hlist ht hdep' hname.symm (hkind.nominal t hk)
    exact ⟨t', List.mem_filter.mpr ⟨ht', hkind.alike t t' ht hdep' hname.symm hk⟩, hopen.symm⟩

theorem isName_of_mem_describe : ∀ n ∈ describe (deps.refs.filter kind), Text.IsName n := by
  intro n hn
  obtain ⟨t, ht, rfl⟩ := mem_describe.mp hn
  obtain ⟨ht, hk⟩ := List.mem_filter.mp ht
  have hwell := hnames t (mem_typeRefs_of_dependsOn hlist (hans.sound t ht))
  rw [TypeRef.openName_of_nominal (hkind.nominal t hk)]
  exact isName_openTypeName hwell.name_ne hwell.space hwell.name _

end Answers

theorem WellNamed.tells_isLocal (policy : InterweaveConfig) : p.Tells policy.isLocal e := by
  have hlocal : ∀ t : TypeRef, policy.isLocal t = (t.isNominal && !policy.trusts t.assembly) :=
    fun _ => rfl
  refine ⟨fun t ht => ?_, fun t t' ht ht' hname hk => ?_⟩
  · rw [hlocal, Bool.and_eq_true] at ht
    exact ht.1
  · rw [hlocal, Bool.and_eq_true] at hk ⊢
    obtain ⟨hnominal, hassembly, -⟩ := hnames.of_fullName_eq hlist ht ht' hname hk.1
    rw [← hassembly]
    exact ⟨hnominal, hk.2⟩

end Names

/-- The policy makes no difference between a tuple and a named type of the same full name, where the
declaration depends on both. -/
def TuplesAlike (p : Project) (policy : InterweaveConfig) (e : Entry) : Prop :=
  ∀ t t', (Catalogue.ofProject p).DependsOn e.declaration t →
    (Catalogue.ofProject p).DependsOn e.declaration t' → t.fullName = t'.fullName →
      t.isTuple ≠ t'.isTuple → policy.isInterweave t = policy.isInterweave t'

theorem WellNamed.tells_isInterweave {p : Project} (hnames : p.WellNamed) {e : Entry}
    (hlist : (Catalogue.ofProject p).Lists e.declaration) {policy : InterweaveConfig}
    (htuples : p.TuplesAlike policy e) : p.Tells policy.isInterweave e := by
  have hnominal : ∀ t, policy.isInterweave t = true → t.isNominal = true := by
    intro t ht
    rw [← Bool.not_eq_false]
    intro hshape
    rw [policy.isInterweave_of_not_nominal hshape] at ht
    cases ht
  refine ⟨hnominal, fun t t' ht ht' hname hk => ?_⟩
  by_cases htuple : t.isTuple = t'.isTuple
  · have ht₁ := hnominal t hk
    obtain ⟨ht₂, hassembly, -⟩ := hnames.of_fullName_eq hlist ht ht' hname ht₁
    rw [policy.isInterweave_of_nominal ht₁, htuple, hassembly] at hk
    rw [policy.isInterweave_of_nominal ht₂]
    exact hk
  · rw [← htuples t t' ht ht' hname htuple]
    exact hk

end Project

/-! ## Packages by names -/

/-- A way to make packages of texts, with a key that tells the names in it. -/
structure Package.Sorts (pack : String → TextSet → Package) : Prop where
  constructed : ∀ text ns, (pack text ns).Constructed
  content : ∀ text ns, (pack text ns).content = Text.trim text
  dependencies : ∀ text ns, (pack text ns).dependencies = ns
  key_congr : ∀ text text' ns, (pack text ns).key = (pack text' ns).key
  key_injective : ∀ {text text' ns ns'}, (∀ n ∈ ns, Text.IsName n) → (∀ n ∈ ns', Text.IsName n) →
    (pack text ns).key = (pack text' ns').key → ns = ns'

theorem Package.sorts_extensionMethods : Package.Sorts .extensionMethods where
  constructed := .extensionMethods
  content := fun _ _ => rfl
  dependencies := fun _ _ => rfl
  key_congr := fun _ _ _ => rfl
  key_injective := by
    intro text text' ns ns' hns hns' h
    exact SortedSet.ext (Text.separable_isName.intercalate_injective hns hns'
      (joined_of_extensionMethods_key h))

theorem Package.sorts_interwovenExtensionMethods : Package.Sorts .interwovenExtensionMethods where
  constructed := .interwovenExtensionMethods
  content := fun _ _ => rfl
  dependencies := fun _ _ => rfl
  key_congr := fun _ _ _ => rfl
  key_injective := by
    intro text text' ns ns' hns hns' h
    exact SortedSet.ext (Text.separable_isName.intercalate_injective hns hns'
      (joined_of_interwovenExtensionMethods_key h))

namespace Library

/-- The library holds the texts of the entries in groups: two entries are in the same package
exactly if they have the same names. -/
structure Groups (l : Library) (es : List Entry) (text : Entry → String)
    (Name : Entry → String → Prop) (group : Package → List Entry) : Prop where
  keys : l.keys.Nodup
  /-- A group is in the order of the entries. -/
  sublist : ∀ q ∈ l.packages, (group q).Sublist es ∧ group q ≠ []
  once : ∀ e ∈ es, ∃! q, q ∈ l.packages ∧ e ∈ group q
  same : ∀ q ∈ l.packages, ∀ e ∈ group q, ∀ e' ∈ es,
    e' ∈ group q ↔ ∀ n, Name e n ↔ Name e' n
  dependencies : ∀ q ∈ l.packages, ∀ e ∈ group q, ∀ n, n ∈ q.dependencies ↔ Name e n
  content : ∀ q ∈ l.packages,
    q.content = Text.paragraphs ((group q).map fun e => Text.trim (text e))

/-- Packages group entries as their keys do. -/
theorem exists_groups_of_keys {α : Type} {items : List (Entry × α)}
    {package : Entry × α → Package} {text : Entry → String} {Name : Entry → String → Prop}
    (hconstructed : ∀ a ∈ items, (package a).Constructed)
    (hcontent : ∀ a ∈ items, (package a).content = Text.trim (text a.1))
    (hnames : ∀ a ∈ items, ∀ n, n ∈ (package a).dependencies ↔ Name a.1 n)
    (hkeys : ∀ a ∈ items, ∀ b ∈ items,
      (package a).key = (package b).key ↔ ∀ n, Name a.1 n ↔ Name b.1 n) :
    ∃ l group, empty.addAll (items.map package) = .ok l ∧
      l.Groups (items.map (·.1)) text Name group := by
  obtain ⟨l, hadd, hgrouped⟩ := exists_grouped (List.forall_mem_map.mpr hconstructed)
  let group : Package → List Entry := fun q =>
    (items.filter fun a => (package a).key == q.key).map (·.1)
  have hgroup : ∀ q e, e ∈ group q ↔ ∃ a ∈ items, (package a).key = q.key ∧ a.1 = e := by
    intro q e
    simp only [group, List.mem_map, List.mem_filter, beq_iff_eq, and_assoc]
  have hunique : ∀ q ∈ l.packages, ∀ q' ∈ l.packages, q.key = q'.key → q = q' := fun q hq q' hq' =>
    List.inj_on_of_nodup_map hgrouped.nodup hq hq'
  refine ⟨l, group, hadd, hgrouped.nodup, fun q hq => ⟨?_, ?_⟩, ?_, ?_, ?_, ?_⟩
  · exact List.filter_sublist.map _
  · have hmem := hgrouped.mem_keys.mp (List.mem_map_of_mem hq)
    obtain ⟨x, hx, hkey⟩ := List.mem_map.mp hmem
    obtain ⟨a, ha, rfl⟩ := List.mem_map.mp hx
    exact List.ne_nil_of_mem ((hgroup q a.1).mpr ⟨a, ha, hkey, rfl⟩)
  · intro e he
    obtain ⟨a, ha, rfl⟩ := List.mem_map.mp he
    have hmem := hgrouped.mem_keys.mpr (List.mem_map_of_mem (List.mem_map_of_mem ha))
    obtain ⟨q, hq, hkey⟩ := List.mem_map.mp hmem
    refine ⟨q, ⟨hq, (hgroup q a.1).mpr ⟨a, ha, hkey.symm, rfl⟩⟩, ?_⟩
    rintro q' ⟨hq', he'⟩
    obtain ⟨b, hb, hkey', hba⟩ := (hgroup q' a.1).mp he'
    have hsame : (package b).key = (package a).key := by
      rw [hkeys b hb a ha, hba]
      exact fun n => Iff.rfl
    exact hunique q' hq' q hq (hkey'.symm.trans (hsame.trans hkey.symm))
  · intro q hq e he e' he'
    obtain ⟨a, ha, hkey, rfl⟩ := (hgroup q e).mp he
    obtain ⟨b, hb, rfl⟩ := List.mem_map.mp he'
    rw [hgroup, ← hkeys a ha b hb, hkey]
    constructor
    · rintro ⟨c, hc, hkey', hcb⟩
      rw [← hkey', hkeys c hc b hb, hcb]
      exact fun n => Iff.rfl
    · intro heq
      exact ⟨b, hb, heq.symm, rfl⟩
  · intro q hq e he n
    obtain ⟨a, ha, hkey, rfl⟩ := (hgroup q e).mp he
    obtain ⟨x, hx, -, -, hdependencies⟩ := (hgrouped.gathers q hq).first
    obtain ⟨hx, hxkey⟩ := List.mem_filter.mp (List.mem_of_head? hx)
    obtain ⟨b, hb, rfl⟩ := List.mem_map.mp hx
    rw [hdependencies, hnames b hb]
    exact (hkeys b hb a ha).mp ((beq_iff_eq.mp hxkey).trans hkey.symm) n
  · intro q hq
    rw [(hgrouped.gathers q hq).content, List.filter_map, List.map_map, List.map_map]
    refine congrArg Text.paragraphs (List.map_congr_left fun a ha => ?_)
    show Text.trim (package a).content = Text.trim (text a.1)
    rw [hcontent a (List.mem_filter.mp ha).1, Text.trim_trim]

/-- Packages made by names group entries by the names that they depend on. -/
theorem exists_groups {p : Project} (hnames : p.WellNamed) {kind : TypeRef → Bool}
    {pack : String → TextSet → Package} (hpack : Package.Sorts pack) (text : Entry → String)
    (answers : List (Entry × TypeSet))
    (hans : ∀ a ∈ answers, (Catalogue.ofProject p).Lists a.1.declaration ∧
      (Catalogue.ofProject p).Answers a.1.declaration a.2)
    (hkind : ∀ a ∈ answers, p.Tells kind a.1) :
    ∃ l group,
      empty.addAll (answers.map fun a => pack (text a.1) (describe (a.2.refs.filter kind))) =
        .ok l ∧
      l.Groups (answers.map (·.1)) text (p.DependsOnName kind) group := by
  have hmem : ∀ a ∈ answers, ∀ n, n ∈ describe (a.2.refs.filter kind) ↔
      p.DependsOnName kind a.1 n := fun a ha =>
    Project.mem_describe_iff hnames (hans a ha).1 (hkind a ha) (hans a ha).2
  have hisName : ∀ a ∈ answers, ∀ n ∈ describe (a.2.refs.filter kind), Text.IsName n :=
    fun a ha => Project.isName_of_mem_describe hnames (hans a ha).1 (hkind a ha) (hans a ha).2
  refine exists_groups_of_keys (fun a _ => hpack.constructed _ _) (fun a _ => hpack.content _ _)
    (fun a ha n => ?_) fun a ha b hb => ⟨fun hkey n => ?_, fun hsame => ?_⟩
  · rw [hpack.dependencies]
    exact hmem a ha n
  · rw [← hmem a ha, hpack.key_injective (hisName a ha) (hisName b hb) hkey, hmem b hb]
  · have heq : describe (a.2.refs.filter kind) = describe (b.2.refs.filter kind) := by
      refine Sorted.ext fun n => ?_
      exact (hmem a ha n).trans ((hsame n).trans (hmem b hb n).symm)
    rw [heq]
    exact hpack.key_congr _ _ _

end Library

/-! ## The two groupings -/

namespace Catalogue

/-- Extension methods that are listed are entries. -/
theorem mem_entries_of_mem_extensionMethods {c : Catalogue} {e : Entry}
    (h : e ∈ c.extensionMethods) : e ∈ c.entries := by
  obtain ⟨_, -, hfind⟩ := List.mem_filterMap.mp (List.mem_filter.mp h).1
  exact (mem_entries_of_find? hfind).1

theorem answers_extensionMethods (p : Project) :
    ∀ a ∈ ((Walker.ofProject p).answerAll (ofProject p).extensionMethods).1,
      (ofProject p).Lists a.1.declaration ∧ (ofProject p).Answers a.1.declaration a.2 := by
  have hlists : ∀ e ∈ (ofProject p).extensionMethods, (ofProject p).Lists e.declaration :=
    fun e he => lists_of_mem_declarations (List.mem_filter.mp he).1
  intro a ha
  exact ⟨hlists a.1 (Walker.mem_of_answer _ ha),
    Walker.answers_answerAll (Walker.faithful_ofProject p) hlists a ha⟩

end Catalogue

namespace Extraction

/-- The extension pass never fails, also where identifiers of documents repeat. -/
theorem exists_extensions (policy : InterweaveConfig) (layout : Layout) (p : Project) :
    ∃ q, extensions policy layout (Walker.ofProject p) =
      .ok ⟨q, (policy.selectExtensions (Walker.ofProject p)).1.map
        (extensionPackage policy layout)⟩ := by
  have hids : ∀ id ∈ (policy.selectExtensions (Walker.ofProject p)).1.map (·.id),
      id ∈ p.nodeIds := by
    intro id hid
    obtain ⟨s, hs, rfl⟩ := List.mem_map.mp hid
    have hlisted := Walker.mem_of_answer _ (InterweaveConfig.mem_selectExtensions.mp hs).1
    exact Project.mem_nodeIds_of_mem_entries (Catalogue.mem_entries_of_mem_extensionMethods hlisted)
  obtain ⟨q, hq⟩ := Project.exists_removeDeclarations hids
  have hproject : (policy.selectExtensions (Walker.ofProject p)).2.catalogue.project = p :=
    congrArg Catalogue.project (Walker.catalogue_answerAll _ _)
  refine ⟨q, (exceptBind_eq_ok_iff _ _ _).mpr ⟨q, ?_, rfl⟩⟩
  show removeSelected (policy.selectExtensions (Walker.ofProject p)).2.catalogue.project
    (policy.selectExtensions (Walker.ofProject p)).1 = _
  rw [hproject]
  exact hq

end Extraction

/-- The answers for extension methods with an interweave. -/
def InterweaveConfig.interwovenAnswers (c : InterweaveConfig) (p : Project) :
    List (Entry × TypeSet) :=
  ((Walker.ofProject p).answerAll (Catalogue.ofProject p).extensionMethods).1.filter fun a =>
    c.anyInterweave a.2

section Interwoven

variable {p : Project} (hids : p.nodeIds.Nodup) (policy : InterweaveConfig)
include hids

theorem Project.extensionMethods_eq : (Catalogue.ofProject p).extensionMethods =
    p.entries.filter (·.declaration.isExtensionMethod) := by
  rw [Catalogue.extensionMethods, declarations_eq hids]

theorem Project.mem_extensionMethods {e : Entry}
    (he : e ∈ (Catalogue.ofProject p).extensionMethods) :
    e ∈ p.entries ∧ e.declaration.isExtensionMethod = true := by
  rw [extensionMethods_eq hids] at he
  exact List.mem_filter.mp he

theorem InterweaveConfig.interwovenAnswers_sublist :
    ((policy.interwovenAnswers p).map (·.1)).Sublist p.entries := by
  have hsub : ((policy.interwovenAnswers p).map (·.1)).Sublist
      (((Walker.ofProject p).answerAll (Catalogue.ofProject p).extensionMethods).1.map (·.1)) :=
    List.filter_sublist.map _
  rw [Walker.answerAll_queries, Project.extensionMethods_eq hids] at hsub
  exact hsub.trans List.filter_sublist

theorem InterweaveConfig.mem_interwovenAnswers_iff (hnames : p.WellNamed)
    (htuples : ∀ e ∈ p.entries, e.declaration.isExtensionMethod = true → p.TuplesAlike policy e)
    (e : Entry) :
    e ∈ (policy.interwovenAnswers p).map (·.1) ↔ e ∈ p.entries ∧
      e.declaration.isExtensionMethod = true ∧ ∃ n, p.DependsOnName policy.isInterweave e n := by
  have hans := Catalogue.answers_extensionMethods p
  constructor
  · intro he
    obtain ⟨a, ha, rfl⟩ := List.mem_map.mp he
    obtain ⟨ha, hany⟩ := List.mem_filter.mp ha
    obtain ⟨t, ht, hint⟩ := List.any_eq_true.mp hany
    obtain ⟨hentry, hext⟩ := Project.mem_extensionMethods hids (Walker.mem_of_answer _ ha)
    exact ⟨hentry, hext, t.openName, t, (hans a ha).2.sound t ht, hint, rfl⟩
  · rintro ⟨he, hext, n, hn⟩
    have hmem : e ∈ (Catalogue.ofProject p).extensionMethods := by
      rw [Project.extensionMethods_eq hids]
      exact List.mem_filter.mpr ⟨he, hext⟩
    obtain ⟨deps, ha⟩ := (Walker.ofProject p).exists_answer hmem
    obtain ⟨hlist, hanswers⟩ := hans _ ha
    rw [← Project.mem_describe_iff hnames hlist
      (hnames.tells_isInterweave hlist (htuples e he hext)) hanswers] at hn
    obtain ⟨t, ht, -⟩ := mem_describe.mp hn
    obtain ⟨ht, hint⟩ := List.mem_filter.mp ht
    exact List.mem_map.mpr
      ⟨_, List.mem_filter.mpr ⟨ha, List.any_eq_true.mpr ⟨t, ht, hint⟩⟩, rfl⟩

end Interwoven

/-- All extension methods are grouped by the local types that they depend on, and those that the
extension pass takes out by interweaves.  Packages of the pass may be added to a library one by one
or in groups. -/
theorem extension_groups (policy : InterweaveConfig) (layout : Layout) (p : Project)
    (hids : p.nodeIds.Nodup) (hnames : p.WellNamed) :
    (∃ l group, groupExtensions policy layout p = .ok l ∧
      l.Groups (p.entries.filter (·.declaration.isExtensionMethod))
        (fun e => layout.member e.declaration.toMember) (p.DependsOnName policy.isLocal) group) ∧
    ((∀ e ∈ p.entries, e.declaration.isExtensionMethod = true → p.TuplesAlike policy e) →
      ∃ x l es group, Extraction.extensions policy layout (Walker.ofProject p) = .ok x ∧
        Library.empty.addAll x.packages = .ok l ∧
        es.Sublist p.entries ∧
        (∀ e, e ∈ es ↔ e ∈ p.entries ∧ e.declaration.isExtensionMethod = true ∧
          ∃ n, p.DependsOnName policy.isInterweave e n) ∧
        l.Groups es (fun e => layout.member e.declaration.toMember)
          (p.DependsOnName policy.isInterweave) group ∧
        ∀ shelf : Library, shelf.addAll x.packages = shelf.addAll l.packages) := by
  have hans := Catalogue.answers_extensionMethods p
  refine ⟨?_, fun htuples => ?_⟩
  · obtain ⟨l, group, hadd, hgroups⟩ := Library.exists_groups hnames
      Package.sorts_extensionMethods (fun e => layout.member e.declaration.toMember) _ hans
      fun a ha => hnames.tells_isLocal (hans a ha).1 policy
    rw [Walker.answerAll_queries, Project.extensionMethods_eq hids] at hgroups
    exact ⟨l, group, hadd, hgroups⟩
  · obtain ⟨q, hx⟩ := Extraction.exists_extensions policy layout p
    have hpackages : (policy.selectExtensions (Walker.ofProject p)).1.map
        (Extraction.extensionPackage policy layout) =
        (policy.interwovenAnswers p).map fun a => .interwovenExtensionMethods
          (layout.member a.1.declaration.toMember)
          (describe (a.2.refs.filter policy.isInterweave)) := List.map_map
    rw [hpackages] at hx
    have hanswers : ∀ a ∈ policy.interwovenAnswers p,
        (Catalogue.ofProject p).Lists a.1.declaration ∧
        (Catalogue.ofProject p).Answers a.1.declaration a.2 := fun a ha =>
      hans a (List.mem_filter.mp ha).1
    have htells : ∀ a ∈ policy.interwovenAnswers p, p.Tells policy.isInterweave a.1 := by
      intro a ha
      have hmem := Walker.mem_of_answer _ (List.mem_filter.mp ha).1
      obtain ⟨he, hext⟩ := Project.mem_extensionMethods hids hmem
      exact hnames.tells_isInterweave (hanswers a ha).1 (htuples a.1 he hext)
    obtain ⟨l, group, hadd, hgroups⟩ := Library.exists_groups hnames
      Package.sorts_interwovenExtensionMethods (fun e => layout.member e.declaration.toMember)
      (policy.interwovenAnswers p) hanswers htells
    refine ⟨_, l, _, group, hx, hadd, policy.interwovenAnswers_sublist hids,
      policy.mem_interwovenAnswers_iff hids hnames htuples, hgroups, Library.addAll_of_own hadd⟩

/-- Two extension methods that mention the same types, a tuple and a named type of its full name, in
different order. -/
def mixture : Project :=
  { id := ⟨1⟩, name := "Mixture", assembly := "Mixture"
    documents :=
      [{ id := ⟨1⟩, name := "Mixture.cs"
         root := { members := [.type head [.leaf combine, .leaf swap]] } }] }
where
  head : TypeHead := { id := ⟨1⟩, kind := .classKind, name := "Mixture" }
  tuple : TypeSymbol := .tuple [.system "Int32"]
  named : TypeSymbol := { tuple with kind := .named }
  method (id : UInt32) (name : String) (first second : TypeSymbol) : Leaf :=
    { id := ⟨id⟩
      form := .method name [] .void
        [⟨"first", .ofSymbol first, true⟩, ⟨"second", .ofSymbol second, false⟩] none }
  combine : Leaf := method 2 "Combine" named tuple
  swap : Leaf := method 3 "Swap" tuple named
  entry (l : Leaf) : Entry := ⟨.leaf l, ⟨1⟩, some head, "", 1⟩

/-- A policy that trusts the assembly of tuples, but not tuples. -/
def mixture.lenient : InterweaveConfig :=
  { trusted := ["System.Runtime", "System.ValueTuple"], alwaysForeign := [] }

/-- The condition on tuples can be checked for all types of a project. -/
theorem Project.tuplesAlike_of_typeRefs {p : Project} (hids : p.nodeIds.Nodup)
    (policy : InterweaveConfig)
    (h : ∀ t ∈ p.typeRefs, ∀ t' ∈ p.typeRefs, t.fullName = t'.fullName →
      t.isTuple ≠ t'.isTuple → policy.isInterweave t = policy.isInterweave t') :
    ∀ e ∈ p.entries, e.declaration.isExtensionMethod = true → p.TuplesAlike policy e := by
  intro e he _ t t' ht ht'
  have hlist : (Catalogue.ofProject p).Lists e.declaration :=
    ⟨e, (find?_eq_some_iff hids _ _).mpr ⟨he, rfl⟩, rfl⟩
  exact h t (mem_typeRefs_of_dependsOn hlist ht) t' (mem_typeRefs_of_dependsOn hlist ht')

theorem extension_groups_mixture :
    mixture.nodeIds.Nodup ∧ mixture.WellNamed ∧
    (∀ e ∈ mixture.entries, e.declaration.isExtensionMethod = true → mixture.TuplesAlike {} e) ∧
    (∃ l group, groupExtensions {} {} mixture = .ok l ∧
      l.Groups (mixture.entries.filter (·.declaration.isExtensionMethod))
        (fun e => Layout.member {} e.declaration.toMember)
        (mixture.DependsOnName (InterweaveConfig.isLocal {})) group) ∧
    ∃ x l es group, Extraction.extensions {} {} (Walker.ofProject mixture) = .ok x ∧
      Library.empty.addAll x.packages = .ok l ∧
      es.Sublist mixture.entries ∧
      (∀ e, e ∈ es ↔ e ∈ mixture.entries ∧ e.declaration.isExtensionMethod = true ∧
        ∃ n, mixture.DependsOnName (InterweaveConfig.isInterweave {}) e n) ∧
      l.Groups es (fun e => Layout.member {} e.declaration.toMember)
        (mixture.DependsOnName (InterweaveConfig.isInterweave {})) group ∧
      ∀ shelf : Library, shelf.addAll x.packages = shelf.addAll l.packages := by
  have hids : mixture.nodeIds.Nodup := by decide +kernel
  have hnames : mixture.WellNamed := by decide +kernel
  have htuples := Project.tuplesAlike_of_typeRefs hids {} (by decide +kernel)
  obtain ⟨hlocal, hinterwoven⟩ := extension_groups {} {} mixture hids hnames
  exact ⟨hids, hnames, htuples, hlocal, hinterwoven htuples⟩

/-- What refers to nothing depends on what it mentions. -/
theorem Catalogue.dependsOn_iff_mentions {c : Catalogue} {d : Declaration} (h : d.callees = [])
    (t : TypeRef) : c.DependsOn d t ↔ d.Mentions t := by
  refine ⟨?_, dependsOn_of_mentions⟩
  rintro ⟨x, hx, hmentions⟩
  rcases Relation.ReflTransGen.cases_head hx with rfl | ⟨y, hedge, -⟩
  · exact hmentions
  · obtain ⟨id, hid, -⟩ := (edge_iff c d y).mp hedge
    rw [h] at hid
    cases hid

/-- The two methods depend on the same types. -/
theorem mixture.dependsOn_iff (t : TypeRef) :
    (Catalogue.ofProject mixture).DependsOn (entry combine).declaration t ↔
      (Catalogue.ofProject mixture).DependsOn (entry swap).declaration t := by
  rw [Catalogue.dependsOn_iff_mentions rfl, Catalogue.dependsOn_iff_mentions rfl]
  have hsymbols : ∀ s, s ∈ (entry combine).declaration.symbols ↔
      s ∈ (entry swap).declaration.symbols := by
    intro s
    show s ∈ [_, named, tuple] ↔ s ∈ [_, tuple, named]
    simp only [List.mem_cons, List.not_mem_nil, or_false]
    rw [or_comm (a := s = named)]
  exact exists_congr fun s => and_congr_left fun _ => hsymbols s

/-- Two methods that depend on the same interweaves need not be packed together: of a tuple and a
named type with its full name, the one that is mentioned first is judged. -/
theorem extensions_by_mention :
    mixture.nodeIds.Nodup ∧ mixture.WellNamed ∧
    (∀ n, mixture.DependsOnName mixture.lenient.isInterweave (mixture.entry mixture.combine) n ↔
      mixture.DependsOnName mixture.lenient.isInterweave (mixture.entry mixture.swap) n) ∧
    ¬ ∃ x l es group,
      Extraction.extensions mixture.lenient {} (Walker.ofProject mixture) = .ok x ∧
      Library.empty.addAll x.packages = .ok l ∧
      es.Sublist mixture.entries ∧
      (∀ e, e ∈ es ↔ e ∈ mixture.entries ∧ e.declaration.isExtensionMethod = true ∧
        ∃ n, mixture.DependsOnName mixture.lenient.isInterweave e n) ∧
      l.Groups es (fun e => Layout.member {} e.declaration.toMember)
        (mixture.DependsOnName mixture.lenient.isInterweave) group := by
  refine ⟨by decide +kernel, by decide +kernel, fun n => exists_congr fun t =>
    and_congr_left fun _ => mixture.dependsOn_iff t, ?_⟩
  rintro ⟨x, l, es, group, hx, hl, -, hes, hgroups⟩
  -- The library holds one package, and in it the second method only.
  have hrun : ((Extraction.extensions mixture.lenient {} (Walker.ofProject mixture)).bind fun x =>
      (Library.empty.addAll x.packages).map fun l => l.packages.map (·.content)) =
        .ok ["void Swap(this (Int32) first, ValueTuple<Int32> second);"] := by decide +kernel
  have hcontents : l.packages.map (·.content) =
      ["void Swap(this (Int32) first, ValueTuple<Int32> second);"] := by
    rw [hx] at hrun
    change (Library.empty.addAll x.packages).map _ = _ at hrun
    rw [hl] at hrun
    exact Except.ok.inj hrun
  -- Yet the first one depends on the tuple too.
  have htuple : mixture.DependsOnName mixture.lenient.isInterweave (mixture.entry mixture.combine)
      "System.ValueTuple<>" := by
    refine ⟨⟨.tuple, "ValueTuple", "System", "System.ValueTuple",
      [⟨.named, "Int32", "System", "System.Runtime", []⟩]⟩, ?_, by decide +kernel,
      by decide +kernel⟩
    refine (Catalogue.dependsOn_iff_mentions rfl _).mpr
      ⟨mixture.tuple, ?_, rfl, mixture.tuple, List.mem_cons_self, rfl⟩
    exact List.mem_cons_of_mem _ (List.mem_cons_of_mem _ List.mem_cons_self)
  have hmem : mixture.entry mixture.combine ∈ es :=
    (hes _).mpr ⟨List.mem_cons_of_mem _ List.mem_cons_self, rfl, _, htuple⟩
  obtain ⟨q, ⟨hq, hgroup⟩, -⟩ := hgroups.once _ hmem
  have hcontent : q.content ∈ l.packages.map (·.content) := List.mem_map_of_mem hq
  rw [hcontents, List.mem_singleton] at hcontent
  have hle := Package.length_le_paragraphs (List.mem_map_of_mem (f := fun e : Entry =>
    Text.trim (Layout.member {} e.declaration.toMember)) hgroup)
  rw [← hgroups.content q hq, hcontent] at hle
  revert hle
  decide +kernel

end Unweave

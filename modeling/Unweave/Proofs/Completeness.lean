import Unweave.Proofs.Jobs
import Unweave.Proofs.Remains
import Unweave.Proofs.WalkClosure
import Unweave.Tree.Build

/-!
# Extraction is complete

A pass selects by the answers of a walker.  Where types of one full name are alike, it selects all
that is interwoven (`mem_selectExtensions`, `selectMembers_eq_ok_iff`).  The selected declarations
are then erased.  What remains depends on nothing new, so none of it
becomes interwoven, and a pass that is run again, or after another one, finds nothing.
-/

namespace Unweave

/-! ## Selections -/

theorem Walker.exists_answer (w : Walker) {es : List Entry} {e : Entry} (he : e ∈ es) :
    ∃ deps, (e, deps) ∈ (w.answerAll es).1 := by
  rw [← w.answerAll_queries es] at he
  obtain ⟨⟨_, deps⟩, ha, rfl⟩ := List.mem_map.mp he
  exact ⟨deps, ha⟩

theorem Walker.mem_of_answer (w : Walker) {es : List Entry} {a : Entry × TypeSet}
    (ha : a ∈ (w.answerAll es).1) : a.1 ∈ es :=
  w.answerAll_queries es ▸ List.mem_map_of_mem ha

namespace Project.UniqueIds

variable {p : Project} (h : p.UniqueIds)
include h

theorem lists {e : Entry} (he : e ∈ p.entries) : (Catalogue.ofProject p).Lists e.declaration :=
  ⟨e, (h.find?_eq_some_iff _ _).mpr ⟨he, rfl⟩, rfl⟩

theorem mem_extensionMethods_iff (e : Entry) : e ∈ (Catalogue.ofProject p).extensionMethods ↔
    e ∈ p.entries ∧ e.declaration.isExtensionMethod = true := by
  rw [Catalogue.extensionMethods, h.declarations_eq, List.mem_filter]

theorem mem_typeMembers_iff (e : Entry) : e ∈ (Catalogue.ofProject p).typeMembers ↔
    e ∈ p.entries ∧ e.declaration.isTypeMember = true ∧
      e.declaration.isExtensionMethod = false := by
  rw [Catalogue.typeMembers, h.declarations_eq, List.mem_filter, Bool.and_eq_true,
    Bool.not_eq_true']

theorem mem_topTypes_iff (e : Entry) : e ∈ (Catalogue.ofProject p).topTypes ↔
    e ∈ p.entries ∧ e.declaration.isType = true ∧ e.depth = 0 := by
  rw [Catalogue.topTypes, h.declarations_eq, List.mem_filter, Bool.and_eq_true, beq_iff_eq]

/-- Answers to queries for entries, whatever else was asked. -/
theorem answers_answerAll {es : List Entry} (hes : ∀ e ∈ es, e ∈ p.entries)
    {a : Entry × TypeSet} (ha : a ∈ ((Walker.ofProject p).answerAll es).1) :
    (Catalogue.ofProject p).Answers a.1.declaration a.2 :=
  Walker.answers_answerAll (Walker.faithful_ofProject p) (fun e he => h.lists (hes e he)) a ha

end Project.UniqueIds

namespace InterweaveConfig

variable (c : InterweaveConfig)

theorem isInterweave_congr {t t' : TypeRef} (hshape : t.shape = t'.shape)
    (hassembly : t.assembly = t'.assembly) : c.isInterweave t = c.isInterweave t' := by
  unfold isInterweave TypeRef.isArray TypeRef.isParameter TypeRef.isTuple
  rw [hshape, hassembly]

/-- The declaration depends on an interweave; if it is not an extension method, on one besides the
type around it. -/
def Interwoven (c : InterweaveConfig) (p : Project) (e : Entry) : Prop :=
  ∃ t, (Catalogue.ofProject p).DependsOn e.declaration t ∧ c.isInterweave t = true ∧
    (e.declaration.isExtensionMethod = true ∨ e.containerOpenName ≠ some t.openName)

variable {c}

/-- Nothing that remains becomes interwoven. -/
theorem Interwoven.of_remainsOf {p' p : Project} (hrem : p'.RemainsOf p) (hp : p.UniqueIds)
    {e' e : Entry} (he : e'.RemainsOf e) (h : c.Interwoven p' e') : c.Interwoven p e := by
  obtain ⟨t, hdep, hint, hown⟩ := h
  refine ⟨t, hrem.dependsOn hp he hdep, hint, ?_⟩
  rw [← he.isExtensionMethod_eq, ← he.containerOpenName_eq]
  exact hown

section Answers

variable {p : Project} {e : Entry} {deps : TypeSet}

theorem interwoven_of_anyInterweave (hans : (Catalogue.ofProject p).Answers e.declaration deps)
    (hext : e.declaration.isExtensionMethod = true) (h : c.anyInterweave deps = true) :
    c.Interwoven p e := by
  obtain ⟨t, ht, hint⟩ := List.any_eq_true.mp h
  exact ⟨t, hans.sound t ht, hint, Or.inl hext⟩

theorem interwoven_of_isInterwoven (hans : (Catalogue.ofProject p).Answers e.declaration deps)
    (h : c.isInterwoven e deps = true) : c.Interwoven p e := by
  obtain ⟨t, ht, hint⟩ := List.any_eq_true.mp h
  obtain ⟨hint, hown⟩ := Bool.and_eq_true_iff.mp hint
  exact ⟨t, hans.sound t ht, hint, Or.inr (bne_iff_ne.mp hown)⟩

variable (hc : p.CoherentTypes) (hlist : (Catalogue.ofProject p).Lists e.declaration)
  (hans : (Catalogue.ofProject p).Answers e.declaration deps)
include hc hlist hans

theorem anyInterweave_of_interwoven (h : c.Interwoven p e) : c.anyInterweave deps = true := by
  obtain ⟨t, hdep, hint, -⟩ := h
  have hiff := hc.exists_mem_iff hlist hans (P := fun t => c.isInterweave t = true)
    fun t t' hshape hassembly _ ht => c.isInterweave_congr hshape hassembly ▸ ht
  exact List.any_eq_true.mpr (hiff.mpr ⟨t, hdep, hint⟩)

theorem isInterwoven_of_interwoven (hext : e.declaration.isExtensionMethod = false)
    (h : c.Interwoven p e) : c.isInterwoven e deps = true := by
  obtain ⟨t, hdep, hint, hown⟩ := h
  have hne : e.containerOpenName ≠ some t.openName :=
    hown.resolve_left (by rw [hext]; exact Bool.false_ne_true)
  have hiff := hc.exists_mem_iff hlist hans
    (P := fun t => c.isInterweave t = true ∧ e.containerOpenName ≠ some t.openName)
    fun t t' hshape hassembly hopen ht => by
      rw [← c.isInterweave_congr hshape hassembly, ← hopen]
      exact ht
  obtain ⟨t', ht', hint', hne'⟩ := hiff.mpr ⟨t, hdep, hint, hne⟩
  exact List.any_eq_true.mpr
    ⟨t', ht', Bool.and_eq_true_iff.mpr ⟨hint', bne_iff_ne.mpr hne'⟩⟩

end Answers

section Selections

variable {p : Project} (hp : p.UniqueIds)

/-- The extension methods with an interweave in their answers. -/
theorem mem_selectExtensions {s : Selected} :
    s ∈ (c.selectExtensions (Walker.ofProject p)).1 ↔
      (s.entry, s.dependencies) ∈
          ((Walker.ofProject p).answerAll (Catalogue.ofProject p).extensionMethods).1 ∧
        c.anyInterweave s.dependencies = true := by
  show s ∈ (List.filter _ _).map _ ↔ _
  rw [List.mem_map]
  constructor
  · rintro ⟨a, ha, rfl⟩
    exact List.mem_filter.mp ha
  · intro h
    exact ⟨(s.entry, s.dependencies), List.mem_filter.mpr h, rfl⟩

/-- The answers for members other than extension methods that call them interwoven. -/
def interwovenMembers (c : InterweaveConfig) (p : Project) : List (Entry × TypeSet) :=
  ((Walker.ofProject p).answerAll (Catalogue.ofProject p).typeMembers).1.filter fun (e, deps) =>
    c.isInterwoven e deps

/-- The selection of members fails exactly if one is interwoven that stands in no type. -/
theorem selectMembers_eq_ok_iff (selected : List Selected) :
    (c.selectMembers (Walker.ofProject p)).1 = .ok selected ↔
      (∀ a ∈ c.interwovenMembers p, a.1.container.isSome = true) ∧
        selected = (c.interwovenMembers p).map fun (e, deps) => ⟨e, deps⟩ := by
  have horphans : ((c.interwovenMembers p).filter fun (e, _) => e.container.isNone).isEmpty = true ↔
      ∀ a ∈ c.interwovenMembers p, a.1.container.isSome = true := by
    rw [List.isEmpty_iff, List.filter_eq_nil_iff]
    refine forall₂_congr fun a _ => ?_
    show ¬ a.1.container.isNone = true ↔ a.1.container.isSome = true
    cases a.1.container <;> simp
  show (if ((c.interwovenMembers p).filter fun (e, _) => e.container.isNone).isEmpty then
      Except.ok _ else Except.error _) = _ ↔ _
  rw [← horphans]
  split
  · next hempty =>
    rw [Except.ok.injEq, eq_comm]
    exact (and_iff_right hempty).symm
  · next hne => exact ⟨fun h => (nomatch h), fun h => absurd h.1 hne⟩

include hp

theorem mem_entries_of_mem_selectExtensions {s : Selected}
    (h : s ∈ (c.selectExtensions (Walker.ofProject p)).1) :
    s.entry ∈ p.entries ∧ s.entry.declaration.isExtensionMethod = true :=
  (hp.mem_extensionMethods_iff _).mp (Walker.mem_of_answer _ (mem_selectExtensions.mp h).1)

theorem interwoven_of_mem_selectExtensions {s : Selected}
    (h : s ∈ (c.selectExtensions (Walker.ofProject p)).1) : c.Interwoven p s.entry := by
  obtain ⟨ha, hint⟩ := mem_selectExtensions.mp h
  refine interwoven_of_anyInterweave ?_ (mem_entries_of_mem_selectExtensions hp h).2 hint
  exact hp.answers_answerAll (fun e he => ((hp.mem_extensionMethods_iff e).mp he).1) ha

theorem exists_mem_selectExtensions (hc : p.CoherentTypes) {e : Entry} (he : e ∈ p.entries)
    (hext : e.declaration.isExtensionMethod = true) (h : c.Interwoven p e) :
    ∃ s ∈ (c.selectExtensions (Walker.ofProject p)).1, s.entry = e := by
  have hmem := (hp.mem_extensionMethods_iff e).mpr ⟨he, hext⟩
  obtain ⟨deps, ha⟩ := (Walker.ofProject p).exists_answer hmem
  have hans := hp.answers_answerAll (fun e he => ((hp.mem_extensionMethods_iff e).mp he).1) ha
  have hint := anyInterweave_of_interwoven hc (hp.lists he) hans h
  exact ⟨⟨e, deps⟩, mem_selectExtensions.mpr ⟨ha, hint⟩, rfl⟩

theorem mem_entries_of_mem_interwovenMembers {a : Entry × TypeSet}
    (h : a ∈ c.interwovenMembers p) :
    a.1 ∈ p.entries ∧ a.1.declaration.isTypeMember = true ∧
      a.1.declaration.isExtensionMethod = false :=
  (hp.mem_typeMembers_iff _).mp (Walker.mem_of_answer _ (List.mem_filter.mp h).1)

theorem interwoven_of_mem_interwovenMembers {a : Entry × TypeSet}
    (h : a ∈ c.interwovenMembers p) : c.Interwoven p a.1 := by
  obtain ⟨ha, hint⟩ := List.mem_filter.mp h
  refine interwoven_of_isInterwoven ?_ hint
  exact hp.answers_answerAll (fun e he => ((hp.mem_typeMembers_iff e).mp he).1) ha

theorem exists_mem_interwovenMembers (hc : p.CoherentTypes) {e : Entry} (he : e ∈ p.entries)
    (hmember : e.declaration.isTypeMember = true)
    (hext : e.declaration.isExtensionMethod = false) (h : c.Interwoven p e) :
    ∃ a ∈ c.interwovenMembers p, a.1 = e := by
  have hmem := (hp.mem_typeMembers_iff e).mpr ⟨he, hmember, hext⟩
  obtain ⟨deps, ha⟩ := (Walker.ofProject p).exists_answer hmem
  have hans := hp.answers_answerAll (fun e he => ((hp.mem_typeMembers_iff e).mp he).1) ha
  have hint := isInterwoven_of_interwoven hc (hp.lists he) hans hext h
  exact ⟨(e, deps), List.mem_filter.mpr ⟨ha, hint⟩, rfl⟩

end Selections

end InterweaveConfig

/-! ## Passes -/

namespace Extraction

variable {policy : InterweaveConfig} {layout : Layout} {p : Project}

theorem removeSelected_eq_ok_iff (hp : p.UniqueIds) {selected : List Selected}
    (hsel : ∀ s ∈ selected, s.entry ∈ p.entries) (q : Project) :
    removeSelected p selected = .ok q ↔ q = p.erase (selected.map (·.id)).contains := by
  rw [removeSelected, Project.removeDeclarations_eq_ok_iff hp]
  refine and_iff_right fun id hid => ?_
  obtain ⟨s, hs, rfl⟩ := List.mem_map.mp hid
  exact Project.mem_nodeIds_of_mem_entries (hsel s hs)

/-- What the extension pass takes out. -/
def extensionIds (policy : InterweaveConfig) (p : Project) : List NodeId :=
  (policy.selectExtensions (Walker.ofProject p)).1.map (·.id)

/-- The extension pass never fails. -/
theorem extensions_eq_ok (policy : InterweaveConfig) (layout : Layout) (hp : p.UniqueIds) :
    extensions policy layout (Walker.ofProject p) =
      .ok
        { project := p.erase (extensionIds policy p).contains
          packages :=
            (policy.selectExtensions (Walker.ofProject p)).1.map
              (extensionPackage policy layout) } := by
  have hproject : (policy.selectExtensions (Walker.ofProject p)).2.catalogue.project = p :=
    congrArg Catalogue.project (Walker.catalogue_answerAll _ _)
  refine (exceptBind_eq_ok_iff _ _ _).mpr ⟨_, ?_, rfl⟩
  show removeSelected (policy.selectExtensions (Walker.ofProject p)).2.catalogue.project
    (policy.selectExtensions (Walker.ofProject p)).1 = _
  rw [hproject, removeSelected_eq_ok_iff hp fun s hs =>
    (InterweaveConfig.mem_entries_of_mem_selectExtensions hp hs).1]
  rfl

/-- The member pass fails only if the selection does. -/
theorem members_eq_ok_iff (hp : p.UniqueIds) (x : Extracted) :
    members policy layout (Walker.ofProject p) = .ok x ↔
      ∃ selected, (policy.selectMembers (Walker.ofProject p)).1 = .ok selected ∧
        selected.mapM (memberPackage policy layout) = .ok x.packages ∧
        x.project = p.erase (selected.map (·.id)).contains := by
  have hproject : (policy.selectMembers (Walker.ofProject p)).2.catalogue.project = p :=
    congrArg Catalogue.project (Walker.catalogue_answerAll _ _)
  show ((policy.selectMembers (Walker.ofProject p)).1 >>= fun selected =>
    selected.mapM (memberPackage policy layout) >>= fun packages =>
      removeSelected (policy.selectMembers (Walker.ofProject p)).2.catalogue.project selected >>=
        fun project => Except.ok { project, packages }) = .ok x ↔ _
  rw [exceptBind_eq_ok_iff, hproject]
  refine exists_congr fun selected => and_congr_right fun hselected => ?_
  have hsel : ∀ s ∈ selected, s.entry ∈ p.entries := by
    rw [((InterweaveConfig.selectMembers_eq_ok_iff selected).mp hselected).2]
    intro s hs
    obtain ⟨a, ha, rfl⟩ := List.mem_map.mp hs
    exact (InterweaveConfig.mem_entries_of_mem_interwovenMembers hp ha).1
  simp only [exceptBind_eq_ok_iff, removeSelected_eq_ok_iff hp hsel, Except.ok.injEq]
  constructor
  · rintro ⟨packages, hpackages, project, rfl, rfl⟩
    exact ⟨hpackages, rfl⟩
  · rintro ⟨hpackages, hproject⟩
    exact ⟨x.packages, hpackages, _, rfl, by rw [← hproject]⟩

/-- The container pass takes out all top-level types. -/
theorem containers_eq_ok_iff (hp : p.UniqueIds) (x : Extracted) :
    containers policy layout (Walker.ofProject p) = .ok x ↔
      (policy.selectContainers (Walker.ofProject p)).mapM (containerPackage layout p) =
          .ok x.packages ∧
        x.project =
          p.erase ((policy.selectContainers (Walker.ofProject p)).map (·.id)).contains := by
  have hsel : ∀ s ∈ policy.selectContainers (Walker.ofProject p), s.entry ∈ p.entries := by
    intro s hs
    obtain ⟨e, he, rfl⟩ := List.mem_map.mp hs
    exact ((hp.mem_topTypes_iff e).mp he).1
  show ((policy.selectContainers (Walker.ofProject p)).mapM (containerPackage layout p) >>=
    fun packages => removeSelected p (policy.selectContainers (Walker.ofProject p)) >>=
      fun project => Except.ok { project, packages }) = .ok x ↔ _
  simp only [exceptBind_eq_ok_iff, removeSelected_eq_ok_iff hp hsel, Except.ok.injEq]
  constructor
  · rintro ⟨packages, hpackages, project, rfl, rfl⟩
    exact ⟨hpackages, rfl⟩
  · rintro ⟨hpackages, hproject⟩
    exact ⟨x.packages, hpackages, _, rfl, by rw [← hproject]⟩

/-- A pass leaves what is left after erasing some nodes. -/
def Erases (pass : Walker → Except Error Extracted) : Prop :=
  ∀ (p : Project) (x : Extracted), p.UniqueIds → pass (Walker.ofProject p) = .ok x →
    ∃ gone, x.project = p.erase gone

theorem erases_extensions (policy : InterweaveConfig) (layout : Layout) :
    Erases (extensions policy layout) := by
  intro p x hp h
  rw [extensions_eq_ok policy layout hp, Except.ok.injEq] at h
  exact ⟨_, by rw [← h]⟩

theorem erases_members (policy : InterweaveConfig) (layout : Layout) :
    Erases (members policy layout) := by
  intro p x hp h
  obtain ⟨_, -, -, hproject⟩ := (members_eq_ok_iff hp x).mp h
  exact ⟨_, hproject⟩

theorem erases_containers (policy : InterweaveConfig) (layout : Layout) :
    Erases (containers policy layout) := by
  intro p x hp h
  exact ⟨_, ((containers_eq_ok_iff hp x).mp h).2⟩

end Extraction

/-! ## Nothing is left -/

namespace InterweaveConfig

/-- Of the entries of some kind, none is interwoven. -/
def Free (c : InterweaveConfig) (p : Project) (kind : Entry → Prop) : Prop :=
  ∀ e ∈ p.entries, kind e → ¬ c.Interwoven p e

def IsExtension (e : Entry) : Prop := e.declaration.isExtensionMethod = true

def IsOtherMember (e : Entry) : Prop :=
  e.declaration.isTypeMember = true ∧ e.declaration.isExtensionMethod = false

variable {c : InterweaveConfig} {p' p : Project} {kind : Entry → Prop}

theorem isExtension_of_remainsOf {e' e : Entry} (h : e'.RemainsOf e) (he : IsExtension e') :
    IsExtension e := by
  rw [IsExtension, ← h.isExtensionMethod_eq]
  exact he

theorem isOtherMember_of_remainsOf {e' e : Entry} (h : e'.RemainsOf e) (he : IsOtherMember e') :
    IsOtherMember e := by
  rw [IsOtherMember, ← h.isExtensionMethod_eq, ← h.isTypeMember_eq]
  exact he

theorem Free.of_remainsOf (h : c.Free p kind) (hrem : p'.RemainsOf p) (hp : p.UniqueIds)
    (hkind : ∀ {e' e : Entry}, e'.RemainsOf e → kind e' → kind e) : c.Free p' kind := by
  intro e' he' hk hint
  obtain ⟨e, he, hr⟩ := hrem e' he'
  exact h e he (hkind hr hk) (hint.of_remainsOf hrem hp hr)

/-- Taking out what is interwoven of a kind leaves nothing interwoven of that kind. -/
theorem free_erase (hp : p.UniqueIds) {ids : List NodeId}
    (hids : ∀ e ∈ p.entries, kind e → c.Interwoven p e → e.id ∈ ids)
    (hkind : ∀ {e' e : Entry}, e'.RemainsOf e → kind e' → kind e) :
    c.Free (p.erase ids.contains) kind := by
  intro e' he' hk hint
  obtain ⟨e, he, hr⟩ := p.erase_remainsOf ids.contains e' he'
  have hmem := hids e he (hkind hr hk) (hint.of_remainsOf (p.erase_remainsOf _) hp hr)
  have hgone := Project.not_gone_of_mem_erase he'
  rw [hr.id_eq, List.contains_iff_mem.mpr hmem] at hgone
  cases hgone

theorem selectExtensions_eq_nil (hp : p.UniqueIds) (h : c.Free p IsExtension) :
    (c.selectExtensions (Walker.ofProject p)).1 = [] := by
  refine List.eq_nil_iff_forall_not_mem.mpr fun s hs => ?_
  obtain ⟨he, hext⟩ := mem_entries_of_mem_selectExtensions hp hs
  exact h s.entry he hext (interwoven_of_mem_selectExtensions hp hs)

theorem selectMembers_eq_nil (hp : p.UniqueIds) (h : c.Free p IsOtherMember) :
    (c.selectMembers (Walker.ofProject p)).1 = .ok [] := by
  have hnil : c.interwovenMembers p = [] := by
    refine List.eq_nil_iff_forall_not_mem.mpr fun a ha => ?_
    obtain ⟨he, hmember⟩ := mem_entries_of_mem_interwovenMembers hp ha
    exact h a.1 he hmember (interwoven_of_mem_interwovenMembers hp ha)
  refine (selectMembers_eq_ok_iff _).mpr ⟨?_, ?_⟩
  · rw [hnil]
    exact fun a ha => nomatch ha
  · rw [hnil]
    rfl

end InterweaveConfig

namespace Extraction

open InterweaveConfig

variable {policy : InterweaveConfig} {layout : Layout} {p : Project} {x : Extracted}

theorem free_of_extensions (hp : p.UniqueIds) (hc : p.CoherentTypes)
    (h : extensions policy layout (Walker.ofProject p) = .ok x) :
    policy.Free x.project IsExtension := by
  rw [extensions_eq_ok policy layout hp, Except.ok.injEq] at h
  rw [← h]
  refine free_erase hp (fun e he hext hint => ?_) isExtension_of_remainsOf
  obtain ⟨s, hs, rfl⟩ := exists_mem_selectExtensions hp hc he hext hint
  exact List.mem_map_of_mem hs

theorem free_of_members (hp : p.UniqueIds) (hc : p.CoherentTypes)
    (h : members policy layout (Walker.ofProject p) = .ok x) :
    policy.Free x.project IsOtherMember := by
  obtain ⟨selected, hselected, -, hproject⟩ := (members_eq_ok_iff hp x).mp h
  rw [hproject]
  refine free_erase hp (fun e he hmember hint => ?_) isOtherMember_of_remainsOf
  obtain ⟨a, ha, rfl⟩ := exists_mem_interwovenMembers hp hc he hmember.1 hmember.2 hint
  rw [((selectMembers_eq_ok_iff selected).mp hselected).2]
  exact List.mem_map_of_mem (List.mem_map_of_mem ha)

/-- The extension pass succeeds and leaves no interwoven extension method.  A member pass after it
leaves neither one of these nor another interwoven member. -/
theorem extensions_then_members_complete (policy : InterweaveConfig) (layout : Layout)
    (p : Project) (hp : p.UniqueIds) (hc : p.CoherentTypes) :
    ∃ x, extensions policy layout (Walker.ofProject p) = .ok x ∧
      (policy.selectExtensions (Walker.ofProject x.project)).1 = [] ∧
      ∀ y, members policy layout (Walker.ofProject x.project) = .ok y →
        (policy.selectExtensions (Walker.ofProject y.project)).1 = [] ∧
        (policy.selectMembers (Walker.ofProject y.project)).1 = .ok [] := by
  have hx := extensions_eq_ok policy layout hp
  have hp' : (p.erase (extensionIds policy p).contains).UniqueIds := hp.erase _
  have hc' : (p.erase (extensionIds policy p).contains).CoherentTypes := hc.erase _
  have hfree := free_of_extensions hp hc hx
  refine ⟨_, hx, selectExtensions_eq_nil hp' hfree, fun y hy => ?_⟩
  obtain ⟨selected, -, -, hproject⟩ := (members_eq_ok_iff hp' y).mp hy
  have hmembers := free_of_members hp' hc' hy
  rw [hproject] at hmembers ⊢
  refine ⟨selectExtensions_eq_nil (hp'.erase _) ?_, selectMembers_eq_nil (hp'.erase _) hmembers⟩
  exact hfree.of_remainsOf (Project.erase_remainsOf _ _) hp' isExtension_of_remainsOf

/-- An extension method on a foreign type, and two methods that call each other, of which one takes
that type too and calls the extension method. -/
def tangle : Project :=
  { id := ⟨1⟩, name := "Tangle", assembly := "System.Runtime"
    documents :=
      [{ id := ⟨1⟩, name := "Tangle.cs"
         root :=
          { members :=
              [.type { id := ⟨1⟩, kind := .classKind, name := "Tangle" }
                [method 2 [⟨"box", .ofSymbol (.named "Crates" "Crates" "Box"), true⟩] [],
                  method 3 [⟨"box", .ofSymbol (.named "Crates" "Crates" "Box"), false⟩] [2, 4],
                  method 4 [] [3], method 5 [⟨"n", .int, false⟩] []]] } }] }
where
  method (id : UInt32) (parameters : List Parameter) (callees : List UInt32) : Member :=
    .leaf
      { id := ⟨id⟩
        form := .method "step" [] .void parameters (some
          { kind := .block, text := "",
            expressions := callees.map fun callee =>
              { text := "", symbol := some { name := "step", declaration := some ⟨callee⟩ } } }) }

theorem extensions_then_members_complete_tangle :
    tangle.UniqueIds ∧ tangle.CoherentTypes ∧
    ((extensions {} {} (Walker.ofProject tangle)).bind fun x =>
      (members {} {} (Walker.ofProject x.project)).map (·.project.entries.map Entry.id)).toOption =
        some [⟨1⟩, ⟨5⟩] ∧
    ∃ x, extensions {} {} (Walker.ofProject tangle) = .ok x ∧
      (selectExtensions {} (Walker.ofProject x.project)).1 = [] ∧
      ∀ y, members {} {} (Walker.ofProject x.project) = .ok y →
        (selectExtensions {} (Walker.ofProject y.project)).1 = [] ∧
        (selectMembers {} (Walker.ofProject y.project)).1 = .ok [] :=
  ⟨by decide +kernel, by decide +kernel, by decide +kernel,
    extensions_then_members_complete {} {} tangle (by decide +kernel) (by decide +kernel)⟩

end Extraction
end Unweave

import Unweave.Proofs.Completeness
import Unweave.Proofs.SortedSets

/-!
# The using directives of a container

A container package carries the directives that were in scope where its type stood.  They are found
by name: the catalogue writes down the dotted name of the namespace, and a second walk goes into
every block whose own dotted name leads to it.  A block that leads to the namespace need not be
around the type, since one namespace can be written in several blocks and nested blocks can be
written as one with dots in its name.

If no block is nameless, the second walk visits exactly the blocks that lead to the namespace
(`Root.mem_usingsFor_iff`), and the blocks around the type are among them.
-/

namespace Unweave

/-! ## Dotted names -/

namespace Text

/-- The name of a namespace from the names of the blocks around it, outermost first. -/
def dotted (names : List String) : String := ".".intercalate names

/-- The second name is the first one or goes on after it with a dot. -/
def Leads (name target : String) : Prop := target = name ∨ ∃ rest, target = name ++ "." ++ rest

theorem dotted_append {names more : List String} (h : names ≠ []) (hmore : more ≠ []) :
    dotted (names ++ more) = dotted names ++ "." ++ dotted more :=
  String.intercalate_append_of_ne_nil h hmore

theorem dotted_ne_empty {names : List String} (h : names ≠ []) (hnames : ∀ n ∈ names, n ≠ "") :
    dotted names ≠ "" := by
  obtain ⟨n, ns, rfl⟩ := List.exists_cons_of_ne_nil h
  have hn : n ≠ "" := hnames n List.mem_cons_self
  cases ns with
  | nil => rwa [dotted, String.intercalate_singleton]
  | cons n' ns =>
    rw [dotted, String.intercalate_cons_cons]
    simp [hn]

/-- Going into one more block adds its name. -/
theorem qualify_dotted {names : List String} (hnames : ∀ n ∈ names, n ≠ "") (name : String) :
    qualify (dotted names) name = dotted (names ++ [name]) := by
  by_cases h : names = []
  · subst h
    rw [List.nil_append, dotted, dotted, String.intercalate_singleton, String.intercalate_nil]
    rfl
  · have hne : (dotted names).isEmpty = false := by simpa using dotted_ne_empty h hnames
    rw [qualify, hne, dotted_append h (List.cons_ne_nil _ _), if_neg Bool.false_ne_true]
    rw [dotted, dotted, String.intercalate_singleton]

theorem leads_iff (name target : String) :
    (target == name || target.startsWith (name ++ ".")) = true ↔ Leads name target := by
  rw [Bool.or_eq_true, beq_iff_eq, String.startsWith_string_iff, Leads]
  refine or_congr_right ⟨?_, ?_⟩
  · rintro ⟨rest, hrest⟩
    exact ⟨.ofList rest, String.toList_injective (by simp [← hrest])⟩
  · rintro ⟨rest, rfl⟩
    exact ⟨rest.toList, (String.toList_append ..).symm⟩

theorem Leads.trans {a b c : String} (hab : Leads a b) (hbc : Leads b c) : Leads a c := by
  rcases hab with rfl | ⟨r, rfl⟩
  · exact hbc
  · rcases hbc with rfl | ⟨s, rfl⟩
    · exact .inr ⟨r, rfl⟩
    · exact .inr ⟨r ++ "." ++ s, by simp only [String.append_assoc]⟩

/-- Blocks further out lead to those further in. -/
theorem leads_dotted_append {names : List String} (h : names ≠ []) (more : List String) :
    Leads (dotted names) (dotted (names ++ more)) := by
  by_cases hmore : more = []
  · subst hmore
    exact .inl (by rw [List.append_nil])
  · exact .inr ⟨dotted more, dotted_append h hmore⟩

end Text

/-! ## Standing in blocks -/

/-- The dotted name of blocks, outermost first. -/
def dottedName (blocks : List BlockHead) : String := Text.dotted (blocks.map (·.name))

theorem forall_named_concat {blocks : List BlockHead} (h : ∀ b ∈ blocks, b.name ≠ "")
    {head : BlockHead} (hhead : head.name ≠ "") : ∀ b ∈ blocks ++ [head], b.name ≠ "" :=
  List.forall_mem_append.mpr ⟨h, List.forall_mem_singleton.mpr hhead⟩

theorem qualify_dottedName {blocks : List BlockHead} (h : ∀ b ∈ blocks, b.name ≠ "")
    (head : BlockHead) :
    Text.qualify (dottedName blocks) head.name = dottedName (blocks ++ [head]) := by
  rw [dottedName, Text.qualify_dotted (List.forall_mem_map.mpr h), dottedName, List.map_append,
    List.map_singleton]

/-- A block leads to everything in it. -/
theorem leads_dottedName (outer : List BlockHead) (head : BlockHead) (blocks : List BlockHead) :
    Text.Leads (dottedName (outer ++ [head])) (dottedName (outer ++ [head] ++ blocks)) := by
  have hne : (outer ++ [head]).map (·.name) ≠ [] := by simp
  have hsplit : (outer ++ [head] ++ blocks).map (·.name) =
      (outer ++ [head]).map (·.name) ++ blocks.map (·.name) := List.map_append
  rw [dottedName, dottedName, hsplit]
  exact Text.leads_dotted_append hne _

namespace Member

/-- The member stands in the list, in these blocks and in no type, outermost block first. -/
def StandsIn (m : Member) : List BlockHead → List Member → Prop
  | [], ms => m ∈ ms
  | head :: blocks, ms => ∃ inner, block head inner ∈ ms ∧ StandsIn m blocks inner

theorem StandsIn.cons {m : Member} {blocks : List BlockHead} {ms : List Member}
    (h : m.StandsIn blocks ms) (x : Member) : m.StandsIn blocks (x :: ms) := by
  cases blocks with
  | nil => exact List.mem_cons_of_mem x h
  | cons head blocks =>
    obtain ⟨inner, hinner, h⟩ := h
    exact ⟨inner, List.mem_cons_of_mem x hinner, h⟩

/-- Each block around a member stands in those further out. -/
theorem StandsIn.block_of_append {m : Member} {outer : List BlockHead} {head : BlockHead}
    {blocks : List BlockHead} {ms : List Member} (h : m.StandsIn (outer ++ head :: blocks) ms) :
    ∃ inner, (block head inner).StandsIn outer ms := by
  induction outer generalizing ms with
  | nil =>
    obtain ⟨inner, hinner, -⟩ := h
    exact ⟨inner, hinner⟩
  | cons b outer ih =>
    obtain ⟨between, hbetween, h⟩ := h
    obtain ⟨inner, hinner⟩ := ih h
    exact ⟨inner, between, hbetween, hinner⟩

/-- The names of the blocks. -/
def blockNamesAll (ms : List Member) : List String :=
  gatherAll ⟨fun h => [h.name], fun _ => [], fun _ => []⟩ ms

theorem blockNamesAll_cons (m : Member) (ms : List Member) :
    blockNamesAll (m :: ms) = blockNamesAll [m] ++ blockNamesAll ms := by
  simp [blockNamesAll, gatherAll]

theorem blockNamesAll_block (head : BlockHead) (inner : List Member) :
    blockNamesAll [block head inner] = head.name :: blockNamesAll inner := by
  simp [blockNamesAll, gatherAll, gather]

/-- No block is nameless. -/
def SpacesNamed (ms : List Member) : Prop := ∀ name ∈ blockNamesAll ms, name ≠ ""
deriving Decidable

theorem SpacesNamed.of_cons {m : Member} {ms : List Member} (h : SpacesNamed (m :: ms)) :
    SpacesNamed ms := by
  intro name hname
  exact h name (blockNamesAll_cons m ms ▸ List.mem_append_right _ hname)

theorem SpacesNamed.of_mem {head : BlockHead} {inner ms : List Member} (h : SpacesNamed ms)
    (hblock : block head inner ∈ ms) : head.name ≠ "" ∧ SpacesNamed inner := by
  induction ms with
  | nil => cases hblock
  | cons m ms ih =>
    rcases List.mem_cons.mp hblock with rfl | hblock
    · rw [SpacesNamed, blockNamesAll_cons, blockNamesAll_block, List.cons_append,
        List.forall_mem_cons, List.forall_mem_append] at h
      exact ⟨h.1, h.2.1⟩
    · exact ih h.of_cons hblock

end Member

open Member (StandsIn SpacesNamed)

/-! ## The walk by name -/

namespace Root

variable (target : String)

theorem usingsTowardAll_eq_flatMap (outer : String) (ms : List Member) :
    usingsTowardAll target outer ms = ms.flatMap (usingsToward target outer) := by
  induction ms with
  | nil => rfl
  | cons m ms ih => rw [usingsTowardAll, List.flatMap_cons, ih]

theorem mem_usingsToward_block (outer : String) (head : BlockHead) (inner : List Member)
    (u : Using) : u ∈ usingsToward target outer (.block head inner) ↔
      Text.Leads (Text.qualify outer head.name) target ∧
        (u ∈ head.usings ∨ u ∈ usingsTowardAll target (Text.qualify outer head.name) inner) := by
  rw [usingsToward, ← Text.leads_iff]
  split
  · rename_i h
    rw [List.mem_append]
    exact (and_iff_right h).symm
  · rename_i h
    exact ⟨fun hmem => absurd hmem List.not_mem_nil, fun hmem => absurd hmem.1 h⟩

/-- The directives found by name are those of the blocks that lead to the name. -/
theorem mem_usingsTowardAll_iff {outer : List BlockHead} (houter : ∀ b ∈ outer, b.name ≠ "")
    {ms : List Member} (hms : SpacesNamed ms) (u : Using) :
    u ∈ usingsTowardAll target (dottedName outer) ms ↔
      ∃ blocks head inner, (Member.block head inner).StandsIn blocks ms ∧
        Text.Leads (dottedName (outer ++ blocks ++ [head])) target ∧ u ∈ head.usings := by
  constructor
  · intro h
    induction ms using Member.listInduction generalizing outer with
    | nil => cases h
    | block head inner ms ihInner ih =>
      rw [usingsTowardAll, List.mem_append, mem_usingsToward_block,
        qualify_dottedName houter] at h
      rcases h with ⟨hleads, hown | hbelow⟩ | h
      · exact ⟨[], head, inner, List.mem_cons_self, by rwa [List.append_nil], hown⟩
      · obtain ⟨hname, hinner⟩ := hms.of_mem List.mem_cons_self
        obtain ⟨blocks, b, members, hstands, hleads, hu⟩ :=
          ihInner (forall_named_concat houter hname) hinner hbelow
        refine ⟨head :: blocks, b, members, ⟨inner, List.mem_cons_self, hstands⟩, ?_, hu⟩
        rwa [List.append_assoc outer, List.singleton_append] at hleads
      · obtain ⟨blocks, b, members, hstands, h⟩ := ih houter hms.of_cons h
        exact ⟨blocks, b, members, hstands.cons _, h⟩
    | type head inner ms ihInner ih =>
      simp only [usingsTowardAll, usingsToward, List.nil_append] at h
      obtain ⟨blocks, b, members, hstands, h⟩ := ih houter hms.of_cons h
      exact ⟨blocks, b, members, hstands.cons _, h⟩
    | leaf l ms ih =>
      simp only [usingsTowardAll, usingsToward, List.nil_append] at h
      obtain ⟨blocks, b, members, hstands, h⟩ := ih houter hms.of_cons h
      exact ⟨blocks, b, members, hstands.cons _, h⟩
  · rintro ⟨blocks, head, inner, hstands, hleads, hu⟩
    rw [usingsTowardAll_eq_flatMap]
    induction blocks generalizing outer ms with
    | nil =>
      refine List.mem_flatMap.mpr ⟨_, hstands, ?_⟩
      rw [mem_usingsToward_block, qualify_dottedName houter]
      rw [List.append_nil] at hleads
      exact ⟨hleads, .inl hu⟩
    | cons b blocks ih =>
      obtain ⟨between, hbetween, hstands⟩ := hstands
      obtain ⟨hname, hnamed⟩ := hms.of_mem hbetween
      refine List.mem_flatMap.mpr ⟨_, hbetween, ?_⟩
      rw [mem_usingsToward_block, qualify_dottedName houter, usingsTowardAll_eq_flatMap]
      have hsplit : outer ++ b :: blocks ++ [head] = (outer ++ [b]) ++ (blocks ++ [head]) := by
        simp only [List.append_assoc, List.cons_append, List.nil_append]
      rw [hsplit] at hleads
      refine ⟨(leads_dottedName outer b _).trans hleads, .inr ?_⟩
      rw [← List.append_assoc] at hleads
      exact ih (forall_named_concat houter hname) hnamed hstands hleads

theorem mem_usingsFor_iff {r : Root} (hnamed : SpacesNamed r.members) (u : Using) :
    u ∈ r.usingsFor target ↔ u ∈ r.usings ∨
      ∃ outer head inner, (Member.block head inner).StandsIn outer r.members ∧
        Text.Leads (dottedName (outer ++ [head])) target ∧ u ∈ head.usings := by
  have houter : ∀ b ∈ ([] : List BlockHead), b.name ≠ "" := List.forall_mem_nil _
  rw [usingsFor, List.mem_append]
  exact or_congr_right (mem_usingsTowardAll_iff target houter hnamed u)

end Root

/-! ## Where top-level types stand -/

/-- The entry is that of a type in these blocks of the document, and in no other type. -/
def Entry.IsTopIn (e : Entry) (d : Document) (blocks : List BlockHead) : Prop :=
  ∃ head inner, (Member.type head inner).StandsIn blocks d.root.members ∧
    e = ⟨.type head inner, d.id, none, dottedName blocks, 0⟩

namespace Catalogue

variable (document : DocumentId)

theorem collectAll_eq_flatMap (space : String) (container : Option TypeHead) (depth : Nat)
    (ms : List Member) : collectAll document space container depth ms =
      ms.flatMap (collect document space container depth) := by
  induction ms with
  | nil => rfl
  | cons m ms ih => rw [collectAll, List.flatMap_cons, ih]

theorem mem_collectAll_of_standsIn {outer blocks : List BlockHead}
    (houter : ∀ b ∈ outer, b.name ≠ "") {ms : List Member} (hms : SpacesNamed ms)
    {head : TypeHead} {inner : List Member} (h : (Member.type head inner).StandsIn blocks ms) :
    (⟨.type head inner, document, none, dottedName (outer ++ blocks), 0⟩ : Entry) ∈
      collectAll document (dottedName outer) none 0 ms := by
  rw [collectAll_eq_flatMap]
  induction blocks generalizing outer ms with
  | nil =>
    rw [List.append_nil]
    exact List.mem_flatMap.mpr ⟨_, h, List.mem_cons_self⟩
  | cons b blocks ih =>
    obtain ⟨between, hbetween, h⟩ := h
    obtain ⟨hname, hnamed⟩ := hms.of_mem hbetween
    refine List.mem_flatMap.mpr ⟨_, hbetween, ?_⟩
    rw [collect, qualify_dottedName houter, collectAll_eq_flatMap]
    have hmem := ih (forall_named_concat houter hname) hnamed h
    rwa [List.append_assoc, List.singleton_append] at hmem

theorem exists_standsIn_of_mem_collectAll {outer : List BlockHead}
    (houter : ∀ b ∈ outer, b.name ≠ "") {ms : List Member} (hms : SpacesNamed ms) {e : Entry}
    (he : e ∈ collectAll document (dottedName outer) none 0 ms)
    (htype : e.declaration.isType = true) (hdepth : e.depth = 0) :
    ∃ blocks head inner, (Member.type head inner).StandsIn blocks ms ∧
      e = ⟨.type head inner, document, none, dottedName (outer ++ blocks), 0⟩ := by
  induction ms using Member.listInduction generalizing outer with
  | nil => cases he
  | block head inner ms ihInner ih =>
    rw [collectAll, collect, List.mem_append, qualify_dottedName houter] at he
    rcases he with he | he
    · obtain ⟨hname, hinner⟩ := hms.of_mem List.mem_cons_self
      obtain ⟨blocks, t, members, hstands, rfl⟩ :=
        ihInner (forall_named_concat houter hname) hinner he
      refine ⟨head :: blocks, t, members, ⟨inner, List.mem_cons_self, hstands⟩, ?_⟩
      rw [List.append_assoc, List.singleton_append]
    · obtain ⟨blocks, t, members, hstands, rfl⟩ := ih houter hms.of_cons he
      exact ⟨blocks, t, members, hstands.cons _, rfl⟩
  | type head inner ms ihInner ih =>
    rw [collectAll, collect, List.mem_append, List.mem_cons] at he
    rcases he with (rfl | he) | he
    · exact ⟨[], head, inner, List.mem_cons_self, by rw [List.append_nil]⟩
    · have hdeeper := depth_le_of_mem_collectAll document he
      omega
    · obtain ⟨blocks, t, members, hstands, rfl⟩ := ih houter hms.of_cons he
      exact ⟨blocks, t, members, hstands.cons _, rfl⟩
  | leaf l ms ih =>
    rw [collectAll, collect, List.mem_append, List.mem_singleton] at he
    rcases he with rfl | he
    · cases htype
    · obtain ⟨blocks, t, members, hstands, rfl⟩ := ih houter hms.of_cons he
      exact ⟨blocks, t, members, hstands.cons _, rfl⟩

/-- The listed types that stand in no other type. -/
theorem mem_topTypes_iff_find? (c : Catalogue) (e : Entry) : e ∈ c.topTypes ↔
    c.find? e.id = some e ∧ e.declaration.isType = true ∧ e.depth = 0 := by
  rw [topTypes, List.mem_filter, Bool.and_eq_true, beq_iff_eq]
  refine and_congr_left fun _ => ⟨fun he => ?_, fun he => ?_⟩
  · obtain ⟨_, _, hfind⟩ := List.mem_filterMap.mp he
    rwa [(mem_entries_of_find? hfind).2]
  · exact List.mem_filterMap.mpr ⟨e, (mem_entries_of_find? he).1, he⟩

end Catalogue

namespace Project

/-- No block of a project is nameless. -/
def SpacesNamed (p : Project) : Prop := ∀ d ∈ p.documents, Member.SpacesNamed d.root.members
deriving Decidable

variable {p : Project}

/-- An entry of the project is that of a top-level type exactly if it stands in some blocks. -/
theorem SpacesNamed.exists_isTopIn_iff (hnamed : p.SpacesNamed) (e : Entry) :
    (∃ d ∈ p.documents, ∃ blocks, e.IsTopIn d blocks) ↔
      e ∈ p.entries ∧ e.declaration.isType = true ∧ e.depth = 0 := by
  have houter : ∀ b ∈ ([] : List BlockHead), b.name ≠ "" := List.forall_mem_nil _
  constructor
  · rintro ⟨d, hd, blocks, head, inner, hstands, rfl⟩
    refine ⟨mem_entries_iff.mpr ⟨d, hd, ?_⟩, rfl, rfl⟩
    exact Catalogue.mem_collectAll_of_standsIn d.id houter (hnamed d hd) hstands
  · rintro ⟨he, htype, hdepth⟩
    obtain ⟨d, hd, he⟩ := mem_entries_iff.mp he
    exact ⟨d, hd, Catalogue.exists_standsIn_of_mem_collectAll d.id houter (hnamed d hd) he htype
      hdepth⟩

theorem SpacesNamed.mem_topTypes_iff (hnamed : p.SpacesNamed) (e : Entry) :
    e ∈ (Catalogue.ofProject p).topTypes ↔
      (∃ d ∈ p.documents, ∃ blocks, e.IsTopIn d blocks) ∧
        (Catalogue.ofProject p).find? e.id = some e := by
  rw [Catalogue.mem_topTypes_iff_find?, hnamed.exists_isTopIn_iff]
  constructor
  · rintro ⟨hfind, htop⟩
    exact ⟨⟨(Catalogue.mem_entries_of_find? hfind).1, htop⟩, hfind⟩
  · rintro ⟨⟨-, htop⟩, hfind⟩
    exact ⟨hfind, htop⟩

end Project

/-! ## Container packages -/

/-- The texts are directives that a type in these blocks of the document needs or may see: all of
those at the root and in the blocks, and beyond them only those of blocks that lead to the same
namespace. -/
structure Document.Scopes (d : Document) (blocks : List BlockHead) (texts : List String) :
    Prop where
  root : ∀ u ∈ d.root.usings, Layout.usingText u ∈ texts
  around : ∀ b ∈ blocks, ∀ u ∈ b.usings, Layout.usingText u ∈ texts
  others : ∀ text ∈ texts, (∃ u ∈ d.root.usings, Layout.usingText u = text) ∨
    ∃ outer b inner, (Member.block b inner).StandsIn outer d.root.members ∧
      Text.Leads (dottedName (outer ++ [b])) (dottedName blocks) ∧
        ∃ u ∈ b.usings, Layout.usingText u = text

theorem Document.scopes_usingsFor {d : Document} (hnamed : SpacesNamed d.root.members)
    {blocks : List BlockHead} {m : Member} (hm : m.StandsIn blocks d.root.members) :
    d.Scopes blocks
      (Text.sortedSet ((d.root.usingsFor (dottedName blocks)).map Layout.usingText)) where
  root u hu := by
    refine Text.mem_sortedSet.mpr (List.mem_map_of_mem ?_)
    exact (Root.mem_usingsFor_iff _ hnamed u).mpr (.inl hu)
  around b hb u hu := by
    obtain ⟨outer, rest, rfl⟩ := List.append_of_mem hb
    obtain ⟨inner, hinner⟩ := hm.block_of_append
    refine Text.mem_sortedSet.mpr (List.mem_map_of_mem ?_)
    refine (Root.mem_usingsFor_iff _ hnamed u).mpr (.inr ⟨outer, b, inner, hinner, ?_, hu⟩)
    have hleads := leads_dottedName outer b rest
    rwa [List.append_assoc, List.singleton_append] at hleads
  others text htext := by
    obtain ⟨u, hu, rfl⟩ := List.mem_map.mp (Text.mem_sortedSet.mp htext)
    rcases (Root.mem_usingsFor_iff _ hnamed u).mp hu with hroot | ⟨outer, b, inner, h, hleads, hu⟩
    · exact .inl ⟨u, hroot, rfl⟩
    · exact .inr ⟨outer, b, inner, h, hleads, u, hu, rfl⟩

/-- The package is that of the entry's type.  It has the directives in scope wherever such a type
stands in the project. -/
def Package.Wraps (package : Package) (p : Project) (e : Entry) : Prop :=
  ∀ d ∈ p.documents, ∀ blocks, e.IsTopIn d blocks →
    ∃ details, package.container = some details ∧
      details.name = Text.qualify (dottedName blocks) e.declaration.name ∧
      d.Scopes blocks details.usings

namespace Extraction

theorem exists_containerPackage {p : Project} (hdocuments : (p.documents.map (·.id)).Nodup)
    (layout : Layout) {d : Document} (hd : d ∈ p.documents) {e : Entry} {blocks : List BlockHead}
    (he : e.IsTopIn d blocks) (deps : TypeSet) :
    ∃ package, containerPackage layout p ⟨e, deps⟩ = .ok package := by
  obtain ⟨head, inner, -, rfl⟩ := he
  rw [containerPackage]
  dsimp only
  rw [Project.document?_of_mem hdocuments hd]
  exact ⟨_, rfl⟩

theorem wraps_of_containerPackage {p : Project} (hdocuments : (p.documents.map (·.id)).Nodup)
    (hnamed : p.SpacesNamed) {layout : Layout} {e : Entry} {deps : TypeSet} {package : Package}
    (h : containerPackage layout p ⟨e, deps⟩ = .ok package) :
    package.Wraps p e := by
  rintro d hd blocks ⟨head, inner, hstands, rfl⟩
  rw [containerPackage] at h
  dsimp only at h
  rw [Project.document?_of_mem hdocuments hd] at h
  cases h
  exact ⟨_, rfl, rfl, d.scopes_usingsFor (hnamed d hd) hstands⟩

/-- The container pass makes one package for each listed top-level type.  It has all directives at
the root of the document and in the blocks around the type, and other directives only from blocks of
that document that lead to the type's namespace. -/
theorem containers_scope_usings (policy : InterweaveConfig) (layout : Layout) (p : Project)
    (hdocuments : (p.documents.map (·.id)).Nodup) (hnamed : p.SpacesNamed)
    (cache : List (NodeId × TypeSet)) :
    ∃ x, containers policy layout ⟨.ofProject p, cache⟩ = .ok x ∧
      List.Forall₂ (fun e package => package.Wraps p e) (Catalogue.ofProject p).topTypes
        x.packages ∧
      ∀ e, e ∈ (Catalogue.ofProject p).topTypes ↔
        (∃ d ∈ p.documents, ∃ blocks, e.IsTopIn d blocks) ∧
          (Catalogue.ofProject p).find? e.id = some e := by
  set types := (Catalogue.ofProject p).topTypes
  have hpackages : ∃ packages,
      (types.map (⟨·, .empty⟩)).mapM (containerPackage layout p) = .ok packages := by
    refine exists_mapM_of_forall (List.forall_mem_map.mpr fun e he => ?_)
    obtain ⟨⟨d, hd, blocks, he⟩, -⟩ := (hnamed.mem_topTypes_iff e).mp he
    exact exists_containerPackage hdocuments layout hd he .empty
  have hproject : ∃ q, removeSelected p (types.map (⟨·, .empty⟩)) = .ok q := by
    refine Project.exists_removeDeclarations (List.forall_mem_map.mpr ?_)
    refine List.forall_mem_map.mpr fun e he => Project.mem_nodeIds_of_mem_entries ?_
    exact (Catalogue.mem_entries_of_find? ((hnamed.mem_topTypes_iff e).mp he).2).1
  obtain ⟨packages, hpackages⟩ := hpackages
  obtain ⟨q, hq⟩ := hproject
  refine ⟨⟨q, packages⟩, ?_, ?_, hnamed.mem_topTypes_iff⟩
  · exact (exceptBind_eq_ok_iff _ _ _).mpr
      ⟨packages, hpackages, (exceptBind_eq_ok_iff _ _ _).mpr ⟨q, hq, rfl⟩⟩
  · exact (List.forall₂_map_left_iff.mp (forall₂_of_mapM hpackages)).imp fun _ _ =>
      wraps_of_containerPackage hdocuments hnamed

/-- A type in two nested blocks, one of them with a dot in its name.  Of the three other blocks one
has the name of a namespace around the type, one only begins like it, and one goes on after it. -/
def quayside : Project :=
  { id := ⟨1⟩, name := "Demo", assembly := "Demo"
    documents :=
      [{ id := ⟨1⟩, name := "Crane.cs"
         root :=
          { usings := [{ name := "System" }]
            members :=
              [.block { name := "Port", usings := [{ name := "Tides" }] }
                [.block { name := "Dock.Lifts", usings := [{ name := "Steel" }] }
                  [.type { id := ⟨1⟩, kind := .classKind, name := "Crane" } []]],
               .block { name := "Port.Dock", usings := [{ name := "Ropes" }] } [],
               .block { name := "Port.Do", usings := [{ name := "Gulls" }] } [],
               .block { name := "Port.Dock.Lifts.Hooks", usings := [{ name := "Chains" }] } []] } },
       { id := ⟨2⟩, name := "Other.cs", root := { usings := [{ name := "Other" }] } }] }

theorem containers_scope_usings_quayside :
    (quayside.documents.map (·.id)).Nodup ∧ quayside.SpacesNamed ∧
    ∃ x, containers {} {} ⟨.ofProject quayside, []⟩ = .ok x ∧
      x.packages.map (·.container.map (·.usings.toList)) =
        [some ["using Ropes;", "using Steel;", "using System;", "using Tides;"]] ∧
      List.Forall₂ (fun e package => package.Wraps quayside e)
        (Catalogue.ofProject quayside).topTypes x.packages := by
  have hdocuments : (quayside.documents.map (·.id)).Nodup := by decide +kernel
  have hnamed : quayside.SpacesNamed := by decide +kernel
  have husings : (containers {} {} ⟨.ofProject quayside, []⟩).map
      (fun x => x.packages.map (·.container.map (·.usings.toList))) =
        .ok [some ["using Ropes;", "using Steel;", "using System;", "using Tides;"]] := by
    decide +kernel
  obtain ⟨x, hx, hwraps, -⟩ := containers_scope_usings {} {} quayside hdocuments hnamed []
  rw [hx] at husings
  exact ⟨hdocuments, hnamed, x, hx, Except.ok.inj husings, hwraps⟩

end Extraction
end Unweave

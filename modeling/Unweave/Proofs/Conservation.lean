import Unweave.Proofs.Merging
import Unweave.Proofs.Takings
import Unweave.Proofs.Wording

/-!
# Packing loses nothing and keeps nothing twice

The passes take the declarations of a project apart, each of them once.  What they take they write
down: the content of a package has the words of the declaration that it was made for and no others
(`Package.Writes`), so everything that is taken is told in exactly one package, what is nested in a
type in the package of the type around it (`Packing.told`).  The library keeps what packages say.

Tidying and erasing do not change what a declaration says by itself (`Project.Retells`).  So what is
told is what the declaration said before it was packed.
-/

namespace Unweave

open Text

/-! ## What a declaration says -/

/-- What is told of a declaration. -/
def Entry.saying (e : Entry) : NodeId × Bool × List String :=
  (e.id, e.declaration.isType, e.declaration.words)

namespace Catalogue

variable (document : DocumentId)

theorem map_saying_collectAll (space : String) (container : Option TypeHead) (depth : Nat)
    (ms : List Member) :
    (collectAll document space container depth ms).map Entry.saying =
      Member.gatherAll ⟨fun _ => [], fun h => [(h.id, true, h.bare.words)],
        fun l => [(l.id, false, l.bare.words)]⟩ ms := by
  induction ms using Member.listInduction generalizing space container depth with
  | nil => rfl
  | block head inner ms ihInner ih =>
    rw [collectAll, collect, List.map_append, ihInner, ih]
    rfl
  | type head inner ms ihInner ih =>
    rw [collectAll, collect, List.map_append, List.map_cons, ihInner, ih]
    rfl
  | leaf l ms ih =>
    rw [collectAll, collect, List.map_append, ih]
    rfl

/-- What is declared in a declaration of a list is declared in the list. -/
theorem collect_subset {space : String} {container : Option TypeHead} {depth : Nat}
    {ms : List Member} {e : Entry} (h : e ∈ collectAll document space container depth ms) :
    collect e.document e.space e.container e.depth e.declaration.toMember ⊆
      collectAll document space container depth ms := by
  induction ms using Member.listInduction generalizing space container depth with
  | nil => cases h
  | block head inner ms ihInner ih =>
    rw [collectAll, collect, List.mem_append] at h
    rw [collectAll, collect]
    rcases h with h | h
    · exact fun x hx => List.mem_append_left _ (ihInner h hx)
    · exact fun x hx => List.mem_append_right _ (ih h hx)
  | type head inner ms ihInner ih =>
    rw [collectAll, collect, List.mem_append, List.mem_cons] at h
    rw [collectAll, collect]
    rcases h with (rfl | h) | h
    · exact fun x hx => List.mem_append_left _ hx
    · exact fun x hx => List.mem_append_left _ (List.mem_cons_of_mem _ (ihInner h hx))
    · exact fun x hx => List.mem_append_right _ (ih h hx)
  | leaf l ms ih =>
    rw [collectAll, collect, List.mem_append, List.mem_singleton] at h
    rw [collectAll, collect]
    rcases h with rfl | h
    · exact fun x hx => List.mem_append_left _ hx
    · exact fun x hx => List.mem_append_right _ (ih h hx)

end Catalogue

namespace Project

/-- Each declaration of the first project says what one of the second says. -/
def Retells (q p : Project) : Prop := ∀ e' ∈ q.entries, ∃ e ∈ p.entries, e'.saying = e.saying

theorem Retells.trans {r q p : Project} (h' : r.Retells q) (h : q.Retells p) : r.Retells p := by
  intro e'' he''
  obtain ⟨e', he', hsaying'⟩ := h' e'' he''
  obtain ⟨e, he, hsaying⟩ := h e' he'
  exact ⟨e, he, hsaying'.trans hsaying⟩

theorem Tidied.retells {q p : Project} (h : q.Tidied p) : q.Retells p := by
  obtain ⟨g, rfl, hg⟩ := h
  intro e' he'
  obtain ⟨d', hd', he'⟩ := mem_entries_iff.mp he'
  obtain ⟨d, hd, rfl⟩ := List.mem_map.mp hd'
  have hsayings : (g d).entries.map Entry.saying = d.entries.map Entry.saying := by
    rw [Document.entries, Document.entries, Catalogue.map_saying_collectAll,
      Catalogue.map_saying_collectAll]
    exact Member.gatherAll_eq_of_bareAll (hg d hd).bare_eq _ (fun _ => rfl) (fun _ => rfl)
      fun _ => rfl
  have hmem : e'.saying ∈ d.entries.map Entry.saying := hsayings ▸ List.mem_map_of_mem he'
  obtain ⟨e, he, hsaying⟩ := List.mem_map.mp hmem
  exact ⟨e, mem_entries_iff.mpr ⟨d, hd, he⟩, hsaying.symm⟩

theorem retells_erase (p : Project) (gone : NodeId → Bool) : (p.erase gone).Retells p := by
  intro e' he'
  obtain ⟨e, he, rfl⟩ := exists_of_mem_entries_erase he'
  refine ⟨e, he, ?_⟩
  obtain ⟨declaration, document, container, space, depth⟩ := e
  cases declaration <;> rfl

theorem collect_subset_entries {p : Project} {e : Entry} (h : e ∈ p.entries) :
    Catalogue.collect e.document e.space e.container e.depth e.declaration.toMember ⊆
      p.entries := by
  obtain ⟨d, hd, he⟩ := mem_entries_iff.mp h
  exact fun x hx => mem_entries_iff.mpr ⟨d, hd, Catalogue.collect_subset d.id he hx⟩

end Project

/-! ## What a package says -/

/-- The comments above a type. -/
def TypeHead.comments (h : TypeHead) : List String :=
  (h.leading.filter (·.kind == .comment)).map (·.text)

namespace Package

/-- The package says all that a declaration says, and nothing else.  A leaf stands in the content;
so do the members of a type, whose comments and header the container remembers. -/
def Writes (layout : Layout) (k : Package) : Declaration → Prop
  | .leaf l => Padded (ink layout.margin) (inkAll l.words) (ink k.content)
  | .type head members =>
    Padded (ink layout.margin) (inkAll (Member.wordsAll members)) (ink k.content) ∧
      ∃ details, k.container = some details ∧
        ink details.declaration = inkAll (head.comments ++ head.words)

/-- A package that was made for the selected declaration tells of one that stands in it.  A type
for which the package was made is told in what the container remembers, all else in the content. -/
def Tells (layout : Layout) (k : Package) (s : Selected) (e : Entry) : Prop :=
  if e.declaration.isType = true ∧ e.id = s.id then
    ∃ details, k.container = some details ∧ Shows "" e.declaration.words details.declaration
  else Shows layout.margin e.declaration.words k.content

variable {layout : Layout} {k : Package}

/-- What is told of a declaration that is written down is told of all that stands in it. -/
theorem Writes.tells {s : Selected} (h : k.Writes layout s.entry.declaration)
    (hnodup : s.entry.covered.Nodup) {e' e : Entry}
    (he' : e' ∈ Catalogue.collect s.entry.document s.entry.space s.entry.container s.entry.depth
      s.entry.declaration.toMember)
    (hsaying : e'.saying = e.saying) : k.Tells layout s e := by
  obtain ⟨hid, htype, hwords⟩ : e'.id = e.id ∧ e'.declaration.isType = e.declaration.isType ∧
      e'.declaration.words = e.declaration.words := by
    simpa only [Entry.saying, Prod.mk.injEq] using hsaying
  rw [Tells, ← hid, ← htype, ← hwords]
  cases hdeclaration : s.entry.declaration with
  | leaf l =>
    rw [hdeclaration, Declaration.toMember, Catalogue.collect, List.mem_singleton] at he'
    rw [hdeclaration] at h
    rw [he', if_neg fun hself => Bool.false_ne_true hself.1]
    refine .of_padded h ⟨Trivia.wordsAll l.leading, [], ?_⟩
    rw [List.append_nil, l.words_bare]
    rfl
  | type head members =>
    have hself : s.id = head.id := congrArg Declaration.id hdeclaration
    rw [hdeclaration] at h
    obtain ⟨hmembers, details, hdetails, htext⟩ := h
    rw [Entry.covered, hdeclaration] at hnodup
    obtain ⟨houter, -⟩ := List.nodup_cons.mp hnodup
    rw [hdeclaration, Declaration.toMember, Catalogue.collect, List.mem_cons] at he'
    rcases he' with rfl | he'
    · -- The type itself is told where its header stands.
      rw [if_pos ⟨rfl, hself.symm⟩]
      refine ⟨details, hdetails, .of_padded (.of_eq htext.symm) ?_⟩
      refine ⟨head.comments ++ head.modifiers, [], ?_⟩
      rw [List.append_nil, head.words_bare, List.append_assoc]
      rfl
    · have hinner : e'.id ≠ s.id := by
        rw [hself]
        exact fun hsame => houter (List.mem_map.mpr ⟨e', he', hsame⟩)
      rw [if_neg fun hself => hinner hself.2]
      exact .of_padded hmembers (Catalogue.words_of_mem_collectAll he')

end Package

namespace Extraction

variable {policy : InterweaveConfig} {layout : Layout} {s : Selected} {k : Package}

/-- A package with the text of a leaf says what the leaf says. -/
theorem writes_of_leaf (hleaf : s.entry.declaration.isType = false)
    (h : k.content = trim (layout.member s.entry.declaration.toMember)) :
    k.Writes layout s.entry.declaration := by
  obtain ⟨⟨declaration, document, container, space, depth⟩, dependencies⟩ := s
  cases declaration with
  | type head members => cases hleaf
  | leaf l =>
    rw [Package.Writes, h, ink_trim]
    exact layout.padded_member (.leaf l)

theorem writes_memberPackage (hleaf : s.entry.declaration.isType = false)
    (h : memberPackage policy layout s = .ok k) : k.Writes layout s.entry.declaration := by
  rw [memberPackage] at h
  split at h
  · cases h
  · cases h
    exact writes_of_leaf hleaf rfl

theorem ink_containerDeclaration (h : TypeHead) :
    ink (containerDeclaration h) = inkAll (h.comments ++ h.words) := by
  have hcomments : ∀ ts : List Trivia,
      inkAll (ts.map (trimEnd ·.text)) = inkAll (ts.map (·.text)) := by
    intro ts
    rw [inkAll, inkAll, List.flatMap_map, List.flatMap_map]
    simp only [ink_trimEnd]
  rw [containerDeclaration, ink_intercalate_of_blank ink_feed, inkAll_append, inkAll_append,
    inkAll_singleton, Layout.ink_typeHeader, hcomments]
  rfl

theorem writes_containerPackage {p : Project} (h : containerPackage layout p s = .ok k) :
    k.Writes layout s.entry.declaration := by
  rw [containerPackage] at h
  split at h
  · cases h
  · next head inner hdeclaration =>
    split at h
    · cases h
    · cases h
      rw [hdeclaration]
      refine ⟨?_, _, rfl, ink_containerDeclaration head⟩
      show Padded _ _ (ink (trim ("\n\n".intercalate (layout.members inner))))
      rw [ink_trim, ink_intercalate_of_blank (by decide)]
      exact layout.padded_members inner

end Extraction

/-! ## What is written down -/

theorem exists_getElem?_of_forall₂ {α β : Type} {R : α → β → Prop} {as : List α} {bs : List β}
    (h : List.Forall₂ R as bs) {i : Nat} {a : α} (ha : as[i]? = some a) :
    ∃ b, bs[i]? = some b ∧ R a b := by
  obtain ⟨hi, rfl⟩ := List.getElem?_eq_some_iff.mp ha
  have hi' : i < bs.length := h.length_eq ▸ hi
  exact ⟨bs[i], List.getElem?_eq_getElem hi', h.get hi hi'⟩

/-- Of lists that share nothing, one has the element. -/
theorem index_eq_of_nodup_flatMap {α β : Type} {f : α → List β} {as : List α}
    (h : (as.flatMap f).Nodup) {i j : Nat} {a b : α} {x : β} (ha : as[i]? = some a)
    (hb : as[j]? = some b) (hxa : x ∈ f a) (hxb : x ∈ f b) : i = j := by
  have hdisjoint := List.pairwise_iff_getElem.mp (List.nodup_flatMap.mp h).2
  obtain ⟨hi, rfl⟩ := List.getElem?_eq_some_iff.mp ha
  obtain ⟨hj, rfl⟩ := List.getElem?_eq_some_iff.mp hb
  rcases Nat.lt_trichotomy i j with hlt | heq | hgt
  · exact (hdisjoint i j hi hj hlt hxa hxb).elim
  · exact heq
  · exact (hdisjoint j i hj hi hgt hxb hxa).elim

namespace Packing

variable {settings : Settings} {p : Project} (t : Packing settings p)
  (hflags : CleanUp.FlagsUsings settings.usings) (hp : p.UniqueIds)
include hflags hp

theorem retells_tidy : t.tidy.Retells p := (t.tidied hflags hp).retells

theorem retells_extensions : t.extensions.project.Retells p := by
  rw [(t.extensions_project hflags hp).2]
  exact (t.tidy.retells_erase _).trans (t.retells_tidy hflags hp)

theorem retells_members : t.members.project.Retells p := by
  rw [(t.members_project hflags hp).2.2]
  exact (t.extensions.project.retells_erase _).trans (t.retells_extensions hflags hp)

/-- What stands in something that was selected says what it said in the project. -/
theorem exists_saying {s : Selected} (hs : s ∈ t.selected) {e' : Entry}
    (he' : e' ∈ Catalogue.collect s.entry.document s.entry.space s.entry.container s.entry.depth
      s.entry.declaration.toMember) : ∃ e ∈ p.entries, e'.saying = e.saying := by
  rcases List.mem_append.mp hs with hs | hs
  · rcases List.mem_append.mp hs with hs | hs
    · have hentry := (t.extensionSelection_entries hflags hp s hs).1
      exact t.retells_tidy hflags hp e' (Project.collect_subset_entries hentry he')
    · have hentry := (t.memberSelection_entries hflags hp s hs).1
      exact t.retells_extensions hflags hp e' (Project.collect_subset_entries hentry he')
  · have hentry := t.containerSelection_entries hflags hp s hs
    exact t.retells_members hflags hp e' (Project.collect_subset_entries hentry he')

/-- Each package says what was selected for it. -/
theorem writes : List.Forall₂ (fun s k => k.Writes settings.layout s.entry.declaration) t.selected
    t.packages := by
  have hmembers := forall₂_of_mapM (t.members_project hflags hp).2.1
  have hcontainers := forall₂_of_mapM (t.containers_project hflags hp).1
  refine List.rel_append (List.rel_append ?_ ?_) ?_
  · rw [(t.extensions_project hflags hp).1, List.forall₂_map_right_iff, List.forall₂_same]
    exact fun s hs => Extraction.writes_of_leaf
      (t.extensionSelection_entries hflags hp s hs).2.1 rfl
  · have hleaves := (List.forall₂_and_left _ _).mpr
      ⟨fun s hs => (t.memberSelection_entries hflags hp s hs).2.1, hmembers⟩
    exact hleaves.imp fun s k h => Extraction.writes_memberPackage h.1 h.2
  · exact hcontainers.imp fun s k h => Extraction.writes_containerPackage h

/-- What is taken is told in one package, which was made for it or for the type around it. -/
theorem told {e : Entry} (he : e ∈ p.entries) (htaken : t.leftOver e.site = false) :
    ∃ (i : Nat) (s : Selected) (k : Package), t.selected[i]? = some s ∧
      t.packages[i]? = some k ∧ k.Tells settings.layout s e ∧
      ∀ (j : Nat) (s' : Selected), t.selected[j]? = some s' →
        (e.id ∈ s'.entry.covered ↔ j = i) := by
  have hnodup : (t.selected.flatMap (·.entry.covered)).Nodup := by
    rw [t.flatMap_covered_selected hflags hp]
    exact t.nodup_takenIds hflags hp
  have hmem : e.id ∈ t.selected.flatMap (·.entry.covered) := by
    rw [t.flatMap_covered_selected hflags hp, (t.perm_takenIds hflags hp).mem_iff]
    refine List.mem_map_of_mem (f := Site.id) (List.mem_filter.mpr ⟨Project.mem_sites he, ?_⟩)
    rw [htaken, Bool.not_false]
  obtain ⟨s, hs, hcovered⟩ := List.mem_flatMap.mp hmem
  obtain ⟨i, hi⟩ := List.mem_iff_getElem?.mp hs
  obtain ⟨k, hk, hwrites⟩ := exists_getElem?_of_forall₂ (t.writes hflags hp) hi
  refine ⟨i, s, k, hi, hk, ?_, fun j s' hj => ⟨fun hcovered' => ?_, ?_⟩⟩
  · obtain ⟨e', he', hid⟩ := List.mem_map.mp hcovered
    obtain ⟨e₀, he₀, hsaying⟩ := t.exists_saying hflags hp hs he'
    have hsame : e₀ = e := hp.eq_of_id he₀ he ((congrArg Prod.fst hsaying).symm.trans hid)
    exact hwrites.tells ((List.nodup_flatMap.mp hnodup).1 s hs) he' (hsame ▸ hsaying)
  · exact index_eq_of_nodup_flatMap hnodup hj hi hcovered' hcovered
  · rintro rfl
    cases hi.symm.trans hj
    exact hcovered

end Packing

/-- A project that is packed is taken apart without loss.  The extension methods, the members and
the contents of the types that the passes took are disjoint, and together they are all declarations
but the delegates outside types and the members outside types that are not interwoven.  These are
left, in their documents and in order, and so are all namespaces outside types; a namespace block
inside a type leaves with its type.

Each pass made one package for each declaration that it selected.  The package has the words of the
declaration and no others, so everything that is taken is told in exactly one package: what is
nested in a type in the package of the type.  The library keeps what the packages say.

The provider of the diagnostics must call no node needless but usings (`FlagsUsings`), since the
clean-up erases what it calls needless. -/
theorem Pipeline.packProject_conserves {σ : Type} (settings : Settings) (b : Workbench σ)
    (id : ProjectId) (shelf shelf' : Shelf σ) (p q : Project) (hb : b.Lawful)
    (hflags : CleanUp.FlagsUsings settings.usings) (hp : p.UniqueIds)
    (hfind : (b.solution shelf.host).project? id = some p)
    (hrun : packProject settings b id shelf = (.ok q, shelf')) :
    ∃ t : Packing settings p, t.stripped = q ∧
      (b.solution shelf'.host).project? id = some q ∧
      -- Nothing is taken twice, and what is taken is what is not left.
      t.takenIds.Nodup ∧
      t.takenIds.Perm ((p.sites.filter (!t.leftOver ·)).map Site.id) ∧
      (∀ s ∈ p.sites, s.isLoose = false →
        t.takenIds.count s.id = 1 ∧ s.id ∉ q.sites.map Site.id) ∧
      -- What is left stands where it stood.
      q.sites = p.sites.filter t.leftOver ∧
      q.spaces = p.spaces ∧
      -- Each pass makes a package for each declaration that it selects.
      t.extensions.packages =
        t.extensionSelection.map (Extraction.extensionPackage settings.policy settings.layout) ∧
      (settings.policy.selectMembers (Walker.ofProject t.extensions.project)).1 =
        .ok t.memberSelection ∧
      t.memberSelection.mapM (Extraction.memberPackage settings.policy settings.layout) =
        .ok t.members.packages ∧
      t.containerSelection.mapM
          (Extraction.containerPackage settings.layout t.members.project) =
        .ok t.containers.packages ∧
      -- The package says what the declaration says, and nothing else.
      List.Forall₂ (fun s k => k.Writes settings.layout s.entry.declaration) t.selected
        t.packages ∧
      -- What is taken is told in one package, and no other was made for it.
      (∀ e ∈ p.entries, t.leftOver e.site = false →
        ∃ (i : Nat) (s : Selected) (k : Package), t.selected[i]? = some s ∧
          t.packages[i]? = some k ∧ k.Tells settings.layout s e ∧
          ∀ (j : Nat) (s' : Selected), t.selected[j]? = some s' →
            (e.id ∈ s'.entry.covered ↔ j = i)) ∧
      -- The library says what the packages say.
      shelf.library.addAll t.packages = .ok shelf'.library ∧
      ∀ k ∈ t.packages, ∃ l, shelf'.library.get? k.key = some l ∧
        k.content.toList <:+: l.content.toList := by
  obtain ⟨t, rfl, -, -, hfound, hlibrary, -⟩ := packProject_eq_ok hb hflags hp hfind hrun
  obtain ⟨hselected, hmembers, -⟩ := t.members_project hflags hp
  refine ⟨t, rfl, hfound, t.nodup_takenIds hflags hp, t.perm_takenIds hflags hp,
    fun s hs hloose => ?_, t.sites_stripped hflags hp, t.spaces_stripped hflags hp,
    (t.extensions_project hflags hp).1, hselected, hmembers, (t.containers_project hflags hp).1,
    t.writes hflags hp, fun e he htaken => t.told hflags hp he htaken, hlibrary, fun k hk => ?_⟩
  · have hnot : t.leftOver s = false := by rw [Packing.leftOver, hloose, Bool.false_and]
    constructor
    · refine List.count_eq_one_of_mem (t.nodup_takenIds hflags hp) ?_
      refine (t.perm_takenIds hflags hp).mem_iff.mpr
        (List.mem_map_of_mem (List.mem_filter.mpr ⟨hs, ?_⟩))
      rw [hnot, Bool.not_false]
    · intro hmem
      rw [t.sites_stripped hflags hp] at hmem
      obtain ⟨s', hs', hid⟩ := List.mem_map.mp hmem
      obtain ⟨hs', hleft⟩ := List.mem_filter.mp hs'
      rw [hp.site_eq_of_id hs' hs hid, hnot] at hleft
      cases hleft
  · rw [Library.addAll_eq, Except.ok.injEq] at hlibrary
    rw [← hlibrary]
    exact shelf.library.exists_get?_plus hk

/-- A namespace with a type that has a type inside, and a delegate and two methods beside it.  One
method of each place is an extension method on a foreign type. -/
def Pipeline.parcel : Project :=
  { id := ⟨1⟩, name := "Parcel", assembly := "Parcel"
    documents :=
      [{ id := ⟨1⟩, name := "Parcel.cs"
         root :=
          { usings := [{ id := ⟨1⟩, name := "Crates" }]
            members :=
              [.block { id := ⟨2⟩, name := "Goods" }
                [.type { id := ⟨3⟩, kind := .classKind, name := "Parcel" }
                  [method 4 [⟨"box", box, true⟩], method 5 [⟨"box", box, false⟩],
                    .type { id := ⟨6⟩, kind := .structKind, name := "Label" }
                      [method 7 [⟨"n", .int, false⟩]]],
                  .leaf { id := ⟨8⟩, form := .delegate "Sort" [] .void [] },
                  method 9 [⟨"n", .int, false⟩], method 10 [⟨"box", box, true⟩]]] } }] }
where
  box : TypeSyntax := .ofSymbol (.named "Crates" "Crates" "Box")
  method (id : UInt32) (parameters : List Parameter) : Member :=
    .leaf { id := ⟨id⟩, form := .method "step" [] .void parameters none }

def Pipeline.parcelShelf : Shelf (Solution × Unit) := { host := ({ projects := [parcel] }, ()) }

theorem Pipeline.packProject_conserves_parcel :
    parcel.UniqueIds ∧
    ((packProject {} (.inMemory .structural) ⟨1⟩ parcelShelf).1.toOption.map
      (·.entries.map Entry.id)) = some [⟨8⟩, ⟨9⟩] ∧
    (packProject {} (.inMemory .structural) ⟨1⟩ parcelShelf).2.library.packages.map
        (fun k => (k.key, k.content, k.container.map (·.declaration))) =
      [("InterwovenExtensionMethods Crates.Box",
          "void step(this Box box);\n\nvoid step(this Box box);", none),
        ("InterwovenTypeMembers Goods.Parcel Crates.Box", "void step(Box box);", none),
        ("MemberContainer Class Goods.Parcel`0",
          "struct Label\n\x7b\n    void step(int n);\n\x7d", some "partial class Parcel")] ∧
    ∃ (q : Project) (shelf' : Shelf (Solution × Unit)) (t : Packing {} parcel),
      packProject {} (.inMemory .structural) ⟨1⟩ parcelShelf = (.ok q, shelf') ∧
      t.stripped = q ∧ t.takenIds.Nodup ∧
      t.takenIds.Perm ((parcel.sites.filter (!t.leftOver ·)).map Site.id) ∧
      q.sites = parcel.sites.filter t.leftOver ∧ q.spaces = parcel.spaces ∧
      List.Forall₂ (fun s k => k.Writes {} s.entry.declaration) t.selected t.packages ∧
      -- The method in the inner type is told with the outer one.
      (∃ (i : Nat) (s : Selected) (k : Package), t.selected[i]? = some s ∧
        t.packages[i]? = some k ∧ ⟨7⟩ ∈ s.entry.covered ∧
        "voidstep(intn);".toList <:+: ink k.content) ∧
      Library.empty.addAll t.packages = .ok shelf'.library := by
  have hp : parcel.UniqueIds := by decide +kernel
  have hids : ((packProject {} (.inMemory .structural) ⟨1⟩ parcelShelf).1.toOption.map
      (·.entries.map Entry.id)) = some [⟨8⟩, ⟨9⟩] := by decide +kernel
  refine ⟨hp, hids, by decide +kernel, ?_⟩
  rcases hrun : packProject {} (.inMemory .structural) ⟨1⟩ parcelShelf with ⟨e | q, shelf'⟩
  · rw [hrun] at hids
    cases hids
  · obtain ⟨t, hq, -, hnodup, hperm, -, hsites, hspaces, -, -, -, -, hwrites, htold, hlibrary, -⟩ :=
      packProject_conserves {} (.inMemory .structural) ⟨1⟩ parcelShelf shelf' parcel q
        (Workbench.lawful_inMemory _) CleanUp.flagsUsings_needlessUsings hp rfl hrun
    refine ⟨q, shelf', t, rfl, hq, hnodup, hperm, hsites, hspaces, hwrites, ?_, hlibrary⟩
    obtain ⟨e, he, hid, hwords, hleaf, hbound⟩ : ∃ e ∈ parcel.entries, e.id = ⟨7⟩ ∧
        e.declaration.words = ["void", "step", "(", "int", "n", ")", ";"] ∧
        e.declaration.isType = false ∧ e.site.isLoose = false := by decide +kernel
    obtain ⟨i, s, k, hi, hk, htells, hone⟩ := htold e he (by
      rw [Packing.leftOver, hbound, Bool.false_and])
    refine ⟨i, s, k, hi, hk, hid ▸ (hone i s hi).mpr rfl, ?_⟩
    rw [Package.Tells, if_neg fun hself => Bool.false_ne_true (hleaf.symm.trans hself.1),
      hwords] at htells
    exact htells.within (by decide)

end Unweave

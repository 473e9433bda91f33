import Unweave.Proofs.Conservation
import Unweave.Proofs.Settled

/-!
# What the structural check accepts

The structural check accepts exactly the projects that hold together (`structural_eq_ok_iff`):
references go to declarations, types of the project's own assembly are declared, and a type that is
declared more than once is partial in every place.  Clean-ups keep a project together.  Taking
leaves out keeps it together exactly if nothing that stays refers to them, and taking the types out
exactly if what stays refers to nothing in them.
-/

namespace Unweave

/-! ## Mentions -/

namespace Site

/-- The declarations that a leaf refers to. -/
def references (s : Site) : List NodeId :=
  s.leaf.toList.flatMap fun l => l.references.filterMap (·.declaration)

/-- The type symbols that a leaf mentions. -/
def symbols (s : Site) : List TypeSymbol := s.leaf.toList.flatMap (·.symbols)

end Site

namespace Catalogue

open Member

variable (document : DocumentId) (space : String) (container : Option TypeHead) (depth : Nat)

theorem flatMap_references_collectAll (ms : List Member) :
    (collectAll document space container depth ms).flatMap (·.site.references) =
      (referencesAll ms).filterMap (·.declaration) := by
  induction ms using listInduction generalizing space container depth with
  | nil => rfl
  | block head inner ms ihInner ih =>
    rw [collectAll, collect, referencesAll, Member.references, List.flatMap_append,
      List.filterMap_append, ihInner, ih]
  | type head inner ms ihInner ih =>
    rw [collectAll, collect, referencesAll, Member.references, List.flatMap_append,
      List.filterMap_append, List.flatMap_cons, ihInner, ih]
    rfl
  | leaf l ms ih =>
    have hself : Site.references (Entry.site ⟨.leaf l, document, container, space, depth⟩) =
        l.references.filterMap (·.declaration) := List.append_nil _
    rw [collectAll, collect, referencesAll, Member.references, List.flatMap_append,
      List.filterMap_append, List.flatMap_singleton, ih, hself]

/-- Without types around, only leaves mention types. -/
theorem flatMap_symbols_collectAll {ms : List Member}
    (h : ∀ e ∈ collectAll document space container depth ms, e.declaration.isType = false) :
    (collectAll document space container depth ms).flatMap (·.site.symbols) = symbolsAll ms := by
  induction ms using listInduction generalizing space container depth with
  | nil => rfl
  | block head inner ms ihInner ih =>
    rw [collectAll, collect] at h ⊢
    rw [symbolsAll, Member.symbols, List.flatMap_append,
      ihInner _ _ _ fun e he => h e (List.mem_append_left _ he),
      ih _ _ _ fun e he => h e (List.mem_append_right _ he)]
  | type head inner ms ihInner ih =>
    rw [collectAll, collect] at h
    cases h _ (List.mem_append_left _ List.mem_cons_self)
  | leaf l ms ih =>
    have hself : Site.symbols (Entry.site ⟨.leaf l, document, container, space, depth⟩) =
        l.symbols := List.append_nil _
    rw [collectAll, collect] at h ⊢
    rw [symbolsAll, Member.symbols, List.flatMap_append, List.flatMap_singleton,
      ih _ _ _ fun e he => h e (List.mem_append_right _ he), hself]

/-- Types that are declared are entries. -/
theorem exists_of_mem_typesAll {ms : List Member} {outer path : String}
    {x : TypeKey × TypeHead} (h : x ∈ typesAll outer path ms) :
    ∃ e ∈ collectAll document space container depth ms, e.declaration.isType = true := by
  induction ms using listInduction generalizing outer path space container depth with
  | nil => cases h
  | block head inner ms ihInner ih =>
    rw [typesAll, types] at h
    rw [collectAll, collect]
    rcases List.mem_append.mp h with h | h
    · obtain ⟨e, he, htype⟩ := ihInner _ _ _ h
      exact ⟨e, List.mem_append_left _ he, htype⟩
    · obtain ⟨e, he, htype⟩ := ih _ _ _ h
      exact ⟨e, List.mem_append_right _ he, htype⟩
  | type head inner ms ihInner ih =>
    rw [collectAll, collect]
    exact ⟨_, List.mem_append_left _ List.mem_cons_self, rfl⟩
  | leaf l ms ih =>
    rw [typesAll, types] at h
    obtain ⟨e, he, htype⟩ := ih space container depth h
    rw [collectAll, collect]
    exact ⟨e, List.mem_append_right _ he, htype⟩

end Catalogue

namespace Project

/-- The types of its own assembly that a project mentions. -/
def ownSymbols (p : Project) : List TypeSymbol := p.documents.flatMap (Check.ownSymbols p)

theorem flatMap_references (p : Project) :
    (p.documents.flatMap fun d => d.root.references.filterMap (·.declaration)) =
      p.sites.flatMap Site.references := by
  rw [sites_eq_flatMap, List.flatMap_assoc]
  refine congrArg (fun f => p.documents.flatMap f) (funext fun d => ?_)
  rw [List.flatMap_map]
  exact (Catalogue.flatMap_references_collectAll d.id "" none 0 d.root.members).symm

theorem mem_declared_iff (p : Project) (id : NodeId) :
    id ∈ p.declared ↔ id ∈ p.blockIds ∨ id ∈ p.sites.map Site.id := by
  rw [map_id_sites, entries_eq_flatMap, List.map_flatMap, declared, blockIds, List.mem_flatMap,
    List.mem_flatMap, List.mem_flatMap, ← exists_or]
  refine exists_congr fun d => ?_
  have hd : id ∈ d.root.declared ↔ id ∈ d.root.blockIds ∨ id ∈ d.entries.map Entry.id := by
    rw [← List.count_pos_iff, ← List.count_pos_iff, ← List.count_pos_iff, d.count_declared id]
    omega
  rw [hd, and_or_left]

/-- What the structural check asks for. -/
structure HoldsTogether (p : Project) : Prop where
  /-- Everything that is referred to is declared. -/
  references : ∀ s ∈ p.sites, ∀ id ∈ s.references, id ∈ p.declared
  /-- Types of the project's own assembly are declared in it. -/
  types : ∀ t ∈ p.ownSymbols, t.typeName ∈ p.types.map (·.1.typeName)
  /-- A type in several parts is partial in each. -/
  parts : ∀ k, 2 ≤ (p.types.map (·.1)).count k → ∀ x ∈ p.types, x.1 = k → x.2.2.isPartial = true

end Project

/-! ## The check -/

namespace Check

variable (p : Project)

theorem danglingReferences_eq_nil_iff :
    danglingReferences p = [] ↔ ∀ s ∈ p.sites, ∀ id ∈ s.references, id ∈ p.declared := by
  rw [← List.forall_mem_flatMap, ← p.flatMap_references, List.forall_mem_flatMap,
    danglingReferences, List.flatMap_eq_nil_iff]
  refine forall₂_congr fun d _ => ?_
  rw [List.filterMap_eq_nil_iff, List.forall_mem_filterMap]
  refine forall₂_congr fun r _ => ?_
  cases r.declaration with
  | none => simp
  | some id => simp

theorem firstMentions_eq_nil_iff (mentions : List (String × TypeSymbol)) :
    firstMentions [] mentions = [] ↔ mentions = [] := by
  cases mentions with
  | nil => exact ⟨fun _ => rfl, fun _ => rfl⟩
  | cons x rest => exact ⟨fun h => (nomatch h), fun h => (nomatch h)⟩

theorem missingTypes_eq_nil_iff :
    missingTypes p = [] ↔ ∀ t ∈ p.ownSymbols, t.typeName ∈ p.types.map (·.1.typeName) := by
  rw [missingTypes, List.map_eq_nil_iff, firstMentions_eq_nil_iff, List.filter_eq_nil_iff,
    List.forall_mem_flatMap, Project.ownSymbols, List.forall_mem_flatMap]
  refine forall₂_congr fun d _ => ?_
  rw [List.forall_mem_map]
  refine forall₂_congr fun t _ => ?_
  rw [Bool.not_eq_true, Bool.not_eq_false', List.contains_iff_mem]

/-! ### Types in several parts -/

theorem mem_declarationsOf_iff {k : TypeKey} {y : String × TypeHead} :
    y ∈ declarationsOf p k ↔ (k, y) ∈ p.types := by
  rw [declarationsOf, List.mem_filterMap]
  constructor
  · rintro ⟨⟨l, d, h⟩, hx, hy⟩
    dsimp only at hy
    by_cases hl : l = k
    · rw [if_pos hl, Option.some.injEq] at hy
      rw [← hl, ← hy]
      exact hx
    · rw [if_neg hl] at hy
      cases hy
  · intro h
    exact ⟨(k, y), h, if_pos rfl⟩

theorem length_declarationsOf (k : TypeKey) :
    (declarationsOf p k).length = (p.types.map (·.1)).count k := by
  rw [declarationsOf]
  induction p.types with
  | nil => rfl
  | cons x xs ih =>
    rw [List.map_cons, List.count_cons, ← ih, List.filterMap_cons]
    by_cases hx : x.1 = k
    · simp [hx]
    · simp [hx]

/-- Something is declared more than once, and not as partial every time. -/
def Doubled {α : Type} [DecidableEq α] (declarations : List (α × String × TypeHead)) (k : α) :
    Prop :=
  2 ≤ (declarations.map (·.1)).count k ∧ ∃ x ∈ declarations, x.1 = k ∧ x.2.2.isPartial = false

/-- The report, in a document, of a type that is declared twice. -/
def doubleReport (k : TypeKey) (document : String) : Diagnostic :=
  error Diagnostic.duplicateType document
    ("The namespace '" ++ (if k.space.isEmpty then "<global namespace>" else k.space) ++
      "' already contains a definition for '" ++ k.name ++ "'")

/-- The document of the second declaration of a type. -/
def secondDocument (k : TypeKey) : String := ((declarationsOf p k).map (·.1)).getD 1 ""

/-- One declaration is never too many, and several are not if all are partial. -/
theorem report_eq_some_iff {α : Type} (report : String → α) (ds : List (String × TypeHead))
    (y : α) :
    (match ds with
      | first :: second :: rest =>
        if (first :: second :: rest).all (·.2.isPartial) then none else some (report second.1)
      | _ => none) = some y ↔
      2 ≤ ds.length ∧ (∃ z ∈ ds, z.2.isPartial = false) ∧
        report ((ds.map (·.1)).getD 1 "") = y := by
  match ds with
  | [] => simp
  | [_] => simp
  | first :: second :: rest =>
    have hlength : 2 ≤ (first :: second :: rest).length := Nat.le_add_left 2 _
    by_cases hall : (first :: second :: rest).all (·.2.isPartial) = true
    · refine iff_of_false ?_ ?_
      · dsimp only
        rw [if_pos hall]
        intro h
        cases h
      · rintro ⟨-, ⟨z, hz, hpartial⟩, -⟩
        have hz := List.all_eq_true.mp hall z hz
        rw [hpartial] at hz
        cases hz
    · have hsome : ∃ z ∈ first :: second :: rest, z.2.isPartial = false := by
        rw [Bool.not_eq_true, List.all_eq_false] at hall
        obtain ⟨z, hz, hpartial⟩ := hall
        exact ⟨z, hz, Bool.eq_false_iff.mpr hpartial⟩
      dsimp only
      rw [if_neg hall, Option.some.injEq]
      exact ⟨fun h => ⟨hlength, hsome, h⟩, fun h => h.2.2⟩

theorem mem_duplicateTypes_iff (x : Diagnostic) :
    x ∈ duplicateTypes p ↔
      ∃ k, Doubled p.types k ∧ x = doubleReport k (secondDocument p k) := by
  rw [duplicateTypes, List.mem_filterMap]
  constructor
  · rintro ⟨k, -, hk⟩
    obtain ⟨hlength, ⟨z, hz, hpartial⟩, hreport⟩ := (report_eq_some_iff (doubleReport k) _ _).mp hk
    rw [length_declarationsOf] at hlength
    exact ⟨k, ⟨hlength, (k, z), (mem_declarationsOf_iff p).mp hz, rfl, hpartial⟩, hreport.symm⟩
  · rintro ⟨_, ⟨hcount, ⟨k, z⟩, hz, rfl, hpartial⟩, rfl⟩
    refine ⟨k, Sorted.mem_ofList.mpr (List.mem_map_of_mem hz),
      (report_eq_some_iff (doubleReport k) _ _).mpr ?_⟩
    rw [length_declarationsOf]
    exact ⟨hcount, ⟨z, (mem_declarationsOf_iff p).mpr hz, hpartial⟩, rfl⟩

theorem duplicateTypes_eq_nil_iff :
    duplicateTypes p = [] ↔
      ∀ k, 2 ≤ (p.types.map (·.1)).count k → ∀ x ∈ p.types, x.1 = k → x.2.2.isPartial = true := by
  rw [List.eq_nil_iff_forall_not_mem]
  constructor
  · intro h k hk x hx hkey
    by_contra hpartial
    have hdoubled : Doubled p.types k := ⟨hk, x, hx, hkey, Bool.eq_false_iff.mpr hpartial⟩
    exact h _ ((mem_duplicateTypes_iff p _).mpr ⟨k, hdoubled, rfl⟩)
  · intro h x hx
    obtain ⟨k, ⟨hk, y, hy, hkey, hpartial⟩, -⟩ := (mem_duplicateTypes_iff p x).mp hx
    rw [h k hk y hy hkey] at hpartial
    cases hpartial

/-- The check accepts what holds together, and nothing else. -/
theorem structural_eq_ok_iff : structural p = .ok () ↔ p.HoldsTogether := by
  have hnil : structural p = .ok () ↔ diagnostics p = [] := by
    rw [structural]
    cases diagnostics p with
    | nil => exact ⟨fun _ => rfl, fun _ => rfl⟩
    | cons x xs => constructor <;> (intro h; cases h)
  rw [hnil, diagnostics, List.append_eq_nil_iff, List.append_eq_nil_iff,
    danglingReferences_eq_nil_iff, missingTypes_eq_nil_iff, duplicateTypes_eq_nil_iff]
  constructor
  · rintro ⟨⟨hreferences, htypes⟩, hparts⟩
    exact ⟨hreferences, htypes, hparts⟩
  · rintro ⟨hreferences, htypes, hparts⟩
    exact ⟨⟨hreferences, htypes⟩, hparts⟩

end Check

/-! ## Clean-ups -/

/-- The first list declares the types of the second one, partial where that one is. -/
def FirmTypes : List (TypeKey × TypeHead) → List (TypeKey × TypeHead) → Prop :=
  List.Forall₂ fun x' x => x'.1 = x.1 ∧ (x.2.isPartial = true → x'.2.isPartial = true)

namespace FirmTypes

variable {xs' xs : List (TypeKey × TypeHead)}

theorem refl (xs : List (TypeKey × TypeHead)) : FirmTypes xs xs :=
  List.forall₂_same.mpr fun _ _ => ⟨rfl, fun h => h⟩

theorem map_fst_eq (h : FirmTypes xs' xs) : xs'.map (·.1) = xs.map (·.1) := by
  induction h with
  | nil => rfl
  | cons hx _ ih => exact congrArg₂ List.cons hx.1 ih

theorem exists_firm (h : FirmTypes xs' xs) : ∀ x' ∈ xs', ∃ x ∈ xs, x'.1 = x.1 ∧
    (x.2.isPartial = true → x'.2.isPartial = true) := by
  induction h with
  | nil => exact fun _ h => nomatch h
  | @cons x' x _ _ hx _ ih =>
    refine List.forall_mem_cons.mpr ⟨⟨x, List.mem_cons_self, hx⟩, fun y' hy' => ?_⟩
    obtain ⟨y, hy, hfirm⟩ := ih y' hy'
    exact ⟨y, List.mem_cons_of_mem _ hy, hfirm⟩

end FirmTypes

namespace Member

theorem typesAll_mapTopTypesAll {f : TypeHead → TypeHead}
    (hf : ∀ h, (f h).name = h.name ∧ (f h).arity = h.arity ∧
      (h.isPartial = true → (f h).isPartial = true)) (ms : List Member) (space path : String) :
    FirmTypes (typesAll space path (mapTopTypesAll f ms)) (typesAll space path ms) := by
  induction ms using listInduction generalizing space path with
  | nil => exact .nil
  | block head inner ms ihInner ih =>
    rw [mapTopTypesAll, mapTopTypes, typesAll, types, typesAll, types]
    exact List.rel_append (ihInner _ _) (ih _ _)
  | type head inner ms _ ih =>
    obtain ⟨hname, harity, hpartial⟩ := hf head
    rw [mapTopTypesAll, mapTopTypes, typesAll, types, typesAll, types, hname, harity]
    exact List.rel_append (.cons ⟨rfl, hpartial⟩ (FirmTypes.refl _)) (ih _ _)
  | leaf l ms ih =>
    rw [mapTopTypesAll, mapTopTypes, typesAll, types, typesAll, types]
    exact ih _ _

theorem typesAll_keepTriviaAll (keep : Trivia → Bool) (ms : List Member) (space path : String) :
    FirmTypes (typesAll space path (keepTriviaAll keep ms)) (typesAll space path ms) := by
  induction ms using listInduction generalizing space path with
  | nil => exact .nil
  | block head inner ms ihInner ih =>
    rw [keepTriviaAll, Member.keepTrivia, typesAll, types, typesAll, types]
    exact List.rel_append (ihInner _ _) (ih _ _)
  | type head inner ms ihInner ih =>
    rw [keepTriviaAll, Member.keepTrivia, typesAll, types, typesAll, types]
    exact List.rel_append (.cons ⟨rfl, fun h => h⟩ (ihInner _ _)) (ih _ _)
  | leaf l ms ih =>
    rw [keepTriviaAll, Member.keepTrivia, typesAll, types, typesAll, types]
    exact ih _ _

end Member

namespace CleanUp

/-- The clean-up never fails, and leaves the declarations of a document as they were, but for types
that became partial. -/
def Careful (c : CleanUp) : Prop :=
  ∀ p d, d.root.nodeIds.Nodup → ∃ d', c.apply p d = .ok d' ∧ d'.Tidied d ∧
    FirmTypes d'.root.types d.root.types

theorem Careful.tidies {c : CleanUp} (h : c.Careful) : c.Tidies := by
  intro p d d' hd happly
  obtain ⟨d'', happly', htidied, -⟩ := h p d hd
  rw [happly, Except.ok.injEq] at happly'
  rw [happly']
  exact htidied

theorem careful_ensurePartial : ensurePartial.Careful := by
  intro p d hd
  refine ⟨_, rfl, tidies_ensurePartial p d _ hd rfl, Member.typesAll_mapTopTypesAll ?_ _ "" ""⟩
  intro h
  rw [makePartial]
  split
  · exact ⟨rfl, rfl, fun hpartial => hpartial⟩
  · refine ⟨rfl, rfl, fun _ => ?_⟩
    rw [TypeHead.isPartial, List.contains_iff_mem]
    exact List.mem_append_right _ (List.mem_singleton_self _)

theorem careful_removeRegions : removeRegions.Careful := by
  intro p d hd
  exact ⟨_, rfl, tidies_removeRegions p d _ hd rfl, Member.typesAll_keepTriviaAll _ _ "" ""⟩

theorem careful_removeUsings {usings : Project → Document → List Diagnostic}
    (hflags : FlagsUsings usings) : (removeUsings usings).Careful := by
  intro p d hd
  have happly := removeUsings_apply usings p d
  have htypes : (d.erase (needless (usings p d)).contains).root.types = d.root.types :=
    Member.typesAll_eraseAll (hflags.keeps p hd).heads "" ""
  refine ⟨_, happly, hflags.tidies p d _ hd happly, ?_⟩
  rw [htypes]
  exact .refl _

end CleanUp

namespace Project

variable {p : Project}

/-- The keys of the types stay, and so does what is partial. -/
theorem firm_types {g : Document → Document}
    (hg : ∀ d ∈ p.documents, FirmTypes (g d).root.types d.root.types) :
    (p.mapDocuments g).types.map (·.1) = p.types.map (·.1) ∧
      ∀ x' ∈ (p.mapDocuments g).types, ∃ x ∈ p.types, x.1 = x'.1 ∧
        (x.2.2.isPartial = true → x'.2.2.isPartial = true) := by
  constructor
  · rw [types, types, List.map_flatMap, List.map_flatMap]
    refine flatMap_mapDocuments fun d hd => ?_
    rw [List.map_map, List.map_map]
    exact (hg d hd).map_fst_eq
  · intro x' hx'
    obtain ⟨_, hd', hx'⟩ := List.mem_flatMap.mp hx'
    obtain ⟨d, hd, rfl⟩ := List.mem_map.mp hd'
    obtain ⟨y', hy', rfl⟩ := List.mem_map.mp hx'
    obtain ⟨y, hy, hkey, hfirm⟩ := (hg d hd).exists_firm y' hy'
    exact ⟨(y.1, d.name, y.2), List.mem_flatMap.mpr ⟨d, hd, List.mem_map_of_mem hy⟩, hkey.symm,
      hfirm⟩

/-- What holds together stays so when types become partial and decoration changes. -/
theorem HoldsTogether.mapDocuments (h : p.HoldsTogether) {g : Document → Document}
    (hg : ∀ d ∈ p.documents, (g d).Tidied d ∧ FirmTypes (g d).root.types d.root.types) :
    (p.mapDocuments g).HoldsTogether := by
  have htidied : (p.mapDocuments g).Tidied p := ⟨g, rfl, fun d hd => (hg d hd).1⟩
  obtain ⟨hkeys, hpartial⟩ := firm_types fun d hd => (hg d hd).2
  have hdeclared : (p.mapDocuments g).declared = p.declared :=
    flatMap_mapDocuments fun d hd => Member.declaredAll_eq_of_bareAll (hg d hd).1.bare_eq
  have hsymbols : (p.mapDocuments g).ownSymbols = p.ownSymbols := by
    refine flatMap_mapDocuments fun d hd => ?_
    rw [Check.ownSymbols, Check.ownSymbols, Root.symbols, Root.symbols,
      Member.symbolsAll_eq_of_bareAll (hg d hd).1.bare_eq]
    rfl
  have hnames : (p.mapDocuments g).types.map (·.1.typeName) = p.types.map (·.1.typeName) := by
    have hmap := congrArg (List.map TypeKey.typeName) hkeys
    rw [List.map_map, List.map_map] at hmap
    exact hmap
  refine ⟨?_, ?_, fun k hk x' hx' hkey => ?_⟩
  · rw [htidied.sites_eq, hdeclared]
    exact h.references
  · rw [hsymbols, hnames]
    exact h.types
  · rw [hkeys] at hk
    obtain ⟨x, hx, hsame, hfirm⟩ := hpartial x' hx'
    exact hfirm (h.parts k hk x hx (hsame.trans hkey))

end Project

/-! ## Taking declarations out -/

/-- Heads are those of blocks and of types that are entries. -/
theorem Catalogue.exists_of_mem_headIdsAll (document : DocumentId) (space : String)
    (container : Option TypeHead) (depth : Nat) {ms : List Member} {id : NodeId}
    (h : id ∈ Member.headIdsAll ms) :
    id ∈ Member.blockIdsAll ms ∨ ∃ e ∈ collectAll document space container depth ms,
      e.id = id ∧ e.declaration.isType = true := by
  unfold Member.headIdsAll at h
  unfold Member.blockIdsAll
  induction ms using Member.listInduction generalizing space container depth with
  | nil => cases h
  | block head inner ms ihInner ih =>
    simp only [Member.gatherAll, Member.gather, List.mem_append, collectAll, collect] at h ⊢
    rcases h with (h | h) | h
    · exact .inl (.inl (.inl h))
    · rcases ihInner (Text.qualify space head.name) container depth h with h | ⟨e, he, htype⟩
      · exact .inl (.inl (.inr h))
      · exact .inr ⟨e, .inl he, htype⟩
    · rcases ih space container depth h with h | ⟨e, he, htype⟩
      · exact .inl (.inr h)
      · exact .inr ⟨e, .inr he, htype⟩
  | type head inner ms ihInner ih =>
    simp only [Member.gatherAll, Member.gather, List.mem_append, collectAll, collect,
      List.mem_cons, List.not_mem_nil, or_false, List.nil_append] at h ⊢
    rcases h with (rfl | h) | h
    · exact .inr ⟨_, .inl (.inl rfl), rfl, rfl⟩
    · rcases ihInner space (some head) (depth + 1) h with h | ⟨e, he, htype⟩
      · exact .inl (.inl h)
      · exact .inr ⟨e, .inl (.inr he), htype⟩
    · rcases ih space container depth h with h | ⟨e, he, htype⟩
      · exact .inl (.inr h)
      · exact .inr ⟨e, .inr he, htype⟩
  | leaf l ms ih =>
    simp only [Member.gatherAll, Member.gather, List.mem_append, collectAll, collect,
      List.nil_append] at h ⊢
    rcases ih space container depth h with h | ⟨e, he, htype⟩
    · exact .inl h
    · exact .inr ⟨e, .inr he, htype⟩

theorem Project.ownSymbols_erase_subset (p : Project) (gone : NodeId → Bool) :
    (p.erase gone).ownSymbols ⊆ p.ownSymbols := by
  intro t ht
  obtain ⟨_, hd', ht⟩ := List.mem_flatMap.mp ht
  obtain ⟨d, hd, rfl⟩ := List.mem_map.mp hd'
  refine List.mem_flatMap.mpr ⟨d, hd, ?_⟩
  obtain ⟨ht, hown⟩ := List.mem_filter.mp ht
  obtain ⟨s, hs, ht⟩ := List.mem_flatMap.mp ht
  have hs : s ∈ d.root.symbols := (d.root.symbols_erase_sublist gone).subset hs
  exact List.mem_filter.mpr ⟨List.mem_flatMap.mpr ⟨s, hs, ht⟩, hown⟩

namespace Project

/-- What is declared outside types: namespaces and loose leaves. -/
def outside (p : Project) : List NodeId :=
  p.spaces.flatMap (·.2.map (·.1)) ++ (p.sites.filter Site.isLoose).map Site.id

variable {p : Project} (hp : p.UniqueIds)
include hp

section Leaves

variable {ids : List NodeId}
  (hids : ∀ id ∈ ids, ∃ e ∈ p.entries, e.id = id ∧ e.declaration.isType = false)
include hids

theorem UniqueIds.heads_kept {d : Document} (hd : d ∈ p.documents) :
    ∀ id ∈ Member.headIdsAll d.root.members, ids.contains id = false := by
  intro id hid
  rw [Bool.eq_false_iff]
  intro hmem
  obtain ⟨e, he, rfl, hleaf⟩ := hids id (List.contains_iff_mem.mp hmem)
  rcases Catalogue.exists_of_mem_headIdsAll d.id "" none 0 hid with hblock | ⟨e', he', hid', htype⟩
  · exact hp.not_mem_blockIds he (List.mem_flatMap.mpr ⟨d, hd, hblock⟩)
  · rw [hp.eq_of_id (mem_entries_iff.mpr ⟨d, hd, he'⟩) he hid', hleaf] at htype
    cases htype

theorem types_erase_leaves : (p.erase ids.contains).types = p.types := by
  refine flatMap_mapDocuments fun d hd => ?_
  have htypes : (d.erase ids.contains).root.types = d.root.types :=
    Member.typesAll_eraseAll (hp.heads_kept hids hd) "" ""
  rw [htypes]
  rfl

theorem blockIds_erase_leaves : (p.erase ids.contains).blockIds = p.blockIds := by
  refine flatMap_mapDocuments fun d hd => ?_
  exact Member.gatherAll_eraseAll_of_heads _ (fun _ => rfl) (fun _ => rfl) (hp.heads_kept hids hd)

theorem mem_declared_erase_leaves_iff (id : NodeId) :
    id ∈ (p.erase ids.contains).declared ↔ id ∈ p.declared ∧ id ∉ ids := by
  have hblock : id ∈ p.blockIds → id ∉ ids := by
    intro hblock hmem
    obtain ⟨e, he, rfl, -⟩ := hids id hmem
    exact hp.not_mem_blockIds he hblock
  have hsites : id ∈ (p.erase ids.contains).sites.map Site.id ↔
      id ∈ p.sites.map Site.id ∧ id ∉ ids := by
    rw [hp.sites_erase_leaves hids, List.mem_map, List.mem_map]
    constructor
    · rintro ⟨s, hs, rfl⟩
      obtain ⟨hs, hkept⟩ := List.mem_filter.mp hs
      exact ⟨⟨s, hs, rfl⟩, (Site.survives_iff ids s).mp hkept⟩
    · rintro ⟨⟨s, hs, rfl⟩, hnot⟩
      exact ⟨s, List.mem_filter.mpr ⟨hs, (Site.survives_iff ids s).mpr hnot⟩, rfl⟩
  rw [mem_declared_iff, mem_declared_iff, hsites, blockIds_erase_leaves hp hids]
  constructor
  · rintro (h | ⟨h, hnot⟩)
    · exact ⟨.inl h, hblock h⟩
    · exact ⟨.inr h, hnot⟩
  · rintro ⟨h | h, hnot⟩
    · exact .inl h
    · exact .inr ⟨h, hnot⟩

/-- Taking leaves out leaves a project together exactly if nothing that stays refers to them. -/
theorem HoldsTogether.erase_leaves_iff (h : p.HoldsTogether) :
    (p.erase ids.contains).HoldsTogether ↔
      ∀ s ∈ p.sites, s.id ∉ ids → ∀ id ∈ s.references, id ∉ ids := by
  have hsites := hp.sites_erase_leaves hids
  constructor
  · intro h' s hs hnot id hid
    have hs' : s ∈ (p.erase ids.contains).sites := by
      rw [hsites]
      exact List.mem_filter.mpr ⟨hs, (Site.survives_iff ids s).mpr hnot⟩
    exact ((mem_declared_erase_leaves_iff hp hids id).mp (h'.references s hs' id hid)).2
  · intro hfree
    refine ⟨fun s hs id hid => ?_, fun t ht => ?_, ?_⟩
    · rw [hsites] at hs
      obtain ⟨hs, hkept⟩ := List.mem_filter.mp hs
      exact (mem_declared_erase_leaves_iff hp hids id).mpr
        ⟨h.references s hs id hid, hfree s hs ((Site.survives_iff ids s).mp hkept) id hid⟩
    · rw [types_erase_leaves hp hids]
      exact h.types t (ownSymbols_erase_subset p ids.contains ht)
    · rw [types_erase_leaves hp hids]
      exact h.parts

end Leaves

end Project

/-! ### All types -/

/-- Without types around, all blocks stand outside types. -/
theorem Catalogue.blockIdsAll_of_leaves (document : DocumentId) (space : String)
    (container : Option TypeHead) (depth : Nat) (outer : String) {ms : List Member}
    (h : ∀ e ∈ collectAll document space container depth ms, e.declaration.isType = false) :
    Member.blockIdsAll ms = (Member.spacesAll outer ms).map (·.1) := by
  unfold Member.blockIdsAll
  induction ms using Member.listInduction generalizing space container depth outer with
  | nil => rfl
  | block head inner ms ihInner ih =>
    rw [collectAll, collect] at h
    rw [Member.gatherAll, Member.gather, Member.spacesAll, Member.spaces, List.map_append,
      ihInner _ _ _ (Text.qualify outer head.name) fun e he => h e (List.mem_append_left _ he),
      ih _ _ _ outer fun e he => h e (List.mem_append_right _ he)]
    rfl
  | type head inner ms ihInner ih =>
    rw [collectAll, collect] at h
    cases h _ (List.mem_append_left _ List.mem_cons_self)
  | leaf l ms ih =>
    rw [collectAll, collect] at h
    rw [Member.gatherAll, Member.gather, Member.spacesAll, Member.spaces, List.nil_append,
      List.nil_append, ih _ _ _ outer fun e he => h e (List.mem_append_right _ he)]

namespace Project

section NoTypes

variable {q : Project} (hleaves : ∀ e ∈ q.entries, e.declaration.isType = false)
include hleaves

theorem types_of_leaves : q.types = [] := by
  refine List.eq_nil_iff_forall_not_mem.mpr fun x hx => ?_
  obtain ⟨d, hd, hx⟩ := List.mem_flatMap.mp hx
  obtain ⟨y, hy, rfl⟩ := List.mem_map.mp hx
  obtain ⟨e, he, htype⟩ := Catalogue.exists_of_mem_typesAll d.id "" none 0 hy
  rw [hleaves e (mem_entries_iff.mpr ⟨d, hd, he⟩)] at htype
  cases htype

theorem blockIds_of_leaves : q.blockIds = q.spaces.flatMap (·.2.map (·.1)) := by
  rw [blockIds, spaces, List.flatMap_map]
  refine List.flatMap_congr fun d hd => ?_
  exact Catalogue.blockIdsAll_of_leaves d.id "" none 0 "" fun e he =>
    hleaves e (mem_entries_iff.mpr ⟨d, hd, he⟩)

theorem mem_ownSymbols_of_leaves (t : TypeSymbol) :
    t ∈ q.ownSymbols ↔
      ∃ s ∈ q.sites, t ∈ s.symbols.flatMap (·.parts) ∧ t.isOf q.assembly = true := by
  have hsymbols : ∀ d ∈ q.documents, d.root.symbols =
      d.entries.flatMap (·.site.symbols) := fun d hd =>
    (Catalogue.flatMap_symbols_collectAll d.id "" none 0 fun e he =>
      hleaves e (mem_entries_iff.mpr ⟨d, hd, he⟩)).symm
  rw [ownSymbols, List.mem_flatMap]
  constructor
  · rintro ⟨d, hd, ht⟩
    obtain ⟨ht, hown⟩ := List.mem_filter.mp ht
    rw [hsymbols d hd, List.flatMap_assoc, List.mem_flatMap] at ht
    obtain ⟨e, he, ht⟩ := ht
    exact ⟨e.site, mem_sites (mem_entries_iff.mpr ⟨d, hd, he⟩), ht, hown⟩
  · rintro ⟨s, hs, ht, hown⟩
    obtain ⟨e, he, rfl⟩ := List.mem_map.mp hs
    obtain ⟨d, hd, he⟩ := mem_entries_iff.mp he
    refine ⟨d, hd, List.mem_filter.mpr ⟨?_, hown⟩⟩
    rw [hsymbols d hd, List.flatMap_assoc]
    exact List.mem_flatMap.mpr ⟨e, he, ht⟩

end NoTypes

/-- Leaves outside types hold together if they refer to nothing else and mention no own type. -/
theorem holdsTogether_iff_of_loose {q : Project} (hloose : ∀ s ∈ q.sites, s.isLoose = true) :
    q.HoldsTogether ↔ ∀ s ∈ q.sites, (∀ id ∈ s.references, id ∈ q.outside) ∧
      ∀ t ∈ s.symbols.flatMap (·.parts), t.isOf q.assembly = false := by
  have hleaves : ∀ e ∈ q.entries, e.declaration.isType = false := by
    intro e he
    have hleaf := (Bool.and_eq_true_iff.mp (hloose _ (mem_sites he))).1
    obtain ⟨declaration, document, container, space, depth⟩ := e
    cases declaration with
    | type head members => cases hleaf
    | leaf l => rfl
  have houtside : ∀ id, id ∈ q.declared ↔ id ∈ q.outside := by
    intro id
    rw [mem_declared_iff, blockIds_of_leaves hleaves, outside, List.mem_append,
      List.filter_eq_self.mpr hloose]
  constructor
  · intro h s hs
    refine ⟨fun id hid => (houtside id).mp (h.references s hs id hid), fun t ht => ?_⟩
    rw [Bool.eq_false_iff]
    intro hown
    have hmem := h.types t ((mem_ownSymbols_of_leaves hleaves t).mpr ⟨s, hs, ht, hown⟩)
    rw [types_of_leaves hleaves] at hmem
    cases hmem
  · intro h
    refine ⟨fun s hs id hid => (houtside id).mpr ((h s hs).1 id hid), fun t ht => ?_, ?_⟩
    · obtain ⟨s, hs, ht, hown⟩ := (mem_ownSymbols_of_leaves hleaves t).mp ht
      rw [(h s hs).2 t ht] at hown
      cases hown
    · rw [types_of_leaves hleaves]
      exact fun k hk x hx => nomatch hx

/-- Taking the types out leaves a project together exactly if what stays refers to nothing in them
and mentions none of them. -/
theorem UniqueIds.holdsTogether_erase_containers_iff {p : Project} (hp : p.UniqueIds)
    (policy : InterweaveConfig) :
    (p.erase ((policy.selectContainers (Walker.ofProject p)).map (·.id)).contains).HoldsTogether ↔
      ∀ s ∈ p.sites, s.isLoose = true → (∀ id ∈ s.references, id ∈ p.outside) ∧
        ∀ t ∈ s.symbols.flatMap (·.parts), t.isOf p.assembly = false := by
  have hsites := sites_erase_containers policy hp
  have hspaces := spaces_erase (hp.blocks_kept_of_entries (policy.selectContainers_mem hp))
  have houtside :
      (p.erase ((policy.selectContainers (Walker.ofProject p)).map (·.id)).contains).outside =
        p.outside := by
    rw [outside, outside, hsites, hspaces, List.filter_filter]
    simp only [Bool.and_self]
  rw [holdsTogether_iff_of_loose fun s hs => ?_]
  · rw [houtside, hsites]
    simp only [List.mem_filter, and_imp]
    rfl
  · rw [hsites] at hs
    exact (List.mem_filter.mp hs).2

end Project
end Unweave

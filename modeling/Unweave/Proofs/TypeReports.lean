import Mathlib.Data.List.Induction
import Unweave.Proofs.LooseEnds
import Unweave.Proofs.MemberOwners

/-!
# What the check reports about types

A type of the project's own assembly is reported missing exactly if no class and no struct of its
namespace, name and arity is declared, once for each document that mentions it
(`Check.missing_reports`).  A delegate is a type as well, but the check does not look for one.

A type is reported as declared twice exactly if two declarations that are not all partial agree in
namespace, name, arity and the names of the types around them (`Check.double_reports`).  The arities
of the types around them are not compared, so types inside a type and inside its generic namesake
are taken for one.
-/

namespace Unweave
namespace Check

/-- What the check reports under a code. -/
def reports (p : Project) (code : String) : List Diagnostic :=
  match structural p with
  | .ok _ => []
  | .error failure => failure.diagnostics.filter (·.code == code)

theorem reports_eq_filter (p : Project) (code : String) :
    reports p code = (diagnostics p).filter (·.code == code) := by
  rw [reports, structural]
  cases diagnostics p with
  | nil => rfl
  | cons x xs => rfl

theorem code_of_mem_missingTypes {p : Project} {x : Diagnostic} (h : x ∈ missingTypes p) :
    x.code = Diagnostic.missingType := by
  obtain ⟨y, -, rfl⟩ := List.mem_map.mp h
  rfl

theorem code_of_mem_duplicateTypes {p : Project} {x : Diagnostic} (h : x ∈ duplicateTypes p) :
    x.code = Diagnostic.duplicateType := by
  obtain ⟨k, -, hk⟩ := List.mem_filterMap.mp h
  split at hk
  · split at hk
    · cases hk
    · cases hk
      rfl
  · cases hk

theorem filter_code_eq {xs : List Diagnostic} {code : String} (h : ∀ x ∈ xs, x.code = code)
    (code' : String) : xs.filter (·.code == code') = if code = code' then xs else [] := by
  split
  · next heq => exact List.filter_eq_self.mpr fun x hx => beq_iff_eq.mpr ((h x hx).trans heq)
  · next hne =>
    exact List.filter_eq_nil_iff.mpr fun x hx heq => hne ((h x hx).symm.trans (beq_iff_eq.mp heq))

/-- The three parts of the check report under codes of their own. -/
theorem reports_eq_append (p : Project) (code : String) :
    reports p code =
      (if Diagnostic.unresolvedReference = code then danglingReferences p else []) ++
      (if Diagnostic.missingType = code then missingTypes p else []) ++
      if Diagnostic.duplicateType = code then duplicateTypes p else [] := by
  rw [reports_eq_filter, diagnostics, List.filter_append, List.filter_append,
    filter_code_eq (fun _ h => (Project.exists_dangling h).1),
    filter_code_eq (fun _ => code_of_mem_missingTypes),
    filter_code_eq (fun _ => code_of_mem_duplicateTypes)]

theorem reports_missingType (p : Project) : reports p Diagnostic.missingType = missingTypes p := by
  rw [reports_eq_append, if_neg (by decide), if_pos rfl, if_neg (by decide), List.nil_append,
    List.append_nil]

theorem reports_duplicateType (p : Project) :
    reports p Diagnostic.duplicateType = duplicateTypes p := by
  rw [reports_eq_append, if_neg (by decide), if_neg (by decide), if_pos rfl, List.nil_append,
    List.nil_append]

/-! ## Missing types -/

/-- A type that a document mentions, as it is looked up. -/
def mentionKey (x : String × TypeSymbol) : String × TypeName := (x.1, x.2.typeName)

/-- The report of a type that a document mentions. -/
def missingReport (x : String × TypeSymbol) : Diagnostic :=
  error Diagnostic.missingType x.1
    ("The type or namespace name '" ++ x.2.displayName ++ "' could not be found")

/-- No mention before this one is of the same type in the same document. -/
inductive FirstMention (x : String × TypeSymbol) : List (String × TypeSymbol) → Prop
  | here {rest : List (String × TypeSymbol)} : FirstMention x (x :: rest)
  | later {y : String × TypeSymbol} {rest : List (String × TypeSymbol)}
      (other : mentionKey y ≠ mentionKey x) (first : FirstMention x rest) :
      FirstMention x (y :: rest)

theorem FirstMention.mem {x : String × TypeSymbol} {mentions : List (String × TypeSymbol)}
    (h : FirstMention x mentions) : x ∈ mentions := by
  induction h with
  | here => exact List.mem_cons_self
  | later _ _ ih => exact List.mem_cons_of_mem _ ih

theorem exists_firstMention {y : String × TypeSymbol} {mentions : List (String × TypeSymbol)}
    (h : y ∈ mentions) : ∃ x, FirstMention x mentions ∧ mentionKey x = mentionKey y := by
  induction mentions with
  | nil => cases h
  | cons z rest ih =>
    by_cases hz : mentionKey z = mentionKey y
    · exact ⟨z, .here, hz⟩
    · rcases List.mem_cons.mp h with rfl | h
      · exact absurd rfl hz
      · obtain ⟨x, hx, hxy⟩ := ih h
        exact ⟨x, .later (hxy ▸ hz) hx, hxy⟩

theorem firstMentions_cons (seen : List (String × TypeName)) (y : String × TypeSymbol)
    (rest : List (String × TypeSymbol)) : firstMentions seen (y :: rest) =
      if seen.contains (mentionKey y) then firstMentions seen rest
      else y :: firstMentions (mentionKey y :: seen) rest := rfl

theorem mem_firstMentions_iff {keep : String × TypeSymbol → Bool}
    (hkeep : ∀ x y, mentionKey x = mentionKey y → keep x = keep y)
    (seen : List (String × TypeName)) (mentions : List (String × TypeSymbol))
    (x : String × TypeSymbol) :
    x ∈ firstMentions seen (mentions.filter keep) ↔
      keep x = true ∧ mentionKey x ∉ seen ∧ FirstMention x mentions := by
  induction mentions generalizing seen with
  | nil =>
    constructor
    · intro h
      cases h
    · rintro ⟨-, -, h⟩
      cases h
  | cons y rest ih =>
    by_cases hy : keep y = true
    · rw [List.filter_cons_of_pos hy, firstMentions_cons]
      by_cases hseen : mentionKey y ∈ seen
      · rw [if_pos (List.contains_iff_mem.mpr hseen), ih]
        refine and_congr_right fun _ => and_congr_right fun hx => ⟨fun h => ?_, fun h => ?_⟩
        · exact .later (fun heq => hx (heq ▸ hseen)) h
        · cases h with
          | here => exact absurd hseen hx
          | later _ first => exact first
      · rw [if_neg (mt List.contains_iff_mem.mp hseen), List.mem_cons, ih, List.mem_cons]
        constructor
        · rintro (rfl | ⟨hx, hnew, first⟩)
          · exact ⟨hy, hseen, .here⟩
          · exact ⟨hx, fun h => hnew (.inr h), .later (fun heq => hnew (.inl heq.symm)) first⟩
        · rintro ⟨hx, hnew, h⟩
          cases h with
          | here => exact .inl rfl
          | later other first =>
            exact .inr ⟨hx, fun h => h.elim (fun heq => other heq.symm) hnew, first⟩
    · rw [List.filter_cons_of_neg hy, ih]
      refine and_congr_right fun hx => and_congr_right fun _ => ⟨fun h => ?_, fun h => ?_⟩
      · exact .later (fun heq => hy ((hkeep y x heq).trans hx)) h
      · cases h with
        | here => exact absurd hx hy
        | later _ first => exact first

theorem nodup_firstMentions (seen : List (String × TypeName))
    (mentions : List (String × TypeSymbol)) :
    ((firstMentions seen mentions).map mentionKey).Nodup ∧
      ∀ k ∈ (firstMentions seen mentions).map mentionKey, k ∉ seen := by
  induction mentions generalizing seen with
  | nil => exact ⟨List.nodup_nil, List.forall_mem_nil _⟩
  | cons y rest ih =>
    rw [firstMentions_cons]
    split
    · exact ih seen
    · next hseen =>
      obtain ⟨hnodup, hnew⟩ := ih (mentionKey y :: seen)
      rw [List.map_cons]
      refine ⟨List.nodup_cons.mpr ⟨fun h => hnew _ h List.mem_cons_self, hnodup⟩, ?_⟩
      rw [List.forall_mem_cons]
      exact ⟨fun h => hseen (List.contains_iff_mem.mpr h),
        fun k hk h => hnew k hk (List.mem_cons_of_mem _ h)⟩

end Check

/-! ### What is declared -/

/-- Namespace, name and arity of a delegate. -/
def Entry.delegateName? (e : Entry) : Option TypeName :=
  match e.declaration with
  | .type .. => none
  | .leaf l =>
    match l.form with
    | .delegate name typeParameters _ _ => some ⟨e.space, name, typeParameters.length⟩
    | _ => none

theorem Catalogue.filterMap_typeName?_collectAll (document : DocumentId) (space path : String)
    (container : Option TypeHead) (depth : Nat) (ms : List Member) :
    (collectAll document space container depth ms).filterMap Entry.typeName? =
      (Member.typesAll space path ms).map (·.1.typeName) := by
  induction ms using Member.listInduction generalizing space path container depth with
  | nil => rfl
  | block head inner ms ihInner ih =>
    rw [collectAll, collect, Member.typesAll, Member.types, List.filterMap_append, List.map_append,
      ihInner _ "", ih space path]
  | type head inner ms ihInner ih =>
    rw [collectAll, collect, Member.typesAll, Member.types, List.filterMap_append, List.map_append,
      ih space path]
    refine congrArg (· ++ _) ?_
    rw [List.filterMap_cons, List.map_cons, ihInner space (Text.qualify path head.name)]
    rfl
  | leaf l ms ih =>
    rw [collectAll, collect, Member.typesAll, Member.types, List.filterMap_append, List.map_append,
      ih space path]
    rfl

namespace Project

/-- A class or struct of the namespace, name and arity. -/
def DeclaresType (p : Project) (n : TypeName) : Prop := ∃ e ∈ p.entries, e.typeName? = some n
deriving Decidable

/-- A delegate of the namespace, name and arity. -/
def DeclaresDelegate (p : Project) (n : TypeName) : Prop :=
  ∃ e ∈ p.entries, e.delegateName? = some n
deriving Decidable

theorem declaresType_iff (p : Project) (n : TypeName) :
    p.DeclaresType n ↔ n ∈ p.types.map (·.1.typeName) := by
  have htypes : p.types.map (·.1.typeName) = p.entries.filterMap Entry.typeName? := by
    rw [entries_eq_flatMap, List.filterMap_flatMap, types, List.map_flatMap]
    refine congrArg (fun f => p.documents.flatMap f) (funext fun d => ?_)
    rw [Document.entries, Catalogue.filterMap_typeName?_collectAll d.id "" "", List.map_map]
    rfl
  rw [htypes, List.mem_filterMap, DeclaresType]

/-- The mentions of types of the project's own assembly, with the documents they are in. -/
def ownMentions (p : Project) : List (String × TypeSymbol) :=
  p.documents.flatMap fun d => (Check.ownSymbols p d).map fun s => (d.name, s)

theorem map_snd_ownMentions (p : Project) : p.ownMentions.map (·.2) = p.ownSymbols := by
  rw [ownMentions, ownSymbols, List.map_flatMap]
  refine congrArg (fun f => p.documents.flatMap f) (funext fun d => ?_)
  rw [List.map_map]
  exact List.map_id _

end Project

namespace Check

/-- The mentions that are reported. -/
def missed (p : Project) : List (String × TypeSymbol) :=
  firstMentions [] (p.ownMentions.filter fun x =>
    !(p.types.map (·.1.typeName)).contains x.2.typeName)

theorem missingTypes_eq_map (p : Project) : missingTypes p = (missed p).map missingReport := rfl

theorem mem_missed_iff (p : Project) (x : String × TypeSymbol) :
    x ∈ missed p ↔ FirstMention x p.ownMentions ∧ ¬ p.DeclaresType x.2.typeName := by
  have hkeep : ∀ y z : String × TypeSymbol, mentionKey y = mentionKey z →
      (!(p.types.map (·.1.typeName)).contains y.2.typeName) =
        !(p.types.map (·.1.typeName)).contains z.2.typeName := by
    intro y z h
    have hname : y.2.typeName = z.2.typeName := congrArg Prod.snd h
    rw [hname]
  rw [missed, mem_firstMentions_iff hkeep, Bool.not_eq_true', Bool.eq_false_iff, ne_eq,
    List.contains_iff_mem, ← p.declaresType_iff]
  constructor
  · rintro ⟨hmissing, -, first⟩
    exact ⟨first, hmissing⟩
  · rintro ⟨first, hmissing⟩
    exact ⟨hmissing, List.not_mem_nil, first⟩

/-- Missing types are reported once for each document that mentions them, and they are missing if no
class or struct declares them.  So what is reported is declared by nothing at all exactly if every
type that the project mentions and a delegate declares is declared by a class or struct too. -/
theorem missing_reports (p : Project) :
    reports p Diagnostic.missingType = (missed p).map missingReport ∧
    ((missed p).map mentionKey).Nodup ∧
    (∀ x, x ∈ missed p ↔ FirstMention x p.ownMentions ∧ ¬ p.DeclaresType x.2.typeName) ∧
    ((∀ x ∈ missed p, ¬ p.DeclaresType x.2.typeName ∧ ¬ p.DeclaresDelegate x.2.typeName) ↔
      ∀ s ∈ p.ownSymbols, p.DeclaresDelegate s.typeName → p.DeclaresType s.typeName) := by
  refine ⟨?_, (nodup_firstMentions [] _).1, mem_missed_iff p, ?_⟩
  · rw [reports_missingType, missingTypes_eq_map]
  rw [← p.map_snd_ownMentions]
  constructor
  · intro h s hs hdelegate
    obtain ⟨y, hy, rfl⟩ := List.mem_map.mp hs
    obtain ⟨x, first, hxy⟩ := exists_firstMention hy
    have hname : x.2.typeName = y.2.typeName := congrArg Prod.snd hxy
    by_contra hmissing
    rw [← hname] at hdelegate hmissing
    exact (h x ((mem_missed_iff p x).mpr ⟨first, hmissing⟩)).2 hdelegate
  · intro h x hx
    obtain ⟨first, hmissing⟩ := (mem_missed_iff p x).mp hx
    exact ⟨hmissing, fun hdelegate => hmissing (h x.2 (List.mem_map_of_mem first.mem) hdelegate)⟩

/-- A button that calls back through a delegate of its project. -/
def button : Project :=
  { id := ⟨1⟩, name := "Demo", assembly := "Demo"
    documents :=
      [{ id := ⟨1⟩, name := "Button.cs"
         root :=
          { members :=
              [.block { id := ⟨1⟩, name := "Demo" }
                [.leaf { id := ⟨2⟩, form := .delegate "Handler" [] .void [] },
                  .type { id := ⟨3⟩, kind := .classKind, name := "Button" } [clicked]]] } }] }
where
  handler : TypeSymbol := .named "Demo" "Demo" "Handler"
  clicked : Member :=
    .leaf { id := ⟨4⟩, form := .field (.ofSymbol handler) [⟨"Clicked", none⟩] }

/-- A delegate that is declared and used is reported missing. -/
theorem missing_reports_delegate :
    button.DeclaresDelegate button.handler.typeName ∧
    ("Button.cs", button.handler) ∈ missed button ∧
    reports button Diagnostic.missingType =
      [{ code := "CS0246", severity := .error, document := "Button.cs"
         message := "The type or namespace name 'Handler' could not be found" }] := by
  decide +kernel

end Check

/-! ## Double types -/

/-- Where a type is declared, with the whole of what is around it. -/
structure TypePlace where
  space : String
  /-- Names and arities of the types around it, the outermost first. -/
  around : List (String × Nat)
  name : String
  arity : Nat
deriving DecidableEq

/-- The dotted name of the types around a type. -/
def typePath (names : List String) : String := names.foldl Text.qualify ""

/-- What the check compares: of the types around, only their names. -/
def TypePlace.key (n : TypePlace) : TypeKey :=
  ⟨n.space, typePath (n.around.map (·.1)), n.name, n.arity⟩

theorem typePath_concat (names : List String) (name : String) :
    typePath (names ++ [name]) = Text.qualify (typePath names) name := by
  rw [typePath, List.foldl_append]
  rfl

/-- A path tells the names in it, if they are not empty and hold no dot. -/
theorem typePath_injective {names names' : List String}
    (h : ∀ n ∈ names, n ≠ "" ∧ '.' ∉ n.toList) (h' : ∀ n ∈ names', n ≠ "" ∧ '.' ∉ n.toList)
    (heq : typePath names = typePath names') : names = names' := by
  have hne : ∀ {ns : List String} {n : String}, n ≠ "" → typePath (ns ++ [n]) ≠ "" := by
    intro ns n hn
    rw [typePath_concat]
    exact Text.qualify_ne hn
  -- The last name of a path is what follows its last dot.
  induction names using List.reverseRecOn generalizing names' with
  | nil =>
    cases names' using List.reverseRecOn with
    | nil => rfl
    | append_singleton ns n =>
      exact absurd heq.symm (hne (h' n List.mem_concat_self).1)
  | append_singleton ns n ih =>
    cases names' using List.reverseRecOn with
    | nil => exact absurd heq (hne (h n List.mem_concat_self).1)
    | append_singleton ns' n' =>
      rw [typePath_concat, typePath_concat] at heq
      obtain ⟨hpath, hname⟩ := qualify_injective (h n List.mem_concat_self).2
        (h' n' List.mem_concat_self).2 heq
      rw [hname, ih (fun m hm => h m (List.mem_append_left _ hm))
        (fun m hm => h' m (List.mem_append_left _ hm)) hpath]

namespace Member

mutual

/-- The types at and below a member with their places. -/
def places (space : String) (around : List (String × Nat)) : Member → List (TypePlace × TypeHead)
  | block head members => placesAll (Text.qualify space head.name) around members
  | type head members =>
    (⟨space, around, head.name, head.arity⟩, head) ::
      placesAll space (around ++ [(head.name, head.arity)]) members
  | leaf _ => []

def placesAll (space : String) (around : List (String × Nat)) :
    List Member → List (TypePlace × TypeHead)
  | [] => []
  | m :: ms => places space around m ++ placesAll space around ms

end

theorem typesAll_eq_map_of_blocks {ms : List Member} (hblocks : blockIdsAll ms = [])
    (space : String) (around : List (String × Nat)) :
    typesAll space (typePath (around.map (·.1))) ms =
      (placesAll space around ms).map fun x => (x.1.key, x.2) := by
  unfold blockIdsAll at hblocks
  induction ms using listInduction generalizing around with
  | nil => rfl
  | block head inner ms _ _ => cases hblocks
  | type head inner ms ihInner ih =>
    rw [gatherAll, gather, List.nil_append] at hblocks
    obtain ⟨hinner, hms⟩ := List.append_eq_nil_iff.mp hblocks
    have hpath : Text.qualify (typePath (around.map (·.1))) head.name =
        typePath ((around ++ [(head.name, head.arity)]).map (·.1)) := by
      rw [List.map_append, List.map_singleton, typePath_concat]
    rw [typesAll, types, placesAll, places, List.map_append, List.map_cons, hpath,
      ihInner hinner, ih hms]
    rfl
  | leaf l ms ih =>
    rw [gatherAll, gather, List.nil_append] at hblocks
    rw [typesAll, types, placesAll, places, List.map_append, ih hblocks]
    rfl

/-- The check sees of a place what its key says, if no block stands in a type. -/
theorem typesAll_eq_map {ms : List Member} (hblocks : innerBlocksAll ms = []) (space : String) :
    typesAll space "" ms = (placesAll space [] ms).map fun x => (x.1.key, x.2) := by
  induction ms using listInduction generalizing space with
  | nil => rfl
  | block head inner ms ihInner ih =>
    rw [innerBlocksAll, innerBlocks] at hblocks
    obtain ⟨hinner, hms⟩ := List.append_eq_nil_iff.mp hblocks
    rw [typesAll, types, placesAll, places, List.map_append, ihInner hinner, ih hms]
  | type head inner ms _ ih =>
    rw [innerBlocksAll, innerBlocks] at hblocks
    obtain ⟨hinner, hms⟩ := List.append_eq_nil_iff.mp hblocks
    have hhere := typesAll_eq_map_of_blocks hinner space [(head.name, head.arity)]
    rw [typesAll, types, placesAll, places, List.map_append, List.map_cons, ih hms, List.nil_append,
      ← hhere]
    rfl
  | leaf l ms ih =>
    rw [innerBlocksAll, innerBlocks, List.nil_append] at hblocks
    rw [typesAll, types, placesAll, places, List.map_append, ih hblocks]
    rfl

end Member

namespace Project

/-- Every declaration of a type with its place and the name of its document. -/
def places (p : Project) : List (TypePlace × String × TypeHead) :=
  p.documents.flatMap fun d =>
    (Member.placesAll "" [] d.root.members).map fun x => (x.1, d.name, x.2)

theorem types_eq_map_places {p : Project} (hblocks : p.innerBlocks = []) :
    p.types = p.places.map fun x => (x.1.key, x.2) := by
  rw [types, places, List.map_flatMap]
  refine List.flatMap_congr fun d hd => ?_
  have hnone : Member.innerBlocksAll d.root.members = [] :=
    List.flatMap_eq_nil_iff.mp hblocks d hd
  rw [Root.types, Member.typesAll_eq_map hnone, List.map_map, List.map_map]
  rfl

/-- Types are in the same place if their keys are the same: no namespace block stands in a type, the
types around others have proper names, and those of one name have one arity. -/
structure TellsPlaces (p : Project) : Prop where
  blocks : p.innerBlocks = []
  names : ∀ x ∈ p.places, ∀ a ∈ x.1.around, a.1 ≠ "" ∧ '.' ∉ a.1.toList
  arities : ∀ x ∈ p.places, ∀ y ∈ p.places, x.1.space = y.1.space →
    x.1.around.map (·.1) = y.1.around.map (·.1) → x.1.around = y.1.around

theorem TellsPlaces.eq_of_key_eq {p : Project} (h : p.TellsPlaces) {n n' : TypePlace}
    (hn : n ∈ p.places.map (·.1)) (hn' : n' ∈ p.places.map (·.1)) (hkey : n.key = n'.key) :
    n = n' := by
  obtain ⟨x, hx, rfl⟩ := List.mem_map.mp hn
  obtain ⟨y, hy, rfl⟩ := List.mem_map.mp hn'
  obtain ⟨hspace, hpath, hname, harity⟩ := TypeKey.mk.inj hkey
  have hnames := typePath_injective (List.forall_mem_map.mpr (h.names x hx))
    (List.forall_mem_map.mpr (h.names y hy)) hpath
  have haround := h.arities x hx y hy hspace hnames
  exact TypePlace.mk.injEq .. ▸ ⟨hspace, haround, hname, harity⟩

end Project

namespace Check

theorem count_map_of_injOn {α β : Type} [DecidableEq α] [DecidableEq β] {f : α → β} {l : List α}
    (hf : ∀ a ∈ l, ∀ b ∈ l, f a = f b → a = b) {a : α} (ha : a ∈ l) :
    (l.map f).count (f a) = l.count a := by
  rw [List.count, List.count, List.countP_map]
  refine List.countP_congr fun b hb => ?_
  rw [Function.comp_apply, beq_iff_eq, beq_iff_eq]
  exact ⟨hf b hb a ha, congrArg f⟩

/-- What is told apart is doubled under new names exactly if it is under the old ones. -/
theorem doubled_map_iff {α β : Type} [DecidableEq α] [DecidableEq β] {f : α → β}
    {ds : List (α × String × TypeHead)}
    (hf : ∀ a ∈ ds.map (·.1), ∀ b ∈ ds.map (·.1), f a = f b → a = b) (k : β) :
    Doubled (ds.map fun x => (f x.1, x.2)) k ↔ ∃ a, Doubled ds a ∧ f a = k := by
  have hnames : (ds.map fun x => (f x.1, x.2)).map (·.1) = (ds.map (·.1)).map f := by
    rw [List.map_map, List.map_map]
    rfl
  constructor
  · rintro ⟨hcount, x, hx, rfl, hpartial⟩
    obtain ⟨y, hy, rfl⟩ := List.mem_map.mp hx
    rw [hnames, count_map_of_injOn hf (List.mem_map_of_mem hy)] at hcount
    exact ⟨y.1, ⟨hcount, y, hy, rfl, hpartial⟩, rfl⟩
  · rintro ⟨a, ⟨hcount, y, hy, rfl, hpartial⟩, rfl⟩
    rw [← count_map_of_injOn hf (List.mem_map_of_mem hy), ← hnames] at hcount
    exact ⟨hcount, _, List.mem_map_of_mem hy, rfl, hpartial⟩

/-- A type is reported if two declarations that are not all partial have the same key.  Where no
block stands in a type, the key is that of a place without the arities around it.  So where places
of one key are one, the types that are reported are those declared twice in one place. -/
theorem double_reports (p : Project) :
    (∀ x, x ∈ reports p Diagnostic.duplicateType ↔
      ∃ k, Doubled p.types k ∧ x = doubleReport k (secondDocument p k)) ∧
    (p.innerBlocks = [] → p.types = p.places.map fun x => (x.1.key, x.2)) ∧
    (p.TellsPlaces → ∀ x, x ∈ reports p Diagnostic.duplicateType ↔
      ∃ n, Doubled p.places n ∧ x = doubleReport n.key (secondDocument p n.key)) := by
  rw [reports_duplicateType]
  refine ⟨mem_duplicateTypes_iff p, Project.types_eq_map_places, fun h x => ?_⟩
  have hdoubled : ∀ k, Doubled p.types k ↔ ∃ n, Doubled p.places n ∧ n.key = k := by
    intro k
    rw [Project.types_eq_map_places h.blocks]
    exact doubled_map_iff (fun _ hn _ hn' => h.eq_of_key_eq hn hn') k
  rw [mem_duplicateTypes_iff]
  constructor
  · rintro ⟨k, hk, rfl⟩
    obtain ⟨n, hn, rfl⟩ := (hdoubled k).mp hk
    exact ⟨n, hn, rfl⟩
  · rintro ⟨n, hn, rfl⟩
    exact ⟨n.key, (hdoubled n.key).mpr ⟨n, hn, rfl⟩, rfl⟩

/-- A project of one document with these members. -/
def plot (members : List Member) : Project :=
  { id := ⟨1⟩, name := "Demo", assembly := "Demo"
    documents := [{ id := ⟨1⟩, name := "Demo.cs", root := { members } }] }

namespace plot

def type (id : UInt32) (name : String) (members : List Member) (modifiers : List String := [])
    (typeParameters : List String := []) : Member :=
  .type { id := ⟨id⟩, kind := .classKind, modifiers, name, typeParameters } members

/-- A type in two parts that both declare the same type. -/
def twins : Project :=
  plot [type 1 "Outer" [type 2 "Inner" []] ["partial"],
    type 3 "Outer" [type 4 "Inner" []] ["partial"]]

/-- Types of one name in two types of one name, of which one is generic. -/
def namesakes : Project :=
  plot [type 1 "Outer" [type 2 "Inner" []], type 3 "Outer" [type 4 "Inner" []] [] ["T"]]

/-- A dot in the name of a type. -/
def dotted : Project :=
  plot [type 1 "A.B" [type 2 "C" []], type 3 "A" [type 4 "B" [type 5 "C" []]]]

/-- A type without a name. -/
def unnamed : Project := plot [type 1 "" [type 2 "C" []], type 3 "C" []]

/-- A namespace block in a type. -/
def walled : Project :=
  plot [type 1 "A" [.block { id := ⟨2⟩, name := "N" } [type 3 "C" []]],
    .block { id := ⟨4⟩, name := "N" } [type 5 "C" []]]

end plot

theorem double_reports_twins :
    plot.twins.TellsPlaces ∧ Doubled plot.twins.places ⟨"", [("Outer", 0)], "Inner", 0⟩ ∧
    doubleReport ⟨"", "Outer", "Inner", 0⟩ "Demo.cs" ∈
      reports plot.twins Diagnostic.duplicateType := by
  have htells : plot.twins.TellsPlaces := ⟨by decide +kernel, by decide +kernel, by decide +kernel⟩
  have hdoubled : Doubled plot.twins.places ⟨"", [("Outer", 0)], "Inner", 0⟩ :=
    ⟨by decide +kernel, by decide +kernel⟩
  exact ⟨htells, hdoubled, ((double_reports plot.twins).2.2 htells _).mpr ⟨_, hdoubled, rfl⟩⟩

/-- A type inside a type and one inside its generic namesake are reported, though no place has two
types.  The other conditions are needed as well. -/
theorem double_reports_namesakes :
    reports plot.namesakes Diagnostic.duplicateType =
      [{ code := "CS0101", severity := .error, document := "Demo.cs"
         message :=
          "The namespace '<global namespace>' already contains a definition for 'Inner'" }] ∧
    (∀ n, ¬ Doubled plot.namesakes.places n) ∧
    ∀ p ∈ [plot.dotted, plot.unnamed, plot.walled],
      reports p Diagnostic.duplicateType ≠ [] ∧ (p.places.map (·.1)).Nodup := by
  have hnodup : (plot.namesakes.places.map (·.1)).Nodup := by decide +kernel
  refine ⟨by decide +kernel, fun n hn => ?_, by decide +kernel⟩
  have hcount := List.nodup_iff_count_le_one.mp hnodup n
  have htwo := hn.1
  omega

end Check
end Unweave

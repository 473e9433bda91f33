import Mathlib.Data.List.Forall2
import Unweave.Proofs.Settled

/-!
# What can be seen after needless directives are gone

A directive can be seen in its block and in all blocks inside.  It is reported if one with the same
key can be seen already or if nothing needs it, and an unneeded directive hides its later copies all
the same.  Of the directives with a key that is needed the first one on the way into a block is
therefore never reported, so wherever a needed key could be seen, it still can.

The argument is about keys alone.  Where identifiers are distinct, erasing by identifier amounts to
keeping the directives that are not reported where they stand (`CleanUp.erase_needless`).
-/

namespace Unweave

/-! ## Directives that are not reported -/

/-- Shorthands and static imports are always needed, other imports if their namespace is in use. -/
def IsNeeded (used : List String) (k : UsingKey) : Prop :=
  k.2.1 ≠ none ∨ k.2.2 = true ∨ k.1 ∈ used

theorem CleanUp.isReported_iff (used : List String) (seen : List UsingKey) (u : Using) :
    isReported used seen u = true ↔ u.key ∈ seen ∨ ¬ IsNeeded used u.key := by
  rw [isReported, Bool.or_eq_true, List.contains_iff_mem, Using.isImport, Bool.and_eq_true,
    Bool.and_eq_true, Option.isNone_iff_eq_none, Bool.not_eq_true', Bool.not_eq_true',
    ← Bool.not_eq_true (used.contains u.name), List.contains_iff_mem]
  simp only [IsNeeded, Using.key, ne_eq, not_or, Decidable.not_not, Bool.not_eq_true, and_assoc]

/-- The directives of one block that are not reported, if `seen` holds those around it. -/
def spared (used : List String) (seen : List UsingKey) : List Using → List Using
  | [] => []
  | u :: us =>
    if CleanUp.isReported used seen u then spared used (u.key :: seen) us
    else u :: spared used (u.key :: seen) us

namespace Member

mutual

/-- Keep the directives that are not reported.  Blocks inside types are not looked at. -/
def spare (used : List String) (seen : List UsingKey) : Member → Member
  | block head members =>
    block { head with usings := spared used seen head.usings }
      (spareAll used (head.usings.map Using.key ++ seen) members)
  | type head members => type head members
  | leaf l => leaf l

def spareAll (used : List String) (seen : List UsingKey) : List Member → List Member
  | [] => []
  | m :: ms => spare used seen m :: spareAll used seen ms

end

end Member

def Root.spare (r : Root) : Root :=
  { r with
    usings := spared r.usedNamespaces [] r.usings
    members := Member.spareAll r.usedNamespaces (r.usings.map Using.key) r.members }

/-! ## Erasing by identifier -/

namespace CleanUp

theorem needless_append (xs ys : List Diagnostic) :
    needless (xs ++ ys) = needless xs ++ needless ys := by
  rw [needless, List.filter_append, List.filterMap_append]
  rfl

theorem needless_cons {x : Diagnostic} (hx : isNeedless x = true) {id : NodeId}
    (hid : x.node = some id) (xs : List Diagnostic) : needless (x :: xs) = id :: needless xs := by
  show ((x :: xs).filter isNeedless).filterMap (·.node) = _
  rw [List.filter_cons_of_pos hx, List.filterMap_cons, hid]
  rfl

section Counting

variable (used : List String) (document : String) (seen : List UsingKey) (id : NodeId)

/-- A directive is reported or spared, and not both. -/
theorem count_usingsOf (us : List Using) :
    (needless (Check.usingsOf used document seen us)).count id +
      ((spared used seen us).map (·.id)).count id = (us.map (·.id)).count id := by
  induction us generalizing seen with
  | nil => rfl
  | cons u us ih =>
    have hrest := ih (u.key :: seen)
    rw [spared]
    cases hu : isReported used seen u with
    | true =>
      obtain ⟨x, hnode, hcode, hcons⟩ := usingsOf_cons_of_reported document hu us
      rw [hcons, needless_cons hcode hnode, if_pos rfl, List.map_cons, List.count_cons,
        List.count_cons]
      omega
    | false =>
      rw [usingsOf_cons_of_not_reported hu, if_neg Bool.false_ne_true, List.map_cons,
        List.map_cons, List.count_cons, List.count_cons]
      omega

theorem count_blockUsingsAll (ms : List Member) :
    (needless (Check.blockUsingsAll used document seen ms)).count id +
      (Member.usingIdsAll (Member.spareAll used seen ms)).count id =
        (Member.usingIdsAll ms).count id := by
  unfold Member.usingIdsAll
  induction ms using Member.listInduction generalizing seen with
  | nil => rfl
  | block head inner ms ihInner ih =>
    have husings := count_usingsOf used document seen id head.usings
    have hinner := ihInner (head.usings.map Using.key ++ seen)
    have hms := ih seen
    simp only [Check.blockUsingsAll, Check.blockUsings, Member.spareAll, Member.spare,
      Member.gatherAll, Member.gather, needless_append, List.count_append] at *
    omega
  | type head inner ms _ ih =>
    have hms := ih seen
    simp only [blockUsingsAll_type, Member.spareAll, Member.spare, Member.gatherAll,
      Member.gather, List.count_append] at *
    omega
  | leaf l ms ih =>
    have hms := ih seen
    simp only [blockUsingsAll_leaf, Member.spareAll, Member.spare, Member.gatherAll,
      Member.gather, List.count_append] at *
    omega

end Counting

section Erasing

variable {used : List String} (document : String) {seen : List UsingKey} {gone : NodeId → Bool}

theorem eraseUsings_eq_spared {us : List Using}
    (hgone : ∀ id ∈ needless (Check.usingsOf used document seen us), gone id = true)
    (hkeep : ∀ id ∈ (spared used seen us).map (·.id), gone id = false) :
    eraseUsings gone us = spared used seen us := by
  induction us generalizing seen with
  | nil => rfl
  | cons u us ih =>
    rw [spared] at hkeep ⊢
    cases hu : isReported used seen u with
    | true =>
      obtain ⟨x, hnode, hcode, hcons⟩ := usingsOf_cons_of_reported document hu us
      rw [hcons, needless_cons hcode hnode] at hgone
      rw [hu, if_pos rfl] at hkeep
      have hu' : gone u.id = true := hgone u.id List.mem_cons_self
      rw [eraseUsings, List.filter_cons_of_neg (by rw [hu']; exact Bool.false_ne_true), if_pos rfl]
      exact ih (fun id hid => hgone id (List.mem_cons_of_mem _ hid)) hkeep
    | false =>
      rw [usingsOf_cons_of_not_reported hu] at hgone
      rw [hu, if_neg Bool.false_ne_true, List.map_cons] at hkeep
      have hu' : gone u.id = false := hkeep u.id List.mem_cons_self
      rw [eraseUsings, List.filter_cons_of_pos (by rw [hu']; rfl), if_neg Bool.false_ne_true]
      exact congrArg (u :: ·) (ih hgone fun id hid => hkeep id (List.mem_cons_of_mem _ hid))

theorem eraseAll_eq_spareAll {ms : List Member} (hdeclared : Member.Keeps gone ms)
    (hgone : ∀ id ∈ needless (Check.blockUsingsAll used document seen ms), gone id = true)
    (hkeep : ∀ id ∈ Member.usingIdsAll (Member.spareAll used seen ms), gone id = false) :
    Member.eraseAll gone ms = Member.spareAll used seen ms := by
  unfold Member.usingIdsAll at hkeep
  induction ms using Member.listInduction generalizing seen with
  | nil => rfl
  | block head inner ms ihInner ih =>
    obtain ⟨hhead, hinner, hms⟩ := hdeclared.of_block
    simp only [Check.blockUsingsAll, Check.blockUsings, needless_append, List.mem_append] at hgone
    simp only [Member.spareAll, Member.spare, Member.gatherAll, Member.gather, List.mem_append]
      at hkeep
    rw [Member.eraseAll_cons_of_kept hhead, Member.eraseInside,
      eraseUsings_eq_spared document (fun id hid => hgone id (Or.inl (Or.inl hid)))
        fun id hid => hkeep id (Or.inl (Or.inl hid)),
      ihInner hinner (fun id hid => hgone id (Or.inl (Or.inr hid)))
        fun id hid => hkeep id (Or.inl (Or.inr hid)),
      ih hms (fun id hid => hgone id (Or.inr hid)) fun id hid => hkeep id (Or.inr hid),
      Member.spareAll, Member.spare]
  | type head inner ms _ ih =>
    obtain ⟨hhead, hinner, hms⟩ := hdeclared.of_type
    simp only [Member.spareAll, Member.spare, Member.gatherAll, Member.gather, List.mem_append,
      List.nil_append] at hkeep
    -- Nothing inside a type is reported, so nothing inside it goes.
    have hself : Member.eraseAll gone inner = inner :=
      (Member.eraseAll_congr (fun id hid => hkeep id (Or.inl hid)) hinner).trans
        (Member.eraseAll_nothing inner)
    rw [Member.eraseAll_cons_of_kept hhead, Member.eraseInside, hself,
      ih hms hgone fun id hid => hkeep id (Or.inr hid), Member.spareAll, Member.spare]
  | leaf l ms ih =>
    obtain ⟨hhead, hms⟩ := hdeclared.of_leaf
    simp only [Member.spareAll, Member.spare, Member.gatherAll, Member.gather,
      List.nil_append] at hkeep
    rw [Member.eraseAll_cons_of_kept hhead, Member.eraseInside, ih hms hgone hkeep,
      Member.spareAll, Member.spare]

end Erasing

/-- No identifier of a directive that is spared is called needless. -/
theorem not_needless_of_spared {d : Document} (hd : d.root.usingIds.Nodup) {id : NodeId}
    (hid : id ∈ d.root.spare.usingIds) :
    (needless (Check.needlessUsings d)).contains id = false := by
  have hroot := count_usingsOf d.root.usedNamespaces d.name [] id d.root.usings
  have hblocks := count_blockUsingsAll d.root.usedNamespaces d.name
    (d.root.usings.map Using.key) id d.root.members
  have honce := List.nodup_iff_count_le_one.mp hd id
  have hspared := List.count_pos_iff.mpr hid
  have hsum : (needless (Check.needlessUsings d)).count id + d.root.spare.usingIds.count id =
      d.root.usingIds.count id := by
    simp only [Check.needlessUsings, needless_append, Root.usingIds, Root.spare,
      List.count_append]
    omega
  -- An identifier that is both would occur twice.
  rw [Bool.eq_false_iff]
  intro hneedless
  have hcount := List.count_pos_iff.mpr (List.contains_iff_mem.mp hneedless)
  omega

/-- Where identifiers are distinct, the directives that stay are those that are not reported. -/
theorem erase_needless {d : Document} (hd : d.root.nodeIds.Nodup) :
    d.root.erase (needless (Check.needlessUsings d)).contains = d.root.spare := by
  have hids : d.root.usingIds.Nodup := hd.of_append_left
  have hgone : ∀ id ∈ needless (Check.needlessUsings d),
      (needless (Check.needlessUsings d)).contains id = true := fun id hid =>
    List.contains_iff_mem.mpr hid
  have hparts : needless (Check.needlessUsings d) =
      needless (Check.usingsOf d.root.usedNamespaces d.name [] d.root.usings) ++
        needless (Check.blockUsingsAll d.root.usedNamespaces d.name
          (d.root.usings.map Using.key) d.root.members) := needless_append _ _
  rw [Root.erase, Root.spare,
    eraseUsings_eq_spared d.name
      (fun id hid => hgone id (hparts ▸ List.mem_append_left _ hid))
      fun id hid => not_needless_of_spared hids (List.mem_append_left _ hid),
    eraseAll_eq_spareAll d.name (keeps_needlessUsings hd)
      (fun id hid => hgone id (hparts ▸ List.mem_append_right _ hid))
      fun id hid => not_needless_of_spared hids (List.mem_append_right _ hid)]

end CleanUp

/-! ## Scopes -/

/-- A block, or the root, and the keys of the directives that can be seen in it. -/
structure UsingScope where
  block : Option NodeId
  visible : List UsingKey

namespace Member

mutual

/-- The scopes of all blocks, those inside types included; `around` can be seen around them. -/
def scopes (around : List UsingKey) : Member → List UsingScope
  | block head members =>
    ⟨some head.id, head.usings.map Using.key ++ around⟩ ::
      scopesAll (head.usings.map Using.key ++ around) members
  | type _ members => scopesAll around members
  | leaf _ => []

def scopesAll (around : List UsingKey) : List Member → List UsingScope
  | [] => []
  | m :: ms => scopes around m ++ scopesAll around ms

end

end Member

def Root.scopes (r : Root) : List UsingScope :=
  ⟨none, r.usings.map Using.key⟩ :: Member.scopesAll (r.usings.map Using.key) r.members

/-- The same needed keys are in both lists. -/
def Agree (used : List String) (ks' ks : List UsingKey) : Prop :=
  ∀ k, IsNeeded used k → (k ∈ ks' ↔ k ∈ ks)

/-- Two scopes of the same block show the same needed keys. -/
def UsingScope.Alike (used : List String) (s' s : UsingScope) : Prop :=
  s'.block = s.block ∧ Agree used s'.visible s.visible

section Agree

variable {used : List String} {seen' seen : List UsingKey}

theorem Agree.refl (ks : List UsingKey) : Agree used ks ks := fun _ _ => Iff.rfl

theorem Agree.append (h : Agree used seen' seen) (ks : List UsingKey) :
    Agree used (ks ++ seen') (ks ++ seen) := by
  intro k hk
  rw [List.mem_append, List.mem_append, h k hk]

/-- What is reported adds no needed key to those seen before. -/
theorem Agree.cons_of_reported (h : Agree used seen' seen) {u : Using}
    (hu : CleanUp.isReported used seen u = true) : Agree used seen' (u.key :: seen) := by
  intro k hk
  rw [h k hk, List.mem_cons]
  refine ⟨Or.inr, ?_⟩
  rintro (rfl | hseen)
  · rcases (CleanUp.isReported_iff used seen u).mp hu with hseen | hunneeded
    · exact hseen
    · exact absurd hk hunneeded
  · exact hseen

theorem Agree.spared (h : Agree used seen' seen) (us : List Using) :
    Agree used ((spared used seen us).map Using.key ++ seen') (us.map Using.key ++ seen) := by
  induction us generalizing seen' seen with
  | nil => exact h
  | cons u us ih =>
    intro k hk
    -- The check has put the key of `u` among those seen by the time it comes to `us`.
    have hmiddle : k ∈ us.map Using.key ++ u.key :: seen ↔
        k ∈ (u :: us).map Using.key ++ seen := by
      rw [List.map_cons, List.cons_append, List.perm_middle.mem_iff]
    rw [Unweave.spared, ← hmiddle]
    cases hu : CleanUp.isReported used seen u with
    | true => exact ih (h.cons_of_reported hu) k hk
    | false =>
      rw [if_neg Bool.false_ne_true, List.map_cons, List.cons_append,
        ← List.perm_middle.mem_iff]
      exact ih (h.append [u.key]) k hk

end Agree

namespace Member

variable {used : List String}

/-- Blocks show what is around them and what they hold themselves. -/
theorem scopesAll_alike {around' around : List UsingKey} (h : Agree used around' around)
    (ms : List Member) :
    List.Forall₂ (UsingScope.Alike used) (scopesAll around' ms) (scopesAll around ms) := by
  induction ms using listInduction generalizing around' around with
  | nil => exact .nil
  | block head inner ms ihInner ih =>
    have hhead := h.append (head.usings.map Using.key)
    exact List.rel_append (.cons ⟨rfl, hhead⟩ (ihInner hhead)) (ih h)
  | type head inner ms ihInner ih => exact List.rel_append (ihInner h) (ih h)
  | leaf l ms ih => exact ih h

theorem scopesAll_spareAll {around seen : List UsingKey} (h : Agree used around seen)
    (ms : List Member) :
    List.Forall₂ (UsingScope.Alike used) (scopesAll around (spareAll used seen ms))
      (scopesAll seen ms) := by
  induction ms using listInduction generalizing around seen with
  | nil => exact .nil
  | block head inner ms ihInner ih =>
    have hhead := h.spared head.usings
    exact List.rel_append (.cons ⟨rfl, hhead⟩ (ihInner hhead)) (ih h)
  | type head inner ms _ ih =>
    -- Blocks in here keep all their directives; only what is around them may have changed.
    exact List.rel_append (scopesAll_alike h inner) (ih h)
  | leaf l ms ih => exact ih h

end Member

theorem Root.scopes_spare (r : Root) :
    List.Forall₂ (UsingScope.Alike r.usedNamespaces) r.spare.scopes r.scopes := by
  have hroot : Agree r.usedNamespaces ((spared r.usedNamespaces [] r.usings).map Using.key)
      (r.usings.map Using.key) := by
    simpa only [List.append_nil] using (Agree.refl []).spared r.usings
  exact .cons ⟨rfl, hroot⟩ (Member.scopesAll_spareAll hroot r.members)

/-- Once needless directives are removed, none is reported, and in every block and at the root the
keys that can be seen and are needed are those that could be seen and were needed before. -/
theorem CleanUp.removeUsings_keeps_scopes (p : Project) (d : Document)
    (hd : d.root.nodeIds.Nodup) :
    ∃ e, (removeUsings fun _ d => Check.needlessUsings d).apply p d = .ok e ∧
      Check.needlessUsings e = [] ∧
      List.Forall₂ (fun s' s => s'.block = s.block ∧
          ∀ k, k ∈ s'.visible ∧ IsNeeded e.root.usedNamespaces k ↔
            k ∈ s.visible ∧ IsNeeded d.root.usedNamespaces k)
        e.root.scopes d.root.scopes := by
  refine ⟨_, removeUsings_apply _ p d, needlessUsings_erase_needless hd, ?_⟩
  have hused : (d.root.erase (needless (Check.needlessUsings d)).contains).usedNamespaces =
      d.root.usedNamespaces := usedNamespaces_erase (keeps_needlessUsings hd)
  have hscopes := d.root.scopes_spare
  rw [← erase_needless hd] at hscopes
  refine hscopes.imp fun s' s hs => ⟨hs.1, fun k => ?_⟩
  show k ∈ s'.visible ∧
    IsNeeded (d.root.erase (needless (Check.needlessUsings d)).contains).usedNamespaces k ↔ _
  rw [hused]
  exact and_congr_left fun hk => hs.2 k hk

/-- Directives that repeat one before them, one around them and one that nothing needs, a directive
of which a neighbouring block has a copy, and a block inside a type. -/
def gallery : Document where
  id := ⟨1⟩
  name := "Gallery.cs"
  root :=
    { usings :=
        [{ id := ⟨1⟩, name := "Paint" }, { id := ⟨2⟩, name := "Frames" },
         { id := ⟨3⟩, name := "Light", isStatic := true }, { id := ⟨4⟩, name := "Paint" }]
      members :=
        [.block
          { id := ⟨5⟩, name := "Gallery"
            usings :=
              [{ id := ⟨6⟩, name := "Frames" }, { id := ⟨7⟩, name := "Glass" },
               { id := ⟨8⟩, name := "Frames", shorthand := some "F" }] }
          [.block
            { id := ⟨9⟩, name := "North"
              usings :=
                [{ id := ⟨10⟩, name := "Glass" },
                 { id := ⟨11⟩, name := "Frames", shorthand := some "F" }] }
            [.type { id := ⟨12⟩, kind := .classKind, name := "Hall" }
              [.block { id := ⟨13⟩, name := "Annex", usings := [{ id := ⟨14⟩, name := "Paint" }] }
                [.leaf
                  { id := ⟨15⟩
                    form := .property "wall" ⟨"Oil", .named "Paint" "Paint" "Oil"⟩ (.auto true) }],
               .leaf
                { id := ⟨16⟩
                  form := .property "roof" ⟨"Pane", .named "Glass" "Glass" "Pane"⟩
                    (.auto false) }]]],
         .block { id := ⟨17⟩, name := "Depot", usings := [{ id := ⟨18⟩, name := "Glass" }] } []] }

theorem CleanUp.removeUsings_keeps_scopes_gallery :
    gallery.root.nodeIds.Nodup ∧
    (Check.needlessUsings gallery).map (·.node) =
      [some ⟨2⟩, some ⟨4⟩, some ⟨6⟩, some ⟨10⟩, some ⟨11⟩] ∧
    ∃ e, (removeUsings fun _ d => Check.needlessUsings d).apply
          { id := ⟨1⟩, name := "Gallery", assembly := "Gallery", documents := [gallery] } gallery =
        .ok e ∧
      Check.needlessUsings e = [] ∧
      List.Forall₂ (fun s' s => s'.block = s.block ∧
          ∀ k, k ∈ s'.visible ∧ IsNeeded e.root.usedNamespaces k ↔
            k ∈ s.visible ∧ IsNeeded gallery.root.usedNamespaces k)
        e.root.scopes gallery.root.scopes := by
  have hids : gallery.root.nodeIds.Nodup := by decide +kernel
  exact ⟨hids, by decide +kernel, removeUsings_keeps_scopes _ gallery hids⟩

end Unweave

import Mathlib.Data.List.Dedup
import Unweave.Proofs.WalkClosure

/-!
# Each declaration is entered once

A walk changes its state in two ways only: it puts a declaration on the stack, or it takes the
topmost one off and writes its answer down.  `Runs` is the recursion of a walk as a relation, with
the list of these moves and without a bound on the depth, so a walk that is related to an outcome
has come to an end.

A declaration is known once it is open or answered.  Only what is not known is entered, and what is
known stays known, since a declaration leaves the stack by being answered.  So in any run of queries
on one walker no declaration is entered twice, and the number of those that are not known bounds how
deep the walk still goes.
-/

namespace Unweave

/-- The identifiers of the catalogue, one for each entry. -/
def Catalogue.ids (c : Catalogue) : List NodeId := c.entries.map Entry.id

namespace Walk

open Catalogue

/-! ## Moves -/

/-- What a walk does to its state: a declaration is put on the stack, or the topmost one leaves it
with an answer. -/
inductive Move where
  | enter (id : NodeId)
  | answer (id : NodeId) (deps : TypeSet)

def Move.entered : Move → Option NodeId
  | enter id => some id
  | answer .. => none

def Move.answered : Move → Option NodeId
  | enter _ => none
  | answer id _ => some id

namespace State

def apply (s : State) : Move → State
  | .enter id => ⟨s.cache, id :: s.stack⟩
  | .answer id deps => ⟨(id, deps) :: s.cache, s.stack.tail⟩

def play (s : State) (moves : List Move) : State := moves.foldl apply s

/-- The declarations that are answered. -/
def answered (s : State) : List NodeId := s.cache.map Prod.fst

/-- The declarations that are open or answered. -/
def known (s : State) : List NodeId := s.stack ++ s.answered

/-- A declaration of the catalogue may be entered if it is not known, and the topmost one may be
answered. -/
def Allows (c : Catalogue) (s : State) : Move → Prop
  | .enter id => id ∈ c.ids ∧ id ∉ s.known
  | .answer id _ => s.stack.head? = some id

/-- Each of the moves is allowed where its turn comes. -/
def AllowsAll (c : Catalogue) : State → List Move → Prop
  | _, [] => True
  | s, m :: ms => s.Allows c m ∧ AllowsAll c (s.apply m) ms

/-- No declaration is known twice, and all that are known are of the catalogue. -/
structure Orderly (c : Catalogue) (s : State) : Prop where
  nodup : s.known.Nodup
  listed : s.known ⊆ c.ids

theorem play_append (s : State) (ms ns : List Move) :
    s.play (ms ++ ns) = (s.play ms).play ns := List.foldl_append

variable {c : Catalogue} {s : State} {m : Move} {moves : List Move}

theorem allowsAll_append {ms ns : List Move} :
    s.AllowsAll c (ms ++ ns) ↔ s.AllowsAll c ms ∧ (s.play ms).AllowsAll c ns := by
  induction ms generalizing s with
  | nil =>
    rw [List.nil_append, AllowsAll, true_and]
    rfl
  | cons m ms ih =>
    rw [List.cons_append, AllowsAll, AllowsAll, ih, and_assoc]
    rfl

/-- A move makes known what it enters and forgets nothing. -/
theorem known_apply_perm (h : s.Allows c m) :
    (s.apply m).known.Perm (m.entered.toList ++ s.known) := by
  cases m with
  | enter id => exact List.Perm.refl _
  | answer id deps =>
    obtain ⟨rest, hstack⟩ := List.head?_eq_some_iff.mp h
    show (s.stack.tail ++ id :: s.answered).Perm (s.stack ++ s.answered)
    rw [hstack]
    exact List.perm_middle

theorem Orderly.apply (hs : s.Orderly c) (h : s.Allows c m) : (s.apply m).Orderly c := by
  have hperm := known_apply_perm h
  cases m with
  | enter id =>
    exact ⟨hperm.nodup_iff.mpr (List.nodup_cons.mpr ⟨h.2, hs.nodup⟩),
      fun x hx => (List.mem_cons.mp (hperm.mem_iff.mp hx)).elim (· ▸ h.1) (@hs.listed x)⟩
  | answer id deps =>
    exact ⟨hperm.nodup_iff.mpr hs.nodup, fun x hx => hs.listed (hperm.mem_iff.mp hx)⟩

/-- What is known after some moves was known before or was entered by one of them. -/
theorem known_play_perm (h : s.AllowsAll c moves) :
    (s.play moves).known.Perm (moves.filterMap Move.entered ++ s.known) := by
  induction moves generalizing s with
  | nil => exact List.Perm.refl _
  | cons m ms ih =>
    have hhead : (m :: ms).filterMap Move.entered =
        m.entered.toList ++ ms.filterMap Move.entered := by
      cases m <;> rfl
    have hfirst := (known_apply_perm h.1).append_left (ms.filterMap Move.entered)
    refine ((ih h.2).trans hfirst).trans ?_
    rw [hhead, ← List.append_assoc]
    exact List.perm_append_comm.append_right _

theorem Orderly.play (hs : s.Orderly c) (h : s.AllowsAll c moves) : (s.play moves).Orderly c := by
  induction moves generalizing s with
  | nil => exact hs
  | cons m ms ih => exact ih (hs.apply h.1) h.2

theorem answered_play (s : State) (moves : List Move) :
    (s.play moves).answered = (moves.filterMap Move.answered).reverse ++ s.answered := by
  induction moves generalizing s with
  | nil => rfl
  | cons m ms ih =>
    have hplay : s.play (m :: ms) = (s.apply m).play ms := rfl
    rw [hplay, ih]
    cases m with
    | enter id => rfl
    | answer id deps =>
      rw [List.filterMap_cons_some (show (Move.answer id deps).answered = some id from rfl),
        List.reverse_cons, List.append_assoc]
      rfl

/-- No declaration is entered or answered twice. -/
theorem Orderly.nodup_moves (hs : s.Orderly c) (h : s.AllowsAll c moves) :
    (moves.filterMap Move.entered).Nodup ∧ (moves.filterMap Move.answered).Nodup := by
  have hknown := (hs.play h).nodup
  refine ⟨((known_play_perm h).nodup_iff.mp hknown).of_append_left, List.nodup_reverse.mp ?_⟩
  have hanswered : (s.play moves).answered.Nodup := hknown.of_append_right
  rw [answered_play] at hanswered
  exact hanswered.of_append_left

theorem Orderly.stack_nodup (hs : s.Orderly c) : s.stack.Nodup := hs.nodup.of_append_left

/-- The stack is no higher than there are identifiers. -/
theorem Orderly.stack_length_le (hs : s.Orderly c) : s.stack.length ≤ c.ids.dedup.length :=
  (hs.stack_nodup.subperm fun _ hid =>
    c.ids.subset_dedup (hs.listed (List.mem_append_left _ hid))).length_le

theorem mem_answered_iff (s : State) (id : NodeId) :
    id ∈ s.answered ↔ (s.cache.lookup id).isSome = true := by
  rw [List.lookup_isSome_iff, answered, List.mem_map]
  simp only [beq_iff_eq, eq_comm (a := id)]

theorem not_mem_known_of_fresh {id : NodeId} (hcache : s.cache.lookup id = none)
    (hheight : heightOf id s.stack = none) : id ∉ s.known := by
  refine fun hknown => (List.mem_append.mp hknown).elim ((heightOf_eq_none_iff id _).mp hheight) ?_
  rw [mem_answered_iff, hcache]
  exact Bool.false_ne_true

end State

/-! ## Walks as moves -/

/-- The moves by which everything on a stack down to `id` is answered. -/
def settling (id : NodeId) (deps : TypeSet) : List NodeId → List Move
  | [] => []
  | x :: xs => .answer x deps :: if x = id then [] else settling id deps xs

/-- The moves with which a walk leaves a declaration: none if it stays open. -/
def leaving (d : Declaration) (height : Nat) (r : (TypeSet × Nat) × State) : List Move :=
  if r.1.2 < height then [] else settling d.id r.1.1 r.2.stack

variable {c : Catalogue}

mutual

/-- A walk of a declaration from a state makes some moves and comes to an outcome. -/
inductive Runs (c : Catalogue) :
    Declaration → State → List Move → (TypeSet × Option Nat) × State → Prop
  | answered {d : Declaration} {s : State} {deps : TypeSet} :
      s.cache.lookup d.id = some deps → Runs c d s [] ((deps, none), s)
  | met {d : Declaration} {s : State} {height : Nat} :
      s.cache.lookup d.id = none → heightOf d.id s.stack = some height →
      Runs c d s [] ((.empty, some height), s)
  | fresh {d : Declaration} {s : State} {moves : List Move} {r : (TypeSet × Nat) × State} :
      s.cache.lookup d.id = none → heightOf d.id s.stack = none →
      RunsAll c (targets c d) ((TypeSet.ofSymbols d.symbols, s.stack.length),
        s.apply (.enter d.id)) moves r →
      Runs c d s (.enter d.id :: (moves ++ leaving d s.stack.length r)) (leave d s.stack.length r)

/-- The targets are walked one after the other. -/
inductive RunsAll (c : Catalogue) :
    List Declaration → (TypeSet × Nat) × State → List Move → (TypeSet × Nat) × State → Prop
  | nil {r : (TypeSet × Nat) × State} : RunsAll c [] r [] r
  | cons {t : Declaration} {ts : List Declaration} {r r' : (TypeSet × Nat) × State}
      {w : (TypeSet × Option Nat) × State} {first rest : List Move} :
      Runs c t r.2 first w → RunsAll c ts (absorb r w) rest r' →
      RunsAll c (t :: ts) r (first ++ rest) r'

end

/-- A walk has one outcome and one list of moves. -/
theorem Runs.unique {d : Declaration} {s : State} {moves moves' : List Move}
    {r r' : (TypeSet × Option Nat) × State} (h : Runs c d s moves r) (h' : Runs c d s moves' r') :
    moves = moves' ∧ r = r' := by
  refine @Runs.rec c
    (fun d s moves r _ => ∀ moves' r', Runs c d s moves' r' → moves = moves' ∧ r = r')
    (fun ts r moves r₁ _ => ∀ moves' r₂, RunsAll c ts r moves' r₂ → moves = moves' ∧ r₁ = r₂)
    ?answered ?met ?fresh ?nil ?cons d s moves r h moves' r' h'
  case answered =>
    intro d s deps hcache moves' r' h'
    cases h' with
    | answered hcache' =>
      rw [hcache, Option.some.injEq] at hcache'
      rw [hcache']
      exact ⟨rfl, rfl⟩
    | met hcache' _ => rw [hcache] at hcache'; cases hcache'
    | fresh hcache' _ _ => rw [hcache] at hcache'; cases hcache'
  case met =>
    intro d s height hcache hheight moves' r' h'
    cases h' with
    | answered hcache' => rw [hcache] at hcache'; cases hcache'
    | met _ hheight' =>
      rw [hheight, Option.some.injEq] at hheight'
      rw [hheight']
      exact ⟨rfl, rfl⟩
    | fresh _ hheight' _ => rw [hheight] at hheight'; cases hheight'
  case fresh =>
    intro d s moves r hcache hheight _ ih moves' r' h'
    cases h' with
    | answered hcache' => rw [hcache] at hcache'; cases hcache'
    | met _ hheight' => rw [hheight] at hheight'; cases hheight'
    | fresh _ _ hall' =>
      obtain ⟨hmoves, hr⟩ := ih _ _ hall'
      rw [hmoves, hr]
      exact ⟨rfl, rfl⟩
  case nil =>
    intro r moves' r₂ h'
    cases h'
    exact ⟨rfl, rfl⟩
  case cons =>
    intro t ts r r₁ w first rest _ _ ihFirst ihRest moves' r₂ h'
    cases h' with
    | cons hfirst' hrest' =>
      obtain ⟨hmoves, hw⟩ := ihFirst _ _ hfirst'
      rw [← hw] at hrest'
      obtain ⟨hmoves', hr⟩ := ihRest _ _ hrest'
      rw [hmoves, hmoves', hr]
      exact ⟨rfl, rfl⟩

/-! ## What a run of a walk does -/

/-- The moves are allowed, lead from the first state to the second, and leave alone what was on the
stack. -/
structure Leads (c : Catalogue) (s : State) (moves : List Move) (s' : State) : Prop where
  allowed : s.AllowsAll c moves
  play_eq : s.play moves = s'
  stack_suffix : s.stack <:+ s'.stack

namespace Leads

variable {s s' s'' : State} {ms ns : List Move}

theorem refl (s : State) : Leads c s [] s := ⟨trivial, rfl, List.suffix_refl _⟩

theorem trans (h : Leads c s ms s') (h' : Leads c s' ns s'') : Leads c s (ms ++ ns) s'' where
  allowed := State.allowsAll_append.mpr ⟨h.allowed, h.play_eq.symm ▸ h'.allowed⟩
  play_eq := by rw [State.play_append, h.play_eq, h'.play_eq]
  stack_suffix := h.stack_suffix.trans h'.stack_suffix

theorem orderly (h : Leads c s ms s') (hs : s.Orderly c) : s'.Orderly c :=
  h.play_eq ▸ hs.play h.allowed

theorem known_perm (h : Leads c s ms s') :
    s'.known.Perm (ms.filterMap Move.entered ++ s.known) :=
  h.play_eq ▸ State.known_play_perm h.allowed

theorem known_subset (h : Leads c s ms s') : s.known ⊆ s'.known := fun _ hid =>
  h.known_perm.mem_iff.mpr (List.mem_append_right _ hid)

end Leads

theorem play_settling (id : NodeId) (deps : TypeSet) (cache : List (NodeId × TypeSet))
    (stack : List NodeId) :
    State.play ⟨cache, stack⟩ (settling id deps stack) = settle id deps cache stack := by
  induction stack generalizing cache with
  | nil => rfl
  | cons x xs ih =>
    rw [settling, settle]
    by_cases hx : x = id
    · rw [if_pos hx, if_pos hx]
      rfl
    · rw [if_neg hx, if_neg hx]
      exact ih _

theorem allowsAll_settling (id : NodeId) (deps : TypeSet) (cache : List (NodeId × TypeSet))
    (stack : List NodeId) : State.AllowsAll c ⟨cache, stack⟩ (settling id deps stack) := by
  induction stack generalizing cache with
  | nil => trivial
  | cons x xs ih =>
    refine ⟨rfl, ?_⟩
    by_cases hx : x = id
    · rw [if_pos hx]
      trivial
    · rw [if_neg hx]
      exact ih _

theorem play_leaving (d : Declaration) (height : Nat) (r : (TypeSet × Nat) × State) :
    r.2.play (leaving d height r) = (leave d height r).2 := by
  rw [leaving, leave]
  by_cases hlow : r.1.2 < height
  · rw [if_pos hlow, if_pos hlow]
    rfl
  · rw [if_neg hlow, if_neg hlow]
    exact play_settling _ _ _ _

theorem allowsAll_leaving (d : Declaration) (height : Nat) (r : (TypeSet × Nat) × State) :
    r.2.AllowsAll c (leaving d height r) := by
  rw [leaving]
  by_cases hlow : r.1.2 < height
  · rw [if_pos hlow]
    trivial
  · rw [if_neg hlow]
    exact allowsAll_settling _ _ _ _

/-- Settling a declaration takes it off the stack with all that is above it. -/
theorem stack_settle {id : NodeId} {stack xs : List NodeId} (hnodup : xs.Nodup)
    (hsuffix : id :: stack <:+ xs) (deps : TypeSet) (cache : List (NodeId × TypeSet)) :
    (settle id deps cache xs).stack = stack := by
  obtain ⟨new, rfl⟩ := hsuffix
  have hid : id ∉ new := fun hmem =>
    (List.nodup_append.mp hnodup).2.2 id hmem id List.mem_cons_self rfl
  rw [settle_append hid]

theorem stack_suffix_leave {d : Declaration} {s : State} {r : (TypeSet × Nat) × State}
    (hnodup : r.2.stack.Nodup) (hsuffix : d.id :: s.stack <:+ r.2.stack) :
    s.stack <:+ (leave d s.stack.length r).2.stack := by
  rw [leave]
  by_cases hlow : r.1.2 < s.stack.length
  · rw [if_pos hlow]
    exact (List.suffix_cons _ _).trans hsuffix
  · rw [if_neg hlow]
    exact (stack_settle hnodup hsuffix _ _).symm ▸ List.suffix_refl _

theorem mem_ids_of_mem_targets {d t : Declaration} (h : t ∈ targets c d) : t.id ∈ c.ids :=
  ((mem_targets_iff c d t).mp h).lists.mem_ids

/-- A walk of a fresh declaration leads from entering it, through its targets, to leaving it. -/
theorem leads_fresh {d : Declaration} {s : State} {moves : List Move}
    {r : (TypeSet × Nat) × State} (hs : s.Orderly c) (hd : d.id ∈ c.ids) (hknown : d.id ∉ s.known)
    (hall : (s.apply (.enter d.id)).Orderly c → Leads c (s.apply (.enter d.id)) moves r.2) :
    Leads c s (.enter d.id :: (moves ++ leaving d s.stack.length r))
      (leave d s.stack.length r).2 := by
  have hallows : s.Allows c (.enter d.id) := ⟨hd, hknown⟩
  have hinner := hall (hs.apply hallows)
  have hr := hinner.orderly (hs.apply hallows)
  refine ⟨⟨hallows, State.allowsAll_append.mpr ⟨hinner.allowed, ?_⟩⟩, ?_, ?_⟩
  · rw [hinner.play_eq]
    exact allowsAll_leaving _ _ _
  · show State.play (s.apply (.enter d.id)) _ = _
    rw [State.play_append, hinner.play_eq, play_leaving]
  · exact stack_suffix_leave hr.stack_nodup hinner.stack_suffix

/-- Walks make allowed moves only. -/
theorem RunsAll.leads {ts : List Declaration} {r r' : (TypeSet × Nat) × State} {moves : List Move}
    (h : RunsAll c ts r moves r') (hr : r.2.Orderly c) (hts : ∀ t ∈ ts, t.id ∈ c.ids) :
    Leads c r.2 moves r'.2 := by
  refine @RunsAll.rec c
    (fun d s moves w _ => s.Orderly c → d.id ∈ c.ids → Leads c s moves w.2)
    (fun ts r moves r' _ => r.2.Orderly c → (∀ t ∈ ts, t.id ∈ c.ids) → Leads c r.2 moves r'.2)
    ?answered ?met ?fresh ?nil ?cons ts r moves r' h hr hts
  case answered => exact fun _ _ _ => .refl _
  case met => exact fun _ _ _ _ => .refl _
  case fresh =>
    intro d s moves r hcache hheight _ ih hs hd
    exact leads_fresh hs hd (State.not_mem_known_of_fresh hcache hheight)
      fun hs' => ih hs' fun t ht => mem_ids_of_mem_targets ht
  case nil => exact fun _ _ => .refl _
  case cons =>
    intro t ts r r' w first rest _ _ ihFirst ihRest hr hts
    have hfirst := ihFirst hr (hts t List.mem_cons_self)
    exact hfirst.trans
      (ihRest (hfirst.orderly hr) fun t ht => hts t (List.mem_cons_of_mem _ ht))

theorem Runs.leads {d : Declaration} {s : State} {moves : List Move}
    {w : (TypeSet × Option Nat) × State} (h : Runs c d s moves w) (hs : s.Orderly c)
    (hd : d.id ∈ c.ids) : Leads c s moves w.2 := by
  have hall : RunsAll c [d] ((.empty, 0), s) (moves ++ []) (absorb ((.empty, 0), s) w) :=
    .cons h .nil
  rw [List.append_nil] at hall
  exact hall.leads hs fun t ht => List.mem_singleton.mp ht ▸ hd

/-- The declaration that was walked is known afterwards. -/
theorem Runs.mem_known {d : Declaration} {s : State} {moves : List Move}
    {r : (TypeSet × Option Nat) × State} (h : Runs c d s moves r) (hs : s.Orderly c)
    (hd : d.id ∈ c.ids) : d.id ∈ r.2.known := by
  have hleads := h.leads hs hd
  cases h with
  | answered hcache =>
    refine List.mem_append_right _ ((State.mem_answered_iff _ _).mpr ?_)
    rw [hcache]
    rfl
  | met _ hheight =>
    refine List.mem_append_left _ (by_contra fun hnot => ?_)
    rw [(heightOf_eq_none_iff _ _).mpr hnot] at hheight
    cases hheight
  | fresh =>
    exact hleads.known_perm.mem_iff.mpr (List.mem_append_left _ List.mem_cons_self)

/-- A walk that begins with nothing open leaves nothing open. -/
theorem Runs.stack_eq_nil {d : Declaration} {s : State} {moves : List Move}
    {r : (TypeSet × Option Nat) × State} (h : Runs c d s moves r) (hempty : s.stack = [])
    (hs : s.Orderly c) (hd : d.id ∈ c.ids) : r.2.stack = [] := by
  cases h with
  | answered => exact hempty
  | met => exact hempty
  | fresh hcache hheight hall =>
    have hallows : s.Allows c (.enter d.id) := ⟨hd, State.not_mem_known_of_fresh hcache hheight⟩
    have hinner := hall.leads (hs.apply hallows) fun t ht => mem_ids_of_mem_targets ht
    have hnodup := (hinner.orderly (hs.apply hallows)).stack_nodup
    -- No place is lower than the bottom of the stack, so the declaration is answered.
    rw [leave, hempty, List.length_nil, if_neg (Nat.not_lt_zero _), ← hempty]
    exact stack_settle hnodup hinner.stack_suffix _ _

/-! ## Walks come to an end -/

/-- A turn of the loop is a run if the walk in it is one, and leaves room for the next. -/
theorem exists_runsAll {fuel : Nat}
    (hwalk : ∀ (t : Declaration) (s : State), s.Orderly c → t.id ∈ c.ids →
      c.ids.length < fuel + s.stack.length → ∃ moves, Runs c t s moves (walk c fuel t s))
    (ts : List Declaration) (hts : ∀ t ∈ ts, t.id ∈ c.ids) (r : (TypeSet × Nat) × State)
    (hr : r.2.Orderly c) (hroom : c.ids.length < fuel + r.2.stack.length) :
    ∃ moves, RunsAll c ts r moves (ts.foldl (visit c fuel) r) := by
  induction ts generalizing r with
  | nil => exact ⟨[], .nil⟩
  | cons t ts ih =>
    have ht := hts t List.mem_cons_self
    obtain ⟨first, hfirst⟩ := hwalk t r.2 hr ht hroom
    have hleads := hfirst.leads hr ht
    have hlength := hleads.stack_suffix.length_le
    obtain ⟨rest, hrest⟩ := ih (fun t ht => hts t (List.mem_cons_of_mem _ ht)) (visit c fuel r t)
      (hleads.orderly hr) (Nat.lt_of_lt_of_le hroom (Nat.add_le_add_left hlength fuel))
    exact ⟨first ++ rest, .cons hfirst hrest⟩

/-- The fuel of a walk never runs out: what it computes is the outcome of a run. -/
theorem exists_runs (fuel : Nat) (d : Declaration) (s : State) (hs : s.Orderly c)
    (hd : d.id ∈ c.ids) (hroom : c.ids.length < fuel + s.stack.length) :
    ∃ moves, Runs c d s moves (walk c fuel d s) := by
  induction fuel generalizing d s with
  | zero =>
    have hle := hs.stack_length_le.trans (List.dedup_sublist c.ids).length_le
    omega
  | succ fuel ih =>
    cases hcache : s.cache.lookup d.id with
    | some deps =>
      rw [walk_cached hcache]
      exact ⟨[], .answered hcache⟩
    | none =>
      cases hheight : heightOf d.id s.stack with
      | some height =>
        rw [walk_open hcache hheight]
        exact ⟨[], .met hcache hheight⟩
      | none =>
        have hallows : s.Allows c (.enter d.id) :=
          ⟨hd, State.not_mem_known_of_fresh hcache hheight⟩
        have hroom' : c.ids.length < fuel + (s.apply (.enter d.id)).stack.length := by
          rw [State.apply, List.length_cons]
          omega
        obtain ⟨moves, hall⟩ := exists_runsAll ih (targets c d)
          (fun t ht => mem_ids_of_mem_targets ht)
          ((TypeSet.ofSymbols d.symbols, s.stack.length), s.apply (.enter d.id))
          (hs.apply hallows) hroom'
        rw [walk_fresh hcache hheight]
        exact ⟨_, .fresh hcache hheight hall⟩

end Walk

/-! ## Runs of queries -/

namespace Walker

open Walk

/-- Queries are answered one after the other, each with its own moves. -/
inductive Serves : Walker → List Entry → List (List Move) → List (Entry × TypeSet) × Walker → Prop
  | nil {w : Walker} : Serves w [] [] ([], w)
  | cons {w w' : Walker} {e : Entry} {es : List Entry} {moves : List Move}
      {logs : List (List Move)} {deps : TypeSet} {low : Option Nat} {s : State}
      {answers : List (Entry × TypeSet)} :
      Runs w.catalogue e.declaration ⟨w.cache, []⟩ moves ((deps, low), s) →
      Serves { w with cache := s.cache } es logs (answers, w') →
      Serves w (e :: es) (moves :: logs) ((e, deps) :: answers, w')

variable {w : Walker} {queries : List Entry} {logs : List (List Move)}
  {r : List (Entry × TypeSet) × Walker}

theorem Serves.unique {logs' : List (List Move)} {r' : List (Entry × TypeSet) × Walker}
    (h : Serves w queries logs r) (h' : Serves w queries logs' r') : logs = logs' ∧ r = r' := by
  induction h generalizing logs' r' with
  | nil =>
    cases h'
    exact ⟨rfl, rfl⟩
  | cons hrun _ ih =>
    cases h' with
    | cons hrun' hrest' =>
      obtain ⟨rfl, hout⟩ := hrun.unique hrun'
      cases hout
      obtain ⟨rfl, hrest⟩ := ih hrest'
      cases hrest
      exact ⟨rfl, rfl⟩

/-- A query leads from one state with nothing open to another. -/
theorem leads_query {d : Declaration} {moves : List Move} {deps : TypeSet} {low : Option Nat}
    {s : State} (hrun : Runs w.catalogue d ⟨w.cache, []⟩ moves ((deps, low), s))
    (hw : State.Orderly w.catalogue ⟨w.cache, []⟩) (hd : d.id ∈ w.catalogue.ids) :
    Leads w.catalogue ⟨w.cache, []⟩ moves ⟨s.cache, []⟩ := by
  have hstack : s.stack = [] := hrun.stack_eq_nil rfl hw hd
  have hleads := hrun.leads hw hd
  exact ⟨hleads.allowed, hleads.play_eq.trans (hstack ▸ rfl), List.nil_suffix⟩

theorem Serves.leads (h : Serves w queries logs r) (hw : State.Orderly w.catalogue ⟨w.cache, []⟩)
    (hqueries : ∀ e ∈ queries, e.id ∈ w.catalogue.ids) :
    Leads w.catalogue ⟨w.cache, []⟩ logs.flatten ⟨r.2.cache, []⟩ := by
  induction h with
  | nil => exact .refl _
  | cons hrun _ ih =>
    have hfirst := leads_query hrun hw (hqueries _ List.mem_cons_self)
    exact hfirst.trans
      (ih (hfirst.orderly hw) fun e he => hqueries e (List.mem_cons_of_mem _ he))

/-- What was asked for is known afterwards. -/
theorem Serves.mem_known (h : Serves w queries logs r)
    (hw : State.Orderly w.catalogue ⟨w.cache, []⟩)
    (hqueries : ∀ e ∈ queries, e.id ∈ w.catalogue.ids) :
    ∀ e ∈ queries, e.id ∈ State.known ⟨r.2.cache, []⟩ := by
  induction h with
  | nil => exact fun e he => nomatch he
  | @cons w w' e es moves logs deps low s answers hrun hrest ih =>
    have hd := hqueries e List.mem_cons_self
    have hes : ∀ e ∈ es, e.id ∈ w.catalogue.ids :=
      fun e he => hqueries e (List.mem_cons_of_mem _ he)
    have hfirst := leads_query hrun hw hd
    have hstack : s.stack = [] := hrun.stack_eq_nil rfl hw hd
    intro e' he'
    rcases List.mem_cons.mp he' with rfl | he'
    · have hknown : e'.id ∈ State.known s := hrun.mem_known hw hd
      rw [State.known, hstack] at hknown
      exact (hrest.leads (hfirst.orderly hw) hes).known_subset hknown
    · exact ih (hfirst.orderly hw) hes e' he'

theorem Serves.take (h : Serves w queries logs r) (n : Nat) :
    ∃ r', Serves w (queries.take n) (logs.take n) r' := by
  induction h generalizing n with
  | nil => exact ⟨_, by simpa using Serves.nil⟩
  | cons hrun _ ih =>
    cases n with
    | zero => exact ⟨_, .nil⟩
    | succ n =>
      obtain ⟨⟨answers, w'⟩, hrest⟩ := ih n
      exact ⟨_, .cons hrun hrest⟩

/-- Every query comes to an end. -/
theorem exists_serves (w : Walker) (hw : State.Orderly w.catalogue ⟨w.cache, []⟩)
    (queries : List Entry) (hqueries : ∀ e ∈ queries, e.id ∈ w.catalogue.ids) :
    ∃ logs, Serves w queries logs (w.answerAll queries) := by
  induction queries generalizing w with
  | nil => exact ⟨[], .nil⟩
  | cons e es ih =>
    have hd := hqueries e List.mem_cons_self
    have hroom : w.catalogue.ids.length <
        w.catalogue.entries.length + 1 + ([] : List NodeId).length := by
      rw [Catalogue.ids, List.length_map]
      exact Nat.lt_succ_self _
    obtain ⟨moves, hrun⟩ := exists_runs _ e.declaration ⟨w.cache, []⟩ hw hd hroom
    obtain ⟨logs, hrest⟩ := ih (w.dependencies e.declaration).2
      ((leads_query hrun hw hd).orderly hw) fun e he => hqueries e (List.mem_cons_of_mem _ he)
    exact ⟨moves :: logs, .cons hrun hrest⟩

theorem orderly_ofProject (p : Project) :
    State.Orderly (ofProject p).catalogue ⟨(ofProject p).cache, []⟩ :=
  ⟨List.nodup_nil, fun _ h => nomatch h⟩

theorem isCached_iff (w : Walker) (id : NodeId) :
    w.isCached id = true ↔ id ∈ State.known ⟨w.cache, []⟩ :=
  (State.mem_answered_iff ⟨w.cache, []⟩ id).symm

/-- Any queries on one walker come to an end, with one list of moves for each, whichever bearers of
identifiers of the catalogue they are about.  In all of them together no declaration is entered
twice and none is answered twice.  At every moment the stack has no declaration twice and is no
higher than there are identifiers in the catalogue.  After each query nothing is open, and all that
was asked for or entered so far is cached. -/
theorem answerAll_enters_once (p : Project) (queries : List Entry)
    (hqueries : ∀ e ∈ queries, e.id ∈ (Catalogue.ofProject p).ids) :
    ∃ logs : List (List Move),
      (∀ logs' r, Serves (ofProject p) queries logs' r ↔
        logs' = logs ∧ r = (ofProject p).answerAll queries) ∧
      (logs.flatten.filterMap Move.entered).Nodup ∧
      (logs.flatten.filterMap Move.answered).Nodup ∧
      (∀ moves, moves <+: logs.flatten →
        (State.play {} moves).stack.Nodup ∧
        (State.play {} moves).stack.length ≤ (Catalogue.ofProject p).ids.dedup.length) ∧
      ∀ n, State.play {} (logs.take n).flatten =
          ⟨((ofProject p).answerAll (queries.take n)).2.cache, []⟩ ∧
        (∀ e ∈ queries.take n, ((ofProject p).answerAll (queries.take n)).2.isCached e.id) ∧
        ∀ id ∈ (logs.take n).flatten.filterMap Move.entered,
          ((ofProject p).answerAll (queries.take n)).2.isCached id := by
  have hw := orderly_ofProject p
  obtain ⟨logs, h⟩ := exists_serves (ofProject p) hw queries hqueries
  have hleads := h.leads hw hqueries
  obtain ⟨hentered, hanswered⟩ := hw.nodup_moves hleads.allowed
  refine ⟨logs, fun logs' r => ⟨fun h' => ?_, ?_⟩, hentered, hanswered, ?_, fun n => ?_⟩
  · exact h'.unique h
  · rintro ⟨rfl, rfl⟩
    exact h
  · rintro moves ⟨rest, hmoves⟩
    have hallowed := hleads.allowed
    rw [← hmoves, State.allowsAll_append] at hallowed
    have horderly := hw.play hallowed.1
    exact ⟨horderly.stack_nodup, horderly.stack_length_le⟩
  · have htake : ∀ e ∈ queries.take n, e.id ∈ (Catalogue.ofProject p).ids :=
      fun e he => hqueries e (List.mem_of_mem_take he)
    obtain ⟨r, hn⟩ := h.take n
    obtain ⟨logsN, hanswers⟩ := exists_serves (ofProject p) hw (queries.take n) htake
    rw [(hn.unique hanswers).2] at hn
    have hleadsN := hn.leads hw htake
    refine ⟨hleadsN.play_eq, fun e he => ?_, fun id hid => ?_⟩
    · exact (isCached_iff _ _).mpr (hn.mem_known hw htake e he)
    · exact (isCached_iff _ _).mpr (hleadsN.known_perm.mem_iff.mpr (List.mem_append_left _ hid))

/-- Every declaration of the two cycles is asked for twice, the innermost first. -/
def ringQueries : List Entry :=
  (Catalogue.ofProject ring).declarations.reverse ++ (Catalogue.ofProject ring).declarations

theorem answerAll_enters_once_ring :
    (∀ e ∈ ringQueries, e.id ∈ (Catalogue.ofProject ring).ids) ∧
    ((ofProject ring).answerAll ringQueries).2.cache.map Prod.fst = [⟨1⟩, ⟨4⟩, ⟨3⟩, ⟨2⟩] ∧
    ∃ logs, Serves (ofProject ring) ringQueries logs ((ofProject ring).answerAll ringQueries) ∧
      (logs.flatten.filterMap Move.entered).Nodup ∧
      (logs.flatten.filterMap Move.answered).Nodup ∧
      (∀ moves, moves <+: logs.flatten →
        (State.play {} moves).stack.Nodup ∧ (State.play {} moves).stack.length ≤ 4) ∧
      ∀ id ∈ (logs.take 1).flatten.filterMap Move.entered,
        ((ofProject ring).answerAll (ringQueries.take 1)).2.isCached id := by
  have hids : ∀ e ∈ ringQueries, e.id ∈ (Catalogue.ofProject ring).ids := by decide +kernel
  obtain ⟨logs, hserves, hentered, hanswered, hstack, hcached⟩ :=
    answerAll_enters_once ring ringQueries hids
  exact ⟨hids, by decide +kernel, logs, (hserves _ _).mpr ⟨rfl, rfl⟩, hentered, hanswered, hstack,
    (hcached 1).2.2⟩

end Walker
end Unweave

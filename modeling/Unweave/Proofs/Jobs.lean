import Mathlib.Data.List.Forall2
import Unweave.Workbench

/-!
# Sequencing computations that may fail

A sequence succeeds exactly if its parts do, each from where the one before left off.
-/

namespace Unweave

theorem exceptBind_eq_ok_iff {ε α β : Type} (x : Except ε α) (f : α → Except ε β) (b : β) :
    (x >>= f) = .ok b ↔ ∃ a, x = .ok a ∧ f a = .ok b := by
  cases x with
  | error e => exact ⟨fun h => (nomatch h), fun ⟨_, h, _⟩ => (nomatch h)⟩
  | ok a => exact ⟨fun h => ⟨a, rfl, h⟩, fun ⟨_, h, hf⟩ => by cases h; exact hf⟩

/-- Every outcome of a list of computations is that of one of them. -/
theorem exists_of_mem_mapM {α β ε : Type} {f : α → Except ε β} {as : List α} {bs : List β}
    (h : as.mapM f = .ok bs) : ∀ b ∈ bs, ∃ a ∈ as, f a = .ok b := by
  induction as generalizing bs with
  | nil =>
    cases h
    exact fun _ h => nomatch h
  | cons a as ih =>
    rw [List.mapM_cons] at h
    obtain ⟨b, hb, h⟩ := (exceptBind_eq_ok_iff _ _ _).mp h
    obtain ⟨bs', hbs', h⟩ := (exceptBind_eq_ok_iff _ _ _).mp h
    cases h
    refine List.forall_mem_cons.mpr ⟨⟨a, List.mem_cons_self, hb⟩, fun b' hb' => ?_⟩
    obtain ⟨a', ha', hf⟩ := ih hbs' b' hb'
    exact ⟨a', List.mem_cons_of_mem _ ha', hf⟩

/-- A list of computations that succeed succeeds. -/
theorem exists_mapM_of_forall {α β ε : Type} {f : α → Except ε β} {as : List α}
    (h : ∀ a ∈ as, ∃ b, f a = .ok b) : ∃ bs, as.mapM f = .ok bs := by
  induction as with
  | nil => exact ⟨[], rfl⟩
  | cons a as ih =>
    obtain ⟨⟨b, hb⟩, hrest⟩ := List.forall_mem_cons.mp h
    obtain ⟨bs, hbs⟩ := ih hrest
    rw [List.mapM_cons, hb, hbs]
    exact ⟨b :: bs, rfl⟩

/-- The outcomes of a list of computations are theirs, in order. -/
theorem forall₂_of_mapM {α β ε : Type} {f : α → Except ε β} {as : List α} {bs : List β}
    (h : as.mapM f = .ok bs) : List.Forall₂ (fun a b => f a = .ok b) as bs := by
  induction as generalizing bs with
  | nil =>
    cases h
    exact .nil
  | cons a as ih =>
    rw [List.mapM_cons] at h
    obtain ⟨b, hb, h⟩ := (exceptBind_eq_ok_iff _ _ _).mp h
    obtain ⟨bs', hbs', h⟩ := (exceptBind_eq_ok_iff _ _ _).mp h
    cases h
    exact .cons hb (ih hbs')

theorem exists_of_mapM {α β ε : Type} {f : α → Except ε β} {as : List α} {bs : List β}
    (h : as.mapM f = .ok bs) : ∀ a ∈ as, ∃ b, f a = .ok b := by
  have hall := forall₂_of_mapM h
  clear h
  induction hall with
  | nil => exact nofun
  | cons hb _ ih => exact List.forall_mem_cons.mpr ⟨⟨_, hb⟩, ih⟩

/-- The first computation that fails decides. -/
theorem mapM_eq_error {α β ε : Type} {f : α → Except ε β} {as bs : List α} {a : α} {e : ε}
    (has : ∀ a ∈ as, ∃ b, f a = .ok b) (ha : f a = .error e) :
    (as ++ a :: bs).mapM f = .error e := by
  obtain ⟨cs, hcs⟩ := exists_mapM_of_forall has
  rw [List.mapM_append, hcs, List.mapM_cons, ha]
  rfl

namespace Job

variable {σ α β : Type}

theorem bind_apply (x : Job σ α) (f : α → Job σ β) (s : σ) :
    (x >>= f) s =
      match x s with
      | (.ok a, s') => f a s'
      | (.error e, s') => (.error e, s') := by
  show (match x s with | (r, s') => ExceptT.bindCont f r s') = _
  rcases x s with ⟨_ | _, _⟩ <;> rfl

/-- Run the first part of a sequence. -/
theorem bind_of_ok {x : Job σ α} {f : α → Job σ β} {s s' : σ} {a : α} (h : x s = (.ok a, s')) :
    (x >>= f) s = f a s' := by
  rw [bind_apply, h]

theorem bind_of_error {x : Job σ α} {f : α → Job σ β} {s : σ} {e : Error}
    (h : (x s).1 = .error e) : ((x >>= f) s).1 = .error e := by
  rw [bind_apply]
  rcases hx : x s with ⟨r, s'⟩
  rw [hx] at h
  obtain rfl : r = .error e := h
  rfl

theorem bind_eq_ok_iff (x : Job σ α) (f : α → Job σ β) (s s'' : σ) (b : β) :
    (x >>= f) s = (.ok b, s'') ↔ ∃ a s', x s = (.ok a, s') ∧ f a s' = (.ok b, s'') := by
  rw [bind_apply]
  rcases x s with ⟨e | a, s'⟩
  · exact ⟨fun h => (nomatch h), fun ⟨_, _, h, _⟩ => (nomatch h)⟩
  · refine ⟨fun h => ⟨a, s', rfl, h⟩, ?_⟩
    rintro ⟨_, _, h, hf⟩
    cases h
    exact hf

theorem pure_eq_ok_iff (a b : α) (s s' : σ) :
    (pure a : Job σ α) s = (.ok b, s') ↔ a = b ∧ s = s' := by
  show (Except.ok a, s) = (Except.ok b, s') ↔ _
  rw [Prod.mk.injEq, Except.ok.injEq]

theorem discard_eq_ok_iff (x : Job σ α) (s s' : σ) (u : Unit) :
    (discard x : Job σ Unit) s = (.ok u, s') ↔ ∃ a, x s = (.ok a, s') := by
  show (x >>= fun _ => pure ()) s = (.ok u, s') ↔ _
  rw [bind_eq_ok_iff]
  constructor
  · rintro ⟨a, s₁, hx, hpure⟩
    rw [((pure_eq_ok_iff _ _ _ _).mp hpure).2] at hx
    exact ⟨a, hx⟩
  · rintro ⟨a, hx⟩
    exact ⟨a, s', hx, rfl⟩

/-- Using the outcome of a computation without a state. -/
theorem lift_eq_ok_iff (x : Except Error α) (a : α) (s s' : σ) :
    (liftM x : Job σ α) s = (.ok a, s') ↔ x = .ok a ∧ s = s' := by
  show (x, s) = (Except.ok a, s') ↔ _
  rw [Prod.mk.injEq]

end Job
end Unweave

import Unweave.Pipeline
import Unweave.Proofs.Jobs

/-!
# Contracts of computations that may fail

A triple says where a computation ends that starts in a state of some kind: in one kind of state if
it succeeds, and in another if it fails.  The effects of a computation stay when it fails, so what
holds after a failure is a statement of its own.  One rule for sequences, one for loops over lists
and one for running on the host of a shelf carry contracts from single steps to whole runs.
-/

namespace Unweave
namespace Job

variable {σ α β γ : Type}

/-- From a state in `P` the computation succeeds in `Q` or fails in `E`. -/
def Triple (P : σ → Prop) (x : Job σ α) (Q : α → σ → Prop) (E : Error → σ → Prop) : Prop :=
  ∀ s, P s →
    match x s with
    | (.ok a, s') => Q a s'
    | (.error e, s') => E e s'

namespace Triple

variable {P P' : σ → Prop} {x : Job σ α} {Q Q' : α → σ → Prop} {E E' : Error → σ → Prop}

theorem of_ok (h : Triple P x Q E) {s s' : σ} {a : α} (hs : P s) (hrun : x s = (.ok a, s')) :
    Q a s' := by
  have hend := h s hs
  rw [hrun] at hend
  exact hend

theorem of_error (h : Triple P x Q E) {s s' : σ} {e : Error} (hs : P s)
    (hrun : x s = (.error e, s')) : E e s' := by
  have hend := h s hs
  rw [hrun] at hend
  exact hend

/-- A contract is a statement about the two ways a run can end. -/
theorem intro (hok : ∀ s s' a, P s → x s = (.ok a, s') → Q a s')
    (herror : ∀ s s' e, P s → x s = (.error e, s') → E e s') : Triple P x Q E := by
  intro s hs
  rcases hrun : x s with ⟨e | a, s'⟩
  · exact herror s s' e hs hrun
  · exact hok s s' a hs hrun

theorem weaken (h : Triple P x Q E) (hP : ∀ s, P' s → P s) (hQ : ∀ a s, Q a s → Q' a s)
    (hE : ∀ e s, E e s → E' e s) : Triple P' x Q' E' :=
  .intro (fun _ _ _ hs hrun => hQ _ _ (h.of_ok (hP _ hs) hrun))
    fun _ _ _ hs hrun => hE _ _ (h.of_error (hP _ hs) hrun)

theorem and (h : Triple P x Q E) (h' : Triple P' x Q' E') :
    Triple (fun s => P s ∧ P' s) x (fun a s => Q a s ∧ Q' a s) fun e s => E e s ∧ E' e s :=
  .intro (fun _ _ _ hs hrun => ⟨h.of_ok hs.1 hrun, h'.of_ok hs.2 hrun⟩)
    fun _ _ _ hs hrun => ⟨h.of_error hs.1 hrun, h'.of_error hs.2 hrun⟩

theorem pure {a : α} (h : ∀ s, P s → Q a s) : Triple P (pure a) Q E := h

theorem throw {e : Error} (h : ∀ s, P s → E e s) : Triple P (throw e : Job σ α) Q E := h

theorem lift {y : Except Error α} (hok : ∀ a s, y = .ok a → P s → Q a s)
    (herror : ∀ e s, y = .error e → P s → E e s) : Triple P (liftM y : Job σ α) Q E := by
  intro s hs
  cases y with
  | ok a => exact hok a s rfl hs
  | error e => exact herror e s rfl hs

/-- Each part of a sequence starts where the one before it ended. -/
theorem bind {R : α → σ → Prop} {f : α → Job σ β} {Q : β → σ → Prop} (hx : Triple P x R E)
    (hf : ∀ a, Triple (R a) (f a) Q E) : Triple P (x >>= f) Q E := by
  intro s hs
  rw [bind_apply]
  rcases hrun : x s with ⟨e | a, s'⟩
  · exact hx.of_error hs hrun
  · exact hf a s' (hx.of_ok hs hrun)

theorem discard {R : σ → Prop} (h : Triple P x (fun _ => R) E) :
    Triple P (discard x) (fun _ => R) E :=
  h.bind fun _ => .pure fun _ hs => hs

/-- A contract may use a fact that its states carry. -/
theorem given {φ : Prop} (hP : ∀ s, P' s → φ ∧ P s) (h : φ → Triple P x Q E) :
    Triple P' x Q E :=
  fun s hs => h (hP s hs).1 s (hP s hs).2

/-- A loop keeps what each round keeps. -/
theorem foldlM {I : α → σ → Prop} {f : α → β → Job σ α} {bs : List β}
    (hf : ∀ b ∈ bs, ∀ a, Triple (I a) (f a b) I E) (a : α) : Triple (I a) (bs.foldlM f a) I E := by
  induction bs generalizing a with
  | nil => exact .pure fun _ hs => hs
  | cons b bs ih =>
    rw [List.foldlM_cons]
    exact (hf b List.mem_cons_self a).bind fun a' =>
      ih (fun b' hb' => hf b' (List.mem_cons_of_mem _ hb')) a'

end Triple

/-- However the computation ends, an observation of the state is what it was. -/
def Keeps (view : σ → γ) (x : Job σ α) : Prop :=
  ∀ v, Triple (view · = v) x (fun _ s => view s = v) fun _ s => view s = v

namespace Keeps

variable {view : σ → γ}

theorem pure (a : α) : (pure a : Job σ α).Keeps view := fun _ => .pure fun _ hs => hs

theorem throw (e : Error) : (throw e : Job σ α).Keeps view := fun _ => .throw fun _ hs => hs

theorem bind {x : Job σ α} {f : α → Job σ β} (hx : x.Keeps view) (hf : ∀ a, (f a).Keeps view) :
    (x >>= f).Keeps view :=
  fun v => (hx v).bind fun a => hf a v

theorem foldlM {f : α → β → Job σ α} {bs : List β} (hf : ∀ b ∈ bs, ∀ a, (f a b).Keeps view)
    (a : α) : (bs.foldlM f a).Keeps view :=
  fun v => .foldlM (fun b hb a => hf b hb a v) a

end Keeps
end Job

namespace Shelf

variable {σ α β : Type}

/-- What is on the shelf beside the host is not touched by a job of the host. -/
theorem triple_onHost {job : Job σ α} {P : σ → Prop} {Q : α → σ → Prop} {E : Error → σ → Prop}
    (h : Job.Triple P job Q E) (F : Library → List Project → Prop) :
    Job.Triple (fun shelf => P shelf.host ∧ F shelf.library shelf.finished) (onHost job)
      (fun a shelf => Q a shelf.host ∧ F shelf.library shelf.finished)
      fun e shelf => E e shelf.host ∧ F shelf.library shelf.finished := by
  intro shelf hshelf
  simp only [onHost]
  rcases hrun : job shelf.host with ⟨e | a, host⟩
  · exact ⟨h.of_error hshelf.1 hrun, hshelf.2⟩
  · exact ⟨h.of_ok hshelf.1 hrun, hshelf.2⟩

theorem keeps_onHost {job : Job σ α} {view : σ → β} (h : job.Keeps view) :
    (onHost job).Keeps fun shelf => (view shelf.host, shelf.library, shelf.finished) := by
  rintro ⟨v, library, finished⟩
  refine (triple_onHost (h v) fun l f => l = library ∧ f = finished).weaken ?_ ?_ ?_
  · intro shelf hshelf
    cases hshelf
    exact ⟨rfl, rfl, rfl⟩
  · rintro _ shelf ⟨rfl, rfl, rfl⟩
    rfl
  · rintro _ shelf ⟨rfl, rfl, rfl⟩
    rfl

end Shelf
end Unweave

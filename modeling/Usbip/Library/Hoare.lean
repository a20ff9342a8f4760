import Mathlib.Algebra.BigOperators.Group.List.Basic
import Mathlib.Algebra.Order.Ring.Int

namespace Usbip.Library.Hoare

section Outcome

variable {ε σ α β : Type} {x : EStateM ε σ α} {f : α → EStateM ε σ β} {s t : σ}

-- What follows a first part with this outcome.
theorem bind_of_ok {a : α} (h : x s = .ok a t) : (x >>= f) s = f a t := by
  change EStateM.bind x f s = _
  simp only [EStateM.bind, h]

theorem bind_of_error {e : ε} (h : x s = .error e t) : (x >>= f) s = .error e t := by
  change EStateM.bind x f s = _
  simp only [EStateM.bind, h]

theorem run_get_bind {f : σ → EStateM ε σ β} : (get >>= f) s = f s s := rfl

theorem run_modify_bind {g : σ → σ} {f : Unit → EStateM ε σ β} : (modify g >>= f) s = f () (g s) := rfl

theorem bind_eq_ok {b : β} : (x >>= f) s = .ok b t ↔ ∃ a u, x s = .ok a u ∧ f a u = .ok b t := by
  cases hx : x s with
  | ok a u =>
      rw [bind_of_ok hx]
      constructor
      · exact fun h => ⟨a, u, rfl, h⟩
      · rintro ⟨a', u', ⟨rfl⟩, h⟩
        exact h
  | error e u =>
      rw [bind_of_error hx]
      constructor
      · rintro ⟨⟩
      · rintro ⟨a', u', ⟨⟩, h⟩

end Outcome

variable {σ ε α β : Type}

-- From a state in `P` the computation ends in `Q` with a value or in `E` with an error.
def Triple (P : σ → Prop) (x : EStateM ε σ α) (Q : α → σ → Prop) (E : ε → σ → Prop) : Prop :=
  ∀ s, P s → match x s with
    | .ok a t => Q a t
    | .error e t => E e t

variable {P P' : σ → Prop} {Q Q' : α → σ → Prop} {R : β → σ → Prop} {E E' F : ε → σ → Prop}
  {x : EStateM ε σ α} {f : α → EStateM ε σ β}

namespace Triple

theorem ok (h : Triple P x Q E) {s t : σ} {a : α} (hs : P s) (hx : x s = .ok a t) : Q a t := by
  have := h s hs
  rwa [hx] at this

theorem error (h : Triple P x Q E) {s t : σ} {e : ε} (hs : P s) (hx : x s = .error e t) : E e t := by
  have := h s hs
  rwa [hx] at this

theorem conseq (h : Triple P x Q E) (hP : ∀ s, P' s → P s) (hQ : ∀ a s, Q a s → Q' a s)
    (hE : ∀ e s, E e s → E' e s) : Triple P' x Q' E' := by
  intro s hs
  have hx := h s (hP s hs)
  cases hr : x s with
  | ok a t => rw [hr] at hx; exact hQ a t hx
  | error e t => rw [hr] at hx; exact hE e t hx

theorem pre (h : Triple P x Q E) (hP : ∀ s, P' s → P s) : Triple P' x Q E :=
  h.conseq hP (fun _ _ => id) (fun _ _ => id)

-- What the states of the precondition have in common can be named.
theorem exists_pre {γ : Type} {P : γ → σ → Prop} (h : ∀ c, Triple (P c) x Q E) :
    Triple (fun s => ∃ c, P c s) x Q E :=
  fun s hs => hs.elim fun c hc => h c s hc

theorem and_pre {c : Prop} (h : c → Triple P x Q E) : Triple (fun s => c ∧ P s) x Q E :=
  fun s hs => h hs.1 s hs.2

theorem pure (a : α) (h : ∀ s, P s → Q a s) : Triple P (Pure.pure a : EStateM ε σ α) Q E :=
  h

theorem throw (e : ε) (h : ∀ s, P s → E e s) : Triple P (throw e : EStateM ε σ α) Q E :=
  h

theorem update {Q : Unit → σ → Prop} {g : σ → σ} (h : ∀ s, P s → Q () (g s)) :
    Triple P (modify g : EStateM ε σ Unit) Q E :=
  h

theorem bind (hx : Triple P x Q E) (hf : ∀ a, Triple (Q a) (f a) R E) : Triple P (x >>= f) R E := by
  intro s hs
  cases hr : x s with
  | ok a t =>
      rw [bind_of_ok hr]
      exact hf a t (hx.ok hs hr)
  | error e t =>
      rw [bind_of_error hr]
      exact hx.error hs hr

theorem get_bind {f : σ → EStateM ε σ β} (h : ∀ s, Triple (fun t => t = s ∧ P t) (f s) R E) :
    Triple P (get >>= f) R E :=
  fun s hs => h s s ⟨rfl, hs⟩

theorem modify_bind {g : σ → σ} {f : Unit → EStateM ε σ β} (M : σ → Prop) (hg : ∀ s, P s → M (g s))
    (hf : Triple M (f ()) R E) : Triple P (modify g >>= f) R E :=
  fun s hs => hf (g s) (hg s hs)

theorem tryCatch {handle : ε → EStateM ε σ α} (hx : Triple P x Q F)
    (hh : ∀ e, Triple (F e) (handle e) Q E) : Triple P (tryCatch x handle) Q E := by
  intro s hs
  have h := hx s hs
  change match EStateM.tryCatch x handle s with
    | .ok a t => Q a t
    | .error e t => E e t
  cases hr : x s with
  | ok a t =>
      rw [hr] at h
      simp only [EStateM.tryCatch, hr]
      exact h
  | error e t =>
      rw [hr] at h
      simp only [EStateM.tryCatch, hr]
      exact hh e t h

theorem ite {c : Prop} [Decidable c] {y : EStateM ε σ α} (hx : c → Triple P x Q E)
    (hy : ¬c → Triple P y Q E) : Triple P (if c then x else y) Q E := by
  split
  · exact hx ‹_›
  · exact hy ‹_›

-- A loop over 0, …, n - 1 carries an invariant indexed by the number of rounds done.
theorem forM_range {g : Nat → EStateM ε σ Unit} (I : Nat → σ → Prop) (n : Nat)
    (hg : ∀ i, i < n → Triple (I i) (g i) (fun _ => I (i + 1)) E) :
    Triple (I 0) ((List.range n).forM g) (fun _ => I n) E := by
  have hfrom : ∀ k i, i + k = n → Triple (I i) ((List.range' i k).forM g) (fun _ => I n) E := by
    intro k
    induction k with
    | zero =>
        intro i hi
        rw [Nat.add_zero] at hi
        exact pure () fun s hs => hi ▸ hs
    | succ k ih =>
        intro i hi
        rw [List.range'_succ]
        exact (hg i (by omega)).bind fun _ => ih (i + 1) (by omega)
  rw [List.range_eq_range']
  exact hfrom n 0 (by omega)

end Triple

-- The computation from one state that is known.
def From (s : σ) (x : EStateM ε σ α) (Q : α → σ → Prop) (E : ε → σ → Prop) : Prop :=
  Triple (fun t => t = s) x Q E

namespace From

variable {s : σ}

theorem triple (h : ∀ s, P s → From s x Q E) : Triple P x Q E :=
  fun s hs => h s hs s rfl

theorem ok (h : From s x Q E) {t : σ} {a : α} (hx : x s = .ok a t) : Q a t :=
  Triple.ok h rfl hx

theorem error (h : From s x Q E) {t : σ} {e : ε} (hx : x s = .error e t) : E e t :=
  Triple.error h rfl hx

theorem mono (h : From s x Q E) (hQ : ∀ a t, Q a t → Q' a t) (hE : ∀ e t, E e t → E' e t) : From s x Q' E' :=
  Triple.conseq h (fun _ => id) hQ hE

theorem and (h : From s x Q E) (h' : From s x Q' E') :
    From s x (fun a t => Q a t ∧ Q' a t) (fun e t => E e t ∧ E' e t) := by
  intro t ht
  have hx := h t ht
  have hx' := h' t ht
  cases hr : x t with
  | ok a u => rw [hr] at hx hx'; exact ⟨hx, hx'⟩
  | error e u => rw [hr] at hx hx'; exact ⟨hx, hx'⟩

-- A computation without errors fits any claim about errors.
theorem safe (h : From s x Q fun _ _ => False) : From s x Q E :=
  h.mono (fun _ _ => id) fun _ _ h => h.elim

theorem pure (a : α) (h : Q a s) : From s (Pure.pure a : EStateM ε σ α) Q E :=
  Triple.pure a fun _ ht => ht ▸ h

theorem throw (e : ε) (h : E e s) : From s (throw e : EStateM ε σ α) Q E :=
  Triple.throw e fun _ ht => ht ▸ h

theorem update {Q : Unit → σ → Prop} {g : σ → σ} (h : Q () (g s)) : From s (modify g : EStateM ε σ Unit) Q E :=
  Triple.update fun _ ht => ht ▸ h

theorem bind (hx : From s x Q E) (hf : ∀ a t, Q a t → From t (f a) R E) : From s (x >>= f) R E :=
  Triple.bind hx fun a => triple fun t ht => hf a t ht

theorem get_bind {f : σ → EStateM ε σ β} (h : From s (f s) R E) : From s (get >>= f) R E :=
  Triple.get_bind fun t => triple fun u hu => by
    obtain ⟨rfl, rfl⟩ := hu
    exact h

theorem modify_bind {g : σ → σ} {f : Unit → EStateM ε σ β} (h : From (g s) (f ()) R E) :
    From s (modify g >>= f) R E :=
  Triple.modify_bind (fun t => t = g s) (fun _ ht => ht ▸ rfl) h

theorem ite {c : Prop} [Decidable c] {y : EStateM ε σ α} (hx : c → From s x Q E) (hy : ¬c → From s y Q E) :
    From s (if c then x else y) Q E :=
  Triple.ite hx hy

end From

end Usbip.Library.Hoare

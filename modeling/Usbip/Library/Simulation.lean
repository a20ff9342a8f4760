import Mathlib.Algebra.BigOperators.Group.List.Basic
import Mathlib.Algebra.Order.Ring.Int
import Usbip.Library.Hoare

namespace Usbip.Library.Simulation

open Usbip.Library.Hoare

variable {σ σ' ε ε' α β : Type}

-- A computation with more state does what one does on the part of the state that both have. Some of
-- its errors are not known to the other one.
def Simulates (proj : σ' → σ) (known : ε' → Option ε) (x : EStateM ε' σ' α) (y : EStateM ε σ α) (s : σ') : Prop :=
  match x s with
  | .ok a t => y (proj s) = .ok a (proj t)
  | .error e t => ∀ e', known e = some e' → y (proj s) = .error e' (proj t)

-- A computation on the part.
def lift (proj : σ' → σ) (put : σ' → σ → σ') (wrap : ε → ε') (x : EStateM ε σ α) : EStateM ε' σ' α := fun s =>
  match x (proj s) with
  | .ok a t => .ok a (put s t)
  | .error e t => .error (wrap e) (put s t)

variable {proj : σ' → σ} {known : ε' → Option ε} {put : σ' → σ → σ'} {wrap : ε → ε'} {s : σ'}

namespace Simulates

theorem pure (a : α) : Simulates proj known (Pure.pure a) (Pure.pure a) s := rfl

theorem lift (hput : ∀ s t, proj (put s t) = t) (hwrap : ∀ e, known (wrap e) = some e) (x : EStateM ε σ α) :
    Simulates proj known (lift proj put wrap x) x s := by
  unfold Simulates Simulation.lift
  cases hx : x (proj s) with
  | ok a t => exact congrArg _ (hput s t).symm
  | error e t =>
      intro e' he
      rw [hwrap] at he
      cases he
      exact congrArg _ (hput s t).symm

theorem bind {x : EStateM ε' σ' α} {y : EStateM ε σ α} {f : α → EStateM ε' σ' β} {g : α → EStateM ε σ β}
    (hx : Simulates proj known x y s) (hf : ∀ a t, Simulates proj known (f a) (g a) t) :
    Simulates proj known (x >>= f) (y >>= g) s := by
  unfold Simulates at hx ⊢
  cases hr : x s with
  | ok a t =>
      rw [hr] at hx
      rw [bind_of_ok hr, bind_of_ok hx]
      exact hf a t
  | error e t =>
      rw [hr] at hx
      rw [bind_of_error hr]
      exact fun e' he => bind_of_error (hx e' he)

theorem get_bind {f : σ' → EStateM ε' σ' α} {g : σ → EStateM ε σ α} (h : Simulates proj known (f s) (g (proj s)) s) :
    Simulates proj known (get >>= f) (get >>= g) s :=
  h

-- What the other computation does not see.
theorem skip_get {f : σ' → EStateM ε' σ' α} {y : EStateM ε σ α} (h : Simulates proj known (f s) y s) :
    Simulates proj known (get >>= f) y s :=
  h

theorem skip_set {f : Unit → EStateM ε' σ' α} {y : EStateM ε σ α} {t : σ'} (hproj : proj t = proj s)
    (h : Simulates proj known (f ()) y t) : Simulates proj known (set t >>= f) y s := by
  unfold Simulates at h ⊢
  rw [hproj] at h
  exact h

theorem throw_unknown {y : EStateM ε σ α} {e : ε'} (h : known e = none) :
    Simulates proj known (throw e) y s := by
  intro e' he
  rw [h] at he
  cases he

theorem ite {c : Prop} [Decidable c] {x x' : EStateM ε' σ' α} {y y' : EStateM ε σ α}
    (hx : c → Simulates proj known x y s) (hx' : ¬c → Simulates proj known x' y' s) :
    Simulates proj known (if c then x else x') (if c then y else y') s := by
  split
  · exact hx ‹_›
  · exact hx' ‹_›

theorem ok {x : EStateM ε' σ' α} {y : EStateM ε σ α} (h : Simulates proj known x y s) {a : α} {t : σ'}
    (hx : x s = .ok a t) : y (proj s) = .ok a (proj t) := by
  unfold Simulates at h
  rwa [hx] at h

end Simulates

end Usbip.Library.Simulation

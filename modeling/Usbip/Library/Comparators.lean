import Mathlib.Data.Set.Basic
import Mathlib.Order.Compare

namespace Usbip.Library.Comparators

open Std

variable {τ κ : Type} (key : τ → Option κ) (cmpKey : κ → κ → Ordering) (cmpText : τ → τ → Ordering)

-- Two texts are compared by their keys if both have one.
def fallback (a b : τ) : Ordering :=
  match key a, key b with
  | some x, some y => cmpKey x y
  | _, _ => cmpText a b

-- The value of a comparison in C++.
def sign : Ordering → Int
  | .lt => -1
  | .eq => 0
  | .gt => 1

theorem sign_swap (o : Ordering) : sign o.swap = -sign o := by cases o <;> rfl

theorem sign_le_zero {o : Ordering} : sign o ≤ 0 ↔ o.isLE := by cases o <;> decide

section Fallback

variable {key cmpKey cmpText} {a b : τ}

theorem fallback_of_some {x y : κ} (ha : key a = some x) (hb : key b = some y) :
    fallback key cmpKey cmpText a b = cmpKey x y := by
  rw [fallback, ha, hb]

theorem fallback_of_none_left (h : key a = none) : fallback key cmpKey cmpText a b = cmpText a b := by
  rw [fallback, h]

theorem fallback_of_none_right (h : key b = none) : fallback key cmpKey cmpText a b = cmpText a b := by
  rw [fallback, h]
  split
  · next hb => cases hb
  · rfl

variable [TransCmp cmpKey] [TransCmp cmpText]

theorem fallback_swap (a b : τ) : fallback key cmpKey cmpText a b = (fallback key cmpKey cmpText b a).swap := by
  cases ha : key a with
  | none =>
      rw [fallback_of_none_left ha, fallback_of_none_right ha]
      exact OrientedCmp.eq_swap
  | some x =>
      cases hb : key b with
      | none =>
          rw [fallback_of_none_right hb, fallback_of_none_left hb]
          exact OrientedCmp.eq_swap
      | some y =>
          rw [fallback_of_some ha hb, fallback_of_some hb ha]
          exact OrientedCmp.eq_swap

end Fallback

-- The keys of two texts agree with a text without a key that stands between them.
def Uncrossed (s : Set τ) : Prop :=
  ∀ a ∈ s, ∀ b ∈ s, ∀ c ∈ s, ∀ x y, key a = some x → key b = some y → key c = none →
    cmpText a c = .lt → cmpText c b = .lt → cmpKey x y = .lt

variable {key cmpKey cmpText} [TransCmp cmpKey] [TransCmp cmpText] [LawfulEqCmp cmpText] {a b c : τ} {s : Set τ}

omit [TransCmp cmpText] in
theorem lt_of_isLE (h : (cmpText a b).isLE) (hne : a ≠ b) : cmpText a b = .lt := by
  cases hcmp : cmpText a b with
  | lt => rfl
  | eq => exact absurd (LawfulEqCmp.eq_of_compare hcmp) hne
  | gt =>
      rw [hcmp] at h
      cases h

-- A text with a key is not one without.
theorem ne_of_key {y : κ} (ha : key a = none) (hb : key b = some y) : a ≠ b := by
  rintro rfl
  rw [ha] at hb
  cases hb

omit [LawfulEqCmp cmpText] in
theorem isLE_of_not_lt (h : cmpText a b ≠ .lt) : (cmpText b a).isLE := by
  have hswap : cmpText b a = (cmpText a b).swap := OrientedCmp.eq_swap
  rw [hswap]
  cases hcmp : cmpText a b with
  | lt => exact absurd hcmp h
  | eq => rfl
  | gt => rfl

omit [LawfulEqCmp cmpText] in
theorem not_isLE_of_lt (h : cmpText a b = .lt) : ¬ (cmpText b a).isLE := by
  have hswap : cmpText b a = (cmpText a b).swap := OrientedCmp.eq_swap
  rw [hswap, h]
  exact Bool.false_ne_true

omit [LawfulEqCmp cmpText] in
theorem lt_of_not_isLE (h : ¬ (cmpText a b).isLE) : cmpText b a = .lt := by
  by_contra hnot
  exact h (isLE_of_not_lt hnot)

-- Three texts, by which of them have keys.
theorem Uncrossed.trans (hun : Uncrossed key cmpKey cmpText s) (ha : a ∈ s) (hb : b ∈ s) (hc : c ∈ s)
    (hab : (fallback key cmpKey cmpText a b).isLE) (hbc : (fallback key cmpKey cmpText b c).isLE) :
    (fallback key cmpKey cmpText a c).isLE := by
  cases hx : key a with
  | none =>
      rw [fallback_of_none_left hx] at hab ⊢
      cases hy : key b with
      | none =>
          rw [fallback_of_none_left hy] at hbc
          exact TransCmp.isLE_trans hab hbc
      | some y =>
          cases hz : key c with
          | none =>
              rw [fallback_of_none_right hz] at hbc
              exact TransCmp.isLE_trans hab hbc
          | some z =>
              rw [fallback_of_some hy hz] at hbc
              by_contra hac
              exact not_isLE_of_lt (hun c hc b hb a ha z y hz hy hx (lt_of_not_isLE hac)
                (lt_of_isLE hab (ne_of_key hx hy))) hbc
  | some x =>
      cases hy : key b with
      | none =>
          rw [fallback_of_none_right hy] at hab
          rw [fallback_of_none_left hy] at hbc
          cases hz : key c with
          | none =>
              rw [fallback_of_none_right hz]
              exact TransCmp.isLE_trans hab hbc
          | some z =>
              rw [fallback_of_some hx hz, hun a ha c hc b hb x z hx hz hy (lt_of_isLE hab (ne_of_key hy hx).symm)
                (lt_of_isLE hbc (ne_of_key hy hz))]
              rfl
      | some y =>
          rw [fallback_of_some hx hy] at hab
          cases hz : key c with
          | none =>
              rw [fallback_of_none_right hz] at hbc ⊢
              by_contra hac
              exact not_isLE_of_lt (hun b hb a ha c hc y x hy hx hz (lt_of_isLE hbc (ne_of_key hz hy).symm)
                (lt_of_not_isLE hac)) hab
          | some z =>
              rw [fallback_of_some hy hz] at hbc
              rw [fallback_of_some hx hz]
              exact TransCmp.isLE_trans hab hbc

omit [LawfulEqCmp cmpText] in
theorem uncrossed_of_trans
    (htrans : ∀ a ∈ s, ∀ b ∈ s, ∀ c ∈ s, (fallback key cmpKey cmpText a b).isLE →
      (fallback key cmpKey cmpText b c).isLE → (fallback key cmpKey cmpText a c).isLE) :
    Uncrossed key cmpKey cmpText s := by
  intro a ha b hb c hc x y hx hy hz hac hcb
  by_contra hnot
  -- the keys lead from `b` to `a` and the texts on to `c`, which stands before `b`
  have hba : (fallback key cmpKey cmpText b a).isLE := by
    rw [fallback_of_some hy hx]
    exact isLE_of_not_lt hnot
  have hbc := htrans b hb a ha c hc hba (by rw [fallback_of_none_right hz, hac]; rfl)
  rw [fallback_of_none_right hz] at hbc
  exact not_isLE_of_lt hcb hbc

theorem trans_iff_uncrossed :
    (∀ a ∈ s, ∀ b ∈ s, ∀ c ∈ s, (fallback key cmpKey cmpText a b).isLE → (fallback key cmpKey cmpText b c).isLE →
      (fallback key cmpKey cmpText a c).isLE) ↔ Uncrossed key cmpKey cmpText s :=
  ⟨uncrossed_of_trans, fun hun _ ha _ hb _ hc => hun.trans ha hb hc⟩

end Usbip.Library.Comparators

import Mathlib.Data.Option.Basic
import Mathlib.Tactic.ByContra

namespace Usbip.Library.Arena

-- Blocks of memory by their addresses, with their sizes. The address of a block that has been freed
-- is not handed out again, so a pointer to it leads nowhere.
structure Blocks where
  fresh : Nat := 0
  size : Nat → Option Nat := fun _ => none

namespace Blocks

def alloc (blocks : Blocks) (n : Nat) : Blocks where
  fresh := blocks.fresh + 1
  size p := if p = blocks.fresh then some n else blocks.size p

def remove (blocks : Blocks) (p : Nat) : Blocks :=
  { blocks with size := fun q => if q = p then none else blocks.size q }

-- A pointer may be null; `none` is one to a block that is not there.
def free (blocks : Blocks) : Option Nat → Option Blocks
  | none => some blocks
  | some p => if (blocks.size p).isSome then some (blocks.remove p) else none

variable {blocks : Blocks} {p q n : Nat}

@[simp] theorem alloc_self : (blocks.alloc n).size blocks.fresh = some n := if_pos rfl

theorem alloc_of_ne (h : p ≠ blocks.fresh) : (blocks.alloc n).size p = blocks.size p := if_neg h

@[simp] theorem remove_self : (blocks.remove p).size p = none := if_pos rfl

theorem remove_of_ne (h : q ≠ p) : (blocks.remove p).size q = blocks.size q := if_neg h

theorem remove_eq_some {m : Nat} : (blocks.remove p).size q = some m ↔ q ≠ p ∧ blocks.size q = some m := by
  by_cases h : q = p
  · subst h
    simp
  · simp [remove_of_ne h, h]

theorem free_some (h : blocks.size p = some n) : blocks.free (some p) = some (blocks.remove p) := by
  rw [free, h]
  rfl

end Blocks

variable {blocks : Blocks} {owner : Option Nat} {n : Nat}

-- The one block that there is, if there is one, has an owner who knows its size.
structure Owns (blocks : Blocks) (owner : Option Nat) (n : Nat) : Prop where
  live : ∀ p, owner = some p → blocks.size p = some n
  only : ∀ p k, blocks.size p = some k → owner = some p
  beyond : ∀ p, blocks.fresh ≤ p → blocks.size p = none

theorem Owns.empty (n : Nat) : Owns {} none n where
  live _ h := nomatch h
  only _ _ h := nomatch h
  beyond _ _ := rfl

theorem Owns.remove {p : Nat} (h : Owns blocks (some p) n) (k : Nat) : Owns (blocks.remove p) none k where
  live _ hq := nomatch hq
  only q m hq := by
    obtain ⟨hne, hm⟩ := Blocks.remove_eq_some.mp hq
    exact absurd (Option.some.inj (h.only q m hm)).symm hne
  beyond q hq := by
    by_cases hqp : q = p
    · rw [hqp]
      exact Blocks.remove_self
    · exact (Blocks.remove_of_ne hqp).trans (h.beyond q hq)

theorem Owns.free (h : Owns blocks owner n) (k : Nat) :
    ∃ blocks', blocks.free owner = some blocks' ∧ Owns blocks' none k := by
  cases owner with
  | none => exact ⟨blocks, rfl, fun _ hp => (nomatch hp), h.only, h.beyond⟩
  | some p => exact ⟨_, Blocks.free_some (h.live p rfl), h.remove k⟩

-- A block that takes the place of another one, which is freed after it.
theorem Owns.replace (h : Owns blocks owner n) (k : Nat) :
    ∃ blocks', (blocks.alloc k).free owner = some blocks' ∧ Owns blocks' (some blocks.fresh) k := by
  have hkept : ∀ p m, (blocks.alloc k).size p = some m → p ≠ blocks.fresh → owner = some p := by
    intro p m hp hne
    rw [Blocks.alloc_of_ne hne] at hp
    exact h.only p m hp
  have hbeyond : ∀ p, blocks.fresh + 1 ≤ p → (blocks.alloc k).size p = none := by
    intro p hp
    rw [Blocks.alloc_of_ne (by omega)]
    exact h.beyond p (by omega)
  cases owner with
  | none =>
      refine ⟨_, rfl, ?_, fun p m hp => ?_, hbeyond⟩
      · rintro p ⟨rfl⟩
        exact Blocks.alloc_self
      · by_contra hne
        have hnone := hkept p m hp fun heq => hne (heq ▸ rfl)
        cases hnone
  | some old =>
      have hold := h.live old rfl
      have hne : old ≠ blocks.fresh := by
        rintro rfl
        rw [h.beyond _ (Nat.le_refl _)] at hold
        cases hold
      have hlive : (blocks.alloc k).size old = some n := (Blocks.alloc_of_ne hne).trans hold
      refine ⟨_, Blocks.free_some hlive, ?_, fun p m hp => ?_, fun p hp => ?_⟩
      · rintro p ⟨rfl⟩
        exact (Blocks.remove_of_ne hne.symm).trans Blocks.alloc_self
      · obtain ⟨hpo, hp⟩ := Blocks.remove_eq_some.mp hp
        by_contra hnew
        exact hpo (Option.some.inj (hkept p m hp fun heq => hnew (heq ▸ rfl))).symm
      · by_cases hpo : p = old
        · rw [hpo]
          exact Blocks.remove_self
        · exact (Blocks.remove_of_ne hpo).trans (hbeyond p hp)

end Usbip.Library.Arena

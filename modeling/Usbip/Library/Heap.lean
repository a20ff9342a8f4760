import Usbip.Library.Words

namespace Usbip.Library.Heap

open Usbip.Library.Words

-- The byte at each address.
abbrev Memory := Nat → UInt8

-- What lies from an address on.
def view (memory : Memory) (a : Nat) : Memory := fun i => memory (a + i)

def word16 (memory : Memory) (i : Nat) : UInt16 := le16 (memory i) (memory (i + 1))

def word32 (memory : Memory) (i : Nat) : UInt32 :=
  le32 (memory i) (memory (i + 1)) (memory (i + 2)) (memory (i + 3))

def word64 (memory : Memory) (i : Nat) : Nat :=
  (word32 memory i).toNat + 2 ^ 32 * (word32 memory (i + 4)).toNat

-- `n` bytes at `dst` become those at `src`, all of which are read first.
def copy (memory : Memory) (dst src n : Nat) : Memory := fun i =>
  if dst ≤ i ∧ i < dst + n then memory (src + (i - dst)) else memory i

def store64 (memory : Memory) (a value : Nat) : Memory := fun i =>
  if a ≤ i ∧ i < a + 8 then UInt8.ofNat (value / 2 ^ (8 * (i - a))) else memory i

-- A memory of zeros but for some bytes.
def ofBytes (bytes : List (Nat × UInt8)) : Memory := fun i => (bytes.lookup i).getD 0

-- `n` bytes at `a` and `k` bytes at `b` have none in common.
def Apart (a n b k : Nat) : Prop := a + n ≤ b ∨ b + k ≤ a

instance (a n b k : Nat) : Decidable (Apart a n b k) := inferInstanceAs (Decidable (_ ∨ _))

section Frame

variable {memory memory' : Memory} {dst src n i j value : Nat}

@[simp] theorem view_apply (memory : Memory) (a i : Nat) : view memory a i = memory (a + i) := rfl

theorem copy_inside (hi : i < n) : copy memory dst src n (dst + i) = memory (src + i) := by
  rw [copy, if_pos ⟨Nat.le_add_right dst i, Nat.add_lt_add_left hi dst⟩, Nat.add_sub_cancel_left]

theorem copy_outside (hi : i < dst ∨ dst + n ≤ i) : copy memory dst src n i = memory i :=
  if_neg (by omega)

theorem store64_outside {a : Nat} (hi : i < a ∨ a + 8 ≤ i) : store64 memory a value i = memory i :=
  if_neg (by omega)

theorem word16_congr (h : ∀ k < 2, memory' (j + k) = memory (i + k)) : word16 memory' j = word16 memory i := by
  have hlow := h 0 (by omega)
  rw [word16, h 1 (by omega)]
  rw [Nat.add_zero, Nat.add_zero] at hlow
  rw [hlow, word16]

theorem word32_congr (h : ∀ k < 4, memory' (j + k) = memory (i + k)) : word32 memory' j = word32 memory i := by
  have hlow := h 0 (by omega)
  rw [word32, h 1 (by omega), h 2 (by omega), h 3 (by omega)]
  rw [Nat.add_zero, Nat.add_zero] at hlow
  rw [hlow, word32]

theorem word64_congr (h : ∀ k < 8, memory' (j + k) = memory (i + k)) : word64 memory' j = word64 memory i := by
  have hlow : word32 memory' j = word32 memory i := word32_congr fun k hk => h k (by omega)
  have hhigh : word32 memory' (j + 4) = word32 memory (i + 4) := by
    refine word32_congr fun k hk => ?_
    rw [Nat.add_assoc, Nat.add_assoc]
    exact h (4 + k) (by omega)
  rw [word64, hlow, hhigh, word64]

theorem store64_inside {a : Nat} (hi : i < 8) :
    store64 memory a value (a + i) = UInt8.ofNat (value / 2 ^ (8 * i)) := by
  rw [store64, if_pos ⟨Nat.le_add_right a i, Nat.add_lt_add_left hi a⟩, Nat.add_sub_cancel_left]

theorem word32_store64 {a low : Nat} (hlow : low = 0 ∨ low = 4) :
    (word32 (store64 memory a value) (a + low)).toNat = value / 2 ^ (8 * low) % 2 ^ 32 := by
  have hbyte (k : Nat) (hk : k < 8) :
      (store64 memory a value (a + k)).toNat = value / 2 ^ (8 * k) % 2 ^ 8 := by
    rw [store64_inside hk, UInt8.toNat_ofNat']
  simp only [word32, toNat_le32, Nat.add_assoc]
  obtain rfl | rfl := hlow
  · rw [hbyte _ (by omega), hbyte _ (by omega), hbyte _ (by omega), hbyte _ (by omega)]
    omega
  · rw [hbyte _ (by omega), hbyte _ (by omega), hbyte _ (by omega), hbyte _ (by omega)]
    omega

-- A word that was stored is read back.
theorem word64_store64 {a : Nat} (hvalue : value < 2 ^ 64) : word64 (store64 memory a value) a = value := by
  have hlow := @word32_store64 memory value a 0 (.inl rfl)
  have hhigh := @word32_store64 memory value a 4 (.inr rfl)
  rw [Nat.add_zero] at hlow
  rw [word64, hlow, hhigh]
  omega

end Frame

end Usbip.Library.Heap

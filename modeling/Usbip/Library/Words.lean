import Mathlib.Algebra.BigOperators.Group.List.Basic
import Mathlib.Algebra.Order.Ring.Int

namespace Usbip.Library.Words

-- The 32-bit word stored at four consecutive bytes of a little-endian memory.
def le32 (b0 b1 b2 b3 : UInt8) : UInt32 :=
  UInt32.ofNat (b0.toNat + 2 ^ 8 * b1.toNat + 2 ^ 16 * b2.toNat + 2 ^ 24 * b3.toNat)

def le16 (b0 b1 : UInt8) : UInt16 := UInt16.ofNat (b0.toNat + 2 ^ 8 * b1.toNat)

-- Byte `i` of a word, counted from the least significant one.
def byteOf (word : UInt32) (i : Nat) : UInt8 := UInt8.ofNat (word.toNat / 2 ^ (8 * i))

def bytes16 (word : UInt16) : List UInt8 := [UInt8.ofNat word.toNat, UInt8.ofNat (word.toNat / 2 ^ 8)]

def bytes32 (word : UInt32) : List UInt8 :=
  [byteOf word 0, byteOf word 1, byteOf word 2, byteOf word 3]

def swap32 (word : UInt32) : UInt32 :=
  le32 (byteOf word 3) (byteOf word 2) (byteOf word 1) (byteOf word 0)

-- The two's complement reading of a word.
def signed (word : UInt32) : Int :=
  if word.toNat < 2 ^ 31 then word.toNat else (word.toNat : Int) - 2 ^ 32

-- A signed value kept in a word.
def ofSigned (value : Int) : UInt32 := UInt32.ofNat (value % 2 ^ 32).toNat

theorem toNat_le32 (b0 b1 b2 b3 : UInt8) :
    (le32 b0 b1 b2 b3).toNat =
      b0.toNat + 2 ^ 8 * b1.toNat + 2 ^ 16 * b2.toNat + 2 ^ 24 * b3.toNat := by
  have h0 := b0.toNat_lt
  have h1 := b1.toNat_lt
  have h2 := b2.toNat_lt
  have h3 := b3.toNat_lt
  rw [le32, UInt32.toNat_ofNat_of_lt']
  simp only [UInt32.size]
  omega

@[simp] theorem le16_bytes16 (word : UInt16) :
    le16 (UInt8.ofNat word.toNat) (UInt8.ofNat (word.toNat / 2 ^ 8)) = word := by
  apply UInt16.toNat_inj.mp
  have hw := word.toNat_lt
  simp only [le16, UInt8.toNat_ofNat', UInt16.toNat_ofNat']
  omega

theorem toNat_byteOf (word : UInt32) (i : Nat) :
    (byteOf word i).toNat = word.toNat / 2 ^ (8 * i) % 2 ^ 8 := by
  simp [byteOf]

@[simp] theorem le32_byteOf (word : UInt32) :
    le32 (byteOf word 0) (byteOf word 1) (byteOf word 2) (byteOf word 3) = word := by
  apply UInt32.toNat_inj.mp
  have hw := word.toNat_lt
  simp only [toNat_le32, toNat_byteOf]
  omega

@[simp] theorem byteOf_le32 (b0 b1 b2 b3 : UInt8) :
    byteOf (le32 b0 b1 b2 b3) 0 = b0 ∧ byteOf (le32 b0 b1 b2 b3) 1 = b1 ∧
      byteOf (le32 b0 b1 b2 b3) 2 = b2 ∧ byteOf (le32 b0 b1 b2 b3) 3 = b3 := by
  have h0 := b0.toNat_lt
  have h1 := b1.toNat_lt
  have h2 := b2.toNat_lt
  have h3 := b3.toNat_lt
  refine ⟨?_, ?_, ?_, ?_⟩ <;> apply UInt8.toNat_inj.mp <;>
    simp only [toNat_byteOf, toNat_le32] <;> omega

@[simp] theorem swap32_le32 (b0 b1 b2 b3 : UInt8) :
    swap32 (le32 b0 b1 b2 b3) = le32 b3 b2 b1 b0 := by
  obtain ⟨h0, h1, h2, h3⟩ := byteOf_le32 b0 b1 b2 b3
  rw [swap32, h0, h1, h2, h3]

@[simp] theorem swap32_swap32 (word : UInt32) : swap32 (swap32 word) = word := by
  conv_lhs => rw [swap32.eq_1 word]
  rw [swap32_le32, le32_byteOf]

theorem bytes32_swap32 (word : UInt32) :
    bytes32 (swap32 word) = [byteOf word 3, byteOf word 2, byteOf word 1, byteOf word 0] := by
  obtain ⟨h0, h1, h2, h3⟩ := byteOf_le32 (byteOf word 3) (byteOf word 2) (byteOf word 1) (byteOf word 0)
  rw [bytes32, swap32, h0, h1, h2, h3]

theorem signed_lt (word : UInt32) : signed word < 2 ^ 31 := by
  have hw := word.toNat_lt
  unfold signed
  split_ifs <;> omega

theorem neg_le_signed (word : UInt32) : -2 ^ 31 ≤ signed word := by
  have hw := word.toNat_lt
  unfold signed
  split_ifs <;> omega

theorem toNat_ofSigned {value : Int} (hl : 0 ≤ value) (hu : value < 2 ^ 31) :
    ((ofSigned value).toNat : Int) = value := by
  rw [ofSigned, UInt32.toNat_ofNat_of_lt']
  · omega
  · simp only [UInt32.size]
    omega

theorem ofSigned_signed (word : UInt32) : ofSigned (signed word) = word := by
  apply UInt32.toNat_inj.mp
  have hw := word.toNat_lt
  have hmod : (signed word % 2 ^ 32).toNat = word.toNat := by
    unfold signed
    split_ifs <;> omega
  rw [ofSigned, hmod, UInt32.toNat_ofNat_of_lt' hw]

end Usbip.Library.Words

import Usbip.Library.Words

namespace Usbip.Library.Layout

open Usbip.Library.Words

variable {memory : Nat → UInt8} {offset : Nat}

-- These bytes stand in the memory from an offset on.
def Holds (memory : Nat → UInt8) (offset : Nat) (bytes : List UInt8) : Prop :=
  ∀ (i : Nat) (h : i < bytes.length), memory (offset + i) = bytes[i]

theorem holds_nil : Holds memory offset [] := by
  intro i h
  cases h

theorem holds_cons {b : UInt8} {bytes : List UInt8} :
    Holds memory offset (b :: bytes) ↔ memory offset = b ∧ Holds memory (offset + 1) bytes := by
  constructor
  · intro h
    refine ⟨h 0 (by simp), fun i hi => ?_⟩
    rw [Nat.add_assoc, Nat.add_comm 1 i]
    exact h (i + 1) (by simpa using hi)
  · rintro ⟨hhead, htail⟩ i hi
    cases i with
    | zero => exact hhead
    | succ i =>
        rw [← Nat.add_assoc, Nat.add_right_comm]
        exact htail i (by simpa using hi)

theorem holds_append {first rest : List UInt8} :
    Holds memory offset (first ++ rest) ↔
      Holds memory offset first ∧ Holds memory (offset + first.length) rest := by
  induction first generalizing offset with
  | nil => simp [holds_nil]
  | cons b first ih =>
      rw [List.cons_append, holds_cons, ih, holds_cons, and_assoc, List.length_cons]
      rw [Nat.add_assoc, Nat.add_comm 1]

theorem Holds.le32 {word : UInt32} (h : Holds memory offset (bytes32 word)) :
    le32 (memory offset) (memory (offset + 1)) (memory (offset + 2)) (memory (offset + 3)) = word := by
  have h0 : memory offset = byteOf word 0 := h 0 (by simp [bytes32])
  have h1 : memory (offset + 1) = byteOf word 1 := h 1 (by simp [bytes32])
  have h2 : memory (offset + 2) = byteOf word 2 := h 2 (by simp [bytes32])
  have h3 : memory (offset + 3) = byteOf word 3 := h 3 (by simp [bytes32])
  rw [h0, h1, h2, h3, le32_byteOf]

-- Records of one size lie at multiples of it.
theorem Holds.chunk {α : Type} {encode : α → List UInt8} {k : Nat} (hk : ∀ x, (encode x).length = k)
    {records : List α} (h : Holds memory offset (records.flatMap encode)) {i : Nat} (hi : i < records.length) :
    Holds memory (offset + k * i) (encode records[i]) := by
  induction records generalizing offset i with
  | nil => cases hi
  | cons x records ih =>
      rw [List.flatMap_cons, holds_append, hk] at h
      cases i with
      | zero => exact h.1
      | succ i =>
          have hi' : i < records.length := by simpa using hi
          have hrest := ih h.2 hi'
          rw [Nat.add_assoc, Nat.add_comm k, ← Nat.mul_succ] at hrest
          exact hrest

theorem holds_getD (bytes : List UInt8) (garbage : Nat → UInt8) :
    Holds (fun i => bytes.getD i (garbage i)) 0 bytes := by
  intro i hi
  simp [List.getD, List.getElem?_eq_getElem hi]

theorem holds_getD_append (first bytes rest : List UInt8) (garbage : Nat → UInt8) :
    Holds (fun i => (first ++ bytes ++ rest).getD i (garbage i)) first.length bytes := by
  have h := holds_getD (first ++ bytes ++ rest) garbage
  rw [List.append_assoc, holds_append, holds_append] at h
  simpa using h.2.1

end Usbip.Library.Layout

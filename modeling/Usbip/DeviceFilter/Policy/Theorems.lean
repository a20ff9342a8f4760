import Usbip.DeviceFilter.Policy
import Usbip.Library.Layout

namespace Usbip.DeviceFilter

open Usbip.Library.Words
open Usbip.Library.Layout

-- What all the structures with a policy agree on: the mode, three bytes without a meaning, the number of the
-- entries and the entries.
def policyBytes (mode : Byte) (entries : List DeviceFilterEntry) : List Byte :=
  mode :: 0 :: 0 :: 0 :: bytes32 (UInt32.ofNat entries.length) ++ entries.flatMap DeviceFilterEntry.bytes

def Policy.ofEntries (mode : Byte) (entries : List DeviceFilterEntry) : Policy where
  mode := mode
  count := UInt32.ofNat entries.length
  entries := Vector.ofFn fun i => entries.getD i {}

-- The entries in use.
def Policy.active (p : Policy) : List DeviceFilterEntry := p.entries.toList.take p.count.toNat

section Entries

variable {mode : Byte} {entries : List DeviceFilterEntry} {memory : Nat → Byte} {offset : Nat}

theorem toNat_ofEntries_count (mode : Byte) (h : entries.length ≤ MAX_DEVICE_FILTER_ENTRIES) :
    (Policy.ofEntries mode entries).count.toNat = entries.length := by
  have hlt : entries.length < UInt32.size := lt_of_le_of_lt h (by decide)
  exact UInt32.toNat_ofNat_of_lt' hlt

theorem take_ofEntries (h : entries.length ≤ MAX_DEVICE_FILTER_ENTRIES) :
    (Policy.ofEntries mode entries).entries.toList.take entries.length = entries := by
  refine List.ext_getElem (by simpa [Policy.ofEntries] using h) fun i hi hi' => ?_
  simp [Policy.ofEntries, List.getD, hi']

theorem length_bytes (e : DeviceFilterEntry) : e.bytes.length = sizeofDeviceFilterEntry := rfl

theorem length_flatMap_bytes (entries : List DeviceFilterEntry) :
    (entries.flatMap DeviceFilterEntry.bytes).length = entries.length * sizeofDeviceFilterEntry := by
  induction entries with
  | nil => rfl
  | cons e entries ih =>
      rw [List.flatMap_cons, List.length_append, ih, length_bytes, List.length_cons, Nat.succ_mul, Nat.add_comm]

theorem length_policyBytes (mode : Byte) (entries : List DeviceFilterEntry) :
    (policyBytes mode entries).length = serializedPolicySize entries.length := by
  simp only [policyBytes, List.cons_append, List.length_cons, List.length_append, length_flatMap_bytes, bytes32,
    serializedPolicySize, policyEntriesOffset, List.length_nil]
  omega

theorem mode_of_holds (h : Holds memory offset (policyBytes mode entries)) : memory offset = mode :=
  (holds_cons.mp h).1

theorem count_of_holds (h : Holds memory offset (policyBytes mode entries)) :
    le32 (memory (offset + 4)) (memory (offset + 5)) (memory (offset + 6)) (memory (offset + 7)) =
      UInt32.ofNat entries.length := by
  simp only [policyBytes, List.cons_append, holds_cons, holds_append] at h
  exact h.2.2.2.2.1.le32

theorem entry_of_holds (h : Holds memory offset (policyBytes mode entries)) {i : Nat} (hi : i < entries.length) :
    (⟨memory (offset + 8 + 4 * i), memory (offset + 8 + 4 * i + 1), memory (offset + 8 + 4 * i + 2),
      memory (offset + 8 + 4 * i + 3)⟩ : DeviceFilterEntry) = entries[i] := by
  simp only [policyBytes, List.cons_append, holds_cons, holds_append] at h
  have hentry := h.2.2.2.2.2.chunk length_bytes hi
  simp only [DeviceFilterEntry.bytes, holds_cons, bytes32, List.length_cons, List.length_nil] at hentry
  obtain ⟨h0, h1, h2, h3, -⟩ := hentry
  rw [DeviceFilterEntry.mk.injEq]
  exact ⟨h0, h1, h2, h3⟩

theorem sanitizePolicyForStore_count (p : Policy) :
    (sanitizePolicyForStore p).count.toNat ≤ MAX_DEVICE_FILTER_ENTRIES := by
  unfold sanitizePolicyForStore
  dsimp only
  split
  · decide
  · rename_i hle
    exact Nat.not_lt.mp hle

theorem length_active {p : Policy} (h : p.count.toNat ≤ MAX_DEVICE_FILTER_ENTRIES) :
    p.active.length = p.count.toNat := by
  rw [Policy.active, List.length_take, Vector.length_toList]
  exact Nat.min_eq_left h

-- No more than the entries in use goes to the registry.
theorem storedBytes_eq (p : Policy) :
    storedBytes p = policyBytes (sanitizePolicyForStore p).mode (sanitizePolicyForStore p).active := by
  have hlength := length_active (sanitizePolicyForStore_count p)
  generalize hstored : sanitizePolicyForStore p = stored at hlength
  have hsplit := List.take_append_drop stored.count.toNat stored.entries.toList
  have hbytes : stored.bytes = policyBytes stored.mode stored.active ++
      (stored.entries.toList.drop stored.count.toNat).flatMap DeviceFilterEntry.bytes := by
    rw [Policy.bytes, policyBytes, hlength, UInt32.ofNat_toNat, List.append_assoc, Policy.active,
      ← List.flatMap_append, hsplit]
  rw [storedBytes, hstored, hbytes, ← hlength, ← length_policyBytes stored.mode, List.take_left]

theorem sanitizePolicyForStore_ofEntries (hmode : mode = filterModeDisabled ∨ mode = filterModeWhitelist)
    (h : entries.length ≤ MAX_DEVICE_FILTER_ENTRIES) :
    sanitizePolicyForStore (Policy.ofEntries mode entries) = Policy.ofEntries mode entries := by
  have hcount := toNat_ofEntries_count mode h
  have hkept : ¬policyEntryCapacity < (Policy.ofEntries mode entries).count.toNat := by
    rw [hcount]
    exact Nat.not_lt.mpr h
  have hmode' : (if mode = filterModeDisabled then mode else filterModeWhitelist) = mode := by
    obtain rfl | rfl := hmode <;> rfl
  rw [sanitizePolicyForStore, if_neg hkept, Policy.mk.injEq]
  exact ⟨hmode', rfl, rfl⟩

theorem storedBytes_ofEntries (hmode : mode = filterModeDisabled ∨ mode = filterModeWhitelist)
    (h : entries.length ≤ MAX_DEVICE_FILTER_ENTRIES) :
    storedBytes (Policy.ofEntries mode entries) = policyBytes mode entries := by
  have hactive : (Policy.ofEntries mode entries).active = entries := by
    rw [Policy.active, toNat_ofEntries_count mode h, take_ofEntries h]
  rw [storedBytes_eq, sanitizePolicyForStore_ofEntries hmode h, hactive]
  rfl

theorem load_policyBytes (garbage : Nat → Byte) (hmode : mode = filterModeDisabled ∨ mode = filterModeWhitelist)
    (h : entries.length ≤ MAX_DEVICE_FILTER_ENTRIES) :
    load garbage (.read REG_BINARY (policyBytes mode entries)) = Policy.ofEntries mode entries := by
  have hcount := toNat_ofEntries_count mode h
  have hholds := holds_getD (policyBytes mode entries) garbage
  have hmem := mode_of_holds hholds
  have hraw := count_of_holds hholds
  have hentry := fun i (hi : i < entries.length) => entry_of_holds hholds hi
  simp only [Nat.zero_add] at hmem hraw hentry
  have hfits : ¬sizeofPolicy < (policyBytes mode entries).length := by
    rw [length_policyBytes]
    simp only [serializedPolicySize, sizeofPolicy, policyEntryCapacity]
    have := Nat.mul_le_mul_right sizeofDeviceFilterEntry h
    omega
  have hused : ((policyBytes mode entries).length - policyEntriesOffset) / sizeofDeviceFilterEntry =
      entries.length := by
    rw [length_policyBytes, serializedPolicySize, Nat.add_sub_cancel_left]
    exact Nat.mul_div_cancel _ (by decide)
  have hok : ¬(REG_BINARY ≠ REG_BINARY ∨ (policyBytes mode entries).length < policyEntriesOffset) := by
    rw [length_policyBytes]
    simp [serializedPolicySize]
  have hmode' : (if mode = filterModeDisabled then filterModeDisabled else filterModeWhitelist) = mode := by
    obtain rfl | rfl := hmode <;> rfl
  have hmin : min (min entries.length entries.length) policyEntryCapacity = entries.length := by
    rw [Nat.min_self]
    exact Nat.min_eq_left h
  simp only [load, if_neg hfits, sanitizeLoadedPolicy, if_neg hok, hused, Policy.ofMemory, hmem, hraw]
  rw [Policy.ofEntries] at hcount
  rw [hcount, hmin, hmode', Policy.ofEntries, Policy.mk.injEq]
  refine ⟨rfl, rfl, Vector.ext fun i hi => ?_⟩
  simp only [Vector.getElem_ofFn]
  by_cases hlt : i < entries.length
  · have hget : entries.getD i {} = entries[i] := by simp [List.getD, hlt]
    rw [if_pos hlt, hget, ← hentry i hlt]
    simp only [policyEntriesOffset, Fin.getElem_fin, Vector.getElem_ofFn]
  · simp [hlt, makeFailClosedPolicy]

end Entries

end Usbip.DeviceFilter

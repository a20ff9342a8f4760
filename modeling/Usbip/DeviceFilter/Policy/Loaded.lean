import Usbip.DeviceFilter.Policy.Theorems

namespace Usbip.DeviceFilter

open Usbip.Library.Words

section Sanitize

variable {memory memory' : Nat → Byte} {raw : Policy} {actualBytes valueType : Nat}

theorem ofMemory_entry_congr (i : Nat) (hi : i < MAX_DEVICE_FILTER_ENTRIES)
    (h : ∀ j < 4, memory (policyEntriesOffset + 4 * i + j) = memory' (policyEntriesOffset + 4 * i + j)) :
    (Policy.ofMemory memory).entries[i] = (Policy.ofMemory memory').entries[i] := by
  simp only [Policy.ofMemory, Vector.getElem_ofFn]
  rw [h 1 (by omega), h 2 (by omega), h 3 (by omega)]
  exact congrArg (DeviceFilterEntry.mk · _ _ _) (h 0 (by omega))

-- The header and the entries that the length covers are all that is looked at.
theorem sanitizeLoadedPolicy_congr (h : ∀ i < actualBytes, memory i = memory' i) :
    sanitizeLoadedPolicy (Policy.ofMemory memory) actualBytes valueType =
      sanitizeLoadedPolicy (Policy.ofMemory memory') actualBytes valueType := by
  unfold sanitizeLoadedPolicy
  by_cases hbad : valueType ≠ REG_BINARY ∨ actualBytes < policyEntriesOffset
  · rw [if_pos hbad, if_pos hbad]
  · rw [if_neg hbad, if_neg hbad]
    obtain ⟨-, hheader⟩ := not_or.mp hbad
    unfold policyEntriesOffset at hheader
    have hmode : (Policy.ofMemory memory).mode = (Policy.ofMemory memory').mode := h 0 (by omega)
    have hcount : (Policy.ofMemory memory).count = (Policy.ofMemory memory').count := by
      simp only [Policy.ofMemory, h 4 (by omega), h 5 (by omega), h 6 (by omega), h 7 (by omega)]
    rw [hmode, hcount]
    refine Prod.ext (Policy.mk.injEq .. ▸ ⟨rfl, rfl, Vector.ext fun i hi => ?_⟩) rfl
    simp only [Vector.getElem_ofFn]
    split
    · rename_i hlt
      refine ofMemory_entry_congr i hi fun j hj => h _ ?_
      simp only [policyEntriesOffset, sizeofDeviceFilterEntry] at hlt ⊢
      omega
    · rfl

theorem sanitizeLoadedPolicy_count_le (raw : Policy) (actualBytes valueType : Nat) :
    (sanitizeLoadedPolicy raw actualBytes valueType).1.count.toNat ≤
      min MAX_DEVICE_FILTER_ENTRIES ((actualBytes - policyEntriesOffset) / sizeofDeviceFilterEntry) := by
  unfold sanitizeLoadedPolicy
  split
  · exact Nat.zero_le _
  · have hcapacity : policyEntryCapacity < UInt32.size := by decide
    rw [UInt32.toNat_ofNat_of_lt' (lt_of_le_of_lt (Nat.min_le_right _ _) hcapacity)]
    unfold policyEntryCapacity
    omega

theorem sanitizeLoadedPolicy_mode (raw : Policy) (actualBytes valueType : Nat) :
    (sanitizeLoadedPolicy raw actualBytes valueType).1.mode =
      if valueType = REG_BINARY ∧ policyEntriesOffset ≤ actualBytes ∧ raw.mode = filterModeDisabled then
        filterModeDisabled
      else filterModeWhitelist := by
  unfold sanitizeLoadedPolicy
  by_cases hbad : valueType ≠ REG_BINARY ∨ actualBytes < policyEntriesOffset
  · rw [if_pos hbad]
    refine (if_neg fun h => ?_).symm
    obtain hne | hlt := hbad
    · exact hne h.1
    · exact absurd h.2.1 (Nat.not_le.mpr hlt)
  · rw [if_neg hbad]
    obtain ⟨htype, hheader⟩ := not_or.mp hbad
    dsimp only
    by_cases hmode : raw.mode = filterModeDisabled
    · rw [if_pos hmode, if_pos ⟨not_not.mp htype, Nat.not_lt.mp hheader, hmode⟩]
    · rw [if_neg hmode, if_neg fun h => hmode h.2.2]

end Sanitize

-- The garbage behind a value is not looked at.
theorem load_congr (garbage garbage' : Nat → Byte) (query : RegistryQuery) :
    load garbage query = load garbage' query := by
  cases query with
  | notOpened => rfl
  | notRead => rfl
  | read type bytes =>
      simp only [load]
      split
      · rfl
      · refine congrArg Prod.fst (sanitizeLoadedPolicy_congr fun i hi => ?_)
        simp [List.getD, hi]

-- A policy that holds nothing behind its entries in use.
def Canonical (p : Policy) : Prop :=
  p.count.toNat ≤ MAX_DEVICE_FILTER_ENTRIES ∧
    ∀ i (hi : i < MAX_DEVICE_FILTER_ENTRIES), p.count.toNat ≤ i → p.entries[i] = {}

theorem Canonical.eq_ofEntries {p : Policy} (h : Canonical p) : p = Policy.ofEntries p.mode p.active := by
  obtain ⟨mode, count, entries⟩ := p
  obtain ⟨hcount, hrest⟩ := h
  have hlength := length_active hcount
  simp only [Policy.ofEntries, Policy.mk.injEq, true_and]
  constructor
  · rw [hlength]
    simp
  · ext i hi
    simp only [Vector.getElem_ofFn]
    by_cases hlt : i < count.toNat
    · simp [Policy.active, List.getD, hlt, hi]
    · rw [hrest i hi (Nat.not_lt.mp hlt), List.getD_eq_getElem?_getD,
        List.getElem?_eq_none (by rw [hlength]; exact Nat.not_lt.mp hlt), Option.getD_none]

theorem sanitizeLoadedPolicy_canonical (raw : Policy) (actualBytes valueType : Nat) :
    Canonical (sanitizeLoadedPolicy raw actualBytes valueType).1 := by
  refine ⟨(sanitizeLoadedPolicy_count_le raw actualBytes valueType).trans (Nat.min_le_left _ _), fun i hi hle => ?_⟩
  unfold sanitizeLoadedPolicy at hle ⊢
  split
  · simp [makeFailClosedPolicy]
  · rename_i h
    rw [if_neg h] at hle
    have hcapacity : policyEntryCapacity < UInt32.size := by decide
    rw [UInt32.toNat_ofNat_of_lt' (lt_of_le_of_lt (Nat.min_le_right _ _) hcapacity)] at hle
    simp only [Vector.getElem_ofFn, if_neg (Nat.not_lt.mpr hle)]
    simp [makeFailClosedPolicy]

theorem load_canonical (garbage : Nat → Byte) (query : RegistryQuery) :
    Canonical (load garbage query) ∧
      ((load garbage query).mode = filterModeDisabled ∨ (load garbage query).mode = filterModeWhitelist) := by
  have hclosed : Canonical makeFailClosedPolicy ∧
      (makeFailClosedPolicy.mode = filterModeDisabled ∨ makeFailClosedPolicy.mode = filterModeWhitelist) :=
    ⟨⟨Nat.zero_le _, fun i hi _ => by simp [makeFailClosedPolicy]⟩, .inr rfl⟩
  cases query with
  | notOpened => exact hclosed
  | notRead => exact hclosed
  | read type bytes =>
    rw [load]
    split
    · exact hclosed
    · refine ⟨sanitizeLoadedPolicy_canonical _ _ _, ?_⟩
      rw [sanitizeLoadedPolicy_mode]
      split
      · exact .inl rfl
      · exact .inr rfl

theorem sanitizePolicyForStore_mode (p : Policy) : (sanitizePolicyForStore p).mode = filterModeDisabled ∨
    (sanitizePolicyForStore p).mode = filterModeWhitelist := by
  unfold sanitizePolicyForStore
  dsimp only
  split
  · rename_i hmode
    exact .inl hmode
  · exact .inr rfl

-- What is loaded depends on nothing behind the value, lets no device pass without a filter unless the value says so,
-- and is what was stored.
theorem loaded_policy_fails_closed (memory memory' garbage : Nat → Byte) (raw p : Policy) (actualBytes valueType : Nat)
    (hsame : ∀ i < actualBytes, memory i = memory' i) :
    sanitizeLoadedPolicy (Policy.ofMemory memory) actualBytes valueType =
        sanitizeLoadedPolicy (Policy.ofMemory memory') actualBytes valueType ∧
      (sanitizeLoadedPolicy raw actualBytes valueType).1.count.toNat ≤
        min MAX_DEVICE_FILTER_ENTRIES ((actualBytes - policyEntriesOffset) / sizeofDeviceFilterEntry) ∧
      (sanitizeLoadedPolicy raw actualBytes valueType).1.mode =
        (if valueType = REG_BINARY ∧ policyEntriesOffset ≤ actualBytes ∧ raw.mode = filterModeDisabled then
          filterModeDisabled
        else filterModeWhitelist) ∧
      (load garbage (.read REG_BINARY (storedBytes p))).mode = (sanitizePolicyForStore p).mode ∧
      (load garbage (.read REG_BINARY (storedBytes p))).count = (sanitizePolicyForStore p).count ∧
      (load garbage (.read REG_BINARY (storedBytes p))).active = (sanitizePolicyForStore p).active := by
  have hlength := length_active (sanitizePolicyForStore_count p)
  have hfits : (sanitizePolicyForStore p).active.length ≤ MAX_DEVICE_FILTER_ENTRIES :=
    hlength.trans_le (sanitizePolicyForStore_count p)
  have hload := load_policyBytes garbage (sanitizePolicyForStore_mode p) hfits
  rw [storedBytes_eq, hload]
  refine ⟨sanitizeLoadedPolicy_congr hsame, sanitizeLoadedPolicy_count_le _ _ _, sanitizeLoadedPolicy_mode _ _ _, rfl,
    ?_, ?_⟩
  · rw [← UInt32.toNat_inj, toNat_ofEntries_count _ hfits, hlength]
  · rw [Policy.active, toNat_ofEntries_count _ hfits, take_ofEntries hfits]

theorem loaded_policy_fails_closed_header :
    sanitizeLoadedPolicy (Policy.ofMemory fun _ => 0) 8 REG_BINARY =
      sanitizeLoadedPolicy (Policy.ofMemory fun i => if i < 8 then 0 else 1) 8 REG_BINARY :=
  (loaded_policy_fails_closed (fun _ => 0) (fun i => if i < 8 then 0 else 1) (fun _ => 0) {} {} 8 REG_BINARY
    (by decide)).1

end Usbip.DeviceFilter

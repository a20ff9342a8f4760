import Usbip.Vhci

namespace Usbip.Vhci

variable {vhci : VhciCtx} {d : Device}

@[simp] theorem set_devices (ctx : DeviceCtx) : (vhci.set d ctx).devices = vhci.devices := rfl

@[simp] theorem set_device_self (ctx : DeviceCtx) : (vhci.set d ctx).device d = ctx := by
  simp [VhciCtx.set]

theorem set_device_of_ne {e : Device} (h : e ≠ d) (ctx : DeviceCtx) :
    (vhci.set d ctx).device e = vhci.device e := by
  simp [VhciCtx.set, h]

theorem freeSlot_eq_some {i : Nat} (h : freeSlot vhci d = some i) : vhci.devices[i]? = some none := by
  simpa using List.find?_some h

theorem getDevice_eq_some {port : Int} (h : getDevice vhci port = some d) :
    vhci.devices[(port - 1).toNat]? = some (some d) := by
  unfold getDevice at h
  split at h
  · simpa [Option.join_eq_some_iff] using h
  · cases h

-- A device that has a port is in the slot of that port.
def Held (vhci : VhciCtx) : Prop :=
  ∀ d, (vhci.device d).port ≠ 0 →
    0 < (vhci.device d).port ∧ vhci.devices[((vhci.device d).port - 1).toNat]? = some (some d)

theorem Held.claim (h : Held vhci) (d : Device) : Held (claimRoothubPort vhci d).1 := by
  unfold claimRoothubPort
  split
  case h_1 => exact h
  case h_2 i hi =>
    have hfree := freeSlot_eq_some hi
    intro e he
    by_cases hed : e = d
    · subst hed
      have hlt : i < vhci.devices.length := (List.getElem?_eq_some_iff.mp hfree).1
      simp [VhciCtx.set, hlt]
    · simp only [VhciCtx.set, if_neg hed] at he ⊢
      obtain ⟨hpos, hslot⟩ := h e he
      have hne : i ≠ ((vhci.device e).port - 1).toNat := by
        intro heq
        rw [← heq, hfree] at hslot
        cases hslot
      exact ⟨hpos, by rw [List.getElem?_set_ne hne, hslot]⟩

theorem Held.reclaim (h : Held vhci) (d : Device) : Held (reclaimRoothubPort vhci d).1 := by
  unfold reclaimRoothubPort
  dsimp only
  split
  case isTrue => exact h
  case isFalse hport =>
    obtain ⟨_, hd⟩ := h d hport
    intro e he
    by_cases hed : e = d
    · subst hed
      simp [VhciCtx.set] at he
    · simp only [VhciCtx.set, if_neg hed] at he ⊢
      obtain ⟨hpos, hslot⟩ := h e he
      have hne : ((vhci.device d).port - 1).toNat ≠ ((vhci.device e).port - 1).toNat := by
        intro heq
        rw [heq, hslot] at hd
        simp [hed] at hd
      exact ⟨hpos, by rw [List.getElem?_set_ne hne, hslot]⟩

-- Reclaiming a port never puts a device into a slot.
theorem reclaim_slot {i : Nat} {e : Device}
    (h : (reclaimRoothubPort vhci d).1.devices[i]? = some (some e)) : vhci.devices[i]? = some (some e) := by
  unfold reclaimRoothubPort at h
  dsimp only at h
  split at h
  · exact h
  · rw [List.getElem?_set] at h
    split at h
    · split at h <;> simp at h
    · exact h

theorem claim_slot {i : Nat} {e : Device}
    (h : (claimRoothubPort vhci d).1.devices[i]? = some (some e)) :
    vhci.devices[i]? = some (some e) ∨ (freeSlot vhci d = some i ∧ e = d) := by
  unfold claimRoothubPort at h
  split at h
  case h_1 => exact .inl h
  case h_2 j hj =>
    dsimp only at h
    rw [List.getElem?_set] at h
    split at h
    case isTrue hji =>
      subst hji
      split at h
      · simp only [Option.some_inj] at h
        exact .inr ⟨hj, h.symm⟩
      · cases h
    case isFalse => exact .inl h

end Usbip.Vhci

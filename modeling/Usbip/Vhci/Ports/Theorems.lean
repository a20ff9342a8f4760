import Usbip.Vhci.Ports
import Usbip.Vhci.Theorems

namespace Usbip.Vhci

open Function
open Usbip.Library.Runs
open Usbip.Library.Words

-- The second range always keeps a port: the first one takes 254 at most.
theorem setUsbPortsCnt_bounds (key : Option PortsParameters) :
    1 ≤ (setUsbPortsCnt key).usb3 ∧ 1 ≤ (setUsbPortsCnt key).usb2 ∧
      (setUsbPortsCnt key).usb2 + (setUsbPortsCnt key).usb3 ≤ 255 := by
  simp only [setUsbPortsCnt, clampPorts, MIN_PORTS, MAX_PORTS, MAX_TOTAL_PORTS]
  omega

-- Both ranges of the table have a port, and the table is not too large for a hub.
structure Ranges (vhci : VhciCtx) : Prop where
  usb2 : 0 < vhci.usb2Ports
  usb3 : vhci.usb2Ports < vhci.devices.length
  total : vhci.devices.length ≤ 255

theorem ranges_allocDevices {key : Option PortsParameters} {vhci : VhciCtx}
    (h : allocDevices key true = .ok vhci) : Ranges vhci := by
  obtain ⟨husb3, husb2, htotal⟩ := setUsbPortsCnt_bounds key
  simp only [allocDevices, if_true, Except.ok.injEq] at h
  subst h
  constructor <;> simp only [List.length_replicate] <;> omega

theorem Ranges.nonempty {vhci : VhciCtx} (h : Ranges vhci) (speed : Int) :
    (getPortRange vhci speed).1 < (getPortRange vhci speed).2 ∧
      (getPortRange vhci speed).2 ≤ vhci.devices.length := by
  have husb2 := h.usb2
  have husb3 := h.usb3
  unfold getPortRange
  split <;> exact ⟨by assumption, by omega⟩

-- What the table says about a device is what the device says about itself.
structure Table (vhci : VhciCtx) : Prop where
  ranges : Ranges vhci
  port : ∀ d, 0 ≤ (vhci.device d).port
  slot : ∀ (i : Nat) d, vhci.devices[i]? = some (some d) ↔ (vhci.device d).port = i + 1
  range : ∀ (i : Nat) d, vhci.devices[i]? = some (some d) →
    (getPortRange vhci (vhci.device d).speed).1 ≤ i ∧ i < (getPortRange vhci (vhci.device d).speed).2

section Table

variable {vhci : VhciCtx} {d : Device}

theorem mem_range'_getPortRange {speed : Int} {i : Nat} :
    i ∈ List.range' (getPortRange vhci speed).1 ((getPortRange vhci speed).2 - (getPortRange vhci speed).1) ↔
      (getPortRange vhci speed).1 ≤ i ∧ i < (getPortRange vhci speed).2 := by
  rw [List.mem_range'_1]
  omega

theorem freeSlot_mem_range {i : Nat} (h : freeSlot vhci d = some i) :
    (getPortRange vhci (vhci.device d).speed).1 ≤ i ∧ i < (getPortRange vhci (vhci.device d).speed).2 :=
  mem_range'_getPortRange.mp (List.mem_of_find?_eq_some h)

theorem freeSlot_eq_none (hranges : Ranges vhci) (h : freeSlot vhci d = none) {i : Nat}
    (hfirst : (getPortRange vhci (vhci.device d).speed).1 ≤ i)
    (hlast : i < (getPortRange vhci (vhci.device d).speed).2) : ∃ e, vhci.devices[i]? = some (some e) := by
  have hmem := mem_range'_getPortRange.mpr ⟨hfirst, hlast⟩
  have hfree : ¬vhci.devices[i]? = some none := by simpa using List.find?_eq_none.mp h i hmem
  have hlt : i < vhci.devices.length := by
    have := (hranges.nonempty (vhci.device d).speed).2
    omega
  rw [List.getElem?_eq_getElem hlt] at hfree ⊢
  cases hslot : vhci.devices[i] with
  | none => exact absurd (congrArg some hslot) hfree
  | some e => exact ⟨e, rfl⟩

-- No port only if every slot of the range is taken.
theorem claimRoothubPort_eq_zero (hranges : Ranges vhci) (h : (claimRoothubPort vhci d).2 = 0) {i : Nat}
    (hfirst : (getPortRange vhci (vhci.device d).speed).1 ≤ i)
    (hlast : i < (getPortRange vhci (vhci.device d).speed).2) : ∃ e, vhci.devices[i]? = some (some e) := by
  unfold claimRoothubPort at h
  split at h
  case h_1 hnone => exact freeSlot_eq_none hranges hnone hfirst hlast
  case h_2 j _ =>
    dsimp only at h
    omega

theorem Table.getDevice (h : Table vhci) {port : Int} (hd : getDevice vhci port = some d) :
    (vhci.device d).port = port := by
  have hpos : 0 < port := by
    unfold Vhci.getDevice at hd
    split at hd
    case isTrue hvalid =>
      simp only [isValidPort, Bool.and_eq_true, decide_eq_true_eq] at hvalid
      exact hvalid.1
    case isFalse => cases hd
  rw [(h.slot _ d).mp (getDevice_eq_some hd)]
  omega

-- The speed of a device says which range is its own, and the ranges do not move.
theorem getPortRange_congr {vhci' : VhciCtx} (husb2 : vhci'.usb2Ports = vhci.usb2Ports)
    (hlength : vhci'.devices.length = vhci.devices.length) (speed : Int) :
    getPortRange vhci' speed = getPortRange vhci speed := by
  rw [getPortRange, getPortRange, husb2, hlength]

theorem Ranges.congr {vhci' : VhciCtx} (h : Ranges vhci) (husb2 : vhci'.usb2Ports = vhci.usb2Ports)
    (hlength : vhci'.devices.length = vhci.devices.length) : Ranges vhci' := by
  refine ⟨?_, ?_, ?_⟩
  · rw [husb2]
    exact h.usb2
  · rw [husb2, hlength]
    exact h.usb3
  · rw [hlength]
    exact h.total

-- One slot and the port of one device change together.
theorem Table.update (h : Table vhci) {i : Nat} {port : Int} {value : Option Device} {vhci' : VhciCtx}
    (husb2 : vhci'.usb2Ports = vhci.usb2Ports) (hdevices : vhci'.devices = vhci.devices.set i value)
    (hself : vhci'.device d = { vhci.device d with port := port })
    (hothers : ∀ e, e ≠ d → vhci'.device e = vhci.device e)
    (hlt : i < vhci.devices.length)
    (hother : ∀ e, e ≠ d → vhci.devices[i]? ≠ some (some e))
    (hslots : ∀ j, j ≠ i → vhci.devices[j]? ≠ some (some d))
    (hvalue : value = none ∧ port = 0 ∨
      value = some d ∧ port = i + 1 ∧ (getPortRange vhci (vhci.device d).speed).1 ≤ i ∧
        i < (getPortRange vhci (vhci.device d).speed).2) : Table vhci' := by
  have hlength : vhci'.devices.length = vhci.devices.length := by rw [hdevices, List.length_set]
  refine ⟨h.ranges.congr husb2 hlength, fun e => ?_, fun j e => ?_, fun j e hj => ?_⟩
  · by_cases hed : e = d
    · subst hed
      simp only [hself]
      omega
    · rw [hothers e hed]
      exact h.port e
  · rw [hdevices]
    by_cases hed : e = d
    · subst hed
      by_cases hji : i = j
      · subst hji
        obtain ⟨rfl, rfl⟩ | ⟨rfl, rfl, -⟩ := hvalue
        · simp only [List.getElem?_set_self hlt, hself]
          constructor
          · rintro ⟨⟩
          · omega
        · simp [hlt, hself]
      · simp only [List.getElem?_set_ne hji, hself]
        constructor
        · intro hj
          exact absurd hj (hslots j (Ne.symm hji))
        · omega
    · rw [hothers e hed, ← h.slot j e]
      by_cases hji : i = j
      · subst hji
        rw [List.getElem?_set_self hlt]
        refine iff_of_false ?_ (hother e hed)
        obtain ⟨rfl, -⟩ | ⟨rfl, -, -⟩ := hvalue
        · rintro ⟨⟩
        · rintro ⟨⟩
          exact hed rfl
      · rw [List.getElem?_set_ne hji]
  · rw [getPortRange_congr husb2 hlength]
    rw [hdevices, List.getElem?_set] at hj
    by_cases hji : i = j
    · subst hji
      obtain ⟨rfl, -⟩ | ⟨rfl, -, hrange⟩ := hvalue
      · simp [hlt] at hj
      · obtain rfl : d = e := by simpa [hlt] using hj
        simpa only [hself] using hrange
    · rw [if_neg hji] at hj
      have hed : e ≠ d := by
        rintro rfl
        exact hslots j (Ne.symm hji) hj
      rw [hothers e hed]
      exact h.range j e hj

theorem Table.claim (h : Table vhci) (hport : (vhci.device d).port = 0) : Table (claimRoothubPort vhci d).1 := by
  unfold claimRoothubPort
  split
  case h_1 => exact h
  case h_2 i hi =>
    have hfree := freeSlot_eq_some hi
    refine h.update rfl rfl (set_device_self _) (fun _ hed => set_device_of_ne hed _)
      (List.getElem?_eq_some_iff.mp hfree).1 (fun e _ he => ?_) (fun j _ hj => ?_)
      (.inr ⟨rfl, rfl, freeSlot_mem_range hi⟩)
    · rw [hfree] at he
      cases he
    · have := (h.slot j d).mp hj
      omega

theorem Table.reclaim (h : Table vhci) : Table (reclaimRoothubPort vhci d).1 := by
  unfold reclaimRoothubPort
  dsimp only
  split
  case isTrue => exact h
  case isFalse hport =>
    have hpos := h.port d
    obtain ⟨i, hi⟩ : ∃ i : Nat, (vhci.device d).port = i + 1 := ⟨((vhci.device d).port - 1).toNat, by omega⟩
    have hslot := (h.slot i d).mpr hi
    obtain hindex : ((vhci.device d).port - 1).toNat = i := by omega
    rw [hindex]
    refine h.update rfl rfl (set_device_self _) (fun _ hed => set_device_of_ne hed _)
      (List.getElem?_eq_some_iff.mp hslot).1 (fun e hed he => ?_) (fun j hji hj => ?_)
      (.inl ⟨rfl, rfl⟩)
    · rw [hslot] at he
      cases he
      exact hed rfl
    · have := (h.slot j d).mp hj
      omega

-- Nothing but the ports of devices is moved by a claim or a reclaim.
theorem claimRoothubPort_port (vhci : VhciCtx) (d : Device) :
    (claimRoothubPort vhci d).2 = 0 ∧ (claimRoothubPort vhci d).1 = vhci ∨
    0 < (claimRoothubPort vhci d).2 ∧ ((claimRoothubPort vhci d).1.device d).port = (claimRoothubPort vhci d).2 := by
  unfold claimRoothubPort
  split
  case h_1 => exact .inl ⟨rfl, rfl⟩
  case h_2 i _ => exact .inr ⟨by dsimp only; omega, by simp⟩

theorem claimRoothubPort_device_of_ne {e : Device} (h : e ≠ d) :
    (claimRoothubPort vhci d).1.device e = vhci.device e := by
  unfold claimRoothubPort
  split
  case h_1 => rfl
  case h_2 => exact set_device_of_ne h _

theorem claimRoothubPort_unplugged (vhci : VhciCtx) (d e : Device) :
    ((claimRoothubPort vhci d).1.device e).unplugged = (vhci.device e).unplugged := by
  by_cases h : e = d
  · subst h
    unfold claimRoothubPort
    split
    case h_1 => rfl
    case h_2 => simp
  · rw [claimRoothubPort_device_of_ne h]

theorem reclaimRoothubPort_port (vhci : VhciCtx) (d : Device) :
    (reclaimRoothubPort vhci d).2 = (vhci.device d).port ∧ ((reclaimRoothubPort vhci d).1.device d).port = 0 := by
  unfold reclaimRoothubPort
  dsimp only
  split
  case isTrue hport => exact ⟨hport.symm, hport⟩
  case isFalse => exact ⟨rfl, by simp⟩

theorem reclaimRoothubPort_device_of_ne {e : Device} (h : e ≠ d) :
    (reclaimRoothubPort vhci d).1.device e = vhci.device e := by
  unfold reclaimRoothubPort
  dsimp only
  split
  case isTrue => rfl
  case isFalse => exact set_device_of_ne h _

theorem reclaimRoothubPort_unplugged (e : Device) :
    ((reclaimRoothubPort vhci d).1.device e).unplugged = (vhci.device e).unplugged := by
  by_cases h : e = d
  · subst h
    unfold reclaimRoothubPort
    dsimp only
    split
    case isTrue => rfl
    case isFalse => simp
  · rw [reclaimRoothubPort_device_of_ne h]

-- The flag of a device is none of the table's business.
theorem Table.set (h : Table vhci) {ctx : DeviceCtx} (hport : ctx.port = (vhci.device d).port)
    (hspeed : ctx.speed = (vhci.device d).speed) : Table (vhci.set d ctx) := by
  have hdevice (e : Device) : ((vhci.set d ctx).device e).port = (vhci.device e).port ∧
      ((vhci.set d ctx).device e).speed = (vhci.device e).speed := by
    by_cases hed : e = d
    · subst hed
      simpa using ⟨hport, hspeed⟩
    · simp [set_device_of_ne hed]
  refine ⟨h.ranges.congr rfl rfl, fun e => ?_, fun i e => ?_, fun i e hi => ?_⟩
  · rw [(hdevice e).1]
    exact h.port e
  · rw [(hdevice e).1]
    exact h.slot i e
  · rw [(hdevice e).2]
    exact h.range i e hi

end Table

namespace Ports

-- How often the claim of a device was undone, and how far a call of `detach` has got.
structure Counts (st : State) (d : Device) : Prop where
  claims : st.claims d ≤ if st.attempted d then 1 else 0
  reclaims : st.attempted d = false → st.reclaims d = 0
  undone : st.undone d = min (st.claims d) (st.reclaims d)
  port : (st.vhci.device d).port ≠ 0 ↔ st.undone d < st.claims d
  detached : (st.vhci.device d).unplugged = true → st.attempted d = true → st.detaching d = true ∨ 0 < st.reclaims d

structure Inv (st : State) : Prop where
  table : Table st.vhci
  counts : ∀ d, Counts st d

variable {st t : State} {d : Device}

theorem inv_init (h : machine.init st) : Inv st := by
  obtain ⟨key, speed, vhci, hvhci, rfl⟩ := h
  have hslots : ∀ (i : Nat) (d : Device), vhci.devices[i]? ≠ some (some d) := by
    intro i d
    simp only [allocDevices, if_true, Except.ok.injEq] at hvhci
    subst hvhci
    simp only [List.getElem?_replicate]
    split <;> simp
  refine ⟨⟨?_, fun _ => le_refl _, fun i d => ?_, fun i d hi => absurd hi (hslots i d)⟩, fun d => ?_⟩
  · obtain ⟨husb2, husb3, htotal⟩ := ranges_allocDevices hvhci
    exact ⟨husb2, husb3, htotal⟩
  · refine iff_of_false (hslots i d) ?_
    simp only
    omega
  · constructor <;> simp

theorem Inv.claim (hi : Inv st) (hfirst : st.attempted d = false) (hplugged : (st.vhci.device d).unplugged = false) :
    Inv (claim st d) := by
  have hcounts := hi.counts d
  have hclaims : st.claims d = 0 := by simpa [hfirst] using hcounts.claims
  have hundone : st.undone d = 0 := by simpa [hclaims] using hcounts.undone
  have hport : (st.vhci.device d).port = 0 := by
    by_contra hport
    have := hcounts.port.mp hport
    omega
  refine ⟨hi.table.claim hport, fun e => ?_⟩
  by_cases hed : e = d
  · subst hed
    have hreclaims := hcounts.reclaims hfirst
    have hunplugged := claimRoothubPort_unplugged st.vhci e e
    rw [hplugged] at hunplugged
    constructor
    all_goals simp only [Ports.claim, update_self, hunplugged, hclaims, hundone, hreclaims]
    · split <;> simp
    · simp
    · simp
    · obtain ⟨hzero, hvhci⟩ | ⟨hpos, hnew⟩ := claimRoothubPort_port st.vhci e
      · simp [hzero, hvhci, hport]
      · have hne : (claimRoothubPort st.vhci e).2 ≠ 0 := by omega
        simp [hne, hnew]
    · simp
  · obtain ⟨h1, h2, h3, h4, h5⟩ := hi.counts e
    constructor
    all_goals simpa only [Ports.claim, update_of_ne hed, claimRoothubPort_device_of_ne hed]

theorem Inv.reclaim (hi : Inv st) : Inv (reclaim st d) := by
  refine ⟨hi.table.reclaim, fun e => ?_⟩
  by_cases hed : e = d
  · subst hed
    obtain ⟨hclaims, hreclaims, hundone, hport, hdetached⟩ := hi.counts e
    obtain ⟨hret, hzero⟩ := reclaimRoothubPort_port st.vhci e
    constructor
    all_goals simp only [Ports.reclaim, update_self, hret, hzero, reclaimRoothubPort_unplugged]
    · exact hclaims
    · intro hattempted
      rw [hattempted]
      exact hreclaims hattempted
    · -- a claim that is not undone yet has seen no reclaim
      cases hattempted : st.attempted e with
      | false =>
          have hnone : st.claims e = 0 := by simpa [hattempted] using hclaims
          have hfree : (st.vhci.device e).port = 0 := by
            by_contra hne
            have := hport.mp hne
            omega
          simp [hfree, hundone, hnone]
      | true =>
          have hone : st.claims e ≤ 1 := by simpa [hattempted] using hclaims
          by_cases hfree : (st.vhci.device e).port = 0
          · have hdone : ¬st.undone e < st.claims e := fun hlt => hport.mpr hlt hfree
            simp only [hfree, if_true]
            omega
          · have hlt := hport.mp hfree
            simp only [hfree, if_true, if_false]
            omega
    · by_cases hfree : (st.vhci.device e).port = 0
      · simpa [hfree] using hport
      · have hone : st.claims e ≤ 1 := by
          refine le_trans hclaims ?_
          split <;> omega
        simp only [hfree, if_false, ne_eq, not_true_eq_false, false_iff]
        omega
    · intro hflag hattempted
      refine (hdetached hflag hattempted).imp id fun hpos => ?_
      split <;> omega
  · obtain ⟨h1, h2, h3, h4, h5⟩ := hi.counts e
    constructor
    all_goals simpa only [Ports.reclaim, update_of_ne hed, reclaimRoothubPort_device_of_ne hed]

theorem reclaim_reclaims (hattempted : st.attempted d = true) : 0 < (Ports.reclaim st d).reclaims d := by
  simp [Ports.reclaim, hattempted]

theorem Inv.step {a : Action} (hi : Inv st) (hs : step st a = some t) : Inv t := by
  cases a with
  | claim d =>
      simp only [Ports.step] at hs
      split at hs
      case isTrue => cases hs
      case isFalse hfirst =>
        cases hs
        obtain ⟨hfirst, hplugged⟩ := not_or.mp hfirst
        exact hi.claim (by simpa using hfirst) (by simpa using hplugged)
  | reclaim d =>
      cases hs
      exact hi.reclaim
  | detach d =>
      simp only [Ports.step] at hs
      split at hs
      case isTrue =>
        cases hs
        exact hi
      case isFalse =>
        cases hs
        refine ⟨hi.table.set rfl rfl, fun e => ?_⟩
        obtain ⟨h1, h2, h3, h4, h5⟩ := hi.counts e
        by_cases hed : e = d
        · subst hed
          refine ⟨h1, h2, h3, by simpa using h4, fun _ _ => .inl ?_⟩
          simp
        · constructor
          all_goals simpa only [set_device_of_ne hed, update_of_ne hed]
  | detachReclaim d =>
      simp only [Ports.step] at hs
      split at hs
      case isTrue hdetaching =>
        cases hs
        have hnext : Inv (Ports.reclaim st d) := hi.reclaim
        refine ⟨hnext.table, fun e => ?_⟩
        obtain ⟨h1, h2, h3, h4, h5⟩ := hnext.counts e
        refine ⟨h1, h2, h3, h4, fun hflag hattempted => ?_⟩
        by_cases hed : e = d
        · subst hed
          exact .inr (reclaim_reclaims hattempted)
        · simp only [update_of_ne hed]
          exact h5 hflag hattempted
      case isFalse => cases hs
  | getDevice port =>
      cases hs
      exact hi

-- The table in every state that any order of the calls reaches.
theorem portTable (st : State) (h : machine.Reachable (fun _ _ => True) st) :
    (∀ speed, (getPortRange st.vhci speed).1 < (getPortRange st.vhci speed).2) ∧
    st.vhci.usb2Ports < st.vhci.devices.length ∧ st.vhci.devices.length ≤ 255 ∧
    (∀ (i : Nat) d, st.vhci.devices[i]? = some (some d) ↔ (st.vhci.device d).port = i + 1) ∧
    (∀ port d, getDevice st.vhci port = some d → (st.vhci.device d).port = port) ∧
    (∀ (i : Nat) d, st.vhci.devices[i]? = some (some d) →
      (getPortRange st.vhci (st.vhci.device d).speed).1 ≤ i ∧
      i < (getPortRange st.vhci (st.vhci.device d).speed).2) ∧
    (∀ d, st.claims d ≤ 1 ∧ st.undone d = min (st.claims d) (st.reclaims d) ∧
      ((st.vhci.device d).unplugged = true ∧ st.detaching d = false → st.undone d = st.claims d)) ∧
    (∀ d, (claimRoothubPort st.vhci d).2 = 0 → ∀ i : Nat,
      (getPortRange st.vhci (st.vhci.device d).speed).1 ≤ i ∧
      i < (getPortRange st.vhci (st.vhci.device d).speed).2 → ∃ e, st.vhci.devices[i]? = some (some e)) := by
  have hi : Inv st := h.invariant (fun _ => inv_init) (fun _ _ _ hi _ hs => hi.step hs)
  have hranges := hi.table.ranges
  refine ⟨fun speed => (hranges.nonempty speed).1, hranges.usb3, hranges.total, hi.table.slot,
    fun port d => hi.table.getDevice, hi.table.range, fun d => ?_, fun d hfull i hin => ?_⟩
  · have hcounts := hi.counts d
    have hclaims : st.claims d ≤ 1 := by
      refine le_trans hcounts.claims ?_
      split <;> omega
    refine ⟨hclaims, hcounts.undone, fun ⟨hflag, hdetaching⟩ => ?_⟩
    have hundone := hcounts.undone
    cases hattempted : st.attempted d with
    | false =>
        have hnone := hcounts.claims
        rw [hattempted] at hnone
        simp only [Bool.false_eq_true, if_false] at hnone
        omega
    | true =>
        obtain hdet | hpos := hcounts.detached hflag hattempted
        · rw [hdetaching] at hdet
          cases hdet
        · omega
  · exact claimRoothubPort_eq_zero hranges hfull hin.1 hin.2

-- A port for USB 2 and one for USB 3: the registry asks for no port and, read as `int`, for less than that.
def smallTable : State :=
  { vhci :=
      { usb2Ports := 1
        devices := List.replicate 2 none
        device := fun d => { speed := if d < 2 then 3 else 5 } } }

theorem init_smallTable : machine.init smallTable := by
  refine ⟨some ⟨some 0, some 4000000000⟩, fun d => if d < 2 then 3 else 5, { usb2Ports := 1, devices := [none, none] },
    ?_, rfl⟩
  rfl

-- Device 1 finds the USB 2 port taken by device 0; both ways to give a port back meet.
theorem portTable_detach :
    ∃ st, machine.Reachable (fun _ _ => True) st ∧ st.claims 0 = 1 ∧ st.claims 1 = 0 ∧ st.claims 2 = 1 ∧
      st.undone 0 = st.claims 0 ∧ (getDevice st.vhci 2 = some 2 → (st.vhci.device 2).port = 2) := by
  have hinit : machine.Reachable (fun _ _ => True) smallTable := .init init_smallTable
  have hrun : (machine.run (fun _ _ => True) smallTable
      [.claim 0, .claim 1, .claim 2, .detach 0, .reclaim 0, .detach 0, .detachReclaim 0, .getDevice 2]).any
      (fun st => decide (st.claims 0 = 1 ∧ st.claims 1 = 0 ∧ st.claims 2 = 1 ∧
        (st.vhci.device 0).unplugged = true ∧ st.detaching 0 = false)) = true := by
    decide +kernel
  obtain ⟨st, hst, hcounts⟩ := hinit.exists_run hrun
  obtain ⟨h0, h1, h2, hdetached⟩ := of_decide_eq_true hcounts
  obtain ⟨-, -, -, -, hget, -, hundone, -⟩ := portTable st hst
  exact ⟨st, hst, h0, h1, h2, (hundone 0).2.2 hdetached, hget 2 2⟩

end Ports

end Usbip.Vhci

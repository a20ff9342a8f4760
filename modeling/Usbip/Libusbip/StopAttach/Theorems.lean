import Usbip.Libusbip.StopAttach
import Usbip.Libusbip.Theorems
import Usbip.Persistent.DeviceStr.Theorems
import Usbip.VhciIoctl.StopAttach.Theorems

namespace Usbip.Libusbip.StopAttach

open Usbip.Library.Words
open Usbip.Libusbip.Persistent (DeviceLocation)
open Usbip.Persistent (cString)
open Usbip.VhciIoctl
open Usbip.VhciIoctl.Imported (BUS_ID_SIZE sizeofService sizeofHost)
open Usbip.VhciIoctl.StopAttach

section Fields

variable {rest : Nat → Byte} {f : Field}

theorem length_padded (h : f.Fits) : f.padded.length = f.len := by
  have hlt : f.text.length < f.len := h
  rw [Field.padded, List.length_append, List.length_replicate]
  omega

theorem strncpyS_of_fits (h : f.Fits) : strncpyS rest f = (f.padded, 0) := if_pos h

theorem strncpyS_of_not_fits (h : ¬f.Fits) :
    strncpyS rest f = (0 :: (List.range (f.len - 1)).map rest, ERANGE) := if_neg h

theorem headD_text (f : Field) : f.padded.headD 0 ≠ 0 ↔ f.text ≠ [] := by
  unfold Field.padded
  cases htext : f.text with
  | nil => cases hlen : f.len <;> simp [List.replicate]
  | cons c text =>
      have hc : decide (c ≠ 0) = true := by
        have hmem : c ∈ f.src.takeWhile (· ≠ 0) := by
          show c ∈ f.text
          rw [htext]
          exact List.mem_cons_self
        exact List.all_eq_true.mp List.all_takeWhile c hmem
      simpa using hc

theorem assignFields_cons (h : f.Fits) (fields : List Field) :
    assignFields rest (f :: fields) = (f.padded ++ (assignFields rest fields).1, (assignFields rest fields).2) := by
  rw [assignFields, strncpyS_of_fits h]
  rfl

theorem assignFields_of_fits {fields : List Field} (h : ∀ f ∈ fields, f.Fits) :
    assignFields rest fields = (fields.flatMap Field.padded, ERROR_SUCCESS) := by
  induction fields with
  | nil => rfl
  | cons f fields ih =>
      have hothers := ih fun g hg => h g (List.mem_cons_of_mem _ hg)
      rw [assignFields_cons (h f List.mem_cons_self), hothers, List.flatMap_cons]

theorem assignFields_of_not_fits (h : ¬f.Fits) (fields : List Field) :
    assignFields rest (f :: fields) =
      ((0 :: (List.range (f.len - 1)).map rest) ++ zeroed fields, ERROR_INVALID_PARAMETER) := by
  rw [assignFields, strncpyS_of_not_fits h]
  rfl

theorem headD_replicate (n : Nat) : (List.replicate n (0 : Byte)).headD 0 = 0 := by
  cases n <;> rfl

-- Only a string that does not fit makes `assign` fail.
theorem assignFields_error {fields : List Field} (h : ¬∀ f ∈ fields, f.Fits) :
    (assignFields rest fields).2 = ERROR_INVALID_PARAMETER := by
  induction fields with
  | nil => exact absurd (fun _ hf => absurd hf List.not_mem_nil) h
  | cons f fields ih =>
      by_cases hf : f.Fits
      · have hothers : ¬∀ g ∈ fields, g.Fits := fun hall => h (List.forall_mem_cons.mpr ⟨hf, hall⟩)
        rw [assignFields_cons hf]
        exact ih hothers
      · rw [assignFields_of_not_fits hf]

end Fields

section Request

variable {busid service host : List Byte}

-- What follows the port in the structure, from each array on.
theorem drop_busid (busid rest : List Byte) : (request (busid ++ rest)).drop offsetofBusid =
    busid ++ (rest ++ (List.replicate 3 0 ++ bytes32 0)) := by
  rw [request, ← List.append_assoc, List.drop_left' (by rfl), List.append_assoc]

theorem drop_service (service rest : List Byte) (hbusid : busid.length = BUS_ID_SIZE) :
    (request (busid ++ (service ++ rest))).drop offsetofService =
      service ++ (rest ++ (List.replicate 3 0 ++ bytes32 0)) := by
  rw [show offsetofService = offsetofBusid + BUS_ID_SIZE from rfl, ← List.drop_drop, drop_busid,
    List.drop_left' hbusid, List.append_assoc]

theorem drop_host (host : List Byte) (hbusid : busid.length = BUS_ID_SIZE) (hservice : service.length = sizeofService) :
    (request (busid ++ (service ++ host))).drop offsetofHost = host ++ (List.replicate 3 0 ++ bytes32 0) := by
  rw [show offsetofHost = offsetofService + sizeofService from rfl, ← List.drop_drop, drop_service service host hbusid,
    List.drop_left' hservice]

theorem byteAt_eq_drop (buffer : List Byte) (offset : Nat) : byteAt buffer offset = (buffer.drop offset).headD 0 := by
  rw [byteAt, List.headD_eq_head?_getD, List.head?_drop, List.getD_eq_getElem?_getD]

theorem headD_append {xs : List Byte} (h : 0 < xs.length) (ys : List Byte) : (xs ++ ys).headD 0 = xs.headD 0 := by
  cases xs with
  | nil => cases h
  | cons => rfl

theorem length_request (arrays : List Byte) : (request arrays).length = arrays.length + 15 := by
  simp only [request, bytes32, List.length_append, List.length_cons, List.length_nil, List.length_replicate]
  omega

-- The request that the driver is given for the arrays.
def received (pool : Nat → Byte) (arrays : List Byte) : Request :=
  systemRequest (request arrays) (request arrays).length pool

variable {pool : Nat → Byte}

theorem buffer_received (arrays : List Byte) : (received pool arrays).buffer = request arrays := by
  simp [received, systemRequest]

variable (hbusid : busid.length = BUS_ID_SIZE) (hservice : service.length = sizeofService)
    (hhost : host.length = sizeofHost)

include hbusid hservice hhost

theorem length_arrays : (request (busid ++ (service ++ host))).length = sizeofStopAttachAttempts := by
  rw [length_request, List.length_append, List.length_append, hbusid, hservice, hhost]
  rfl

theorem checkInput_received :
    checkInput (received pool (busid ++ (service ++ host))) sizeofStopAttachAttempts = .STATUS_SUCCESS := by
  have hlength := length_arrays hbusid hservice hhost
  have hinput : (received pool (busid ++ (service ++ host))).inputLength = sizeofStopAttachAttempts := hlength
  have hsize : ulongAt (request (busid ++ (service ++ host))) 0 = UInt32.ofNat sizeofStopAttachAttempts := by
    simp [ulongAt, byteAt, request, bytes32]
  unfold checkInput
  rw [hinput, buffer_received, hsize]
  rfl

theorem locationStrings_received : locationStrings (received pool (busid ++ (service ++ host))) =
    [host, service, busid].countP fun array => array.headD 0 != 0 := by
  have hb : 0 < busid.length := by rw [hbusid]; decide
  have hs : 0 < service.length := by rw [hservice]; decide
  have hh : 0 < host.length := by rw [hhost]; decide
  simp only [locationStrings, buffer_received, List.countP_cons, List.countP_nil, byteAt_eq_drop, drop_busid,
    drop_service _ _ hbusid, drop_host _ hbusid hservice, headD_append hb, headD_append hs, headD_append hh]

theorem arrays_received (pool : Nat → Byte) :
    (arrayAt (received pool (busid ++ (service ++ host))).buffer offsetofHost sizeofHost = host ∧
    arrayAt (received pool (busid ++ (service ++ host))).buffer offsetofService sizeofService = service) ∧
      arrayAt (received pool (busid ++ (service ++ host))).buffer offsetofBusid BUS_ID_SIZE = busid := by
  simp only [arrayAt, buffer_received, drop_busid, drop_service _ _ hbusid, drop_host _ hbusid hservice]
  exact ⟨⟨List.take_left' hhost, List.take_left' hservice⟩, List.take_left' hbusid⟩

-- The count that the driver writes is read back.
theorem ulongAt_count (cnt : UInt32) :
    ulongAt (overwrite (request (busid ++ (service ++ host))) offsetofStopCount (bytes32 cnt)) offsetofStopCount =
      cnt := by
  let before := bytes32 (UInt32.ofNat sizeofStopAttachAttempts) ++
    (bytes32 0 ++ (busid ++ (service ++ (host ++ List.replicate 3 0))))
  have hrequest : request (busid ++ (service ++ host)) = before ++ (bytes32 0 ++ []) := by
    simp only [before, request, List.append_assoc, List.append_nil]
  have hbefore : before.length = offsetofStopCount := by
    have hlength := length_arrays hbusid hservice hhost
    rw [hrequest, List.length_append] at hlength
    exact Nat.add_right_cancel hlength
  have hlength : (bytes32 0).length = (bytes32 cnt).length := rfl
  rw [overwrite_of_append hrequest hbefore.symm hlength, ← hbefore]
  exact ulongAt_of_holds (holds_byteAt before (bytes32 cnt) [])

-- A request whose strings stand for a hash takes the requests of this hash out of the collection.
theorem control_of_hash {sys : Services} {hash : UInt32} (st : Usbip.Persistent.Requests.State)
    (hhash : targetHash sys (received pool (busid ++ (service ++ host))) = (.STATUS_SUCCESS, hash)) :
    control sys pool st (request (busid ++ (service ++ host))) =
      { sent := some (request (busid ++ (service ++ host)))
        result := signed (UInt32.ofNat (st.reattachReq.countP (isTarget st hash)))
        state := { st with reattachReq := st.reattachReq.filter fun r => !isTarget st hash r } } := by
  have hlength := length_arrays hbusid hservice hhost
  have hinput : checkInput (received pool (busid ++ (service ++ host))) sizeofStopAttachAttempts = .STATUS_SUCCESS :=
    checkInput_received hbusid hservice hhost
  have hreply : VhciIoctl.StopAttach.stopAttachAttempts sys st (received pool (busid ++ (service ++ host))) = _ :=
    stopAttachAttempts_of_hash hinput hhash
  have hcnt := ulongAt_count hbusid hservice hhost (UInt32.ofNat (st.reattachReq.countP (isTarget st hash)))
  rw [buffer_received, ← hlength] at hreply
  have hres := deviceIoControl_of_success (fun q => (VhciIoctl.StopAttach.stopAttachAttempts sys st q).1) pool
    (congrArg Prod.fst hreply) (length_overwrite _ _ _)
  unfold control
  rw [hres, ← received, hreply]
  simp only [hlength, hcnt, ne_eq, not_true_eq_false, if_false]

-- Without any string all requests are taken out.
theorem control_all (sys : Services) (st : Usbip.Persistent.Requests.State)
    (hempty : ∀ array ∈ [host, service, busid], array.headD 0 = 0) :
    control sys pool st (request (busid ++ (service ++ host))) =
      { sent := some (request (busid ++ (service ++ host)))
        result := signed (UInt32.ofNat st.reattachReq.length)
        state := { st with reattachReq := [] } } := by
  have hstrings : locationStrings (received pool (busid ++ (service ++ host))) = 0 := by
    rw [locationStrings_received hbusid hservice hhost]
    exact List.countP_eq_zero.mpr fun array harray => by rw [hempty array harray]; decide
  have htarget : targetHash sys (received pool (busid ++ (service ++ host))) = (.STATUS_SUCCESS, 0) := by
    rw [targetHash, if_pos hstrings]
  have hall : ∀ r ∈ st.reattachReq, isTarget st 0 r = true := fun r _ => rfl
  have hnone : st.reattachReq.filter (fun r => !isTarget st 0 r) = [] :=
    List.filter_eq_nil_iff.mpr fun r hr => by simp [hall r hr]
  rw [control_of_hash hbusid hservice hhost st htarget, List.countP_eq_length.mpr hall, hnone]

-- With some of the strings only the driver refuses the request.
theorem control_some (sys : Services) (st : Usbip.Persistent.Requests.State) (hempty : host.headD 0 = 0)
    (hsome : busid.headD 0 ≠ 0) :
    control sys pool st (request (busid ++ (service ++ host))) =
      { sent := some (request (busid ++ (service ++ host)))
        result := -1
        lastError := some .ERROR_INVALID_PARAMETER
        state := st } := by
  have hinput : checkInput (received pool (busid ++ (service ++ host))) sizeofStopAttachAttempts = .STATUS_SUCCESS :=
    checkInput_received hbusid hservice hhost
  have htarget : targetHash sys (received pool (busid ++ (service ++ host))) = (.STATUS_INVALID_PARAMETER, 0) := by
    have hstrings : locationStrings (received pool (busid ++ (service ++ host))) = _ :=
      locationStrings_received hbusid hservice hhost
    have hhost0 : (host.headD 0 != 0) = false := by rw [hempty]; decide
    have hbusid0 : (busid.headD 0 != 0) = true := bne_iff_ne.mpr hsome
    simp only [List.countP_cons, List.countP_nil, hhost0, hbusid0, if_true, Bool.false_eq_true, if_false] at hstrings
    have hsome : locationStrings (received pool (busid ++ (service ++ host))) ≠ 0 := by omega
    have hmissing : locationStrings (received pool (busid ++ (service ++ host))) ≠ 3 := by
      split at hstrings <;> omega
    rw [targetHash, if_neg hsome, if_pos hmissing]
  have hreply : VhciIoctl.StopAttach.stopAttachAttempts sys st (received pool (busid ++ (service ++ host))) = _ :=
    stopAttachAttempts_of_error hinput (by rw [htarget]; rfl)
  rw [htarget] at hreply
  have hres := deviceIoControl_of_error (fun q => (VhciIoctl.StopAttach.stopAttachAttempts sys st q).1) pool
    (congrArg Prod.fst hreply) rfl
  unfold control
  rw [hres, ← received, hreply]
  rfl

end Request

section Calls

variable {sys : Services} {rest pool : Nat → Byte} {st : Usbip.Persistent.Requests.State} {location : DeviceLocation}

theorem stopAttachAttempts_of_fits (h : Fits location) :
    Refuses st (stopAttachAttempts sys rest pool st (some location)) := by
  have hassign : assign rest location = (arrays location, ERROR_SUCCESS) := assignFields_of_fits h
  rw [stopAttachAttempts, hassign]
  exact ⟨rfl, rfl, rfl⟩

theorem control_sent (r : List Byte) : (control sys pool st r).sent = some r := by
  unfold control
  simp only []
  split
  · rfl
  · split <;> rfl

theorem arrays_eq (location : DeviceLocation) :
    arrays location = Field.padded ⟨BUS_ID_SIZE, location.busid⟩ ++
      (Field.padded ⟨sizeofService, location.service⟩ ++ Field.padded ⟨sizeofHost, location.hostname⟩) := by
  simp only [arrays, fields, List.flatMap_cons, List.flatMap_nil, List.append_nil]

theorem signed_ofNat {n : Nat} (h : n < 2 ^ 31) : signed (UInt32.ofNat n) = n := by
  have htoNat : (UInt32.ofNat n).toNat = n := UInt32.toNat_ofNat_of_lt' (by simp only [UInt32.size]; omega)
  rw [signed, htoNat, if_pos h]

theorem isTarget_of_ne_zero {hash : UInt32} (h : hash ≠ 0) :
    isTarget st hash = fun r => st.locationHash r == hash := by
  funext r
  rw [isTarget, beq_eq_false_iff_ne.mpr h, Bool.false_or, Bool.beq_comm]

-- All three strings of the request are there.
theorem targetHash_arrays (hcomplete : Complete location) (hfits : Fits location) :
    targetHash sys (received pool (arrays location)) = locationHash sys location := by
  simp only [Fits, Complete, fields, List.forall_mem_cons, List.not_mem_nil, false_imp_iff, implies_true, and_true]
    at hfits hcomplete
  obtain ⟨hbusid, hservice, hhost⟩ := hfits
  obtain ⟨hbusid', hservice', hhost'⟩ := hcomplete
  have hstrings : locationStrings (received pool (arrays location)) = 3 := by
    rw [arrays_eq, locationStrings_received (length_padded hbusid) (length_padded hservice) (length_padded hhost)]
    have hall : ∀ array ∈ [Field.padded ⟨sizeofHost, location.hostname⟩,
        Field.padded ⟨sizeofService, location.service⟩, Field.padded ⟨BUS_ID_SIZE, location.busid⟩],
        (array.headD 0 != 0) = true := by
      simp only [List.forall_mem_cons, List.not_mem_nil, false_imp_iff, implies_true, and_true, bne_iff_ne, headD_text]
      exact ⟨hhost', hservice', hbusid'⟩
    exact List.countP_eq_length.mpr hall
  have harrays := arrays_received (length_padded hbusid) (length_padded hservice) (length_padded hhost) pool
  rw [← arrays_eq] at harrays
  rw [targetHash, hstrings, harrays.1.1, harrays.1.2, harrays.2]
  rfl

-- Given the strings of a location, the driver does what the call is for.
theorem control_stops (hcomplete : Complete location) (hfits : Fits location) (hlen : st.reattachReq.length < 2 ^ 31) :
    Stops sys st location (control sys pool st (request (arrays location))) where
  sent := control_sent _
  stopped := by
    intro hash hhash hne _
    have htarget : targetHash sys (received pool (arrays location)) = (.STATUS_SUCCESS, hash) :=
      (targetHash_arrays hcomplete hfits).trans hhash
    have hle : st.reattachReq.countP (isTarget st hash) ≤ st.reattachReq.length := List.countP_le_length
    simp only [Fits, fields, List.forall_mem_cons, List.not_mem_nil, false_imp_iff, implies_true, and_true] at hfits
    obtain ⟨hbusid, hservice, hhost⟩ := hfits
    rw [arrays_eq] at htarget ⊢
    rw [control_of_hash (length_padded hbusid) (length_padded hservice) (length_padded hhost) st htarget,
      signed_ofNat (by omega), isTarget_of_ne_zero hne]
    exact ⟨rfl, rfl⟩

theorem stopAttachAttempts_of_not_fits (h : ¬Fits location) :
    stopAttachAttempts sys rest pool st (some location) = control sys pool st (request (assign rest location).1) := by
  have herr : (assign rest location).2 = ERROR_INVALID_PARAMETER := assignFields_error h
  have hne : (assign rest location).2 ≠ 0 := by rw [herr]; decide
  rw [stopAttachAttempts]
  exact if_neg hne

-- Without a location the attempts for all of them are stopped.
theorem stopAttachAttempts_all (hlen : st.reattachReq.length < 2 ^ 31) :
    (stopAttachAttempts sys rest pool st none).result = st.reattachReq.length ∧
      (stopAttachAttempts sys rest pool st none).state = { st with reattachReq := [] } := by
  have hzeroed : zeroed (fields {}) =
      List.replicate BUS_ID_SIZE 0 ++ (List.replicate sizeofService 0 ++ List.replicate sizeofHost 0) := by
    simp only [zeroed, fields, List.flatMap_cons, List.flatMap_nil, List.append_nil]
  rw [stopAttachAttempts, hzeroed, control_all List.length_replicate List.length_replicate List.length_replicate]
  · exact ⟨signed_ofNat hlen, rfl⟩
  · simp only [List.forall_mem_cons, List.not_mem_nil, false_imp_iff, implies_true, headD_replicate, and_self]

-- A bus id that does not fit makes it a call for all locations.
theorem stopAttachAttempts_of_long_busid (h : ¬Field.Fits ⟨BUS_ID_SIZE, location.busid⟩)
    (hlen : st.reattachReq.length < 2 ^ 31) :
    (stopAttachAttempts sys rest pool st (some location)).result = st.reattachReq.length ∧
      (stopAttachAttempts sys rest pool st (some location)).state = { st with reattachReq := [] } := by
  have hfits : ¬Fits location := fun hall => h (hall _ List.mem_cons_self)
  have hassign : (assign rest location).1 = (0 :: (List.range (BUS_ID_SIZE - 1)).map rest) ++
      (List.replicate sizeofService 0 ++ List.replicate sizeofHost 0) := by
    rw [assign, fields, assignFields_of_not_fits h]
    simp only [zeroed, List.flatMap_cons, List.flatMap_nil, List.append_nil]
  have hbusid : (0 :: (List.range (BUS_ID_SIZE - 1)).map rest).length = BUS_ID_SIZE := by
    rw [List.length_cons, List.length_map, List.length_range]
    rfl
  rw [stopAttachAttempts_of_not_fits hfits, hassign,
    control_all hbusid List.length_replicate List.length_replicate]
  · exact ⟨signed_ofNat hlen, rfl⟩
  · simp only [List.forall_mem_cons, List.not_mem_nil, false_imp_iff, implies_true, headD_replicate,
      List.headD_cons, and_self]

theorem assign_of_long_string (hbusid : Field.Fits ⟨BUS_ID_SIZE, location.busid⟩) (h : ¬Fits location)
    (rest : Nat → Byte) :
    ∃ service host, (assign rest location).1 = Field.padded ⟨BUS_ID_SIZE, location.busid⟩ ++ (service ++ host) ∧
      service.length = sizeofService ∧ host.length = sizeofHost ∧ host.headD 0 = 0 := by
  rw [assign, fields, assignFields_cons hbusid]
  by_cases hservice : Field.Fits ⟨sizeofService, location.service⟩
  · have hhost : ¬Field.Fits ⟨sizeofHost, location.hostname⟩ := by
      intro hhost
      simp only [Fits, fields, List.forall_mem_cons, hbusid, hservice, hhost, List.not_mem_nil, false_imp_iff,
        implies_true, and_self, not_true_eq_false] at h
    refine ⟨Field.padded ⟨sizeofService, location.service⟩, 0 :: (List.range (sizeofHost - 1)).map rest, ?_,
      length_padded hservice, ?_, rfl⟩
    · rw [assignFields_cons hservice, assignFields_of_not_fits hhost, zeroed, List.flatMap_nil, List.append_nil]
    · rw [List.length_cons, List.length_map, List.length_range]
      rfl
  · refine ⟨0 :: (List.range (sizeofService - 1)).map rest, List.replicate sizeofHost 0, ?_, ?_,
      List.length_replicate, headD_replicate _⟩
    · rw [assignFields_of_not_fits hservice]
      simp only [zeroed, List.flatMap_cons, List.flatMap_nil, List.append_nil]
    · rw [List.length_cons, List.length_map, List.length_range]
      rfl

-- A later string that does not fit makes it a call that the driver refuses.
theorem stopAttachAttempts_of_long_string (hbusid : Field.Fits ⟨BUS_ID_SIZE, location.busid⟩)
    (hsome : Field.text ⟨BUS_ID_SIZE, location.busid⟩ ≠ []) (h : ¬Fits location) :
    (stopAttachAttempts sys rest pool st (some location)).result = -1 ∧
      (stopAttachAttempts sys rest pool st (some location)).state = st := by
  obtain ⟨service, host, hassign, hservice, hhost, hempty⟩ := assign_of_long_string hbusid h rest
  have hhead : (Field.padded ⟨BUS_ID_SIZE, location.busid⟩).headD 0 ≠ 0 := (headD_text _).mpr hsome
  rw [stopAttachAttempts_of_not_fits h, hassign,
    control_some (length_padded hbusid) hservice hhost sys st hempty hhead]
  exact ⟨rfl, rfl⟩

-- The test of what `assign` returns is the wrong way round: no location is treated as it should be.
theorem targetedStop_never (hcomplete : Fits location → Complete location) :
    ¬TargetedStop sys st location (stopAttachAttempts sys rest pool st (some location)) := by
  rintro ⟨hstops, hrefuses⟩
  by_cases hfits : Fits location
  · have hsent := (hstops (hcomplete hfits) hfits).sent
    rw [(stopAttachAttempts_of_fits hfits).sent] at hsent
    cases hsent
  · have hsent := (hrefuses hfits).sent
    rw [stopAttachAttempts_of_not_fits hfits, control_sent] at hsent
    cases hsent

end Calls

-- One attempt for the device 1-1 of the host pc is pending.
def pcLocation : DeviceLocation where
  hostname := [112, 99]
  service := [51, 50, 52, 48]
  busid := [49, 45, 49]

def asciiServices : Services where
  utf8ToUnicode s := (.STATUS_SUCCESS, s.map fun c => UInt16.ofNat c.toNat)
  rtl := Usbip.Persistent.asciiRtl

def pendingState : Usbip.Persistent.Requests.State where
  vhci := { reattachMaxAttempts := 20, reattachFirstDelay := 15, reattachMaxDelay := 600 }
  devicesCnt := 2
  reattachReq := [0]
  locationHash _ := 7

theorem targetedStop_never_pc :
    (Fits pcLocation → Complete pcLocation) ∧ ¬TargetedStop asciiServices pendingState pcLocation
      (stopAttachAttempts asciiServices (fun _ => 0) (fun _ => 0) pendingState (some pcLocation)) :=
  ⟨fun _ => by decide, targetedStop_never fun _ => by decide⟩

theorem targetedStop_pc : ¬ ∀ (sys : Services) (rest pool : Nat → Byte) (st : Usbip.Persistent.Requests.State)
    (location : DeviceLocation), TargetedStop sys st location (stopAttachAttempts sys rest pool st (some location)) := by
  intro h
  have hfits : Fits pcLocation := by decide
  obtain ⟨hstops, _⟩ := h asciiServices (fun _ => 0) (fun _ => 0) pendingState pcLocation
  have hsent := (hstops (by decide) hfits).sent
  rw [(stopAttachAttempts_of_fits hfits).sent] at hsent
  cases hsent

end Usbip.Libusbip.StopAttach

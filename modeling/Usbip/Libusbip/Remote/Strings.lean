import Usbip.Libusbip.Remote.Theorems

namespace Usbip.Libusbip.Remote

open Usbip.Library.Hoare
open Usbip.Library.Words

-- The device records of a reply that arrive in full, of `ndev` that are due.
def deviceRecords : Nat → List Byte → List (List Byte)
  | 0, _ => []
  | ndev + 1, stream =>
    if stream.length < sizeofUsbDevice then []
    else
      let record := stream.take sizeofUsbDevice
      let interfaces := stream.drop sizeofUsbDevice
      let size := sizeofUsbInterface * (record.getD (offsetofBusnum + 23) 0).toNat
      record :: if interfaces.length < size then [] else deviceRecords ndev (interfaces.drop size)

def acceptsHeader (header : List Byte) : Prop :=
  swap16 (le16At header 0) = USBIP_VERSION ∧ swap16 (le16At header 2) = OP_REP_DEVLIST ∧ swap32 (le32At header 4) = 0

instance (header : List Byte) : Decidable (acceptsHeader header) := inferInstanceAs (Decidable (_ ∧ _ ∧ _))

-- The reply is that to a request which could be sent.
def World.deviceRecords (w : World) : List (List Byte) :=
  if w.sendFailure = none ∧ 12 ≤ w.stream.length ∧ acceptsHeader (w.stream.take 8) then
    let reply := w.stream.drop 8
    Remote.deviceRecords (swap32 (le32At (reply.take 4) 0)).toNat (reply.drop 4)
  else []

-- The first field of a device record and the second one.
def pathField (record : List Byte) : List Byte := record.take DEV_PATH_MAX

def busidField (record : List Byte) : List Byte := (record.drop DEV_PATH_MAX).take BUS_ID_SIZE

-- The device that `on_dev` is given for a record. As many bytes are read for its strings as they have, and their zero;
-- no other bytes than those of the field have a say in them.
structure InsideFields (behind record : List Byte) (dev : UsbDevice) : Prop where
  made : asUsbDevice (byteswap (.ofBytes record)) behind = some dev
  path : dev.path.length + 1 ≤ DEV_PATH_MAX
  pathOnly : ∀ record' behind' dev', record'.length = sizeofUsbDevice → pathField record' = pathField record →
    asUsbDevice (byteswap (.ofBytes record')) behind' = some dev' → dev'.path = dev.path
  busid : dev.busid.length + 1 ≤ BUS_ID_SIZE
  busidOnly : ∀ record' behind' dev', record'.length = sizeofUsbDevice → busidField record' = busidField record →
    asUsbDevice (byteswap (.ofBytes record')) behind' = some dev' → dev'.busid = dev.busid

def Call.device? : Call → Option UsbDevice
  | .onDev _ dev => some dev
  | .onDevCnt _ | .onIntf _ _ _ _ => none

def devices (calls : List Call) : List UsbDevice := calls.filterMap Call.device?

-- `true` or `false` is returned.
def Returns (x : M Unit) (w t : World) : Prop := x w = .ok () t ∨ x w = .error .returnedFalse t

-- The call returns, and what it has passed to `on_dev` are strings of the records that have arrived.
def StringsInFields (onDevCnt : Bool) (behind : List Byte) (w : World) : Prop :=
  ∃ t devs, Returns (enumExportableDevices onDevCnt behind) w t ∧
    devices t.calls = devices w.calls ++ devs ∧ List.Forall₂ (InsideFields behind) w.deviceRecords devs

-- Both fields of a record hold a zero.
def Terminated (record : List Byte) : Prop := 0 ∈ pathField record ∧ 0 ∈ busidField record

section Record

variable {record behind field rest text : List Byte} {dev : UsbDevice}

theorem stringAt_of_mem (h : 0 ∈ field) (rest : List Byte) :
    stringAt (field ++ rest) = some (field.takeWhile (· ≠ 0)) := by
  obtain ⟨first, last, rfl, hfirst⟩ := List.eq_append_cons_of_mem h
  have hmem : (0 : Byte) ∈ first ++ 0 :: last ++ rest := by simp
  rw [stringAt, if_pos hmem, List.append_assoc, List.cons_append, Library.Separated.takeWhile_append_cons hfirst,
    Library.Separated.takeWhile_append_cons hfirst]

theorem length_takeWhile_lt (h : 0 ∈ field) : (field.takeWhile (· ≠ 0)).length + 1 ≤ field.length := by
  obtain ⟨first, last, rfl, hfirst⟩ := List.eq_append_cons_of_mem h
  rw [Library.Separated.takeWhile_append_cons hfirst, List.length_append, List.length_cons]
  omega

-- A string that does not reach over the end of its field ends in it.
theorem mem_of_stringAt (h : stringAt (field ++ rest) = some text) (hlen : text.length + 1 ≤ field.length) :
    0 ∈ field := by
  by_contra hnot
  unfold stringAt at h
  split at h
  case isFalse => cases h
  case isTrue =>
    obtain rfl := Option.some.inj h
    rw [List.takeWhile_append_of_pos (Library.Separated.ne_of_not_mem hnot), List.length_append] at hlen
    omega

theorem length_pathField (h : record.length = sizeofUsbDevice) : (pathField record).length = DEV_PATH_MAX := by
  rw [pathField, List.length_take, h]
  rfl

theorem length_busidField (h : record.length = sizeofUsbDevice) : (busidField record).length = BUS_ID_SIZE := by
  rw [busidField, List.length_take, List.length_drop, h]
  rfl

-- The strings are read from the fields on.
theorem asUsbDevice_eq_some (h : record.length = sizeofUsbDevice)
    (hdev : asUsbDevice (byteswap (.ofBytes record)) behind = some dev) :
    ∃ rest, stringAt (pathField record ++ (busidField record ++ rest)) = some dev.path ∧
      stringAt (busidField record ++ rest) = some dev.busid := by
  generalize hd : byteswap (.ofBytes record) = d at hdev
  have hpath : d.path = pathField record := by
    rw [← hd]
    rfl
  have hbusid : d.busid = busidField record := by
    rw [← hd]
    rfl
  unfold asUsbDevice at hdev
  obtain ⟨path, hp, hdev⟩ := Option.bind_eq_some_iff.mp hdev
  obtain ⟨busid, hb, hdev⟩ := Option.bind_eq_some_iff.mp hdev
  cases hdev
  simp only [UsbipUsbDevice.bytes, hpath, hbusid, List.append_assoc] at hp hb
  rw [List.drop_left' (length_pathField h)] at hb
  exact ⟨_, hp, hb⟩

theorem asUsbDevice_of_terminated (h : Terminated record) (hlen : record.length = sizeofUsbDevice)
    (behind : List Byte) :
    ∃ dev, asUsbDevice (byteswap (.ofBytes record)) behind = some dev ∧
      dev.path = (pathField record).takeWhile (· ≠ 0) ∧ dev.busid = (busidField record).takeWhile (· ≠ 0) ∧
      dev.bNumInterfaces = record.getD (offsetofBusnum + 23) 0 := by
  obtain ⟨hpath, hbusid⟩ := h
  have hp (rest : List Byte) := stringAt_of_mem hpath rest
  have hb (rest : List Byte) := stringAt_of_mem hbusid rest
  have hfields : (byteswap (.ofBytes record)).path = pathField record ∧
      (byteswap (.ofBytes record)).busid = busidField record := ⟨rfl, rfl⟩
  simp only [asUsbDevice, UsbipUsbDevice.bytes, hfields.1, hfields.2, List.append_assoc, hp,
    List.drop_left' (length_pathField hlen), hb, Option.bind_eq_bind, Option.bind_some]
  exact ⟨_, rfl, rfl, rfl, rfl⟩

theorem insideFields_of_terminated (h : Terminated record) (hlen : record.length = sizeofUsbDevice)
    (behind : List Byte) :
    ∃ dev, InsideFields behind record dev ∧ dev.bNumInterfaces = record.getD (offsetofBusnum + 23) 0 := by
  obtain ⟨dev, hdev, hpath, hbusid, hcount⟩ := asUsbDevice_of_terminated h hlen behind
  refine ⟨dev, ⟨hdev, ?_, fun record' behind' dev' hlen' hfield hdev' => ?_, ?_,
    fun record' behind' dev' hlen' hfield hdev' => ?_⟩, hcount⟩
  · rw [hpath, ← length_pathField hlen]
    exact length_takeWhile_lt h.1
  · obtain ⟨rest, hp, -⟩ := asUsbDevice_eq_some hlen' hdev'
    rw [hfield, stringAt_of_mem h.1] at hp
    rw [hpath, Option.some.inj hp]
  · rw [hbusid, ← length_busidField hlen]
    exact length_takeWhile_lt h.2
  · obtain ⟨rest, -, hb⟩ := asUsbDevice_eq_some hlen' hdev'
    rw [hfield, stringAt_of_mem h.2] at hb
    rw [hbusid, Option.some.inj hb]

theorem InsideFields.terminated (h : InsideFields behind record dev) (hlen : record.length = sizeofUsbDevice) :
    Terminated record := by
  obtain ⟨rest, hp, hb⟩ := asUsbDevice_eq_some hlen h.made
  refine ⟨mem_of_stringAt hp ?_, mem_of_stringAt hb ?_⟩
  · rw [length_pathField hlen]
    exact h.path
  · rw [length_busidField hlen]
    exact h.busid

end Record

theorem deviceRecords_succ {ndev : Nat} {stream : List Byte} (h : sizeofUsbDevice ≤ stream.length) :
    deviceRecords (ndev + 1) stream =
      stream.take sizeofUsbDevice ::
        if (stream.drop sizeofUsbDevice).length <
          sizeofUsbInterface * ((stream.take sizeofUsbDevice).getD (offsetofBusnum + 23) 0).toNat then []
        else deviceRecords ndev ((stream.drop sizeofUsbDevice).drop
          (sizeofUsbInterface * ((stream.take sizeofUsbDevice).getD (offsetofBusnum + 23) 0).toNat)) := by
  rw [deviceRecords, if_neg (Nat.not_lt.mpr h)]

theorem length_of_mem_deviceRecords {ndev : Nat} {stream record : List Byte} (h : record ∈ deviceRecords ndev stream) :
    record.length = sizeofUsbDevice := by
  induction ndev generalizing stream with
  | zero => cases h
  | succ ndev ih =>
      simp only [deviceRecords] at h
      split_ifs at h with hshort hcut
      · cases h
      · rw [List.mem_singleton.mp h, List.length_take]
        omega
      · obtain rfl | h := List.mem_cons.mp h
        · rw [List.length_take]
          omega
        · exact ih h

section Run

variable {behind : List Byte}

theorem Returns.bind {α : Type} {x : M α} {f : α → M Unit} {w u t : World} {a : α} (hx : x w = .ok a u)
    (h : Returns (f a) u t) : Returns (x >>= f) w t := by
  rwa [Returns, bind_of_ok hx]

theorem Returns.of_error {α : Type} {x : M α} {f : α → M Unit} {w t : World} (hx : x w = .error .returnedFalse t) :
    Returns (x >>= f) w t :=
  .inr (bind_of_error hx)

theorem recvOrReturn_of_le {w : World} {len : Nat} (h : len ≤ w.stream.length) :
    recvOrReturn len w = .ok (w.stream.take len) { w with stream := w.stream.drop len } := by
  have hlen : (w.stream.take len).length = len := List.length_take_of_le h
  have hrecv := recv_of_le (List.take_append_drop len w.stream).symm
  rw [hlen] at hrecv
  rw [recvOrReturn, bind_of_ok hrecv]
  rfl

theorem recvOrReturn_of_lt {w : World} {len : Nat} (h : w.stream.length < len) :
    recvOrReturn len w =
      .error .returnedFalse { w with stream := [], lastError := w.failure.or w.lastError } := by
  rw [recvOrReturn, bind_of_ok (recv_of_lt h)]
  rfl

-- The interfaces of a device are read over, or the stream ends before.
theorem enumInterfaces_spec (i k j : Nat) (libDev : UsbDevice) (w : World) :
    ∃ t, devices t.calls = devices w.calls ∧
      if w.stream.length < sizeofUsbInterface * k then
        (List.range' j k).forM (enumInterface i libDev) w = .error .returnedFalse t
      else (List.range' j k).forM (enumInterface i libDev) w = .ok () t ∧
        t.stream = w.stream.drop (sizeofUsbInterface * k) := by
  induction k generalizing j w with
  | zero => exact ⟨w, rfl, rfl, rfl⟩
  | succ k ih =>
      rw [List.range'_succ]
      by_cases hshort : w.stream.length < sizeofUsbInterface
      · refine ⟨{ w with stream := [], lastError := w.failure.or w.lastError }, rfl, ?_⟩
        rw [if_pos (by rw [Nat.mul_succ]; omega)]
        exact bind_of_error (bind_of_error (recvOrReturn_of_lt hshort))
      · have hle := Nat.not_lt.mp hshort
        generalize hw : ({ w with
          stream := w.stream.drop sizeofUsbInterface
          calls := w.calls ++ [.onIntf (toInt i) libDev j (.ofBytes (w.stream.take sizeofUsbInterface))] } : World) = u
        have hround : enumInterface i libDev j w = .ok () u := by
          rw [enumInterface, bind_of_ok (recvOrReturn_of_le hle)]
          exact congrArg _ hw
        obtain ⟨t, hcalls, hrun⟩ := ih (j + 1) u
        have hdevices : devices u.calls = devices w.calls := by
          rw [← hw]
          simp [devices, Call.device?]
        have hstream : u.stream = w.stream.drop sizeofUsbInterface := by rw [← hw]
        have hloop : ((j :: List.range' (j + 1) k).forM (enumInterface i libDev)) w =
            (List.range' (j + 1) k).forM (enumInterface i libDev) u := bind_of_ok hround
        refine ⟨t, hcalls.trans hdevices, ?_⟩
        rw [hstream, List.length_drop, List.drop_drop] at hrun
        rw [hloop, Nat.mul_succ, Nat.add_comm]
        have hiff : w.stream.length - sizeofUsbInterface < sizeofUsbInterface * k ↔
            w.stream.length < sizeofUsbInterface + sizeofUsbInterface * k := by omega
        simpa only [hiff] using hrun

theorem enumDevice_of_made {i : Nat} {w : World} {dev : UsbDevice} (hle : sizeofUsbDevice ≤ w.stream.length)
    (hdev : asUsbDevice (byteswap (.ofBytes (w.stream.take sizeofUsbDevice))) behind = some dev) :
    enumDevice behind i w =
      .ok dev { w with
        stream := w.stream.drop sizeofUsbDevice
        calls := w.calls ++ [.onDev (toInt i) dev] } := by
  rw [enumDevice, bind_of_ok (recvOrReturn_of_le hle), hdev]
  rfl

theorem enumDevice_of_lt {i : Nat} {w : World} (h : w.stream.length < sizeofUsbDevice) :
    enumDevice behind i w =
      .error .returnedFalse { w with stream := [], lastError := w.failure.or w.lastError } :=
  bind_of_error (recvOrReturn_of_lt h)

-- The rounds that are left; the induction is on their number.
theorem enumDevices_spec (n i : Nat) (w : World) (h : ∀ record ∈ deviceRecords n w.stream, Terminated record) :
    ∃ t devs, Returns ((List.range' i n).forM (enumDeviceAndInterfaces behind)) w t ∧
      devices t.calls = devices w.calls ++ devs ∧
      List.Forall₂ (InsideFields behind) (deviceRecords n w.stream) devs := by
  induction n generalizing i w with
  | zero => exact ⟨w, [], .inl rfl, (List.append_nil _).symm, .nil⟩
  | succ n ih =>
      rw [List.range'_succ]
      by_cases hshort : w.stream.length < sizeofUsbDevice
      · refine ⟨{ w with stream := [], lastError := w.failure.or w.lastError }, [], .of_error ?_,
          (List.append_nil _).symm, ?_⟩
        · exact bind_of_error (enumDevice_of_lt hshort)
        · rw [deviceRecords, if_pos hshort]
          exact .nil
      · have hle := Nat.not_lt.mp hshort
        rw [deviceRecords_succ hle] at h ⊢
        generalize hrecord : w.stream.take sizeofUsbDevice = record at h ⊢
        have hlen : record.length = sizeofUsbDevice := by
          rw [← hrecord]
          exact List.length_take_of_le hle
        obtain ⟨dev, hinside, hcount⟩ := insideFields_of_terminated (h record List.mem_cons_self) hlen behind
        have hdev := enumDevice_of_made (i := i) hle (by rw [hrecord]; exact hinside.made)
        generalize hu : ({ w with
          stream := w.stream.drop sizeofUsbDevice
          calls := w.calls ++ [.onDev (toInt i) dev] } : World) = u at hdev
        have hcalls : devices u.calls = devices w.calls ++ [dev] := by
          rw [← hu]
          simp [devices, Call.device?]
        have hstream : w.stream.drop sizeofUsbDevice = u.stream := by rw [← hu]
        rw [hstream, ← hcount] at h ⊢
        obtain ⟨v, hv, hrun⟩ := enumInterfaces_spec i dev.bNumInterfaces.toNat 0 dev u
        rw [← List.range_eq_range'] at hrun
        have hround : enumDeviceAndInterfaces behind i w =
            (List.range dev.bNumInterfaces.toNat).forM (enumInterface i dev) u := bind_of_ok hdev
        by_cases hcut : u.stream.length < sizeofUsbInterface * dev.bNumInterfaces.toNat
        · rw [if_pos hcut] at hrun h ⊢
          exact ⟨v, [dev], .of_error (hround.trans hrun), hv.trans hcalls, .cons hinside .nil⟩
        · rw [if_neg hcut] at hrun h ⊢
          obtain ⟨hrun, hrest⟩ := hrun
          rw [← hrest] at h ⊢
          obtain ⟨t, devs, hloop, htcalls, hall⟩ := ih (i + 1) v fun record hr => h record (List.mem_cons_of_mem _ hr)
          refine ⟨t, dev :: devs, .bind (hround.trans hrun) hloop, ?_, .cons hinside hall⟩
          rw [htcalls, hv, hcalls, List.append_assoc, List.singleton_append]

theorem opStatusError_eq_none {status : UInt32} : opStatusError status = none ↔ status = 0 := by
  unfold opStatusError
  split_ifs <;> simp_all

theorem recvOpCommon_of_le {w : World} (h : 8 ≤ w.stream.length) :
    ∃ err, recvOpCommon OP_REP_DEVLIST w = .ok err { w with stream := w.stream.drop 8 } ∧
      (err = none ↔ acceptsHeader (w.stream.take 8)) := by
  have hlen : (w.stream.take 8).length = 8 := List.length_take_of_le h
  have hrecv := recv_of_le (List.take_append_drop 8 w.stream).symm
  rw [hlen] at hrecv
  have hrun : recvOpCommon OP_REP_DEVLIST w =
      (if swap16 (le16At (w.stream.take 8) 0) ≠ USBIP_VERSION then return some .USBIP_ERROR_VERSION
        else if swap16 (le16At (w.stream.take 8) 2) ≠ OP_REP_DEVLIST then return some .USBIP_ERROR_PROTOCOL
        else return opStatusError (swap32 (le32At (w.stream.take 8) 4)) : M _) { w with stream := w.stream.drop 8 } :=
    bind_of_ok hrecv
  rw [hrun, acceptsHeader]
  split_ifs with hversion hcode
  · exact ⟨_, rfl, by simp [hversion]⟩
  · exact ⟨_, rfl, by simp [hcode]⟩
  · exact ⟨_, rfl, by rw [opStatusError_eq_none, not_not.mp hversion, not_not.mp hcode]; simp⟩

theorem recvDevlistReply_of_le {w : World} (onDevCnt : Bool) (h : 4 ≤ w.stream.length) :
    ∃ calls, devices calls = devices w.calls ∧
      recvDevlistReply onDevCnt w = .ok (swap32 (le32At (w.stream.take 4) 0))
        { w with stream := w.stream.drop 4, calls := calls } := by
  generalize hndev : swap32 (le32At (w.stream.take 4) 0) = ndev
  cases onDevCnt with
  | true =>
      refine ⟨w.calls ++ [.onDevCnt (signed ndev)], by simp [devices, Call.device?], ?_⟩
      rw [recvDevlistReply, bind_of_ok (recvOrReturn_of_le h), hndev]
      rfl
  | false =>
      refine ⟨w.calls, rfl, ?_⟩
      rw [recvDevlistReply, bind_of_ok (recvOrReturn_of_le h), hndev]
      rfl

theorem recvDevlistReply_of_lt {w : World} (onDevCnt : Bool) (h : w.stream.length < 4) :
    recvDevlistReply onDevCnt w =
      .error .returnedFalse { w with stream := [], lastError := w.failure.or w.lastError } :=
  bind_of_error (recvOrReturn_of_lt h)

-- What follows the request.
theorem enumReply_spec (onDevCnt : Bool) (behind : List Byte) {w : World} (hsend : w.sendFailure = none)
    (h : ∀ record ∈ w.deviceRecords, Terminated record) :
    ∃ t devs, Returns (recvOpCommon OP_REP_DEVLIST >>= fun err => returnIf err >>= fun _ =>
        recvDevlistReply onDevCnt >>= fun ndev =>
          (List.range ndev.toNat).forM (enumDeviceAndInterfaces behind)) w t ∧
      devices t.calls = devices w.calls ++ devs ∧ List.Forall₂ (InsideFields behind) w.deviceRecords devs := by
  have hfailed : ∀ t : World, t.calls = w.calls → w.deviceRecords = [] →
      devices t.calls = devices w.calls ++ [] ∧ List.Forall₂ (InsideFields behind) w.deviceRecords [] := by
    intro t ht hnone
    rw [ht, hnone, List.append_nil]
    exact ⟨rfl, .nil⟩
  obtain ⟨err, u, herr, hcalls, hu⟩ : ∃ err u, recvOpCommon OP_REP_DEVLIST w = .ok err u ∧ u.calls = w.calls ∧
      (err = none ∧ ¬u.stream.length < 4 → w.deviceRecords =
        deviceRecords (swap32 (le32At (u.stream.take 4) 0)).toNat (u.stream.drop 4)) ∧
      (err ≠ none ∨ u.stream.length < 4 → w.deviceRecords = []) := by
    by_cases hshort : w.stream.length < 8
    · have hempty : ([] : List Byte).length < 4 := by decide
      refine ⟨_, _, recvOpCommon_short hshort, rfl, fun hc => absurd hempty hc.2, fun _ => if_neg fun hc => ?_⟩
      omega
    · obtain ⟨err, hrun, hnone⟩ := recvOpCommon_of_le (Nat.not_lt.mp hshort)
      refine ⟨err, _, hrun, rfl, ?_, ?_⟩
      · rintro ⟨herr, hlen⟩
        rw [List.length_drop] at hlen
        exact if_pos ⟨hsend, by omega, hnone.mp herr⟩
      · intro hc
        refine if_neg fun hall => ?_
        have hlen := hc.resolve_left (not_not.mpr (hnone.mpr hall.2.2))
        have hle := hall.2.1
        rw [List.length_drop] at hlen
        omega
  cases err with
  | some err =>
      refine ⟨{ u with lastError := some err }, [], .bind herr (.of_error rfl), hfailed _ hcalls (hu.2 ?_)⟩
      exact .inl (Option.some_ne_none _)
  | none =>
      by_cases hshort : u.stream.length < 4
      · refine ⟨_, [], .bind herr (.bind rfl (.of_error (recvDevlistReply_of_lt onDevCnt hshort))), ?_⟩
        exact hfailed _ hcalls (hu.2 (.inr hshort))
      · obtain ⟨calls, hdevices, hreply⟩ := recvDevlistReply_of_le onDevCnt (Nat.not_lt.mp hshort)
        rw [hu.1 ⟨rfl, hshort⟩] at h ⊢
        obtain ⟨t, devs, hrun, htcalls, hall⟩ := enumDevices_spec _ 0
          { u with stream := u.stream.drop 4, calls := calls } h
        rw [← List.range_eq_range'] at hrun
        refine ⟨t, devs, .bind herr (.bind rfl (.bind hreply hrun)), ?_, hall⟩
        rw [htcalls, hdevices, hcalls]

end Run

theorem terminated_of_forall₂ {behind : List Byte} {records : List (List Byte)} {devs : List UsbDevice}
    (h : List.Forall₂ (InsideFields behind) records devs) (hlen : ∀ record ∈ records, record.length = sizeofUsbDevice) :
    ∀ record ∈ records, Terminated record := by
  induction h with
  | nil => simp
  | cons hinside _ ih =>
      simp only [List.forall_mem_cons] at hlen ⊢
      exact ⟨hinside.terminated hlen.1, ih hlen.2⟩

theorem World.length_of_mem_deviceRecords {w : World} {record : List Byte} (h : record ∈ w.deviceRecords) :
    record.length = sizeofUsbDevice := by
  unfold World.deviceRecords at h
  split at h
  · exact Remote.length_of_mem_deviceRecords h
  · cases h

-- What is passed to `on_dev` for each record that arrives stays in the fields of the record if and only if both of them
-- hold a zero.
theorem deviceStrings_inFields_iff (onDevCnt : Bool) (behind : List Byte) (w : World) :
    StringsInFields onDevCnt behind w ↔ ∀ record ∈ w.deviceRecords, Terminated record := by
  constructor
  · rintro ⟨t, devs, -, -, hall⟩
    exact terminated_of_forall₂ hall fun _ => World.length_of_mem_deviceRecords
  · intro h
    cases hsend : w.sendFailure with
    | some err =>
        have hnone : w.deviceRecords = [] := if_neg fun hc => by rw [hsend] at hc; cases hc.1
        refine ⟨{ w with lastError := some err }, [], .of_error ?_, (List.append_nil _).symm, by rw [hnone]; exact .nil⟩
        obtain ⟨_, _, sendFailure, _, _, _⟩ := w
        obtain rfl : sendFailure = some err := hsend
        rfl
    | none =>
        obtain ⟨t, devs, hrun, hrest⟩ := enumReply_spec onDevCnt behind
          (w := { w with sent := w.sent ++ (bytes16 (swap16 USBIP_VERSION) ++ bytes16 (swap16 OP_REQ_DEVLIST) ++
            bytes32 (swap32 0)) }) hsend h
        exact ⟨t, devs, .bind (send_of_none hsend _) hrun, hrest⟩

-- A device whose path fills its field; its bus id is then part of the path.
def unterminatedRecord : List Byte :=
  List.replicate DEV_PATH_MAX 97 ++ ([49, 45, 49] ++ List.replicate 29 0) ++ List.replicate 24 0

def unterminatedReply : World := { stream := headerBytes ++ (beBytes 1 ++ unterminatedRecord) }

theorem path_beyond_field : ¬ StringsInFields true [] unterminatedReply := by
  rintro ⟨t, devs, -, -, hall⟩
  have hrecord : unterminatedRecord ∈ unterminatedReply.deviceRecords := by decide +kernel
  have hzero : 0 ∈ pathField unterminatedRecord :=
    (terminated_of_forall₂ hall (fun _ => World.length_of_mem_deviceRecords) _ hrecord).1
  exact absurd hzero (by decide +kernel)

end Usbip.Libusbip.Remote

import Usbip.Libusbip.Remote
import Usbip.Library.Layout
import Usbip.Library.Reader
import Usbip.Library.Separated
import Usbip.Proto.Theorems

namespace Usbip.Libusbip.Remote

open Usbip.Library.Hoare
open Usbip.Library.Layout
open Usbip.Library.Reader
open Usbip.Library.Words

-- A field with a string that is terminated by a zero; whatever follows that zero is not part of the string.
structure CharField (size : Nat) where
  text : List Byte
  rest : List Byte
  noNul : 0 ∉ text
  fits : text.length + 1 + rest.length = size

def CharField.bytes {size : Nat} (f : CharField size) : List Byte := f.text ++ 0 :: f.rest

def UsbDeviceSpeed.toUInt32 : UsbDeviceSpeed → UInt32
  | .USB_SPEED_UNKNOWN => 0
  | .USB_SPEED_LOW => 1
  | .USB_SPEED_FULL => 2
  | .USB_SPEED_HIGH => 3
  | .USB_SPEED_WIRELESS => 4
  | .USB_SPEED_SUPER => 5
  | .USB_SPEED_SUPER_PLUS => 6

-- A device as a server exports it.
structure ExportedDevice where
  path : CharField DEV_PATH_MAX
  busid : CharField BUS_ID_SIZE
  busnum : UInt32
  devnum : UInt32
  speed : UsbDeviceSpeed
  idVendor : UInt16
  idProduct : UInt16
  bcdDevice : UInt16
  bDeviceClass : Byte
  bDeviceSubClass : Byte
  bDeviceProtocol : Byte
  bConfigurationValue : Byte
  bNumConfigurations : Byte
  interfaces : List UsbipUsbInterface
  count : interfaces.length < 2 ^ 8

structure DeviceList where
  devices : List ExportedDevice
  count : devices.length < 2 ^ 32

-- The most significant byte first
def beBytes16 (word : UInt16) : List Byte := [UInt8.ofNat (word.toNat / 2 ^ 8), UInt8.ofNat word.toNat]

def UsbipUsbInterface.bytes (intf : UsbipUsbInterface) : List Byte :=
  [intf.bInterfaceClass, intf.bInterfaceSubClass, intf.bInterfaceProtocol, intf.padding]

def ExportedDevice.bNumInterfaces (d : ExportedDevice) : Byte := UInt8.ofNat d.interfaces.length

def ExportedDevice.classBytes (d : ExportedDevice) : List Byte :=
  [d.bDeviceClass, d.bDeviceSubClass, d.bDeviceProtocol, d.bConfigurationValue, d.bNumConfigurations, d.bNumInterfaces]

def ExportedDevice.bytes (d : ExportedDevice) : List Byte :=
  d.path.bytes ++ (d.busid.bytes ++ (beBytes d.busnum ++ (beBytes d.devnum ++ (beBytes d.speed.toUInt32 ++
    (beBytes16 d.idVendor ++ (beBytes16 d.idProduct ++ (beBytes16 d.bcdDevice ++ d.classBytes)))))))

-- What a callback is told about a device; the speed is what Windows calls it.
def ExportedDevice.usbDevice (d : ExportedDevice) : UsbDevice where
  path := d.path.text
  busid := d.busid.text
  busnum := d.busnum
  devnum := d.devnum
  speed := winSpeed (some d.speed)
  idVendor := d.idVendor
  idProduct := d.idProduct
  bcdDevice := d.bcdDevice
  bDeviceClass := d.bDeviceClass
  bDeviceSubClass := d.bDeviceSubClass
  bDeviceProtocol := d.bDeviceProtocol
  bConfigurationValue := d.bConfigurationValue
  bNumConfigurations := d.bNumConfigurations
  bNumInterfaces := d.bNumInterfaces

def headerBytes : List Byte := beBytes16 USBIP_VERSION ++ beBytes16 OP_REP_DEVLIST ++ beBytes 0

def DeviceList.ndev (l : DeviceList) : UInt32 := UInt32.ofNat l.devices.length

-- An OP_REP_DEVLIST message
def DeviceList.bytes (l : DeviceList) : List Byte :=
  headerBytes ++ (beBytes l.ndev ++ l.devices.flatMap fun d => d.bytes ++ d.interfaces.flatMap UsbipUsbInterface.bytes)

-- Its records, each with the calls that are due when it has arrived.
def countRecord (onDevCnt : Bool) (ndev : UInt32) : List Byte × List Call :=
  (beBytes ndev, if onDevCnt then [.onDevCnt (signed ndev)] else [])

def interfaceRecord (i : Nat) (libDev : UsbDevice) (intf : UsbipUsbInterface) (j : Nat) : List Byte × List Call :=
  (intf.bytes, [.onIntf (toInt i) libDev j intf])

def ExportedDevice.records (d : ExportedDevice) (i : Nat) : List (List Byte × List Call) :=
  (d.bytes, [.onDev (toInt i) d.usbDevice]) ::
    d.interfaces.zipIdx.map fun p => interfaceRecord i d.usbDevice p.1 p.2

def DeviceList.records (l : DeviceList) (onDevCnt : Bool) : List (List Byte × List Call) :=
  (headerBytes, []) :: countRecord onDevCnt l.ndev :: l.devices.zipIdx.flatMap fun p => p.1.records p.2

section Words

theorem bytes16_le16 (b0 b1 : Byte) : bytes16 (le16 b0 b1) = [b0, b1] := by
  have h0 := b0.toNat_lt
  have h1 := b1.toNat_lt
  have hle : (le16 b0 b1).toNat = b0.toNat + 256 * b1.toNat := by
    simp only [le16, UInt16.toNat_ofNat']
    omega
  simp only [bytes16, hle, List.cons.injEq, and_true]
  constructor <;> apply UInt8.toNat_inj.mp <;> simp only [UInt8.toNat_ofNat'] <;> omega

theorem bytes16_swap16 (word : UInt16) : bytes16 (swap16 word) = beBytes16 word := by
  rw [swap16, bytes16_le16]
  rfl

theorem swap16_swap16 (word : UInt16) : swap16 (swap16 word) = word := by
  have h := bytes16_swap16 word
  simp only [bytes16, beBytes16, List.cons.injEq, and_true] at h
  rw [swap16.eq_1 (swap16 word), h.1, h.2, le16_bytes16]

variable {b : List Byte} {offset : Nat}

theorem swap32_le32At {word : UInt32} (h : Holds (fun i => b.getD i 0) offset (beBytes word)) :
    swap32 (le32At b offset) = word := by
  rw [← bytes32_swap32_eq_beBytes] at h
  rw [le32At, h.le32, swap32_swap32]

theorem swap16_le16At {word : UInt16} (h : Holds (fun i => b.getD i 0) offset (beBytes16 word)) :
    swap16 (le16At b offset) = word := by
  have h0 : b.getD offset 0 = UInt8.ofNat (word.toNat / 2 ^ 8) := h 0 (by simp [beBytes16])
  have h1 : b.getD (offset + 1) 0 = UInt8.ofNat word.toNat := h 1 (by simp [beBytes16])
  have hswapped : le16At b offset = swap16 word := by
    rw [le16At, h0, h1]
    rfl
  rw [hswapped, swap16_swap16]

end Words

section Device

@[simp] theorem CharField.length_bytes {size : Nat} (f : CharField size) : f.bytes.length = size := by
  have := f.fits
  rw [CharField.bytes, List.length_append, List.length_cons]
  omega

theorem CharField.stringAt_bytes {size : Nat} (f : CharField size) (behind : List Byte) :
    stringAt (f.bytes ++ behind) = some f.text := by
  have hmem : (0 : Byte) ∈ f.bytes ++ behind := by simp [CharField.bytes]
  rw [stringAt, if_pos hmem, CharField.bytes, List.append_assoc, List.cons_append,
    Library.Separated.takeWhile_append_cons f.noNul]

theorem ofUInt32_toUInt32 (speed : UsbDeviceSpeed) : UsbDeviceSpeed.ofUInt32? speed.toUInt32 = some speed := by
  cases speed <;> rfl

theorem ExportedDevice.length_bytes (d : ExportedDevice) : d.bytes.length = sizeofUsbDevice := by
  simp [ExportedDevice.bytes, ExportedDevice.classBytes, beBytes, beBytes16, sizeofUsbDevice, offsetofBusnum,
    Nat.add_assoc]

-- The fields of a received structure after their bytes have been swapped.
theorem byteswap_ofBytes (d : ExportedDevice) :
    byteswap (.ofBytes d.bytes) =
      { path := d.path.bytes
        busid := d.busid.bytes
        busnum := d.busnum
        devnum := d.devnum
        speed := d.speed.toUInt32
        idVendor := d.idVendor
        idProduct := d.idProduct
        bcdDevice := d.bcdDevice
        bDeviceClass := d.bDeviceClass
        bDeviceSubClass := d.bDeviceSubClass
        bDeviceProtocol := d.bDeviceProtocol
        bConfigurationValue := d.bConfigurationValue
        bNumConfigurations := d.bNumConfigurations
        bNumInterfaces := d.bNumInterfaces } := by
  have hpath : d.bytes.take DEV_PATH_MAX = d.path.bytes := List.take_left' d.path.length_bytes
  have hbusid : (d.bytes.drop DEV_PATH_MAX).take BUS_ID_SIZE = d.busid.bytes := by
    rw [ExportedDevice.bytes, List.drop_left' d.path.length_bytes, List.take_left' d.busid.length_bytes]
  have hholds : Holds (fun i => d.bytes.getD i 0) 0 d.bytes := holds_getD d.bytes fun _ => 0
  conv at hholds => arg 3; rw [ExportedDevice.bytes]
  simp only [holds_append, CharField.length_bytes] at hholds
  obtain ⟨-, -, hbusnum, hdevnum, hspeed, hvendor, hproduct, hbcd, hclass⟩ := hholds
  simp only [ExportedDevice.classBytes, holds_cons] at hclass
  obtain ⟨h0, h1, h2, h3, h4, h5, -⟩ := hclass
  simp only [byteswap, UsbipUsbDevice.ofBytes, hpath, hbusid]
  rw [UsbipUsbDevice.mk.injEq]
  exact ⟨rfl, rfl, swap32_le32At hbusnum, swap32_le32At hdevnum, swap32_le32At hspeed, swap16_le16At hvendor,
    swap16_le16At hproduct, swap16_le16At hbcd, h0, h1, h2, h3, h4, h5⟩

theorem asUsbDevice_exported (d : ExportedDevice) (behind : List Byte) :
    asUsbDevice (byteswap (.ofBytes d.bytes)) behind = some d.usbDevice := by
  rw [byteswap_ofBytes]
  simp only [asUsbDevice, UsbipUsbDevice.bytes, List.append_assoc, CharField.stringAt_bytes,
    List.drop_left' d.path.length_bytes, ofUInt32_toUInt32, Option.bind_eq_bind, Option.bind_some]
  rfl

theorem ofBytes_bytes (intf : UsbipUsbInterface) : UsbipUsbInterface.ofBytes intf.bytes = intf := rfl

end Device

section Stream

variable {behind : List Byte}

-- A program of this connection and the records that it reads.
abbrev ReadsRecords {α : Type} (x : M α) (a : α) (records : List (List Byte × List Call)) : Prop :=
  Reads World.stream World.calls Stop.returnedFalse x a records

theorem recv_of_le {w : World} {bytes rest : List Byte} (h : w.stream = bytes ++ rest) :
    recv bytes.length w = .ok (some bytes) { w with stream := rest } := by
  have hle : bytes.length ≤ w.stream.length := by
    rw [h, List.length_append]
    omega
  change (if bytes.length ≤ w.stream.length then _ else _ : M _) w = _
  rw [if_pos hle, h, List.take_left, List.drop_left]
  rfl

theorem recv_of_lt {w : World} {len : Nat} (h : w.stream.length < len) :
    recv len w = .ok none { w with stream := [], lastError := w.failure.or w.lastError } := by
  change (if len ≤ w.stream.length then _ else _ : M _) w = _
  rw [if_neg (Nat.not_le.mpr h)]
  rfl

theorem recvOrReturn_reads (bytes : List Byte) : ReadsRecords (recvOrReturn bytes.length) bytes [(bytes, [])] := by
  constructor
  · intro w rest hs
    rw [items, List.flatMap_cons, List.flatMap_nil, List.append_nil] at hs
    refine ⟨{ w with stream := rest }, ?_, rfl, by simp [entries]⟩
    rw [recvOrReturn, bind_of_ok (recv_of_le hs)]
    rfl
  · intro w k hk hs
    simp only [items, List.flatMap_cons, List.flatMap_nil, List.append_nil] at hk hs
    have hlt : w.stream.length < bytes.length := by
      rw [hs, List.length_take]
      omega
    refine ⟨{ w with stream := [], lastError := w.failure.or w.lastError }, ?_, ?_⟩
    · rw [recvOrReturn, bind_of_ok (recv_of_lt hlt)]
      rfl
    · simp only [arrived, if_neg (Nat.not_le.mpr hk), List.append_nil]

theorem enumInterface_reads (i j : Nat) (libDev : UsbDevice) (intf : UsbipUsbInterface) :
    ReadsRecords (enumInterface i libDev j) () [interfaceRecord i libDev intf j] :=
  (recvOrReturn_reads intf.bytes).logged rfl (fun _ => rfl) fun _ => rfl

theorem enumDevice_reads (i : Nat) (d : ExportedDevice) :
    ReadsRecords (enumDevice behind i) d.usbDevice [(d.bytes, [.onDev (toInt i) d.usbDevice])] := by
  have hread := recvOrReturn_reads d.bytes
  rw [d.length_bytes] at hread
  refine hread.logged (g := fun w => { w with calls := w.calls ++ [.onDev (toInt i) d.usbDevice] }) ?_ (fun _ => rfl)
    fun _ => rfl
  simp only [asUsbDevice_exported]
  rfl

theorem enumDeviceAndInterfaces_reads (i : Nat) (d : ExportedDevice) :
    ReadsRecords (enumDeviceAndInterfaces behind i) () (d.records i) := by
  have hcount : d.usbDevice.bNumInterfaces.toNat = d.interfaces.length := UInt8.toNat_ofNat_of_lt' d.count
  have hloop : ReadsRecords ((List.range d.interfaces.length).forM (enumInterface i d.usbDevice)) ()
      (d.interfaces.zipIdx.flatMap fun p => [interfaceRecord i d.usbDevice p.1 p.2]) :=
    Reads.forM_zipIdx (fun intf j => [interfaceRecord i d.usbDevice intf j])
      fun j _ => enumInterface_reads i j d.usbDevice _
  rw [← hcount, ← List.map_eq_flatMap] at hloop
  exact (enumDevice_reads i d).bind hloop

theorem recvDevlistReply_reads (onDevCnt : Bool) (ndev : UInt32) :
    ReadsRecords (recvDevlistReply onDevCnt) ndev [countRecord onDevCnt ndev] := by
  have hndev : swap32 (le32At (beBytes ndev) 0) = ndev := swap32_le32At (holds_getD (beBytes ndev) fun _ => 0)
  have hread : ReadsRecords (recvOrReturn 4) (beBytes ndev) [(beBytes ndev, [])] := recvOrReturn_reads (beBytes ndev)
  cases onDevCnt with
  | true =>
      refine hread.logged (g := fun w => { w with calls := w.calls ++ [.onDevCnt (signed ndev)] }) ?_ (fun _ => rfl)
        fun _ => rfl
      simp only [hndev]
      rfl
  | false =>
      refine hread.logged (g := id) ?_ (fun _ => rfl) fun w => (List.append_nil _).symm
      simp only [hndev]
      rfl

theorem recvOpCommon_headerBytes {w : World} {rest : List Byte} (h : w.stream = headerBytes ++ rest) :
    recvOpCommon OP_REP_DEVLIST w = .ok none { w with stream := rest } := by
  have hversion : swap16 (le16At headerBytes 0) = USBIP_VERSION := by decide
  have hcode : swap16 (le16At headerBytes 2) = OP_REP_DEVLIST := by decide
  have hstatus : opStatusError (swap32 (le32At headerBytes 4)) = none := by decide
  have hrecv : recv 8 w = .ok (some headerBytes) { w with stream := rest } := recv_of_le h
  rw [recvOpCommon, bind_of_ok hrecv]
  simp only [hversion, hcode, hstatus, ne_eq, not_true_eq_false, if_false]
  rfl

theorem recvOpCommon_short {w : World} (h : w.stream.length < 8) :
    recvOpCommon OP_REP_DEVLIST w =
      .ok (w.failure.or w.lastError) { w with stream := [], lastError := w.failure.or w.lastError } := by
  rw [recvOpCommon, bind_of_ok (recv_of_lt h)]
  rfl

theorem enumDevices_reads (l : DeviceList) (onDevCnt : Bool) (behind : List Byte) :
    ReadsRecords (recvDevlistReply onDevCnt >>= fun ndev =>
        (List.range ndev.toNat).forM (enumDeviceAndInterfaces behind)) ()
      (countRecord onDevCnt l.ndev :: l.devices.zipIdx.flatMap fun p => p.1.records p.2) := by
  have hcount : l.ndev.toNat = l.devices.length := UInt32.toNat_ofNat_of_lt' l.count
  have hloop : ReadsRecords ((List.range l.devices.length).forM (enumDeviceAndInterfaces behind)) ()
      (l.devices.zipIdx.flatMap fun p => p.1.records p.2) :=
    Reads.forM_zipIdx ExportedDevice.records fun i _ => enumDeviceAndInterfaces_reads i _
  rw [← hcount] at hloop
  exact (recvDevlistReply_reads onDevCnt l.ndev).bind hloop

-- The header is followed by something. If it is cut off and there is no error to return, that is what is missed.
theorem recvOpCommon_reads {y : M Unit} {records : List (List Byte × List Call)} (hy : ReadsRecords y () records)
    (hne : items records ≠ []) (hnone : arrived records 0 = []) :
    ReadsRecords (recvOpCommon OP_REP_DEVLIST >>= fun err => returnIf err >>= fun _ => y) ()
      ((headerBytes, []) :: records) := by
  have hitems : items ((headerBytes, []) :: records) = headerBytes ++ items records := List.flatMap_cons
  constructor
  · intro w rest hs
    rw [hitems, List.append_assoc] at hs
    obtain ⟨t, hyt, hst, hlt⟩ := hy.whole { w with stream := items records ++ rest } rest rfl
    exact ⟨t, (bind_of_ok (recvOpCommon_headerBytes hs)).trans hyt, hst, hlt⟩
  · intro w k hk hs
    rw [hitems, List.length_append] at hk
    rw [hitems] at hs
    by_cases hheader : 8 ≤ k
    · have hlen : headerBytes.length ≤ k := hheader
      rw [List.take_append, List.take_of_length_le hlen] at hs
      obtain ⟨t, hyt, hlt⟩ := hy.cut { w with stream := (items records).take (k - headerBytes.length) } _ (by omega) rfl
      refine ⟨t, (bind_of_ok (recvOpCommon_headerBytes hs)).trans hyt, ?_⟩
      rw [hlt, arrived, if_pos hlen, List.nil_append]
    · have hshort : w.stream.length < 8 := by
        rw [hs, List.length_take]
        omega
      have hlen : ¬headerBytes.length ≤ k := hheader
      simp only [arrived, if_neg hlen, List.append_nil]
      have hpos : 0 < (items records).length := List.length_pos_iff.mpr hne
      generalize hleft : ({ w with stream := [], lastError := w.failure.or w.lastError } : World) = left
      obtain ⟨t, hyt, hlt⟩ := hy.cut left 0 hpos (by rw [← hleft]; rfl)
      have hcalls : t.calls = w.calls := by rw [hlt, hnone, List.append_nil, ← hleft]
      have hshort := recvOpCommon_short hshort
      rw [hleft] at hshort
      cases herr : w.failure.or w.lastError with
      | some err =>
          refine ⟨{ left with lastError := some err }, ?_, by rw [← hleft]⟩
          rw [bind_of_ok hshort, herr]
          rfl
      | none =>
          refine ⟨t, ?_, hcalls⟩
          rw [bind_of_ok hshort, herr]
          exact hyt

theorem items_records (d : ExportedDevice) (i : Nat) :
    items (d.records i) = d.bytes ++ d.interfaces.flatMap UsbipUsbInterface.bytes := by
  conv_rhs => rw [← List.zipIdx_map_fst 0 d.interfaces, List.flatMap_map]
  rw [items, ExportedDevice.records, List.flatMap_cons, List.flatMap_map]
  rfl

theorem items_deviceList (l : DeviceList) (onDevCnt : Bool) : items (l.records onDevCnt) = l.bytes := by
  have hdevices : (l.devices.zipIdx.flatMap fun p => p.1.records p.2).flatMap Prod.fst =
      l.devices.flatMap fun d => d.bytes ++ d.interfaces.flatMap UsbipUsbInterface.bytes := by
    conv_rhs => rw [← List.zipIdx_map_fst 0 l.devices, List.flatMap_map]
    rw [List.flatMap_assoc]
    exact List.flatMap_congr fun p _ => items_records p.1 p.2
  rw [items, DeviceList.records, List.flatMap_cons, List.flatMap_cons, hdevices]
  rfl

theorem send_of_none {w : World} (h : w.sendFailure = none) (bytes : List Byte) :
    send bytes w = .ok () { w with sent := w.sent ++ bytes } := by
  obtain ⟨_, _, sendFailure, _, _, _⟩ := w
  obtain rfl : sendFailure = none := h
  rfl

end Stream

-- A list of devices is decoded as it was encoded. If the stream ends within it the call fails, after what the records
-- that arrived in full have called for.
theorem deviceList_decoded (l : DeviceList) (onDevCnt : Bool) (behind : List Byte) (w : World)
    (hsend : w.sendFailure = none) :
    (∀ rest, w.stream = l.bytes ++ rest →
      ∃ t, enumExportableDevices onDevCnt behind w = .ok () t ∧ t.stream = rest ∧
        t.calls = w.calls ++ entries (l.records onDevCnt)) ∧
    ∀ k, k < l.bytes.length → w.stream = l.bytes.take k →
      ∃ t, enumExportableDevices onDevCnt behind w = .error .returnedFalse t ∧
        t.calls = w.calls ++ arrived (l.records onDevCnt) k := by
  have hreads := recvOpCommon_reads (enumDevices_reads l onDevCnt behind)
    (List.cons_ne_nil _ _) rfl
  have hsent : ∀ x : M Unit, (sendOpCommon OP_REQ_DEVLIST >>= fun _ => x) w =
      x { w with sent := w.sent ++ (bytes16 (swap16 USBIP_VERSION) ++ bytes16 (swap16 OP_REQ_DEVLIST) ++
        bytes32 (swap32 0)) } := by
    intro x
    exact bind_of_ok (send_of_none hsend _)
  rw [enumExportableDevices, hsent, ← items_deviceList l onDevCnt]
  constructor
  · intro rest hs
    exact hreads.whole _ rest hs
  · intro k hk hs
    exact hreads.cut _ k hk hs

-- A flash drive on the third port of the first bus.
def exportedDrive : ExportedDevice where
  path := { text := [47, 115, 121, 115], rest := List.replicate 251 0, noNul := by decide, fits := by decide +kernel }
  busid := { text := [49, 45, 51], rest := List.replicate 28 0, noNul := by decide, fits := by decide }
  busnum := 1
  devnum := 4
  speed := .USB_SPEED_HIGH
  idVendor := 0x0951
  idProduct := 0x1666
  bcdDevice := 0x0110
  bDeviceClass := 0
  bDeviceSubClass := 0
  bDeviceProtocol := 0
  bConfigurationValue := 1
  bNumConfigurations := 1
  interfaces := [⟨8, 6, 80, 0⟩]
  count := by decide

def driveList : DeviceList := { devices := [exportedDrive], count := by decide }

theorem deviceList_decoded_drive :
    (∃ t, enumExportableDevices true [] { stream := driveList.bytes } = .ok () t ∧ t.stream = [] ∧
      t.calls = [.onDevCnt 1, .onDev 0 exportedDrive.usbDevice,
        .onIntf 0 exportedDrive.usbDevice 0 ⟨8, 6, 80, 0⟩]) ∧
    ∃ t, enumExportableDevices true [] { stream := driveList.bytes.take 325 } = .error .returnedFalse t ∧
      t.calls = [.onDevCnt 1, .onDev 0 exportedDrive.usbDevice] := by
  constructor
  · obtain ⟨t, ht, hst, hcalls⟩ := (deviceList_decoded driveList true [] { stream := driveList.bytes } rfl).1 []
      (List.append_nil _).symm
    exact ⟨t, ht, hst, hcalls⟩
  · have harrived : arrived (driveList.records true) 325 = [.onDevCnt 1, .onDev 0 exportedDrive.usbDevice] := by
      decide +kernel
    obtain ⟨t, ht, hcalls⟩ := (deviceList_decoded driveList true [] { stream := driveList.bytes.take 325 } rfl).2 325
      (by decide +kernel) rfl
    exact ⟨t, ht, hcalls.trans harrived⟩

end Usbip.Libusbip.Remote

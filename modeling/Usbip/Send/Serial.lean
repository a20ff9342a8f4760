import Usbip.Library.Writes
import Usbip.Persistent.DeviceStr.Theorems
import Usbip.Send.Theorems

namespace Usbip.Send.Serial

open Usbip.Library.Words
open Usbip.Library.Writes
open Usbip.Persistent (cString)
open Usbip.VhciIoctl

-- The fields of `vhci::imported_device_properties` that a serial is answered from.
structure ImportedDeviceProperties where
  iserial : Byte := 0
  serial : List Byte
  size : serial.length = SERIAL_BUFSZ

def usbStringDescrSize (n : Byte) : Byte := UInt8.ofNat (2 + 2 * n.toNat)

-- The length of a string that ends before `cchMax` characters.
def rtlStringCchLengthA (psz : List Byte) (cchMax : Nat) : Except NTSTATUS Nat :=
  let cch := (cString (psz.take cchMax)).length
  if cch < cchMax then .ok cch else .error .STATUS_INVALID_PARAMETER

-- `sd->bString[i] = ch`
def setChar (serial memory : List Byte) (i : Nat) : Option (List Byte) := do
  let ch ← serial[i]?
  Write.store ⟨2 + 2 * i, bytes16 ch.toUInt16⟩ memory

-- `none` is a write past the end of the buffer; `retrieveBuffer` is what UdecxUrbRetrieveBuffer returns.
def fillUsbDeviceSerial (retrieveBuffer : NTSTATUS) (urb : Urb) (props : ImportedDeviceProperties) :
    Option (NTSTATUS × Urb) :=
  if urb.transferBufferLength < 2 then some (.STATUS_BUFFER_TOO_SMALL, urb)
  else
    match rtlStringCchLengthA props.serial SERIAL_BUFSZ with
    | .error err => some (err, urb)
    | .ok serialCch =>
      if retrieveBuffer ≠ .STATUS_SUCCESS then some (retrieveBuffer, urb)
      else do
        let memory ← Write.store ⟨0, [usbStringDescrSize (UInt8.ofNat serialCch)]⟩ urb.memory
        let memory ← Write.store ⟨1, [USB_STRING_DESCRIPTOR_TYPE]⟩ memory
        let bufCch := (urb.transferBufferLength - 2).toNat / 2
        let cch := min bufCch serialCch
        let memory ← (List.range cch).foldlM (setChar props.serial) memory
        let length := usbStringDescrSize (UInt8.ofNat cch)
        return (.STATUS_SUCCESS, { urb with memory := memory, transferBufferLength := length.toUInt32 })

-- The descriptor of a string of ASCII characters.
def stringDescriptor (text : List Byte) : List Byte :=
  UInt8.ofNat (2 + 2 * text.length) :: USB_STRING_DESCRIPTOR_TYPE :: text.flatMap fun ch => bytes16 ch.toUInt16

-- A URB has the buffer it says.
def HasRoom (urb : Urb) : Prop := urb.transferBufferLength.toNat ≤ urb.memory.length

instance (urb : Urb) : Decidable (HasRoom urb) := inferInstanceAs (Decidable (_ ≤ _))

def wLength (urb : Urb) : Nat := (SetupPacket.ofBytes urb.setupPacket).wLength.toNat

-- The host has as much of the descriptor as it asks for.
structure Replied (text : List Byte) (before after : Urb) : Prop where
  start : after.memory.take after.transferBufferLength.toNat <+: stringDescriptor text
  whole : HasRoom after
  inside : after.transferBufferLength ≤ before.transferBufferLength
  frame : after.memory.drop before.transferBufferLength.toNat = before.memory.drop before.transferBufferLength.toNat
  size : after.memory.length = before.memory.length
  length : after.transferBufferLength.toNat ≤ wLength before
  full : (stringDescriptor text).length ≤ wLength before →
    after.transferBufferLength.toNat = (stringDescriptor text).length

section Valid

-- The loop goes to the terminator or finds a character of another kind.
theorem isAsciiAlnum_eq (serial : List Byte) (i : Int) :
    isAsciiAlnum serial i = if (cString serial).all isAlnum then i + (cString serial).length else -1 := by
  induction serial generalizing i with
  | nil => simp [isAsciiAlnum, cString]
  | cons c rest ih =>
      by_cases hzero : c = 0
      · subst hzero
        simp [isAsciiAlnum, cString]
      · have hcons : cString (c :: rest) = c :: cString rest := by simp [cString, hzero]
        rw [isAsciiAlnum, if_neg hzero, hcons, ih, List.all_cons, List.length_cons]
        cases isAlnum c with
        | true =>
            simp only [Bool.true_and, if_true]
            split_ifs
            · push_cast
              omega
            · rfl
        | false => simp

-- A valid serial ends in its buffer.
theorem length_lt_of_valid {serial : List Byte} (hvalid : validateSerialNumber serial = .STATUS_SUCCESS) :
    (cString serial).length < SERIAL_BUFSZ := by
  rw [validateSerialNumber, isAsciiAlnum_eq] at hvalid
  split_ifs at hvalid with hall h h
  · omega
  · omega

variable {props : ImportedDeviceProperties}

theorem rtlStringCchLengthA_eq : rtlStringCchLengthA props.serial SERIAL_BUFSZ =
    if (cString props.serial).length < SERIAL_BUFSZ then .ok (cString props.serial).length
    else .error .STATUS_INVALID_PARAMETER := by
  rw [rtlStringCchLengthA, ← props.size, List.take_length]

theorem getElem?_serial {i : Nat} (h : i < (cString props.serial).length) :
    props.serial[i]? = (cString props.serial)[i]? := by
  obtain ⟨rest, hrest⟩ := List.takeWhile_prefix (l := props.serial) fun c : Byte => decide (c ≠ 0)
  conv_lhs => rw [← hrest]
  exact List.getElem?_append_left h

end Valid

section Loop

variable {text serial memory : List Byte} {cch : Nat}

-- The descriptor with its first `cch` characters.
def filled (text : List Byte) (cch : Nat) : List Byte :=
  UInt8.ofNat (2 + 2 * text.length) :: USB_STRING_DESCRIPTOR_TYPE ::
    (text.take cch).flatMap fun ch => bytes16 ch.toUInt16

theorem length_filled (h : cch ≤ text.length) : (filled text cch).length = 2 + 2 * cch := by
  have htake := List.length_take_of_le h
  simp only [filled, List.length_cons, List.length_flatMap, bytes16, List.length_nil, List.map_const', htake,
    List.sum_replicate_nat]
  omega

theorem filled_length : filled text text.length = stringDescriptor text := by
  rw [filled, List.take_length, stringDescriptor]

theorem length_stringDescriptor : (stringDescriptor text).length = 2 + 2 * text.length := by
  rw [← filled_length, length_filled le_rfl]

theorem filled_prefix : filled text cch <+: stringDescriptor text := by
  obtain ⟨rest, hrest⟩ := List.take_prefix cch text
  refine ⟨rest.flatMap fun ch => bytes16 ch.toUInt16, ?_⟩
  conv_rhs => rw [stringDescriptor, ← hrest, List.flatMap_append]
  rw [hrest]
  rfl

theorem filled_succ {ch : Byte} (h : text[cch]? = some ch) :
    filled text (cch + 1) = filled text cch ++ bytes16 ch.toUInt16 := by
  simp [filled, List.take_add_one, h]

-- What the loop leaves: the descriptor as far as it is filled, and the memory behind it.
theorem foldlM_setChar (hserial : ∀ i < text.length, serial[i]? = text[i]?) (hcch : cch ≤ text.length)
    (hroom : 2 + 2 * cch ≤ memory.length) :
    (List.range cch).foldlM (setChar serial)
        (UInt8.ofNat (2 + 2 * text.length) :: USB_STRING_DESCRIPTOR_TYPE :: memory.drop 2) =
      some (filled text cch ++ memory.drop (2 + 2 * cch)) := by
  induction cch with
  | zero => rfl
  | succ cch ih =>
      obtain ⟨ch, hch⟩ : ∃ ch, text[cch]? = some ch := ⟨_, List.getElem?_eq_getElem (by omega)⟩
      have htwo : (bytes16 ch.toUInt16).length = 2 := rfl
      have hstore : Write.store ⟨(filled text cch).length, bytes16 ch.toUInt16⟩
          (filled text cch ++ memory.drop (2 + 2 * cch)) = _ :=
        Write.store_append (by rw [htwo, List.length_drop]; omega)
      have hstep : setChar serial (filled text cch ++ memory.drop (2 + 2 * cch)) cch =
          some (filled text (cch + 1) ++ memory.drop (2 + 2 * (cch + 1))) := by
        rw [length_filled (by omega), List.drop_drop, ← filled_succ hch, htwo] at hstore
        rw [setChar, hserial cch (by omega), hch]
        exact hstore
      rw [List.range_succ, List.foldlM_append, ih (by omega) (by omega)]
      simpa using hstep

theorem store_header (h : 2 ≤ memory.length) (bLength bDescriptorType : Byte) :
    ∃ memory', Write.store ⟨0, [bLength]⟩ memory = some memory' ∧
      Write.store ⟨1, [bDescriptorType]⟩ memory' = some (bLength :: bDescriptorType :: memory.drop 2) := by
  refine ⟨bLength :: memory.drop 1, ?_, ?_⟩
  · have hstore : Write.store ⟨([] : List Byte).length, [bLength]⟩ ([] ++ memory) = _ :=
      Write.store_append (by rw [List.length_singleton]; omega)
    exact hstore
  · have hstore : Write.store ⟨[bLength].length, [bDescriptorType]⟩ ([bLength] ++ memory.drop 1) = _ :=
      Write.store_append (by rw [List.length_singleton, List.length_drop]; omega)
    rwa [List.drop_drop] at hstore

end Loop

section Fill

variable {urb : Urb} {props : ImportedDeviceProperties} {retrieveBuffer : NTSTATUS}

def bufCch (urb : Urb) : Nat := (urb.transferBufferLength.toNat - 2) / 2

-- How many characters the reply has.
def replyCch (urb : Urb) (props : ImportedDeviceProperties) : Nat := min (bufCch urb) (cString props.serial).length

def reply (urb : Urb) (props : ImportedDeviceProperties) : Urb :=
  { urb with
    memory := filled (cString props.serial) (replyCch urb props) ++ urb.memory.drop (2 + 2 * replyCch urb props)
    transferBufferLength := UInt32.ofNat (2 + 2 * replyCch urb props) }

theorem usbStringDescrSize_eq {cch : Nat} (h : cch < SERIAL_BUFSZ) :
    usbStringDescrSize (UInt8.ofNat cch) = UInt8.ofNat (2 + 2 * cch) := by
  unfold SERIAL_BUFSZ at h
  rw [usbStringDescrSize, UInt8.toNat_ofNat_of_lt' (by simp only [UInt8.size]; omega)]

theorem toUInt32_usbStringDescrSize {cch : Nat} (h : cch < SERIAL_BUFSZ) :
    (usbStringDescrSize (UInt8.ofNat cch)).toUInt32 = UInt32.ofNat (2 + 2 * cch) := by
  unfold SERIAL_BUFSZ at h
  apply UInt32.toNat_inj.mp
  rw [usbStringDescrSize_eq h, UInt8.toNat_toUInt32, UInt8.toNat_ofNat_of_lt' (by simp only [UInt8.size]; omega),
    UInt32.toNat_ofNat_of_lt' (by simp only [UInt32.size]; omega)]

theorem fillUsbDeviceSerial_ok (hlen : (cString props.serial).length < SERIAL_BUFSZ) (hroom : HasRoom urb)
    (htwo : 2 ≤ urb.transferBufferLength) :
    fillUsbDeviceSerial .STATUS_SUCCESS urb props = some (.STATUS_SUCCESS, reply urb props) := by
  have hsmall : ¬ urb.transferBufferLength < 2 := by
    rw [UInt32.not_lt]
    exact htwo
  have hbuf : (urb.transferBufferLength - 2).toNat / 2 = bufCch urb := by
    rw [UInt32.toNat_sub_of_le _ _ htwo]
    rfl
  have htwo' : 2 ≤ urb.transferBufferLength.toNat := UInt32.le_iff_toNat_le.mp htwo
  have hle : replyCch urb props ≤ bufCch urb := Nat.min_le_left ..
  have hle' : replyCch urb props ≤ (cString props.serial).length := Nat.min_le_right ..
  have hmemory : 2 + 2 * replyCch urb props ≤ urb.memory.length := by
    unfold HasRoom at hroom
    unfold bufCch at hle
    omega
  obtain ⟨memory, hlength, htype⟩ := store_header (by omega : 2 ≤ urb.memory.length)
    (UInt8.ofNat (2 + 2 * (cString props.serial).length)) USB_STRING_DESCRIPTOR_TYPE
  have hloop : (List.range (replyCch urb props)).foldlM (setChar props.serial)
      (UInt8.ofNat (2 + 2 * (cString props.serial).length) :: USB_STRING_DESCRIPTOR_TYPE :: urb.memory.drop 2) =
      some (reply urb props).memory :=
    foldlM_setChar (fun i hi => getElem?_serial hi) hle' hmemory
  rw [replyCch, ← hbuf] at hloop
  rw [fillUsbDeviceSerial, if_neg hsmall, rtlStringCchLengthA_eq, if_pos hlen]
  simp only [ne_eq, not_true_eq_false, if_false, usbStringDescrSize_eq hlen, hlength, Option.bind_eq_bind,
    Option.bind_some, htype, hloop]
  rw [hbuf, ← replyCch, toUInt32_usbStringDescrSize (by omega)]
  rfl

-- What the reply says of its length, whatever the host has asked for.
theorem toNat_reply (hvalid : validateSerialNumber props.serial = .STATUS_SUCCESS) :
    (reply urb props).transferBufferLength.toNat = 2 + 2 * replyCch urb props := by
  have hlen := length_lt_of_valid hvalid
  have hle : replyCch urb props ≤ (cString props.serial).length := Nat.min_le_right ..
  unfold SERIAL_BUFSZ at hlen
  exact UInt32.toNat_ofNat_of_lt' (by simp only [UInt32.size]; omega)

theorem two_add_replyCch_le (htwo : 2 ≤ urb.transferBufferLength) :
    2 + 2 * replyCch urb props ≤ urb.transferBufferLength.toNat := by
  have htwo' : 2 ≤ urb.transferBufferLength.toNat := UInt32.le_iff_toNat_le.mp htwo
  have hle : replyCch urb props ≤ bufCch urb := Nat.min_le_left ..
  unfold bufCch at hle
  omega

-- Only the length can be wrong.
theorem replied_reply (hvalid : validateSerialNumber props.serial = .STATUS_SUCCESS) (hroom : HasRoom urb)
    (htwo : 2 ≤ urb.transferBufferLength) (hwide : wLength urb ≤ urb.transferBufferLength.toNat) :
    Replied (cString props.serial) urb (reply urb props) ↔ 2 + 2 * replyCch urb props ≤ wLength urb := by
  have hnew : (reply urb props).transferBufferLength.toNat = 2 + 2 * replyCch urb props := toNat_reply hvalid
  have hle : 2 + 2 * replyCch urb props ≤ urb.transferBufferLength.toNat := two_add_replyCch_le htwo
  have hfilled : (filled (cString props.serial) (replyCch urb props)).length = 2 + 2 * replyCch urb props :=
    length_filled (Nat.min_le_right ..)
  unfold HasRoom at hroom
  have hsize : (reply urb props).memory.length = urb.memory.length := by
    simp only [reply, List.length_append, hfilled, List.length_drop]
    omega
  constructor
  · intro h
    have hlength := h.length
    rwa [hnew] at hlength
  · intro hlength
    refine
      { start := ?_, whole := ?_, inside := ?_, frame := ?_, size := hsize, length := hnew ▸ hlength, full := ?_ }
    · rw [hnew, reply, ← hfilled, List.take_left]
      exact filled_prefix
    · rw [HasRoom, hnew, hsize]
      omega
    · rw [UInt32.le_iff_toNat_le, hnew]
      exact hle
    · have hsplit : urb.transferBufferLength.toNat =
          (filled (cString props.serial) (replyCch urb props)).length +
            (urb.transferBufferLength.toNat - (2 + 2 * replyCch urb props)) := by omega
      simp only [reply]
      rw [hsplit, ← List.drop_drop, List.drop_left, List.drop_drop, hfilled]
    · intro hfull
      rw [length_stringDescriptor] at hfull ⊢
      rw [hnew]
      unfold replyCch bufCch at *
      omega

end Fill

section Answer

variable {urb : Urb} {props : ImportedDeviceProperties}

def Answered (urb : Urb) (props : ImportedDeviceProperties) : Prop :=
  ∃ after, fillUsbDeviceSerial .STATUS_SUCCESS urb props = some (.STATUS_SUCCESS, after) ∧
    Replied (cString props.serial) urb after

theorem answered_iff_le (hvalid : validateSerialNumber props.serial = .STATUS_SUCCESS) (hroom : HasRoom urb)
    (hbuffer : 2 ≤ urb.transferBufferLength) (hwide : wLength urb ≤ urb.transferBufferLength.toNat) :
    Answered urb props ↔ 2 + 2 * replyCch urb props ≤ wLength urb := by
  have hfill := fillUsbDeviceSerial_ok (length_lt_of_valid hvalid) hroom hbuffer
  rw [← replied_reply hvalid hroom hbuffer hwide]
  constructor
  · rintro ⟨after, hafter, h⟩
    rw [hfill, Option.some.injEq, Prod.mk.injEq] at hafter
    rwa [hafter.2]
  · exact fun h => ⟨_, hfill, h⟩

-- The host has asked for the whole descriptor, or for all the characters that the buffer has room for.
theorem answered_iff (hvalid : validateSerialNumber props.serial = .STATUS_SUCCESS) (hroom : HasRoom urb)
    (hbuffer : 2 ≤ urb.transferBufferLength) (hwide : wLength urb ≤ urb.transferBufferLength.toNat) :
    Answered urb props ↔
      (stringDescriptor (cString props.serial)).length ≤ wLength urb ∨
        urb.transferBufferLength.toNat / 2 * 2 ≤ wLength urb := by
  have hbuffer' : 2 ≤ urb.transferBufferLength.toNat := UInt32.le_iff_toNat_le.mp hbuffer
  rw [answered_iff_le hvalid hroom hbuffer hwide, length_stringDescriptor]
  unfold replyCch bufCch
  omega

-- The serial "ABC123"
def driveProperties : ImportedDeviceProperties where
  iserial := 3
  serial := [65, 66, 67, 49, 50, 51, 0, 0, 0, 0, 0, 0, 0, 0, 0, 0]
  size := by decide

def serialRequest (buffer : Nat) (wLengthLow : Byte) : Urb where
  function := .controlTransfer
  transferBufferLength := UInt32.ofNat buffer
  transferBuffer := true
  memory := List.replicate buffer 0
  setupPacket := [128, 6, 3, 3, 9, 4, wLengthLow, 0]

theorem answered_iff_drive :
    Answered (serialRequest 64 64) driveProperties ↔
      (stringDescriptor (cString driveProperties.serial)).length ≤ wLength (serialRequest 64 64) ∨
        (serialRequest 64 64).transferBufferLength.toNat / 2 * 2 ≤ wLength (serialRequest 64 64) :=
  answered_iff (by decide) (by decide) (by decide) (by decide)

-- A host that reads the header first has the whole descriptor.
theorem header_not_answered :
    (validateSerialNumber driveProperties.serial = .STATUS_SUCCESS ∧ cString driveProperties.serial ≠ []) ∧
      (HasRoom (serialRequest 64 2) ∧ wLength (serialRequest 64 2) = 2 ∧
        2 ≤ (serialRequest 64 2).transferBufferLength) ∧
      ¬ Answered (serialRequest 64 2) driveProperties := by
  refine ⟨by decide, by decide, fun hanswered => ?_⟩
  have hle := (answered_iff_le (by decide) (by decide) (by decide) (by decide)).mp hanswered
  revert hle
  decide

end Answer

section Transfer

variable {env : SendEnv} {props : ImportedDeviceProperties}

-- What RtlStringCchLengthA returns for the serial.
def serialLength (props : ImportedDeviceProperties) : NTSTATUS :=
  match rtlStringCchLengthA props.serial SERIAL_BUFSZ with
  | .ok _ => .STATUS_SUCCESS
  | .error err => err

-- No buffer is written past its end, and the status is the one that `control_transfer` goes on with.
theorem fillUsbDeviceSerial_status {urb : Urb} (hserial : env.serialLength = serialLength props) (hroom : HasRoom urb) :
    (fillUsbDeviceSerial env.retrieveBuffer urb props).map Prod.fst = some (Send.fillUsbDeviceSerial env urb) := by
  by_cases hsmall : urb.transferBufferLength < 2
  · rw [fillUsbDeviceSerial, Send.fillUsbDeviceSerial, if_pos hsmall, if_pos hsmall]
    rfl
  rw [Send.fillUsbDeviceSerial, if_neg hsmall, hserial, serialLength, rtlStringCchLengthA_eq]
  by_cases hlen : (cString props.serial).length < SERIAL_BUFSZ
  · rw [if_pos hlen]
    by_cases hretrieve : env.retrieveBuffer = .STATUS_SUCCESS
    · rw [hretrieve, fillUsbDeviceSerial_ok hlen hroom (UInt32.not_lt.mp hsmall)]
      rfl
    · rw [fillUsbDeviceSerial, if_neg hsmall, rtlStringCchLengthA_eq, if_pos hlen]
      simp [hretrieve]
  · rw [fillUsbDeviceSerial, if_neg hsmall, rtlStringCchLengthA_eq, if_neg hlen]
    simp

theorem unpackRequest_of_string {urb : TransferUrb} (h : getDeviceStringDescr (.ofBytes urb.setupPacket) ≠ 0) :
    unpackRequest urb = .ok urb.toUrb := by
  have hother : SetupPacket.ofBytes urb.setupPacket ≠ filterSetupPacket := by
    intro heq
    rw [heq] at h
    exact h (by decide)
  have hrequest : isRequest urb = false := by
    rw [isRequest, beq_false_of_ne hother, Bool.and_false]
  rw [unpackRequest, hrequest]
  rfl

-- A request for the serial does not leave the driver.
theorem controlTransfer_answered {dev : DeviceCtx} {epd : EndpointDescriptor} {urb : TransferUrb}
    (hserial : env.serialLength = serialLength props) (hretrieve : env.retrieveBuffer = .STATUS_SUCCESS)
    (hdev : dev.iserial = props.iserial) (hne : props.iserial ≠ 0)
    (hindex : getDeviceStringDescr (.ofBytes urb.setupPacket) = props.iserial)
    (hvalid : validateSerialNumber props.serial = .STATUS_SUCCESS) (hroom : HasRoom urb.toUrb)
    (hbuffer : 2 ≤ urb.transferBufferLength) (hwide : wLength urb.toUrb ≤ urb.transferBufferLength.toNat) :
    controlTransfer env dev epd urb = pure { status := .STATUS_SUCCESS, dev := dev } := by
  have hfits : ¬ urb.transferBufferLength < (SetupPacket.ofBytes urb.setupPacket).wLength.toUInt32 := by
    rw [UInt32.not_lt, UInt32.le_iff_toNat_le, UInt16.toNat_toUInt32]
    exact hwide
  have hstatus := fillUsbDeviceSerial_status hserial hroom
  rw [hretrieve, fillUsbDeviceSerial_ok (length_lt_of_valid hvalid) hroom hbuffer] at hstatus
  have hsuccess : Send.fillUsbDeviceSerial env urb.toUrb = .STATUS_SUCCESS := (Option.some.inj hstatus).symm
  rw [controlTransfer, unpackRequest_of_string (hindex ▸ hne)]
  dsimp only
  rw [if_neg hfits, hindex, hdev, hsuccess, if_pos ⟨hne, rfl, rfl⟩]

end Transfer

end Usbip.Send.Serial

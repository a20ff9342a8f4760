import Usbip.Filter.LegacyControl

namespace Usbip.Filter.Legacy

open Usbip.Library.Words
open Usbip.Send

-- What bits 5 and 6 and what bits 0 to 4 of `bmRequestType` stand for.
inductive RequestType where
  | classSpecific
  | vendorSpecific
  deriving DecidableEq, Repr

inductive Recipient where
  | device
  | interface
  | endpoint
  | other
  deriving DecidableEq, Repr

def RequestType.code : RequestType → Byte
  | .classSpecific => 1
  | .vendorSpecific => 2

def Recipient.code : Recipient → Byte
  | .device => 0
  | .interface => 1
  | .endpoint => 2
  | .other => 3

-- The request that a function code is for.
def requestKind (function : UInt16) : Option (RequestType × Recipient) :=
  [(URB_FUNCTION_VENDOR_DEVICE, .vendorSpecific, .device),
    (URB_FUNCTION_VENDOR_INTERFACE, .vendorSpecific, .interface),
    (URB_FUNCTION_VENDOR_ENDPOINT, .vendorSpecific, .endpoint),
    (URB_FUNCTION_VENDOR_OTHER, .vendorSpecific, .other),
    (URB_FUNCTION_CLASS_DEVICE, .classSpecific, .device),
    (URB_FUNCTION_CLASS_INTERFACE, .classSpecific, .interface),
    (URB_FUNCTION_CLASS_ENDPOINT, .classSpecific, .endpoint),
    (URB_FUNCTION_CLASS_OTHER, .classSpecific, .other)].lookup function

-- The setup packet asks for what the URB asks for.
structure Encodes (urb : VendorClassUrb) (packet : SetupPacket) : Prop where
  kind : ∃ type recipient, requestKind urb.function = some (type, recipient) ∧
    packet.bmRequestType >>> 5 &&& 3 = type.code ∧ packet.bmRequestType &&& 31 = recipient.code
  direction : packet.dirOut = !isTransferDirectionIn urb.transferFlags
  request : packet.bRequest = urb.request
  value : le16 packet.wValueLow packet.wValueHigh = urb.value
  index : le16 packet.wIndexLow packet.wIndexHigh = urb.index
  length : packet.wLength.toNat = urb.transferBufferLength.toNat

-- Two contents of a URB that agree on what the rewriting changes.
structure SameFields (before after : VendorClassUrb) : Prop where
  function : after.function = before.function
  transferFlags : after.transferFlags = before.transferFlags
  requestTypeReservedBits : after.requestTypeReservedBits = before.requestTypeReservedBits
  reserved1 : after.reserved1 = before.reserved1

-- `bmRequestType` without its direction bit
def typeBits (type : RequestType) (recipient : Recipient) : Byte := type.code <<< 5 ||| recipient.code

theorem requestTypeOf_eq (function : UInt16) :
    requestTypeOf function = (requestKind function).map fun kind => typeBits kind.1 kind.2 := by
  unfold requestTypeOf
  split_ifs with h1 h2 h3 h4 h5 h6 h7 h8
  iterate 8 · subst function; rfl
  · simp only [requestKind, List.lookup_cons, beq_false_of_ne h1, beq_false_of_ne h2, beq_false_of_ne h3,
      beq_false_of_ne h4, beq_false_of_ne h5, beq_false_of_ne h6, beq_false_of_ne h7, beq_false_of_ne h8,
      List.lookup_nil, Option.map_none]

theorem function_ne_zero {function : UInt16} {kind : RequestType × Recipient}
    (h : requestKind function = some kind) : function ≠ 0 := by
  rintro rfl
  exact absurd (h.symm.trans (by decide : requestKind 0 = none)) (by simp)

-- The direction bit for a direction
def dirBits (dirIn : Bool) : Byte := if dirIn then USB_DIR_IN else USB_DIR_OUT

theorem typeBits_fields (type : RequestType) (recipient : Recipient) (dirIn : Bool) :
    (typeBits type recipient ||| dirBits dirIn) >>> 5 &&& 3 = type.code ∧
      (typeBits type recipient ||| dirBits dirIn) &&& 31 = recipient.code ∧
      decide (typeBits type recipient ||| dirBits dirIn < 128) = !dirIn := by
  cases type <;> cases recipient <;> cases dirIn <;> decide

theorem typeBits_ne_zero (type : RequestType) (recipient : Recipient) (dirIn : Bool) :
    typeBits type recipient ||| dirBits dirIn ≠ 0 := by
  cases type <;> cases recipient <;> cases dirIn <;> decide

theorem getRequestType_eq (urb : VendorClassUrb) :
    getRequestType urb =
      match requestKind urb.function with
      | some (type, recipient) => typeBits type recipient ||| dirBits (isTransferDirectionIn urb.transferFlags)
      | none => 0 := by
  rw [getRequestType, requestTypeOf_eq]
  cases requestKind urb.function with
  | none => rfl
  | some kind => rfl

-- A URB is rewritten if its function code is that of a vendor or class request.
theorem tryLegacyCtrl_eq (urb : VendorClassUrb) :
    tryLegacyCtrl urb =
      match requestKind urb.function with
      | some (type, recipient) =>
        (vendorClassToControl urb (typeBits type recipient ||| dirBits (isTransferDirectionIn urb.transferFlags)),
          urb.function)
      | none => (urb, 0) := by
  rw [tryLegacyCtrl, getRequestType_eq]
  cases requestKind urb.function with
  | none => rfl
  | some kind =>
    have hne := typeBits_ne_zero kind.1 kind.2 (isTransferDirectionIn urb.transferFlags)
    simp only [if_neg hne]

-- Clearing the flag on completion gives the flags back if they came without it.
theorem flags_restored_iff (flags : UInt32) :
    (flags ||| USBD_DEFAULT_PIPE_TRANSFER) &&& ~~~USBD_DEFAULT_PIPE_TRANSFER = flags ↔
      flags &&& USBD_DEFAULT_PIPE_TRANSFER = 0 := by
  simp only [← UInt32.toBitVec_inj, UInt32.toBitVec_and, UInt32.toBitVec_or, UInt32.toBitVec_not,
    UInt32.toBitVec_zero, BitVec.eq_of_getLsbD_eq_iff, BitVec.getLsbD_and, BitVec.getLsbD_or,
    BitVec.getLsbD_not, BitVec.getLsbD_zero]
  refine forall₂_congr fun i hi => ?_
  cases flags.toBitVec.getLsbD i <;> cases USBD_DEFAULT_PIPE_TRANSFER.toBitVec.getLsbD i <;> simp [hi]

theorem toNat_toUInt16_eq_iff (length : UInt32) :
    length.toUInt16.toNat = length.toNat ↔ length.toNat < 2 ^ 16 := by
  rw [UInt32.toNat_toUInt16]
  omega

section Rewriting

variable {urb : VendorClassUrb} {type : RequestType} {recipient : Recipient}

theorem tryLegacyCtrl_of_kind (hkind : requestKind urb.function = some (type, recipient)) :
    tryLegacyCtrl urb =
      (vendorClassToControl urb (typeBits type recipient ||| dirBits (isTransferDirectionIn urb.transferFlags)),
        urb.function) := by
  rw [tryLegacyCtrl_eq, hkind]

-- All of the packet but its length stands for the URB whatever the URB holds.
theorem encodes_iff (hkind : requestKind urb.function = some (type, recipient)) :
    Encodes urb (SetupPacket.ofBytes (tryLegacyCtrl urb).1.setupPacket) ↔
      urb.transferBufferLength.toNat < 2 ^ 16 := by
  obtain ⟨htype, hrecipient, hdir⟩ := typeBits_fields type recipient (isTransferDirectionIn urb.transferFlags)
  rw [tryLegacyCtrl_of_kind hkind, ← toNat_toUInt16_eq_iff]
  constructor
  · intro h
    have hlength := h.length
    simpa only [SetupPacket.wLength, SetupPacket.ofBytes, VendorClassUrb.setupPacket, vendorClassToControl,
      bytes16, List.cons_append, List.nil_append, List.getD_cons_succ, List.getD_cons_zero,
      le16_bytes16] using hlength
  · intro h
    exact {
      kind := ⟨type, recipient, hkind, htype, hrecipient⟩
      direction := hdir
      request := rfl
      value := le16_bytes16 _
      index := le16_bytes16 _
      length := (congrArg UInt16.toNat (le16_bytes16 _)).trans h }

-- What the completion makes of a URB whose members the drivers below have left as they were.
theorem sameFields_complete_iff (hkind : requestKind urb.function = some (type, recipient))
    {completed : VendorClassUrb} (hlower : SameFields (tryLegacyCtrl urb).1 completed) :
    SameFields urb (irpComplete (tryLegacyCtrl urb).2 completed) ↔
      urb.transferFlags &&& USBD_DEFAULT_PIPE_TRANSFER = 0 ∧ urb.requestTypeReservedBits = 0 ∧
        urb.reserved1 = 0 := by
  have hflags := hlower.transferFlags
  rw [tryLegacyCtrl_of_kind hkind] at hflags ⊢
  simp only [vendorClassToControl] at hflags
  rw [irpComplete, if_pos (function_ne_zero hkind), controlToVendorClass, hflags, ← flags_restored_iff]
  constructor
  · intro h
    exact ⟨h.transferFlags, h.requestTypeReservedBits.symm, h.reserved1.symm⟩
  · rintro ⟨h, hbits, hreserved⟩
    exact { function := rfl, transferFlags := h, requestTypeReservedBits := hbits.symm, reserved1 := hreserved.symm }

end Rewriting

-- The URB that is sent down is a control transfer for the default pipe.
theorem tryLegacyCtrl_control {urb : VendorClassUrb} (hkind : (requestKind urb.function).isSome) :
    (tryLegacyCtrl urb).1.function = URB_FUNCTION_CONTROL_TRANSFER ∧
      (tryLegacyCtrl urb).1.transferFlags = urb.transferFlags ||| USBD_DEFAULT_PIPE_TRANSFER := by
  obtain ⟨kind, hkind⟩ := Option.isSome_iff_exists.mp hkind
  rw [tryLegacyCtrl_of_kind hkind]
  exact ⟨rfl, rfl⟩

-- A URB of another kind and the URBs of a hub pass through in both directions.
theorem untouched {isHub : Bool} {urb sent : VendorClassUrb} {context : UInt16}
    (hcall : intDevCtrl isHub (some urb) = .called (some sent) context) (hkind : requestKind urb.function = none) :
    sent = urb ∧ ∀ completed, irpComplete context completed = completed := by
  unfold intDevCtrl at hcall
  split at hcall
  · cases hcall
  · simp only [tryLegacyCtrl_eq, hkind] at hcall
    cases hcall
    exact ⟨rfl, fun _ => rfl⟩

theorem rewriting_faithful_iff {isHub : Bool} {urb sent completed : VendorClassUrb} {context : UInt16}
    (hkind : (requestKind urb.function).isSome)
    (hcall : intDevCtrl isHub (some urb) = .called (some sent) context) (hlower : SameFields sent completed) :
    Encodes urb (SetupPacket.ofBytes sent.setupPacket) ∧ SameFields urb (irpComplete context completed) ↔
      urb.transferBufferLength.toNat < 2 ^ 16 ∧ urb.transferFlags &&& USBD_DEFAULT_PIPE_TRANSFER = 0 ∧
        urb.requestTypeReservedBits = 0 ∧ urb.reserved1 = 0 := by
  obtain ⟨kind, hkind⟩ := Option.isSome_iff_exists.mp hkind
  unfold intDevCtrl at hcall
  split at hcall
  · cases hcall
  · cases hcall
    rw [encodes_iff hkind, sameFields_complete_iff hkind hlower]

-- A request of a class driver to the device, 18 bytes in.
def deviceRequest : VendorClassUrb where
  function := URB_FUNCTION_CLASS_DEVICE
  transferFlags := USBD_TRANSFER_DIRECTION_IN
  transferBufferLength := 18
  requestTypeReservedBits := 0
  request := 6
  value := 0x2900
  index := 0
  reserved1 := 0

theorem rewriting_faithful_device :
    Encodes deviceRequest (SetupPacket.ofBytes (tryLegacyCtrl deviceRequest).1.setupPacket) ∧
      SameFields deviceRequest (irpComplete (tryLegacyCtrl deviceRequest).2 (tryLegacyCtrl deviceRequest).1) :=
  (@rewriting_faithful_iff false _ _ _ _ (by decide) rfl ⟨rfl, rfl, rfl, rfl⟩).mpr (by decide)

def longRequest : VendorClassUrb := { deviceRequest with transferBufferLength := 0x10000 }

def defaultPipeRequest : VendorClassUrb :=
  { deviceRequest with transferFlags := USBD_TRANSFER_DIRECTION_IN ||| USBD_DEFAULT_PIPE_TRANSFER }

-- The packet for 64 KiB asks for zero bytes, and a URB that came with the flag of the default pipe loses it.
theorem rewriting_not_faithful :
    ¬ Encodes longRequest (SetupPacket.ofBytes (tryLegacyCtrl longRequest).1.setupPacket) ∧
      ¬ SameFields defaultPipeRequest
        (irpComplete (tryLegacyCtrl defaultPipeRequest).2 (tryLegacyCtrl defaultPipeRequest).1) := by
  constructor
  · rw [encodes_iff (by rfl)]
    decide
  · intro h
    exact absurd h.transferFlags (by decide)

end Usbip.Filter.Legacy

import Usbip.DescriptorPatch
import Usbip.Proto

namespace Usbip

open Usbip.Library.Words

-- The USBD_STATUS_* values that replies are translated to.
inductive UsbdStatus where
  | SUCCESS
  | PENDING
  | CANCELED
  | STALL_PID
  | ERROR_SHORT_TRANSFER
  | DEV_NOT_RESPONDING
  | TIMEOUT
  | BABBLE_DETECTED
  | DEVICE_GONE
  | CRC
  | DATA_OVERRUN
  | DATA_UNDERRUN
  | INSUFFICIENT_RESOURCES
  | BTSTUFF
  | NO_BANDWIDTH
  | ISO_TD_ERROR
  | ISOCH_REQUEST_FAILED
  | INTERNAL_HC_ERROR
  | ERROR_BUSY
  | INVALID_PARAMETER
  deriving DecidableEq, Repr

-- The `switch` over the Linux error codes.
def toWindowsStatusEx (usbipStatus : Int) (isoch : Bool) : UsbdStatus :=
  match usbipStatus.natAbs with
  | 0 => .SUCCESS
  | 32 => .STALL_PID -- EPIPE_LNX
  | 121 => .ERROR_SHORT_TRANSFER -- EREMOTEIO_LNX
  | 62 => .DEV_NOT_RESPONDING -- ETIME_LNX
  | 110 => .TIMEOUT -- ETIMEDOUT_LNX
  | 2 | 104 => .CANCELED -- ENOENT_LNX, ECONNRESET_LNX
  | 75 => .BABBLE_DETECTED -- EOVERFLOW_LNX
  | 19 | 108 | 113 => .DEVICE_GONE -- ENODEV_LNX, ESHUTDOWN_LNX, EHOSTUNREACH_LNX
  | 84 => .CRC -- EILSEQ_LNX
  | 70 => .DATA_OVERRUN -- ECOMM_LNX
  | 63 => .DATA_UNDERRUN -- ENOSR_LNX
  | 12 => .INSUFFICIENT_RESOURCES -- ENOMEM_LNX
  | 71 => .BTSTUFF -- EPROTO_LNX
  | 28 => .NO_BANDWIDTH -- ENOSPC_LNX
  | 18 => if isoch then .ISO_TD_ERROR else .ISOCH_REQUEST_FAILED -- EXDEV_LNX
  | 6 => .INTERNAL_HC_ERROR -- ENXIO_LNX
  | 16 => .ERROR_BUSY -- EBUSY_LNX
  | _ => .INVALID_PARAMETER

def toWindowsStatus (usbipStatus : Int) : UsbdStatus := toWindowsStatusEx usbipStatus false
def toWindowsStatusIsoch (usbipStatus : Int) : UsbdStatus := toWindowsStatusEx usbipStatus true

inductive UrbFunction where
  | controlTransfer
  | isochTransfer
  | bulkOrInterruptTransfer
  | other
  deriving DecidableEq, Repr

-- `USBD_ISO_PACKET_DESCRIPTOR`
structure IsoPacket where
  offset : UInt32
  length : UInt32 := 0
  status : UsbdStatus := .PENDING
  deriving DecidableEq, Repr

def USBD_DEFAULT_PIPE_TRANSFER : UInt32 := 8
def USBD_START_ISO_TRANSFER_ASAP : UInt32 := 4

-- Where a byte of memory belongs: to the transfer buffer, at an offset, or to somebody else; then it has a value.
inductive Place where
  | own (offset : Nat)
  | other (value : Byte)
  deriving DecidableEq, Repr

-- A URB with a transfer buffer. `transferBufferMdl` are the byte counts of the MDLs of
-- `TransferBufferMDL`, none if it is null, and `memory` is what the buffer holds. `behind` is the memory
-- at the system addresses that follow those of the first MDL.
structure Urb where
  function : UrbFunction
  status : UsbdStatus := .PENDING
  transferFlags : UInt32 := 0
  transferBufferLength : UInt32 := 0
  transferBuffer : Bool := false
  transferBufferMdl : List UInt32 := []
  behind : List Place := []
  memory : List Byte := []
  setupPacket : List Byte := []
  startFrame : Int := 0
  errorCount : Int := 0
  numberOfPackets : UInt32 := 0
  isoPacket : List IsoPacket := []
  deriving DecidableEq, Repr

-- `MmGetSystemAddressForMdlSafe` maps the first MDL of a chain, whatever comes after it.
def Urb.mapping (urb : Urb) (i : Nat) : Place :=
  let head := (urb.transferBufferMdl.headD 0).toNat
  if i < head then .own i else urb.behind.getD (i - head) (.other 0)

def Place.read (memory : List Byte) : Place → Byte
  | .own offset => memory.getD offset 0
  | .other value => value

-- Bytes that are written one after the other, from the `i`-th place on.
def storeAt (place : Nat → Place) : Nat → List Byte → List Byte → List Byte
  | _, [], memory => memory
  | i, byte :: bytes, memory =>
    storeAt place (i + 1) bytes
      (match place i with
      | .own offset => memory.take offset ++ byte :: memory.drop (offset + 1)
      | .other _ => memory)

def isIsoch (urb : Urb) : Bool := urb.function == .isochTransfer

-- A request of UDE; IOCTL_INTERNAL_USB_SUBMIT_URB comes with a URB.
structure UdeRequest where
  urb : Option Urb := none
  deriving DecidableEq, Repr

structure IsoPacketDescriptor where
  offset : UInt32
  length : UInt32
  actualLength : UInt32
  status : UInt32
  deriving DecidableEq, Repr

-- The descriptor whose storage starts at a place of the array.
def IsoPacketDescriptor.at (isoc : List Byte) (i : Nat) : Option IsoPacketDescriptor := do
  let word (k : Nat) : Option UInt32 := do
    let b0 ← isoc[16 * i + 4 * k]?
    let b1 ← isoc[16 * i + 4 * k + 1]?
    let b2 ← isoc[16 * i + 4 * k + 2]?
    let b3 ← isoc[16 * i + 4 * k + 3]?
    return le32 b0 b1 b2 b3
  return { offset := ← word 0, length := ← word 1, actualLength := ← word 2, status := ← word 3 }

-- The words of a buffer, each with its bytes reversed.
def byteswapWords : List Byte → List Byte
  | b0 :: b1 :: b2 :: b3 :: rest => b3 :: b2 :: b1 :: b0 :: byteswapWords rest
  | rest => rest

-- `byteswap` of the first `cnt` descriptors of an array.
def byteswapIsoc (isoc : List Byte) (cnt : Nat) : List Byte :=
  byteswapWords (isoc.take (sizeofIsoPacketDescriptor * cnt)) ++ isoc.drop (sizeofIsoPacketDescriptor * cnt)

-- `RtlMoveMemory` inside one buffer; `none` if it leaves the buffer.
def moveMemory (memory : List Byte) (dst src length : Nat) : Option (List Byte) :=
  if dst + length ≤ memory.length ∧ src + length ≤ memory.length then
    some (memory.take dst ++ (memory.drop src).take length ++ memory.drop (dst + length))
  else none

-- One round of the loop of `fill_isoc_data`: the status and what is left of `length`. `none` is an
-- access outside an array or outside the transfer buffer.
def fillIsocPacket (urb : Urb) (dirOut : Bool) (isoc : List Byte) (i : Nat) (length : UInt32) :
    Option (NTSTATUS × Urb × UInt32) := do
  let sd ← IsoPacketDescriptor.at isoc i
  let dd ← urb.isoPacket[i]?
  let dd := { dd with status := if sd.status ≠ 0 then toWindowsStatusIsoch (signed sd.status) else .SUCCESS }
  let set (dd : IsoPacket) : Urb := { urb with isoPacket := urb.isoPacket.set i dd }
  if dirOut then return (.STATUS_SUCCESS, set dd, length)
  else if sd.actualLength = 0 then return (.STATUS_SUCCESS, set { dd with length := 0 }, length)
  else if sd.actualLength > sd.length then return (.STATUS_INVALID_PARAMETER, set dd, length)
  else if sd.offset ≠ dd.offset then return (.STATUS_INVALID_PARAMETER, set dd, length)
  else if length < sd.actualLength then return (.STATUS_INVALID_PARAMETER, set dd, length)
  else
    let length := length - sd.actualLength
    if dd.offset + sd.actualLength > urb.transferBufferLength then
      return (.STATUS_INVALID_PARAMETER, set dd, length)
    else if dd.offset < length then return (.STATUS_INVALID_PARAMETER, set dd, length)
    else
      let memory ←
        if dd.offset > length then
          moveMemory urb.memory dd.offset.toNat length.toNat sd.actualLength.toNat
        else some urb.memory
      return (.STATUS_SUCCESS, { set { dd with length := sd.actualLength } with memory := memory }, length)

-- The packets below `i`, from the last one down to the first.
def fillIsocLoop (dirOut : Bool) (isoc : List Byte) : Nat → Urb → UInt32 → Option (NTSTATUS × Urb × UInt32)
  | 0, urb, length => some (.STATUS_SUCCESS, urb, length)
  | i + 1, urb, length => do
    let (st, urb, length) ← fillIsocPacket urb dirOut isoc i length
    if st = .STATUS_SUCCESS then fillIsocLoop dirOut isoc i urb length else some (st, urb, length)

def fillIsocData (urb : Urb) (dirOut : Bool) (length : UInt32) (isoc : List Byte) : Option (NTSTATUS × Urb) := do
  let (st, urb, length) ← fillIsocLoop dirOut isoc urb.numberOfPackets.toNat urb length
  if st ≠ .STATUS_SUCCESS then return (st, urb)
  else if length ≠ 0 ∧ dirOut = false then return (.STATUS_INVALID_PARAMETER, urb)
  else return (.STATUS_SUCCESS, urb)

end Usbip

import Usbip.Basic

namespace Usbip

def USB_SPEED_HIGH : Int := 3
def USB_ENDPOINT_DESCRIPTOR_TYPE : Byte := 0x05
def sizeofUsbEndpointDescriptor : Nat := 7

-- `usb_endpoint_type` of the attributes byte, a `USBD_PIPE_TYPE`.
inductive UsbdPipeType where
  | control
  | isochronous
  | bulk
  | interrupt
  deriving DecidableEq, Repr

def usbEndpointType (bmAttributes : Byte) : UsbdPipeType :=
  match bmAttributes.toNat % 4 with
  | 0 => .control
  | 1 => .isochronous
  | 2 => .bulk
  | _ => .interrupt

def maxInterval : Nat := 16

def toHighSpeedInterval (interval : Byte) : Byte :=
  let microframes := 8 * interval.toNat
  match (List.range' 1 maxInterval).find? (fun i => decide (microframes ≤ 2 ^ (i - 1))) with
  | some i => UInt8.ofNat i
  | none => UInt8.ofNat maxInterval

-- The write through the `USB_ENDPOINT_DESCRIPTOR` laid over the record at `cur`.
def patchEndpoint (buffer : List Byte) (cur : Nat) : Option (List Byte) := do
  let bmAttributes ← buffer[cur + 3]?
  match usbEndpointType bmAttributes with
  | .bulk =>
    if cur + 5 < buffer.length then some ((buffer.set (cur + 4) 0).set (cur + 5) 2) else none
  | .isochronous => do
    let bInterval ← buffer[cur + 6]?
    return buffer.set (cur + 6) (if bInterval.toNat + 3 < 16 then bInterval + 3 else 16)
  | .interrupt => do
    let bInterval ← buffer[cur + 6]?
    return buffer.set (cur + 6) (toHighSpeedInterval bInterval)
  | .control => some buffer

-- `USBD_ParseDescriptors` of the WDK, as offsets into the descriptor buffer: `some none` is a null pointer, `none` an
-- access outside the buffer.
abbrev ParseDescriptors := List Byte → Nat → Nat → Byte → Option (Option Nat)

-- Its documented walk: by bLength from the start position while it is inside the
-- buffer, to the first record of the type; the type is tested before a zero length stops it. The type of a record
-- that starts at the last byte of the buffer is read behind it.
structure ParseDescriptors.Walks (parse : ParseDescriptors) : Prop where
  outside : ∀ buffer total start type, total ≤ start → parse buffer total start type = some none
  cut : ∀ buffer total start type, start < total → buffer[start + 1]? = none → parse buffer total start type = none
  found : ∀ buffer total start type, start < total → buffer[start + 1]? = some type →
    parse buffer total start type = some (some start)
  skip : ∀ buffer total start type other length, start < total → buffer[start + 1]? = some other → other ≠ type →
    buffer[start]? = some length → length ≠ 0 →
    parse buffer total start type = parse buffer total (start + length.toNat) type
  stop : ∀ buffer total start type other, start < total → buffer[start + 1]? = some other → other ≠ type →
    buffer[start]? = some 0 → parse buffer total start type = some none

def wTotalLength (buffer : List Byte) : Option Nat := do
  let lo ← buffer[2]?
  let hi ← buffer[3]?
  return lo.toNat + 256 * hi.toNat

-- The `for` loop. `none` is an access outside the buffer or a loop that outlives its fuel.
def patchLoop (parse : ParseDescriptors) : Nat → List Byte → Nat → Option (List Byte)
  | 0, _, _ => none
  | fuel + 1, buffer, start => do
    let total ← wTotalLength buffer
    match ← parse buffer total start USB_ENDPOINT_DESCRIPTOR_TYPE with
    | none => some buffer
    | some cur => do
      let bLength ← buffer[cur]?
      let patched ←
        if bLength.toNat < sizeofUsbEndpointDescriptor then some buffer else patchEndpoint buffer cur
      patchLoop parse fuel patched (cur + bLength.toNat)

def patchConfigurationForUdecx (parse : ParseDescriptors) (configuration : List Byte) (speed : Int) :
    Option (List Byte) :=
  if USB_SPEED_HIGH ≤ speed then some configuration
  else patchLoop parse (configuration.length + 1) configuration 0

end Usbip

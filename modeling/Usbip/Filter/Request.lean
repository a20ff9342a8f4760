import Usbip.Filter.Urb
import Usbip.Send.System

namespace Usbip.Filter

open Usbip.Library.Words
open Usbip.Send
open Usbip.Wsk

-- `_URB_CONTROL_TRANSFER_EX`; `bufferAddress` is the value of `TransferBuffer`.
structure ControlUrb extends Urb where
  pipeHandle : PipeHandle := 0
  bufferAddress : Pointer := 0
  timeout : UInt32 := 0

def CONST_PART : UInt32 := 0xFFFF0000

def isRequestFunction (function : Nat) : Bool :=
  function == URB_FUNCTION_SYNC_RESET_PIPE_AND_CLEAR_STALL || function == URB_FUNCTION_SYNC_RESET_PIPE ||
    function == URB_FUNCTION_SYNC_CLEAR_STALL || function == URB_FUNCTION_SELECT_INTERFACE ||
    function == URB_FUNCTION_SELECT_CONFIGURATION

def isRequest (r : ControlUrb) : Bool :=
  r.timeout &&& CONST_PART == CONST_PART &&
    r.transferFlags == USBD_DEFAULT_PIPE_TRANSFER ||| USBD_TRANSFER_DIRECTION_IN &&
    SetupPacket.ofBytes r.setupPacket == filterSetupPacket

def getFunction (r : ControlUrb) : Nat := r.timeout.toNat % 2 ^ 16

def packRequest (r : ControlUrb) (transferBuffer : Pointer) (function : UInt16) : ControlUrb :=
  { r with
    function := .controlTransfer
    transferBuffer := true
    bufferAddress := transferBuffer
    transferFlags := USBD_DEFAULT_PIPE_TRANSFER ||| USBD_TRANSFER_DIRECTION_IN
    timeout := CONST_PART ||| function.toUInt32
    setupPacket := filterSetupPacket.bytes }

-- The endpoint objects of a device. `list` is what follows `ep0` in the list of endpoints; new ones come first.
structure Endpoints where
  list : List Nat := []
  descriptor : Nat → EndpointDescriptor := fun _ => {}
  pipeHandle : Nat → PipeHandle := fun _ => 0

inductive EndpointSearch where
  | handle (handle : PipeHandle)
  | address (address : Byte)
  deriving DecidableEq, Repr

def matchesSearch (endpoints : Endpoints) (crit : EndpointSearch) (endp : Nat) : Bool :=
  match crit with
  | .handle handle => handle == endpoints.pipeHandle endp
  | .address address => address == (endpoints.descriptor endp).bEndpointAddress

def findEndpoint (endpoints : Endpoints) (crit : EndpointSearch) : Option Nat :=
  endpoints.list.find? (matchesSearch endpoints crit)

def Endpoints.setPipeHandle (endpoints : Endpoints) (endp : Nat) (pipeHandle : PipeHandle) : Endpoints :=
  { endpoints with pipeHandle := Function.update endpoints.pipeHandle endp pipeHandle }

-- What the two drivers share: the URBs in memory, as the union reads them, and the endpoints of the device.
structure State where
  urbAt : Pointer → UrbUnion
  endpoints : Endpoints

-- `send_urb` of the URB that a driver of the device has completed: the filter makes a copy at `buffer`,
-- null if there is no memory, and packs its address in a URB that is all zeros.
def postProcessUrb (st : State) (buffer : Option Pointer) (urb : RawUrb) : Option (ControlUrb × State) :=
  if isRequestFunction urb.function.toNat then
    buffer.map fun buffer =>
      (packRequest { function := .other } buffer urb.function,
        { st with urbAt := Function.update st.urbAt buffer (copyOf buffer urb).toUnion })
  else none

def updatePipeProperties (endpoints : Endpoints) (intf : InterfaceInfo) : Endpoints :=
  intf.pipes.foldl
    (fun endpoints pipe =>
      match findEndpoint endpoints (.address pipe.endpointAddress) with
      | some endp => endpoints.setPipeHandle endp pipe.pipeHandle
      | none => endpoints)
    endpoints

-- The next three end with the setup packet, if they have one, and the state.
def clearEndpointStall (st : State) (r : Pointer) : Except NTSTATUS SetupPacket × State :=
  match findEndpoint st.endpoints (.handle (st.urbAt r).pipeRequest) with
  | some endp => (.ok (makeClearEndpointStall (st.endpoints.descriptor endp).bEndpointAddress), st)
  | none =>
    (.error .STATUS_INVALID_HANDLE,
      { st with urbAt := Function.update st.urbAt r { st.urbAt r with invalidPipeHandle := true } })

def selectConfiguration (st : State) (r : Pointer) : Except NTSTATUS SetupPacket × State :=
  let r := (st.urbAt r).selectConfiguration
  match r.configurationDescriptor with
  | none => (.ok (makeSetConfiguration 0), st)
  | some cd =>
    (.ok (makeSetConfiguration cd.bConfigurationValue),
      { st with
        endpoints := (List.range cd.bNumInterfaces.toNat).foldl
          (fun endpoints i => updatePipeProperties endpoints (r.interface i)) st.endpoints })

def selectInterface (st : State) (r : Pointer) : Except NTSTATUS SetupPacket × State :=
  let i := (st.urbAt r).selectInterface
  (.ok (makeSetInterface i.interfaceNumber i.alternateSetting),
    { st with endpoints := updatePipeProperties st.endpoints i })

-- The `switch` of `unpack_request`
def unpackFunction (st : State) (r : Pointer) (function : Nat) : Except NTSTATUS SetupPacket × State :=
  if function = URB_FUNCTION_SYNC_RESET_PIPE_AND_CLEAR_STALL ∨ function = URB_FUNCTION_SYNC_RESET_PIPE ∨
      function = URB_FUNCTION_SYNC_CLEAR_STALL then clearEndpointStall st r
  else if function = URB_FUNCTION_SELECT_INTERFACE then selectInterface st r
  else if function = URB_FUNCTION_SELECT_CONFIGURATION then selectConfiguration st r
  else (.error .STATUS_INVALID_PARAMETER, st)

def unpackRequest (st : State) (r : ControlUrb) (function : Nat) : NTSTATUS × ControlUrb × State :=
  let r := { r with transferFlags := r.transferFlags ^^^ USBD_TRANSFER_DIRECTION_IN } -- flip direction
  match unpackFunction st r.bufferAddress function with
  | (.ok pkt, st) => (.STATUS_SUCCESS, { r with setupPacket := pkt.bytes }, st)
  | (.error err, st) =>
    (err, if isRequestFunction function then r else { r with status := .INVALID_PARAMETER }, st)

-- `PipeHandle` is null if the URB is for the default pipe.
def savePipeHandle (st : State) (endp : Nat) (r : ControlUrb) : State :=
  if r.pipeHandle ≠ 0 ∧ st.endpoints.pipeHandle endp ≠ r.pipeHandle then
    { st with endpoints := st.endpoints.setPipeHandle endp r.pipeHandle }
  else st

-- The part of `control_transfer` that takes a packed request for what it is.
def acceptUrb (st : State) (endp : Nat) (r : ControlUrb) : NTSTATUS × ControlUrb × State :=
  let st := savePipeHandle st endp r
  if isRequest r then unpackRequest st { r with timeout := 0 } (getFunction r)
  else (.STATUS_SUCCESS, r, st)

def controlTransfer (env : SendEnv) (dev : DeviceCtx) (st : State) (endp : Nat) (r : ControlUrb) :
    M (Outcome × State) := do
  let (err, r, st) := acceptUrb st endp r
  if err ≠ .STATUS_SUCCESS then return ({ status := err, dev := dev }, st)
  else
    let pkt := SetupPacket.ofBytes r.setupPacket
    let idx := getDeviceStringDescr pkt
    if r.transferBufferLength < pkt.wLength.toUInt32 then
      return ({ status := .STATUS_INVALID_PARAMETER, dev := dev }, st)
    else if idx ≠ 0 ∧ idx = dev.iserial ∧ (fillUsbDeviceSerial env r.toUrb).isSuccess then
      return ({ status := fillUsbDeviceSerial env r.toUrb, dev := dev }, st)
    else
      let out ← sendControl env dev (st.endpoints.descriptor endp) r.toUrb
      return (out, st)

-- The bytes that a control transfer sends with a context of the list.
def sentControl (env : SendEnv) (dev : DeviceCtx) (st : State) (endp : Nat) (r : ControlUrb) (s : Wsk.State) :
    Option (List Byte) :=
  match controlTransfer env dev st endp r s with
  | .ok (out, _) t => out.buf.bind (transmitted t (memoryOf r.toUrb))
  | .error _ _ => none

end Usbip.Filter

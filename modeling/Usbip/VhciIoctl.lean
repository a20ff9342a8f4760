import Usbip.DeviceFilter.Policy
import Usbip.Library.Words
import Usbip.Vhci

namespace Usbip.VhciIoctl

open Usbip.Library.Words

-- METHOD_BUFFERED: one buffer of the system for the input, which it begins with, and the output.
structure Request where
  inputLength : Nat
  outputLength : Nat
  buffer : List Byte
  size : buffer.length = max inputLength outputLength

-- With what a request is completed; `output` is what the handler leaves in the buffer.
structure Reply where
  status : NTSTATUS
  information : Nat := 0
  output : List Byte

def byteAt (buffer : List Byte) (offset : Nat) : Byte := buffer.getD offset 0

def ulongAt (buffer : List Byte) (offset : Nat) : UInt32 :=
  le32 (byteAt buffer offset) (byteAt buffer (offset + 1)) (byteAt buffer (offset + 2)) (byteAt buffer (offset + 3))

-- The part of a buffer from an offset on is overwritten; nothing is written past its end.
def overwrite (buffer : List Byte) (offset : Nat) (bytes : List Byte) : List Byte :=
  (buffer.take offset ++ bytes ++ buffer.drop (offset + bytes.length)).take buffer.length

-- `WdfRequestRetrieveInputBuffer` and `WdfRequestRetrieveOutputBuffer`; an empty buffer is an error too.
def retrieveBuffer (length minimum : Nat) : NTSTATUS :=
  if length = 0 ∨ length < minimum then .STATUS_BUFFER_TOO_SMALL else .STATUS_SUCCESS

-- A value of the registry, and `WdfRegistryQueryValue` for a buffer of some length: the status, the
-- size of the value and its type.
inductive RegistryValue where
  | missing (code : Nat)
  | value (type : Nat) (bytes : List Byte)
  deriving DecidableEq

def REG_NONE : Nat := 0
def REG_MULTI_SZ : Nat := 7

def queryValue (length : Nat) : RegistryValue → NTSTATUS × Nat × Nat
  | .missing code => (.failure code, 0, REG_NONE)
  | .value type bytes =>
    (if length < bytes.length then .STATUS_BUFFER_OVERFLOW else .STATUS_SUCCESS, bytes.length, type)

-- The layout of the structures in vhci.h.
def sizeofBase : Nat := 4
def sizeofImportedDeviceLocation : Nat := 1096
def offsetofPort : Nat := sizeofBase
def offsetofBusid : Nat := offsetofPort + 4
def offsetofService : Nat := offsetofBusid + 32
def offsetofHost : Nat := offsetofService + 32
def offsetofSerial : Nat := sizeofBase + sizeofImportedDeviceLocation
def SERIAL_BUFSZ : Nat := 16
def sizeofPluginHardware : Nat := offsetofSerial + SERIAL_BUFSZ
def offsetofStopCount : Nat := sizeofBase + sizeofImportedDeviceLocation
def sizeofStopAttachAttempts : Nat := offsetofStopCount + 4
def sizeofPlugoutHardware : Nat := sizeofBase + 4
def sizeofImportedDeviceProperties : Nat := 32
def sizeofImportedDevice : Nat := sizeofImportedDeviceLocation + sizeofImportedDeviceProperties
def offsetofDevices : Nat := sizeofBase
def sizeofGetImportedDevices : Nat := offsetofDevices + sizeofImportedDevice
def offsetofMode : Nat := sizeofBase
def offsetofCount : Nat := offsetofMode + 4
def offsetofEntries : Nat := offsetofCount + 4
def sizeofDeviceFilter : Nat := offsetofEntries + DeviceFilter.sizeofDeviceFilterEntry

def getImportedDevicesSize (n : Nat) : Nat := offsetofDevices + n * sizeofImportedDevice
def deviceFilterSize (n : Nat) : Nat := offsetofEntries + n * DeviceFilter.sizeofDeviceFilterEntry

def isAlnum (c : Byte) : Bool :=
  (c ≤ 122 && 97 ≤ c) || (c ≤ 90 && 65 ≤ c) || (c ≤ 57 && 48 ≤ c)

-- The loop of `is_ascii_alnum`, from the character `i` on.
def isAsciiAlnum : List Byte → Int → Int
  | [], i => i
  | c :: rest, i => if c = 0 then i else if isAlnum c then isAsciiAlnum rest (i + 1) else -1

def validateSerialNumber (serial : List Byte) : NTSTATUS :=
  let len := isAsciiAlnum serial 0
  if 0 ≤ len ∧ len < SERIAL_BUFSZ then .STATUS_SUCCESS else .USBIP_ERROR_SERIAL_NUMBER

-- What system services and other parts of the driver answer. `attached` is the status with which
-- `complete` ends the attach, `devices` what `get_device` and `fill` give for each port.
structure Env where
  forward : NTSTATUS := .STATUS_SUCCESS
  createWorkitem : NTSTATUS := .STATUS_SUCCESS
  createDeviceCtxExt : NTSTATUS := .STATUS_SUCCESS
  attached : Option NTSTATUS := some .STATUS_SUCCESS
  port : UInt32 := 0
  initDeviceAttributes : NTSTATUS := .STATUS_SUCCESS
  stopped : UInt32 := 0
  devices : List (Option (Except NTSTATUS (List Byte))) := []
  openPersistentState : NTSTATUS := .STATUS_SUCCESS
  persistent : RegistryValue := .missing 0
  assignValue : NTSTATUS := .STATUS_SUCCESS
  openParameters : NTSTATUS := .STATUS_SUCCESS
  filter : DeviceFilter.RegistryQuery := .notRead
  garbage : Nat → Byte := fun _ => 0

section Handlers

variable (env : Env) (r : Request)

-- A reply without output: WDF sets no information for a new request.
def Request.reply (status : NTSTATUS) : Reply := { status := status, output := r.buffer }

-- The second overload: what becomes of the request once its input is accepted, and with it the
-- port that `plugin` sets; `none` if nothing completes it. `complete` restores the information.
def pluginHardware (written : Nat) : Option Reply :=
  let reply (status : NTSTATUS) (port : UInt32) : Reply :=
    { status := status, information := written, output := overwrite r.buffer offsetofPort (bytes32 port) }
  if env.createWorkitem ≠ .STATUS_SUCCESS then some (reply env.createWorkitem 0)
  else if env.createDeviceCtxExt ≠ .STATUS_SUCCESS then some (reply env.createDeviceCtxExt 0)
  else env.attached.map fun st => reply st env.port

-- The checks of a structure of fixed size in the input.
def checkInput (size : Nat) : NTSTATUS :=
  let err := retrieveBuffer r.inputLength size
  if err ≠ .STATUS_SUCCESS then err
  else if r.inputLength ≠ size then .STATUS_INVALID_BUFFER_SIZE
  else if (ulongAt r.buffer 0).toNat ≠ size then .USBIP_ERROR_ABI
  else .STATUS_SUCCESS

def serial : List Byte := (r.buffer.drop offsetofSerial).take SERIAL_BUFSZ

def pluginHardwareIoctl : Option Reply :=
  let err := checkInput r sizeofPluginHardware
  if err ≠ .STATUS_SUCCESS then some (r.reply err)
  else if validateSerialNumber (serial r) ≠ .STATUS_SUCCESS then some (r.reply (validateSerialNumber (serial r)))
  else pluginHardware env r (offsetofPort + 4)

-- How many of the three strings are not empty.
def locationStrings : Nat :=
  [offsetofHost, offsetofService, offsetofBusid].countP fun offset => byteAt r.buffer offset != 0

def stopAttachAttempts : Reply :=
  let err := checkInput r sizeofStopAttachAttempts
  if err ≠ .STATUS_SUCCESS then r.reply err
  else
    let st :=
      if locationStrings r = 0 then .STATUS_SUCCESS -- stop all
      else if locationStrings r ≠ 3 then .STATUS_INVALID_PARAMETER
      else env.initDeviceAttributes
    if st.isSuccess then
      { status := st
        information := sizeofStopAttachAttempts
        output := overwrite r.buffer offsetofStopCount (bytes32 env.stopped) }
    else r.reply st

def plugoutHardware (vhci : Vhci.VhciCtx) : Reply :=
  let err := checkInput r sizeofPlugoutHardware
  if err ≠ .STATUS_SUCCESS then r.reply err
  else
    let port := signed (ulongAt r.buffer offsetofPort)
    if port ≤ 0 then r.reply .STATUS_SUCCESS -- detach_all_devices
    else if Vhci.isValidPort vhci port = false then r.reply .STATUS_INVALID_PARAMETER
    else if Vhci.getDevice vhci port = none then r.reply .STATUS_DEVICE_NOT_CONNECTED
    else r.reply .STATUS_SUCCESS

-- The loop of `get_imported_devices` after `cnt` devices were written to `output`.
def fillDevices (maxCnt : Nat) :
    List (Option (Except NTSTATUS (List Byte))) → Nat → List Byte → NTSTATUS × Nat × List Byte
  | [], cnt, output => (.STATUS_SUCCESS, cnt, output)
  | none :: rest, cnt, output => fillDevices maxCnt rest cnt output
  | some device :: rest, cnt, output =>
    if cnt = maxCnt then (.STATUS_BUFFER_TOO_SMALL, cnt, output)
    else
      match device with
      | .error err => (err, cnt, output)
      | .ok bytes =>
        fillDevices maxCnt rest (cnt + 1)
          (overwrite output (getImportedDevicesSize cnt) (bytes.take sizeofImportedDevice))

def getImportedDevices : Reply :=
  let err := retrieveBuffer r.outputLength sizeofGetImportedDevices
  if err ≠ .STATUS_SUCCESS then r.reply err
  else if (ulongAt r.buffer 0).toNat ≠ sizeofGetImportedDevices then r.reply .USBIP_ERROR_ABI
  else
    let maxCnt := (r.outputLength - offsetofDevices) / sizeofImportedDevice
    let (st, cnt, output) := fillDevices maxCnt env.devices 0 r.buffer
    if st ≠ .STATUS_SUCCESS then { status := st, output := output }
    else { status := st, information := getImportedDevicesSize cnt, output := output }

-- The second component is what is assigned to the value of the registry.
def setPersistent : Reply × Option (List Byte) :=
  let err := retrieveBuffer r.inputLength 0
  if err ≠ .STATUS_SUCCESS then (r.reply err, none)
  else if env.openPersistentState ≠ .STATUS_SUCCESS then (r.reply env.openPersistentState, none)
  else
    (r.reply env.assignValue,
      if env.assignValue = .STATUS_SUCCESS then some (r.buffer.take r.inputLength) else none)

def getPersistent : Reply :=
  let err := retrieveBuffer r.outputLength 0
  if err ≠ .STATUS_SUCCESS then r.reply err
  else if env.openPersistentState ≠ .STATUS_SUCCESS then r.reply env.openPersistentState
  else
    let (st, actual, type) := queryValue r.outputLength env.persistent
    let output := match env.persistent with
      | .value _ bytes => overwrite r.buffer 0 (bytes.take r.outputLength)
      | .missing _ => r.buffer
    if st ≠ .STATUS_SUCCESS then { status := st, information := actual, output := output }
    else if type ≠ REG_MULTI_SZ then { status := .STATUS_INVALID_CONFIG_VALUE, output := output }
    else { status := st, information := actual, output := output }

def entryAt (buffer : List Byte) (i : Nat) : DeviceFilter.DeviceFilterEntry :=
  let offset := offsetofEntries + i * DeviceFilter.sizeofDeviceFilterEntry
  { bClass := byteAt buffer offset
    bSubClass := byteAt buffer (offset + 1)
    bProtocol := byteAt buffer (offset + 2)
    matchFlags := byteAt buffer (offset + 3) }

-- The policy that `set_device_filter` makes of its input.
def inputPolicy : DeviceFilter.Policy where
  mode := byteAt r.buffer offsetofMode
  count := ulongAt r.buffer offsetofCount
  entries := Vector.ofFn fun i => if i.val < (ulongAt r.buffer offsetofCount).toNat then entryAt r.buffer i else {}

-- `store` and what it assigns to the value of the registry.
def store (p : DeviceFilter.Policy) : NTSTATUS × Option (List Byte) :=
  if env.openParameters ≠ .STATUS_SUCCESS then (env.openParameters, none)
  else
    (env.assignValue, if env.assignValue = .STATUS_SUCCESS then some (DeviceFilter.storedBytes p) else none)

def setDeviceFilter : Reply × Option (List Byte) :=
  let err := retrieveBuffer r.inputLength sizeofDeviceFilter
  let count := (ulongAt r.buffer offsetofCount).toNat
  if err ≠ .STATUS_SUCCESS then (r.reply err, none)
  else if (ulongAt r.buffer 0).toNat ≠ sizeofDeviceFilter then (r.reply .USBIP_ERROR_ABI, none)
  else if (r.inputLength - offsetofEntries) / DeviceFilter.sizeofDeviceFilterEntry < count then
    (r.reply .STATUS_INVALID_BUFFER_SIZE, none)
  else if DeviceFilter.MAX_DEVICE_FILTER_ENTRIES < count then (r.reply .STATUS_INVALID_PARAMETER, none)
  else
    let (st, value) := store env (inputPolicy r)
    (r.reply st, value)

-- The mode, the reserved bytes, the count and the entries as `get_device_filter` writes them.
def policyOutput (p : DeviceFilter.Policy) : List Byte :=
  p.mode :: 0 :: 0 :: 0 :: bytes32 p.count ++
    (p.entries.toList.take p.count.toNat).flatMap DeviceFilter.DeviceFilterEntry.bytes

def getDeviceFilter : Reply :=
  let err := retrieveBuffer r.outputLength sizeofDeviceFilter
  if err ≠ .STATUS_SUCCESS then r.reply err
  else if (ulongAt r.buffer 0).toNat ≠ sizeofDeviceFilter then r.reply .USBIP_ERROR_ABI
  else
    let p := DeviceFilter.load env.garbage env.filter
    if (r.outputLength - offsetofEntries) / DeviceFilter.sizeofDeviceFilterEntry < p.count.toNat then
      r.reply .STATUS_BUFFER_TOO_SMALL
    else
      { status := .STATUS_SUCCESS
        information := deviceFilterSize p.count.toNat
        output := overwrite r.buffer offsetofMode (policyOutput p) }

end Handlers

-- The codes that the controller handles itself; all others go to UDE.
inductive IoControlCode where
  | PLUGIN_HARDWARE
  | PLUGOUT_HARDWARE
  | GET_IMPORTED_DEVICES
  | SET_PERSISTENT
  | GET_PERSISTENT
  | STOP_ATTACH_ATTEMPTS
  | PLUGIN_HARDWARE_ONCE
  | PLUGOUT_HARDWARE_AND_REATTACH
  | SET_DEVICE_FILTER
  | GET_DEVICE_FILTER
  deriving DecidableEq, Repr

-- `device_control_parallel`; the codes without a parallel handler are forwarded to the default queue.
def deviceControl (env : Env) (vhci : Vhci.VhciCtx) (r : Request) : IoControlCode → Option Reply
  | .GET_IMPORTED_DEVICES => some (getImportedDevices env r)
  | .SET_PERSISTENT => some (setPersistent env r).1
  | .GET_PERSISTENT => some (getPersistent env r)
  | .STOP_ATTACH_ATTEMPTS => some (stopAttachAttempts env r)
  | .SET_DEVICE_FILTER => some (setDeviceFilter env r).1
  | .GET_DEVICE_FILTER => some (getDeviceFilter env r)
  | .PLUGIN_HARDWARE | .PLUGIN_HARDWARE_ONCE =>
    if env.forward.isSuccess then pluginHardwareIoctl env r else some (r.reply env.forward)
  | .PLUGOUT_HARDWARE | .PLUGOUT_HARDWARE_AND_REATTACH =>
    if env.forward.isSuccess then some (plugoutHardware r vhci) else some (r.reply env.forward)

end Usbip.VhciIoctl

import Usbip.Library.Writes
import Usbip.Persistent.DeviceStr

namespace Usbip.VhciIoctl.Imported

open Usbip.Library.Words
open Usbip.Persistent

-- The layout of `imported_device`.
def offsetofPort : Nat := 0
def offsetofBusid : Nat := offsetofPort + 4
def BUS_ID_SIZE : Nat := 32
def offsetofService : Nat := offsetofBusid + BUS_ID_SIZE
def sizeofService : Nat := 32
def offsetofHost : Nat := offsetofService + sizeofService
def sizeofHost : Nat := 1025
def offsetofProperties : Nat := sizeofImportedDeviceLocation

def bytes16 (word : UInt16) : List Byte := [UInt8.ofNat word.toNat, UInt8.ofNat (word.toNat / 2 ^ 8)]

structure ImportedDeviceProperties where
  devid : UInt32 := 0
  speed : UInt32 := 0
  vendor : UInt16 := 0
  product : UInt16 := 0
  serial : Vector Byte SERIAL_BUFSZ := Vector.replicate SERIAL_BUFSZ 0
  iserial : Byte := 0

-- The whole structure; its padding is zero because `device_attributes` is zeroed when it is made.
def ImportedDeviceProperties.bytes (p : ImportedDeviceProperties) : List Byte :=
  bytes32 p.devid ++ bytes32 p.speed ++ bytes16 p.vendor ++ bytes16 p.product ++ p.serial.toList ++ [p.iserial, 0, 0, 0]

-- The fields of `device_ctx` and of its attributes that are reported.
structure DeviceCtx where
  port : UInt32 := 0
  nodeName : UnicodeString := {}
  serviceName : UnicodeString := {}
  busid : UnicodeString := {}
  properties : ImportedDeviceProperties := {}

-- An array of characters in the output buffer and the string that is written there.
structure Field where
  offset : Nat
  size : Nat
  src : UnicodeString

variable (rtl : Rtl)

def fillField (output : List Byte) (f : Field) : NTSTATUS × List Byte :=
  let (st, field) := unicodeToUtf8 rtl ((output.drop f.offset).take f.size) f.src
  (st, overwrite output f.offset field)

-- The loop of `fill_location`.
def fillFields : List Field → List Byte → NTSTATUS × List Byte
  | [], output => (.STATUS_SUCCESS, output)
  | f :: rest, output =>
    let (err, output) := fillField rtl output f
    if err ≠ .STATUS_SUCCESS then (err, output) else fillFields rest output

-- The array `v` for a record that begins at `base`.
def DeviceCtx.fields (dev : DeviceCtx) (base : Nat) : List Field :=
  [{ offset := base + offsetofHost, size := sizeofHost, src := dev.nodeName },
   { offset := base + offsetofService, size := sizeofService, src := dev.serviceName },
   { offset := base + offsetofBusid, size := BUS_ID_SIZE, src := dev.busid }]

def fillLocation (output : List Byte) (base : Nat) (dev : DeviceCtx) : NTSTATUS × List Byte :=
  fillFields rtl (dev.fields base) output

def fill (output : List Byte) (base : Nat) (dev : DeviceCtx) : NTSTATUS × List Byte :=
  let output := overwrite output (base + offsetofPort) (bytes32 dev.port)
  let (err, output) := fillLocation rtl output base dev
  if err ≠ .STATUS_SUCCESS then (err, output)
  else (.STATUS_SUCCESS, overwrite output (base + offsetofProperties) dev.properties.bytes)

-- The loop over the ports after `cnt` devices were written to `output`.
def fillPorts (maxCnt : Nat) : List (Option DeviceCtx) → Nat → List Byte → NTSTATUS × Nat × List Byte
  | [], cnt, output => (.STATUS_SUCCESS, cnt, output)
  | none :: rest, cnt, output => fillPorts maxCnt rest cnt output
  | some dev :: rest, cnt, output =>
    if cnt = maxCnt then (.STATUS_BUFFER_TOO_SMALL, cnt, output)
    else
      let (err, output) := fill rtl output (getImportedDevicesSize cnt) dev
      if err ≠ .STATUS_SUCCESS then (err, cnt + 1, output)
      else fillPorts maxCnt rest (cnt + 1) output

-- `get_imported_devices` for the devices at the ports from 1 on.
def getImportedDevices (table : List (Option DeviceCtx)) (r : Request) : Reply :=
  let err := retrieveBuffer r.outputLength sizeofGetImportedDevices
  if err ≠ .STATUS_SUCCESS then r.reply err
  else if (ulongAt r.buffer 0).toNat ≠ sizeofGetImportedDevices then r.reply .USBIP_ERROR_ABI
  else
    let maxCnt := (r.outputLength - offsetofDevices) / sizeofImportedDevice
    let (st, cnt, output) := fillPorts rtl maxCnt table 0 r.buffer
    if st ≠ .STATUS_SUCCESS then { status := st, output := output }
    else { status := st, information := getImportedDevicesSize cnt, output := output }

end Usbip.VhciIoctl.Imported

namespace Usbip.VhciIoctl

-- What the caller gets: as many bytes as `Information` says.
def Reply.returned (reply : Reply) : List Byte := reply.output.take reply.information

end Usbip.VhciIoctl

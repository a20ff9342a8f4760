import Usbip.DeviceFilter.Check
import Usbip.Libusbip.Remote
import Usbip.Persistent.DeviceStr

namespace Usbip.VhciIoctl.Import

open Usbip.DeviceFilter (Check RegistryQuery checkDevice callService)
open Usbip.Library.Words
open Usbip.Libusbip.Remote (UsbipUsbDevice BUS_ID_SIZE USBIP_VERSION byteswap le16At le32At sizeofUsbDevice swap16)
open Usbip.Persistent (Rtl UnicodeString unicodeToUtf8)

def OP_REQ_IMPORT : UInt16 := 0x8003
def OP_REP_IMPORT : UInt16 := 3
def ST_OK : UInt32 := 0

-- The fields of `device_ctx_ext` that only the import uses, and the bytes that are sent before the first command.
-- `connection` is what `check_device` works on, too.
structure World where
  busid : UnicodeString := {}
  vendor : UInt16 := 0
  product : UInt16 := 0
  sent : List Byte := []
  connection : DeviceFilter.World := {}

inductive Stop where
  | status (st : NTSTATUS)
  | USBIP_ERROR_VERSION
  | USBIP_ERROR_ST_NA
  | USBIP_ERROR_ST_DEV_BUSY
  | USBIP_ERROR_ST_DEV_ERR
  | USBIP_ERROR_ST_NODEV
  | USBIP_ERROR_ST_ERROR
  | stuck
  deriving DecidableEq, Repr

def Stop.ofCheck : DeviceFilter.Stop → Stop
  | .status st => .status st
  | .stuck => .stuck

abbrev ImportM := EStateM Stop World

def ofCheck {α : Type} (x : Check α) : ImportM α := fun w =>
  match x w.connection with
  | .ok a t => .ok a { w with connection := t }
  | .error stop t => .error (.ofCheck stop) { w with connection := t }

def send (bytes : List Byte) : ImportM Unit := do
  ofCheck callService
  modify fun w => { w with sent := w.sent ++ bytes }

def recv (len : Nat) : ImportM (List Byte) := ofCheck (DeviceFilter.recv len)

-- The cast makes a negative value of a status from 2^31 on.
def opStatusError (status : UInt32) : Option Stop :=
  let st := signed status
  if st = 0 then none
  else if st = 1 then some .USBIP_ERROR_ST_NA
  else if st = 2 then some .USBIP_ERROR_ST_DEV_BUSY
  else if st = 3 then some .USBIP_ERROR_ST_DEV_ERR
  else if st = 4 then some .USBIP_ERROR_ST_NODEV
  else some .USBIP_ERROR_ST_ERROR

def recvOpCommon (expectedCode : UInt16) : ImportM Unit := do
  let r ← recv 8
  if swap16 (le16At r 0) ≠ USBIP_VERSION then throw .USBIP_ERROR_VERSION
  else if swap16 (le16At r 2) ≠ expectedCode then throw (.status .USBIP_ERROR_PROTOCOL)
  else
    match opStatusError (swap32 (le32At r 4)) with
    | some err => throw err
    | none => pure ()

-- `unicode_to_utf8` of the bus id into an array, which is `dst` before.
def busidToUtf8 (rtl : Rtl) (dst : Vector Byte BUS_ID_SIZE) : ImportM (List Byte) := do
  let w ← get
  let (err, busid) := unicodeToUtf8 rtl dst.toList w.busid
  if err ≠ .STATUS_SUCCESS then throw (.status err) else return busid

def sendReqImport (rtl : Rtl) : ImportM Unit := do
  let busid ← busidToUtf8 rtl (Vector.replicate BUS_ID_SIZE 0)
  send (bytes16 (swap16 USBIP_VERSION) ++ (bytes16 (swap16 OP_REQ_IMPORT) ++ (bytes32 (swap32 ST_OK) ++ busid)))

-- `!strncmp` of two arrays of at least so many characters.
def strncmpEqual : Nat → List Byte → List Byte → Bool
  | 0, _, _ => true
  | n + 1, a :: first, b :: second => a == b && (a == 0 || strncmpEqual n first second)
  | _ + 1, _, _ => false

-- `noise` is what the array on the stack has before.
def recvRepImport (rtl : Rtl) (noise : Vector Byte BUS_ID_SIZE) : ImportM UsbipUsbDevice := do
  recvOpCommon OP_REP_IMPORT
  let reply ← recv sizeofUsbDevice
  let udev := byteswap (.ofBytes reply)
  let busid ← busidToUtf8 rtl noise
  if strncmpEqual BUS_ID_SIZE udev.busid busid = false then throw (.status .USBIP_ERROR_PROTOCOL)
  else return udev

-- The numbers are cut off to 16 bits.
def makeDevid (busnum devnum : UInt32) : UInt32 :=
  UInt32.ofNat (busnum.toNat % 2 ^ 16 * 2 ^ 16 + devnum.toNat % 2 ^ 16)

def setProperties (udev : UsbipUsbDevice) (w : World) : World :=
  { w with
    vendor := udev.idVendor
    product := udev.idProduct
    connection := { w.connection with
      ext := { w.connection.ext with
        properties := { w.connection.ext.properties with
          devid := makeDevid udev.busnum udev.devnum
          speed := signed udev.speed } } } }

-- The fields that the filter reads.
def filtered (udev : UsbipUsbDevice) : DeviceFilter.UsbipUsbDevice where
  idVendor := udev.idVendor
  idProduct := udev.idProduct
  bcdDevice := udev.bcdDevice
  bDeviceClass := udev.bDeviceClass
  bDeviceSubClass := udev.bDeviceSubClass
  bDeviceProtocol := udev.bDeviceProtocol
  bNumConfigurations := udev.bNumConfigurations

def importRemoteDevice (rtl : Rtl) (parse : ParseDescriptors) (noise : Vector Byte BUS_ID_SIZE)
    (garbage : Nat → Byte) (query : RegistryQuery) : ImportM Unit := do
  sendReqImport rtl
  let udev ← recvRepImport rtl noise
  modify (setProperties udev)
  ofCheck (checkDevice parse garbage query (filtered udev))

end Usbip.VhciIoctl.Import

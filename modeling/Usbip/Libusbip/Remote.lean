import Usbip.Basic
import Usbip.Library.Words

namespace Usbip.Libusbip.Remote

open Usbip.Library.Words

def USBIP_VERSION : UInt16 := 0x111
def DEV_PATH_MAX : Nat := 256
def BUS_ID_SIZE : Nat := 32
def OP_REQ_DEVLIST : UInt16 := 0x8005
def OP_REP_DEVLIST : UInt16 := 5

-- `_byteswap_ushort`
def swap16 (word : UInt16) : UInt16 := le16 (UInt8.ofNat (word.toNat / 2 ^ 8)) (UInt8.ofNat word.toNat)

-- Of the first byte of `b` in front of which there are `offset` others.
def le16At (b : List Byte) (offset : Nat) : UInt16 := le16 (b.getD offset 0) (b.getD (offset + 1) 0)

def le32At (b : List Byte) (offset : Nat) : UInt32 :=
  le32 (b.getD offset 0) (b.getD (offset + 1) 0) (b.getD (offset + 2) 0) (b.getD (offset + 3) 0)

structure UsbipUsbInterface where
  bInterfaceClass : Byte
  bInterfaceSubClass : Byte
  bInterfaceProtocol : Byte
  padding : Byte
  deriving DecidableEq, Repr

def UsbipUsbInterface.ofBytes (b : List Byte) : UsbipUsbInterface where
  bInterfaceClass := b.getD 0 0
  bInterfaceSubClass := b.getD 1 0
  bInterfaceProtocol := b.getD 2 0
  padding := b.getD 3 0

def sizeofUsbInterface : Nat := 4

-- `usbip_usb_device`, packed
structure UsbipUsbDevice where
  path : List Byte
  busid : List Byte
  busnum : UInt32
  devnum : UInt32
  speed : UInt32
  idVendor : UInt16
  idProduct : UInt16
  bcdDevice : UInt16
  bDeviceClass : Byte
  bDeviceSubClass : Byte
  bDeviceProtocol : Byte
  bConfigurationValue : Byte
  bNumConfigurations : Byte
  bNumInterfaces : Byte
  deriving DecidableEq, Repr

def offsetofBusnum : Nat := DEV_PATH_MAX + BUS_ID_SIZE
def sizeofUsbDevice : Nat := offsetofBusnum + 24

-- The structure whose storage holds the bytes `b`.
def UsbipUsbDevice.ofBytes (b : List Byte) : UsbipUsbDevice where
  path := b.take DEV_PATH_MAX
  busid := (b.drop DEV_PATH_MAX).take BUS_ID_SIZE
  busnum := le32At b offsetofBusnum
  devnum := le32At b (offsetofBusnum + 4)
  speed := le32At b (offsetofBusnum + 8)
  idVendor := le16At b (offsetofBusnum + 12)
  idProduct := le16At b (offsetofBusnum + 14)
  bcdDevice := le16At b (offsetofBusnum + 16)
  bDeviceClass := b.getD (offsetofBusnum + 18) 0
  bDeviceSubClass := b.getD (offsetofBusnum + 19) 0
  bDeviceProtocol := b.getD (offsetofBusnum + 20) 0
  bConfigurationValue := b.getD (offsetofBusnum + 21) 0
  bNumConfigurations := b.getD (offsetofBusnum + 22) 0
  bNumInterfaces := b.getD (offsetofBusnum + 23) 0

def UsbipUsbDevice.bytes (d : UsbipUsbDevice) : List Byte :=
  d.path ++ d.busid ++ bytes32 d.busnum ++ bytes32 d.devnum ++ bytes32 d.speed ++ bytes16 d.idVendor ++
    bytes16 d.idProduct ++ bytes16 d.bcdDevice ++
    [d.bDeviceClass, d.bDeviceSubClass, d.bDeviceProtocol, d.bConfigurationValue, d.bNumConfigurations,
      d.bNumInterfaces]

def byteswap (d : UsbipUsbDevice) : UsbipUsbDevice :=
  { d with
    busnum := swap32 d.busnum
    devnum := swap32 d.devnum
    speed := swap32 d.speed
    idVendor := swap16 d.idVendor
    idProduct := swap16 d.idProduct
    bcdDevice := swap16 d.bcdDevice }

inductive UsbDeviceSpeed where
  | USB_SPEED_UNKNOWN
  | USB_SPEED_LOW
  | USB_SPEED_FULL
  | USB_SPEED_HIGH
  | USB_SPEED_WIRELESS
  | USB_SPEED_SUPER
  | USB_SPEED_SUPER_PLUS
  deriving DecidableEq, Repr

def UsbDeviceSpeed.ofUInt32? (value : UInt32) : Option UsbDeviceSpeed :=
  if value = 0 then some .USB_SPEED_UNKNOWN
  else if value = 1 then some .USB_SPEED_LOW
  else if value = 2 then some .USB_SPEED_FULL
  else if value = 3 then some .USB_SPEED_HIGH
  else if value = 4 then some .USB_SPEED_WIRELESS
  else if value = 5 then some .USB_SPEED_SUPER
  else if value = 6 then some .USB_SPEED_SUPER_PLUS
  else none

-- `USB_DEVICE_SPEED`
inductive WindowsSpeed where
  | UsbLowSpeed
  | UsbFullSpeed
  | UsbHighSpeed
  | UsbSuperSpeed
  deriving DecidableEq, Repr

-- `none` is a value that the enumeration has no name for.
def winSpeed : Option UsbDeviceSpeed → WindowsSpeed
  | some .USB_SPEED_SUPER_PLUS | some .USB_SPEED_SUPER => .UsbSuperSpeed
  | some .USB_SPEED_WIRELESS | some .USB_SPEED_HIGH => .UsbHighSpeed
  | some .USB_SPEED_FULL => .UsbFullSpeed
  | some .USB_SPEED_LOW | some .USB_SPEED_UNKNOWN => .UsbLowSpeed
  | none => .UsbLowSpeed

-- `usb_device`, what the callbacks are given
structure UsbDevice where
  path : List Byte
  busid : List Byte
  busnum : UInt32
  devnum : UInt32
  speed : WindowsSpeed
  idVendor : UInt16
  idProduct : UInt16
  bcdDevice : UInt16
  bDeviceClass : Byte
  bDeviceSubClass : Byte
  bDeviceProtocol : Byte
  bConfigurationValue : Byte
  bNumConfigurations : Byte
  bNumInterfaces : Byte
  deriving DecidableEq, Repr

-- A `std::string` made of a pointer to its first character reads up to and with the next zero, wherever that is.
-- `none` if there is none in the memory that can be read.
def stringAt (memory : List Byte) : Option (List Byte) :=
  if 0 ∈ memory then some (memory.takeWhile (· ≠ 0)) else none

-- `behind` is the memory behind the structure.
def asUsbDevice (d : UsbipUsbDevice) (behind : List Byte) : Option UsbDevice := do
  let memory := d.bytes ++ behind
  let path ← stringAt memory
  let busid ← stringAt (memory.drop DEV_PATH_MAX)
  return {
    path := path
    busid := busid
    busnum := d.busnum
    devnum := d.devnum
    speed := winSpeed (UsbDeviceSpeed.ofUInt32? d.speed)
    idVendor := d.idVendor
    idProduct := d.idProduct
    bcdDevice := d.bcdDevice
    bDeviceClass := d.bDeviceClass
    bDeviceSubClass := d.bDeviceSubClass
    bDeviceProtocol := d.bDeviceProtocol
    bConfigurationValue := d.bConfigurationValue
    bNumConfigurations := d.bNumConfigurations
    bNumInterfaces := d.bNumInterfaces }

-- `GetLastError`; ERROR_SUCCESS is `none` wherever there may be one.
inductive LastError where
  | USBIP_ERROR_VERSION
  | USBIP_ERROR_PROTOCOL
  | USBIP_ERROR_ST_NA
  | USBIP_ERROR_ST_DEV_BUSY
  | USBIP_ERROR_ST_DEV_ERR
  | USBIP_ERROR_ST_NODEV
  | USBIP_ERROR_ST_ERROR
  | other (code : Nat)
  deriving DecidableEq, Repr

def opStatusError (status : UInt32) : Option LastError :=
  if status = 0 then none
  else if status = 1 then some .USBIP_ERROR_ST_NA
  else if status = 2 then some .USBIP_ERROR_ST_DEV_BUSY
  else if status = 3 then some .USBIP_ERROR_ST_DEV_ERR
  else if status = 4 then some .USBIP_ERROR_ST_NODEV
  else some .USBIP_ERROR_ST_ERROR

-- A call of one of the callbacks with its arguments, those of type `int` as they are converted to it.
inductive Call where
  | onDevCnt (count : Int)
  | onDev (idx : Int) (dev : UsbDevice)
  | onIntf (devIdx : Int) (dev : UsbDevice) (idx : Int) (intf : UsbipUsbInterface)
  deriving DecidableEq, Repr

-- The bytes that the server has yet to deliver, and what ::recv fails with behind them: `none` if the connection is
-- closed there.
structure World where
  stream : List Byte := []
  failure : Option LastError := none
  sendFailure : Option LastError := none
  lastError : Option LastError := none
  sent : List Byte := []
  calls : List Call := []

-- `false` is returned, or memory is read that cannot be read.
inductive Stop where
  | returnedFalse
  | accessViolation
  deriving DecidableEq, Repr

abbrev M := EStateM Stop World

-- With MSG_WAITALL less than `len` bytes are received only in front of the end of the stream; what has been
-- received then is not used. `none` is `false`.
def recv (len : Nat) : M (Option (List Byte)) := do
  let w ← get
  if len ≤ w.stream.length then
    set { w with stream := w.stream.drop len }
    return some (w.stream.take len)
  else
    set { w with stream := [], lastError := w.failure.or w.lastError }
    return none

-- `if (recv(...)) {...} else { return false; }`
def recvOrReturn (len : Nat) : M (List Byte) := do
  match ← recv len with
  | some bytes => return bytes
  | none => throw .returnedFalse

-- The loop of `send`
def send (bytes : List Byte) : M Unit := do
  match (← get).sendFailure with
  | some err =>
    modify fun w => { w with lastError := some err }
    throw .returnedFalse
  | none => modify fun w => { w with sent := w.sent ++ bytes }

def sendOpCommon (code : UInt16) : M Unit :=
  send (bytes16 (swap16 USBIP_VERSION) ++ bytes16 (swap16 code) ++ bytes32 (swap32 0))

-- The error, `none` also if receiving has failed and there is no last error.
def recvOpCommon (expectedCode : UInt16) : M (Option LastError) := do
  match ← recv 8 with
  | none => return (← get).lastError
  | some r =>
    if swap16 (le16At r 0) ≠ USBIP_VERSION then return some .USBIP_ERROR_VERSION
    else if swap16 (le16At r 2) ≠ expectedCode then return some .USBIP_ERROR_PROTOCOL
    else return opStatusError (swap32 (le32At r 4))

def call (c : Call) : M Unit := modify fun w => { w with calls := w.calls ++ [c] }

-- A UINT32 that is passed as an `int`
def toInt (i : Nat) : Int := signed (UInt32.ofNat i)

def enumInterface (i : Nat) (libDev : UsbDevice) (j : Nat) : M Unit := do
  let intf ← recvOrReturn sizeofUsbInterface
  call (.onIntf (toInt i) libDev j (.ofBytes intf))

def enumDevice (behind : List Byte) (i : Nat) : M UsbDevice := do
  let extra ← recvOrReturn sizeofUsbDevice
  match asUsbDevice (byteswap (.ofBytes extra)) behind with
  | none => throw .accessViolation
  | some libDev =>
    call (.onDev (toInt i) libDev)
    return libDev

-- One round of the loop over the devices.
def enumDeviceAndInterfaces (behind : List Byte) (i : Nat) : M Unit := do
  let libDev ← enumDevice behind i
  (List.range libDev.bNumInterfaces.toNat).forM (enumInterface i libDev)

-- The number of devices
def recvDevlistReply (onDevCnt : Bool) : M UInt32 := do
  let reply ← recvOrReturn 4
  let ndev := swap32 (le32At reply 0)
  if onDevCnt then call (.onDevCnt (signed ndev))
  return ndev

-- `if (err) { SetLastError(err); return false; }`
def returnIf (err : Option LastError) : M Unit := do
  match err with
  | some err =>
    modify fun w => { w with lastError := some err }
    throw .returnedFalse
  | none => return

-- `true` is returned if it does not stop. The assertion that the number of devices is at most INT_MAX is one of
-- debug builds.
def enumExportableDevices (onDevCnt : Bool) (behind : List Byte) : M Unit := do
  sendOpCommon OP_REQ_DEVLIST
  returnIf (← recvOpCommon OP_REP_DEVLIST)
  let ndev ← recvDevlistReply onDevCnt
  (List.range ndev.toNat).forM (enumDeviceAndInterfaces behind)

end Usbip.Libusbip.Remote

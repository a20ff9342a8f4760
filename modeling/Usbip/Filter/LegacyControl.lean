import Usbip.Filter.Request

namespace Usbip.Filter.Legacy

open Usbip.Library.Words
open Usbip.Send

def URB_FUNCTION_CONTROL_TRANSFER : UInt16 := 0x0008
def URB_FUNCTION_VENDOR_DEVICE : UInt16 := 0x0017
def URB_FUNCTION_VENDOR_INTERFACE : UInt16 := 0x0018
def URB_FUNCTION_VENDOR_ENDPOINT : UInt16 := 0x0019
def URB_FUNCTION_VENDOR_OTHER : UInt16 := 0x0020
def URB_FUNCTION_CLASS_DEVICE : UInt16 := 0x001A
def URB_FUNCTION_CLASS_INTERFACE : UInt16 := 0x001B
def URB_FUNCTION_CLASS_ENDPOINT : UInt16 := 0x001C
def URB_FUNCTION_CLASS_OTHER : UInt16 := 0x001F

def USB_TYPE_CLASS : Byte := 0x20
def USB_TYPE_VENDOR : Byte := 0x40
def USB_RECIP_DEVICE : Byte := 0
def USB_RECIP_INTERFACE : Byte := 1
def USB_RECIP_ENDPOINT : Byte := 2
def USB_RECIP_OTHER : Byte := 3
def USB_DIR_OUT : Byte := 0
def USB_DIR_IN : Byte := 0x80

-- `_URB_CONTROL_VENDOR_OR_CLASS_REQUEST`. Its last five members lie over the setup packet of
-- `_URB_CONTROL_TRANSFER`, the members before them are the same in both.
structure VendorClassUrb where
  function : UInt16
  transferFlags : UInt32
  transferBufferLength : UInt32
  requestTypeReservedBits : Byte
  request : Byte
  value : UInt16
  index : UInt16
  reserved1 : UInt16
  deriving DecidableEq, Repr

-- `UrbControlTransfer.SetupPacket`
def VendorClassUrb.setupPacket (urb : VendorClassUrb) : List Byte :=
  [urb.requestTypeReservedBits, urb.request] ++ bytes16 urb.value ++ bytes16 urb.index ++ bytes16 urb.reserved1

-- `IsTransferDirectionIn`
def isTransferDirectionIn (transferFlags : UInt32) : Bool :=
  transferFlags &&& USBD_TRANSFER_DIRECTION_IN != 0

-- The `switch` of `get_request_type`
def requestTypeOf (function : UInt16) : Option Byte :=
  if function = URB_FUNCTION_VENDOR_DEVICE then some (USB_TYPE_VENDOR ||| USB_RECIP_DEVICE)
  else if function = URB_FUNCTION_VENDOR_INTERFACE then some (USB_TYPE_VENDOR ||| USB_RECIP_INTERFACE)
  else if function = URB_FUNCTION_VENDOR_ENDPOINT then some (USB_TYPE_VENDOR ||| USB_RECIP_ENDPOINT)
  else if function = URB_FUNCTION_VENDOR_OTHER then some (USB_TYPE_VENDOR ||| USB_RECIP_OTHER)
  else if function = URB_FUNCTION_CLASS_DEVICE then some (USB_TYPE_CLASS ||| USB_RECIP_DEVICE)
  else if function = URB_FUNCTION_CLASS_INTERFACE then some (USB_TYPE_CLASS ||| USB_RECIP_INTERFACE)
  else if function = URB_FUNCTION_CLASS_ENDPOINT then some (USB_TYPE_CLASS ||| USB_RECIP_ENDPOINT)
  else if function = URB_FUNCTION_CLASS_OTHER then some (USB_TYPE_CLASS ||| USB_RECIP_OTHER)
  else none

def getRequestType (urb : VendorClassUrb) : Byte :=
  match requestTypeOf urb.function with
  | some bmRequestType =>
    bmRequestType ||| (if isTransferDirectionIn urb.transferFlags then USB_DIR_IN else USB_DIR_OUT)
  | none => 0

-- The assertions that the reserved members are zero are those of a debug build.
def vendorClassToControl (urb : VendorClassUrb) (bmRequestType : Byte) : VendorClassUrb :=
  { urb with
    function := URB_FUNCTION_CONTROL_TRANSFER
    transferFlags := urb.transferFlags ||| USBD_DEFAULT_PIPE_TRANSFER
    requestTypeReservedBits := bmRequestType
    reserved1 := urb.transferBufferLength.toUInt16 }

def controlToVendorClass (urb : VendorClassUrb) (function : UInt16) : VendorClassUrb :=
  { urb with
    function := function
    transferFlags := urb.transferFlags &&& ~~~USBD_DEFAULT_PIPE_TRANSFER
    requestTypeReservedBits := 0
    reserved1 := 0 }

-- The URB to send down and the context of the completion routine, null if the URB is left as it is.
def tryLegacyCtrl (urb : VendorClassUrb) : VendorClassUrb × UInt16 :=
  let bmRequestType := getRequestType urb
  if bmRequestType = 0 then (urb, 0)
  else (vendorClassToControl urb bmRequestType, urb.function)

-- What becomes of an IRP: an IRP of a hub is forwarded without a completion routine. `urb` is what the
-- driver below receives, if the IRP has one.
inductive Dispatched where
  | forwarded
  | called (urb : Option VendorClassUrb) (context : UInt16)
  deriving DecidableEq, Repr

def intDevCtrl (isHub : Bool) (urb : Option VendorClassUrb) : Dispatched :=
  if isHub then .forwarded
  else
    match urb with
    | some urb => .called (some (tryLegacyCtrl urb).1) (tryLegacyCtrl urb).2
    | none => .called none 0

-- `post_process_irp` reads the URB only.
def irpComplete (context : UInt16) (urb : VendorClassUrb) : VendorClassUrb :=
  if context ≠ 0 then controlToVendorClass urb context else urb

end Usbip.Filter.Legacy

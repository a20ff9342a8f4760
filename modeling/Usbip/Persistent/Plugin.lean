import Usbip.VhciIoctl.StopAttach

namespace Usbip.Persistent.Plugin

open Usbip.Library.Words
open Usbip.Libusbip.Persistent (WChar)
open Usbip.VhciIoctl
open Usbip.VhciIoctl.Imported (BUS_ID_SIZE sizeofService sizeofHost DeviceCtx fillLocation)
open Usbip.VhciIoctl.StopAttach (Services arrayAt initDeviceAttributes)

-- `RtlStringCbCopyNA` of a whole array.
def rtlStringCbCopyNA (dst src : List Byte) : NTSTATUS × List Byte :=
  let text := cString src
  let room := dst.length - 1
  if text.length ≤ room then (.STATUS_SUCCESS, overwrite dst 0 (text ++ [0]))
  else (.STATUS_BUFFER_OVERFLOW, overwrite dst 0 (text.take room ++ [0]))

-- What the request `plugin_hardware` is made into.
def createDeviceCtxExt (sys : Services) (r : List Byte) : NTSTATUS × DeviceAttributes :=
  let (st, attr) := initDeviceAttributes sys (arrayAt r offsetofHost sizeofHost)
    (arrayAt r offsetofService sizeofService) (arrayAt r offsetofBusid BUS_ID_SIZE)
  if st ≠ .STATUS_SUCCESS then (st, attr)
  else
    let (st, serial) := rtlStringCbCopyNA attr.serial (arrayAt r offsetofSerial SERIAL_BUFSZ)
    (st, { attr with serial := serial })

-- `attach_ctx` with the contents of its buffer.
structure AttachRequest where
  locationHash : UInt32
  ctx : AttachCtx
  inbuf : List Byte

def DeviceAttributes.strings (attr : DeviceAttributes) : DeviceCtx where
  nodeName := attr.nodeName
  serviceName := attr.serviceName
  busid := attr.busid

-- The structure is zeroed, and its port stays zero.
def initAttachCtx (rtl : Rtl) (vhci : Constants) (attr : DeviceAttributes) : Option AttachRequest :=
  let req := overwrite (List.replicate sizeofPluginHardware 0) 0 (bytes32 (UInt32.ofNat sizeofPluginHardware))
  let (err, serial) := rtlStringCbCopyNA (arrayAt req offsetofSerial SERIAL_BUFSZ) attr.serial
  if err ≠ .STATUS_SUCCESS then none
  else
    let (st, req) := fillLocation rtl (overwrite req offsetofSerial serial) sizeofBase (DeviceAttributes.strings attr)
    if st.isSuccess then
      some { locationHash := attr.locationHash, ctx := { delay := vhci.reattachFirstDelay }, inbuf := req }
    else none

-- The controller as `plugin_persistent_devices` finds it. `reattachReq` is the collection of the attach requests.
structure VhciCtx where
  constants : Constants
  devicesCnt : Nat
  removing : Bool := false
  reattachReq : List AttachRequest := []

-- `start_attach_attempts` for a device that is to be attached at once. A request that was made is sent.
def startAttachAttempts (rtl : Rtl) (vhci : VhciCtx) (attr : DeviceAttributes) : VhciCtx :=
  if vhci.removing then vhci
  else if 4 * vhci.devicesCnt ≤ vhci.reattachReq.length then vhci
  else
    match initAttachCtx rtl vhci.constants attr with
    | none => vhci
    | some req => { vhci with reattachReq := vhci.reattachReq ++ [req] }

-- `WdfRegistryQueryMultiString` gives the strings of the value, `none` is an error.
def getPersistentDevices (queryMultiString : RegistryValue → Option (List (List WChar))) (value : RegistryValue)
    (maxCnt : Nat) : List (List WChar) :=
  ((queryMultiString value).getD []).take maxCnt

def pluginPersistentDevice (sys : Services) (vhci : VhciCtx) (deviceStr : List WChar) : VhciCtx :=
  let (err, attr) := parseDeviceStr sys.rtl sys.allocated (unicodeString deviceStr)
  if err ≠ .STATUS_SUCCESS then vhci else startAttachAttempts sys.rtl vhci attr

def pluginPersistentDevices (sys : Services) (queryMultiString : RegistryValue → Option (List (List WChar)))
    (value : RegistryValue) (vhci : VhciCtx) : VhciCtx :=
  (getPersistentDevices queryMultiString value vhci.devicesCnt).foldl (pluginPersistentDevice sys) vhci

end Usbip.Persistent.Plugin

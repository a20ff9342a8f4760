import Usbip.Libusbip.StopAttach

namespace Usbip.Libusbip.Attach

open Usbip.Library.Words
open Usbip.Libusbip.Persistent (DeviceLocation validateDeviceSerial)
open Usbip.Libusbip.StopAttach (ErrorCode Field strncpyS)
open Usbip.VhciIoctl

structure AttachArgs where
  location : DeviceLocation
  serial : List Byte := []
  once : Bool := false

-- The structure that is sent: three bytes of padding are between the arrays of the location and the serial number.
def request (arrays serial : List Byte) : List Byte :=
  bytes32 (UInt32.ofNat sizeofPluginHardware) ++ (bytes32 0 ++ (arrays ++ (List.replicate 3 0 ++ serial)))

def assign (rest : Nat → Byte) (args : AttachArgs) : Except Win32Error (List Byte) :=
  if validateDeviceSerial args.serial = false then .error (.other .USBIP_ERROR_SERIAL_NUMBER)
  else
    let (serial, err) := strncpyS rest { len := SERIAL_BUFSZ, src := args.serial }
    if err ≠ 0 then .error (.other .USBIP_ERROR_SERIAL_NUMBER)
    else
      let (arrays, err) := StopAttach.assign rest args.location
      if err ≠ 0 then .error .ERROR_INVALID_PARAMETER else .ok (request arrays serial)

-- The size and the port come back.
def outlen : Nat := offsetofPort + 4

structure Call where
  sent : Option (List Byte)
  result : Int
  lastError : Option Win32Error := none
  deriving DecidableEq, Repr

def IoControlCode.ofOnce (once : Bool) : IoControlCode := if once then .PLUGIN_HARDWARE_ONCE else .PLUGIN_HARDWARE

-- What is made of the reply of the driver.
def finish (pool : Nat → Byte) (r : List Byte) (reply : Reply) : Call :=
  let res := deviceIoControl (fun _ => reply) pool r (r.take outlen)
  match res.error with
  | some err => { sent := some r, result := 0, lastError := some err }
  | none =>
    if res.bytesReturned ≠ outlen then
      { sent := some r, result := 0, lastError := some .USBIP_ERROR_DRIVER_RESPONSE }
    else { sent := some r, result := signed (ulongAt res.output offsetofPort) }

-- `none`: the driver never completes the request.
def attach (env : Env) (vhci : Vhci.VhciCtx) (rest pool : Nat → Byte) (args : AttachArgs) : Option Call :=
  match assign rest args with
  | .error err => some { sent := none, result := 0, lastError := some err }
  | .ok r =>
    (deviceControl env vhci (systemRequest r outlen pool) (IoControlCode.ofOnce args.once)).map (finish pool r)

end Usbip.Libusbip.Attach

import Usbip.Attach
import Usbip.VhciIoctl.Imported

namespace Usbip.Vhci.DeviceState

open Usbip.Library.Words
open Usbip.Persistent
open Usbip.VhciIoctl
open Usbip.VhciIoctl.Imported (fill)

-- The layout of `device_state`.
def offsetofState : Nat := sizeofBase + sizeofImportedDevice
def offsetofSourceId : Nat := offsetofState + 4
def sizeofDeviceState : Nat := offsetofSourceId + 4

-- The enumeration as an `int`.
def code : Attach.DeviceState → UInt32
  | .unplugged => 0
  | .connecting => 1
  | .connected => 2
  | .plugged => 3
  | .disconnected => 4
  | .unplugging => 5

-- What a change of the state of a device is told with; `sourceId` is the hash of the address of its attributes.
structure Change where
  dev : Imported.DeviceCtx
  state : Attach.DeviceState
  sourceId : UInt32

-- `make_device_state` in memory that is allocated for it.
def makeDeviceState (rtl : Rtl) (change : Change) : Option (List Byte) :=
  let r := List.replicate sizeofDeviceState 0
  let r := overwrite r 0 (bytes32 (UInt32.ofNat sizeofDeviceState))
  let r := overwrite r offsetofState (bytes32 (code change.state))
  let r := overwrite r offsetofSourceId (bytes32 change.sourceId)
  let (err, r) := fill rtl r sizeofBase change.dev
  if err ≠ .STATUS_SUCCESS then none else some r

-- `complete_read`: the status, and what the reader is given.
def completeRead (length : Nat) (evt : List Byte) : NTSTATUS × List Byte :=
  let st := retrieveBuffer length sizeofDeviceState
  if st.isSuccess then (st, evt) else (st, [])

end Usbip.Vhci.DeviceState

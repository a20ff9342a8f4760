import Usbip.Libusbip

namespace Usbip.Libusbip

open Usbip.DeviceFilter
open Usbip.Library.Words
open Usbip.VhciIoctl

inductive FilterMode where
  | disabled
  | whitelist
  deriving DecidableEq, Repr

structure DeviceFilterPolicy where
  mode : FilterMode := .whitelist
  entries : List DeviceFilterEntry
  deriving DecidableEq, Repr

-- `vhci::filter_mode`
def FilterMode.toByte : FilterMode → Byte
  | .disabled => filterModeDisabled
  | .whitelist => filterModeWhitelist

def FilterMode.ofByte (mode : Byte) : FilterMode :=
  if mode = filterModeDisabled then .disabled else .whitelist

-- The structure that `set_device_filter` sends, in a buffer of zeros at first.
def deviceFilterInput (policy : DeviceFilterPolicy) : List Byte :=
  let cnt := policy.entries.length
  let buf := List.replicate (deviceFilterSize (if cnt = 0 then 1 else cnt)) 0
  let buf := overwrite buf 0 (bytes32 (UInt32.ofNat sizeofDeviceFilter))
  let buf := overwrite buf offsetofMode [policy.mode.toByte]
  let buf := overwrite buf offsetofCount (bytes32 (UInt32.ofNat cnt))
  let buf := overwrite buf offsetofEntries (policy.entries.flatMap DeviceFilterEntry.bytes)
  let needed := offsetofEntries + cnt * sizeofDeviceFilterEntry
  buf.take (if needed < sizeofDeviceFilter then sizeofDeviceFilter else needed)

-- The second component is what the driver has assigned to the value of the registry.
def setDeviceFilter (env : Env) (pool : Nat → Byte) (policy : DeviceFilterPolicy) :
    Option Win32Error × Option (List Byte) :=
  if MAX_DEVICE_FILTER_ENTRIES < policy.entries.length then (some .ERROR_INVALID_PARAMETER, none)
  else
    let input := deviceFilterInput policy
    let res := deviceIoControl (fun r => (VhciIoctl.setDeviceFilter env r).1) pool input []
    (res.error, (VhciIoctl.setDeviceFilter env (systemRequest input 0 pool)).2)

-- The loop of `get_device_filter`; `pool` is the memory of the system in each round, `none` the end of the fuel.
def readDeviceFilter (env : Env) (pool : Nat → Nat → Byte) :
    Nat → Nat → List Byte → Option (Except Win32Error (List Byte))
  | 0, _, _ => none
  | fuel + 1, cnt, buf =>
    let buf := overwrite (resize buf (deviceFilterSize cnt)) 0 (bytes32 (UInt32.ofNat sizeofDeviceFilter))
    let res := deviceIoControl (VhciIoctl.getDeviceFilter env) (pool cnt) (buf.take sizeofBase) buf
    match res.error with
    | none =>
      if res.bytesReturned < offsetofEntries then some (.error .USBIP_ERROR_DRIVER_RESPONSE)
      else some (.ok (resize res.output res.bytesReturned))
    | some err =>
      if err = .ERROR_INSUFFICIENT_BUFFER then readDeviceFilter env pool fuel (2 * cnt) res.output
      else some (.error err)

def parseDeviceFilter (buf : List Byte) : DeviceFilterPolicy :=
  let avail := (buf.length - offsetofEntries) / sizeofDeviceFilterEntry
  let count := (ulongAt buf offsetofCount).toNat
  let cnt := if count < avail then count else avail
  { mode := .ofByte (byteAt buf offsetofMode)
    entries := (List.range cnt).map (entryAt buf) }

def getDeviceFilter (env : Env) (pool : Nat → Nat → Byte) (fuel : Nat) :
    Option (Except Win32Error DeviceFilterPolicy) :=
  (readDeviceFilter env pool fuel 16 []).map fun res => res.map parseDeviceFilter

end Usbip.Libusbip

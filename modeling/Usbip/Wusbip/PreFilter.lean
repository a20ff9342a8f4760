import Usbip.Libusbip.DeviceFilter
import Usbip.Libusbip.Remote

namespace Usbip.Wusbip

open Usbip.DeviceFilter
open Usbip.Libusbip

structure ClassTriple where
  cls : Byte
  sub : Byte
  proto : Byte
  deriving DecidableEq, Repr

-- `pending_dev`, without the columns of the device in the list.
structure PendingDev where
  cls : Byte
  sub : Byte
  proto : Byte
  ifaces : List ClassTriple := []
  deriving DecidableEq, Repr

-- The text of COL_NOTES for a device that is flagged.
inductive Reason where
  | deviceClass (cls : Byte)
  | interfaceClass (cls : Byte)
  deriving DecidableEq, Repr

def hexDigit (n : Nat) : Char := if n < 10 then Char.ofNat (48 + n) else Char.ofNat (55 + n)

-- `%02X`
def hex2 (byte : Byte) : String := String.ofList [hexDigit (byte.toNat / 16), hexDigit (byte.toNat % 16)]

def Reason.text : Reason → String
  | .deviceClass cls => "Blocked: device class " ++ hex2 cls
  | .interfaceClass cls => "Blocked: interface class " ++ hex2 cls

-- The callbacks `dev` and `intf`. An index that is negative as an `int` is past the end as a `size_t`.
def collect (pend : List PendingDev) : Remote.Call → List PendingDev
  | .onDevCnt _ => pend
  | .onDev _ device =>
    pend ++ [{ cls := device.bDeviceClass, sub := device.bDeviceSubClass, proto := device.bDeviceProtocol }]
  | .onIntf devIdx _ _ intf =>
    if 0 ≤ devIdx then
      pend.modify devIdx.toNat fun pd =>
        { pd with
          ifaces := pd.ifaces ++ [⟨intf.bInterfaceClass, intf.bInterfaceSubClass, intf.bInterfaceProtocol⟩] }
    else pend

def allowed (p : DeviceFilterPolicy) (c s pr : Byte) : Bool := p.entries.any fun e => e.accepts c s pr

-- `none` is an empty text.
def reasonFor (p : DeviceFilterPolicy) (pd : PendingDev) : Option Reason :=
  if pd.cls ≠ 0 ∧ pd.cls ≠ 0xEF ∧ allowed p pd.cls pd.sub pd.proto = false then some (.deviceClass pd.cls)
  else
    (pd.ifaces.find? fun i => !allowed p i.cls i.sub i.proto).map fun i => .interfaceClass i.cls

-- What is noted of each device. Without a policy, or with one that is disabled, nothing is.
def notes (policy : Option DeviceFilterPolicy) (pend : List PendingDev) : List (Option Reason) :=
  match policy with
  | none => pend.map fun _ => none
  | some p => if p.mode ≠ .whitelist then pend.map fun _ => none else pend.map (reasonFor p)

-- The notes of `add_exported_devices`, none if the devices could not be listed.
def addExportedDevices (policy : Option DeviceFilterPolicy) (behind : List Byte) : Remote.M (List (Option Reason)) := do
  Remote.enumExportableDevices false behind
  return notes policy ((← get).calls.foldl collect [])

end Usbip.Wusbip

import Usbip.Libusbip.DeviceFilter

namespace Usbip.Wusbip

open Usbip.DeviceFilter
open Usbip.Libusbip

-- `device_type_category` without the identifier of the command line.
structure DeviceTypeCategory where
  name : String
  entries : List DeviceFilterEntry
  deriving DecidableEq, Repr

def classEntry (bClass : Byte) : DeviceFilterEntry := { bClass := bClass, matchFlags := FILTER_MATCH_CLASS }

def deviceTypeCategories : List DeviceTypeCategory :=
  [{ name := "HID / input (keyboard, mouse)", entries := [classEntry 0x03] },
    { name := "Mass storage (USB drives)", entries := [classEntry 0x08] },
    { name := "Network adapter (CDC/RNDIS/NCM/ECM)", entries := [classEntry 0x02, classEntry 0x0A] },
    { name := "Wireless / Bluetooth radio", entries := [classEntry 0xE0] },
    { name := "Audio", entries := [classEntry 0x01] },
    { name := "Video / webcam", entries := [classEntry 0x0E] },
    { name := "Printer", entries := [classEntry 0x07] },
    { name := "Imaging / scanner (PTP/MTP)", entries := [classEntry 0x06] },
    { name := "Smart card", entries := [classEntry 0x0B] },
    { name := "Hub", entries := [classEntry 0x09] },
    { name := "Vendor-specific", entries := [classEntry 0xFF] }]

def contains (v : List DeviceFilterEntry) (e : DeviceFilterEntry) : Bool := v.contains e

def categoryEnabled (p : DeviceFilterPolicy) (c : DeviceTypeCategory) : Bool :=
  !c.entries.isEmpty && c.entries.all fun e => contains p.entries e

-- The checkbox, and the list with a check for each category.
structure FilterDialog where
  enable : Bool
  items : List (String × Bool)
  names : items.map Prod.fst = deviceTypeCategories.map DeviceTypeCategory.name

namespace FilterDialog

-- The constructor.
def init (policy : DeviceFilterPolicy) : FilterDialog where
  enable := policy.mode != .disabled
  items := deviceTypeCategories.map fun c => (c.name, categoryEnabled policy c)
  names := by rw [List.map_map]; rfl

def isChecked (d : FilterDialog) : List Bool := d.items.map Prod.snd

-- `if (!contains(p.entries, e)) p.entries.push_back(e)` for the entries of a category
def pushEntries (entries : List DeviceFilterEntry) (c : DeviceTypeCategory) : List DeviceFilterEntry :=
  c.entries.foldl (fun entries e => if contains entries e then entries else entries ++ [e]) entries

def policy (d : FilterDialog) : DeviceFilterPolicy :=
  if d.enable = false then { mode := .disabled, entries := [] }
  else
    { mode := .whitelist
      entries := (deviceTypeCategories.zip d.isChecked).foldl
        (fun entries item => if item.2 then pushEntries entries item.1 else entries) [] }

end FilterDialog

-- How `on_edit_device_filter` ends.
inductive EditOutcome where
  | notOpened
  | notRead (err : Win32Error)
  | cancelled
  | notSaved (err : Win32Error)
  | saved (policy : DeviceFilterPolicy)
  deriving DecidableEq, Repr

-- `user` is what is done in the dialog until it is closed, none if it is cancelled. With the outcome
-- comes what the driver has assigned to the value of the registry; `none` is the end of the fuel.
def onEditDeviceFilter (env : VhciIoctl.Env) (opened : Bool) (getPool : Nat → Nat → Byte) (setPool : Nat → Byte)
    (fuel : Nat) (user : FilterDialog → Option FilterDialog) : Option (EditOutcome × Option (List Byte)) :=
  if opened = false then some (.notOpened, none)
  else
    (getDeviceFilter env getPool fuel).map fun current =>
      match current with
      | .error err => (.notRead err, none)
      | .ok current =>
        match user (.init current) with
        | none => (.cancelled, none)
        | some dlg =>
          match setDeviceFilter env setPool dlg.policy with
          | (some err, stored) => (.notSaved err, stored)
          | (none, stored) => (.saved dlg.policy, stored)

end Usbip.Wusbip

import Usbip.Wusbip.FilterDialog

namespace Usbip.Cli.Filter

open Usbip.DeviceFilter
open Usbip.Libusbip
open Usbip.Wusbip (DeviceTypeCategory deviceTypeCategories contains categoryEnabled)
open Usbip.Wusbip.FilterDialog (pushEntries)

-- The identifiers of the categories, in their order.
def deviceTypeIds : List String :=
  ["hid", "mass_storage", "network", "wireless", "audio", "video", "printer", "image", "smartcard", "hub", "vendor"]

def categories : List (String × DeviceTypeCategory) := deviceTypeIds.zip deviceTypeCategories

def findCategory (id : String) : Option DeviceTypeCategory :=
  (categories.find? fun c => c.1 == id).map Prod.snd

section Print

-- `{:<14}`
def leftAligned (s : String) : String := s ++ String.ofList (List.replicate (14 - s.length) ' ')

def hexDigit (n : Nat) : Char := if n < 10 then Char.ofNat (48 + n) else Char.ofNat (87 + n)

-- `{:#04x}`
def hex (byte : Byte) : String := "0x" ++ String.ofList [hexDigit (byte.toNat / 16), hexDigit (byte.toNat % 16)]

def printEntry (e : DeviceFilterEntry) : String :=
  let fields := if e.matchFlags &&& FILTER_MATCH_CLASS ≠ 0 then " class=" ++ hex e.bClass else ""
  let fields := if e.matchFlags &&& FILTER_MATCH_SUBCLASS ≠ 0 then fields ++ " subclass=" ++ hex e.bSubClass else fields
  let fields := if e.matchFlags &&& FILTER_MATCH_PROTOCOL ≠ 0 then fields ++ " protocol=" ++ hex e.bProtocol else fields
  "    -" ++ if fields.isEmpty then " (matches any)" else fields

def printCategory (enabled : Bool) (c : String × DeviceTypeCategory) : String :=
  "  [" ++ (if enabled then "x" else " ") ++ "] " ++ leftAligned c.1 ++ " " ++ c.2.name

-- The entries that are of no category of which nothing is missing.
def additionalEntries (p : DeviceFilterPolicy) : List DeviceFilterEntry :=
  let covered := (categories.filter fun c => categoryEnabled p c.2).flatMap fun c => c.2.entries
  p.entries.filter fun e => !contains covered e

def printPolicy (p : DeviceFilterPolicy) : List String :=
  if p.mode = .disabled then ["Device-type filter: DISABLED (all device types are allowed)"]
  else
    ("Device-type filter: WHITELIST" ++ if p.entries.isEmpty then " (empty => every device is denied)" else "") ::
      "Categories:" :: categories.map (fun c => printCategory (categoryEnabled p c.2) c) ++
      match additionalEntries p with
      | [] => []
      | entries => "Additional entries:" :: entries.map printEntry

end Print

-- `show` is not read, as this is the default action.
structure FilterArgs where
  categories : List String := []
  listCategories : Bool := false
  disable : Bool := false
  denyAll : Bool := false
  deriving DecidableEq, Repr

inductive FilterError where
  | notOpened
  | lastError (err : Win32Error)
  | unknownCategory (id : String)
  deriving DecidableEq, Repr

-- What is printed, the error that is logged, and what the driver has assigned to the value of the registry.
structure Outcome where
  lines : List String := []
  error : Option FilterError := none
  stored : Option (List Byte) := none
  deriving DecidableEq, Repr

def FilterArgs.modify (args : FilterArgs) : Bool := args.disable || args.denyAll || !args.categories.isEmpty

-- The loop over the identifiers; it ends at the first one that is not known.
def pushCategories : List DeviceFilterEntry → List String → Except String (List DeviceFilterEntry)
  | entries, [] => .ok entries
  | entries, id :: ids =>
    match findCategory id with
    | none => .error id
    | some c => pushCategories (pushEntries entries c) ids

def makePolicy (args : FilterArgs) : Except String DeviceFilterPolicy :=
  if args.disable then .ok { mode := .disabled, entries := [] }
  else if args.denyAll then .ok { mode := .whitelist, entries := [] }
  else (pushCategories [] args.categories).map fun entries => { mode := .whitelist, entries := entries }

-- `none` is the end of the fuel of the loop that reads the policy.
def cmdFilter (env : VhciIoctl.Env) (opened : Bool) (getPool : Nat → Nat → Byte) (setPool : Nat → Byte) (fuel : Nat)
    (args : FilterArgs) : Option Outcome :=
  if args.listCategories then
    some { lines := "Available device-type categories:" ::
      categories.map fun c => "  " ++ leftAligned c.1 ++ " " ++ c.2.name }
  else if opened = false then some { error := some .notOpened }
  else if args.modify = false then
    (getDeviceFilter env getPool fuel).map fun
      | .error err => { error := some (.lastError err) }
      | .ok policy => { lines := printPolicy policy }
  else
    match makePolicy args with
    | .error id => some { error := some (.unknownCategory id) }
    | .ok policy =>
      match setDeviceFilter env setPool policy with
      | (some err, stored) => some { error := some (.lastError err), stored := stored }
      | (none, stored) => some { lines := "Device-type filter updated." :: printPolicy policy, stored := stored }

end Usbip.Cli.Filter

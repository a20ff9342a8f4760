import Usbip.Libusbip

namespace Usbip.Libusbip.Persistent

open Usbip.Library.Words
open Usbip.VhciIoctl

abbrev WChar := UInt16

structure DeviceLocation where
  hostname : List Byte := []
  service : List Byte := []
  busid : List Byte := []
  deriving DecidableEq, Repr

structure PersistentDevice where
  location : DeviceLocation := {}
  serial : List Byte := []
  deriving DecidableEq, Repr

-- The conversions of the system, `none` for text that is not valid.
structure Utf where
  utf8ToWchar : List Byte → Option (List WChar)
  wcharToUtf8 : List WChar → Option (List Byte)

def COMMA : Byte := 44

def validateDeviceSerial (serial : List Byte) : Bool :=
  let len := isAsciiAlnum serial 0
  decide (serial.length ≤ SERIAL_BUFSZ - 1) && (decide (0 ≤ len) && decide (len = serial.length))

def DeviceLocation.isMalformed (d : DeviceLocation) : Bool :=
  d.hostname.isEmpty || d.service.isEmpty || d.busid.isEmpty

def PersistentDevice.isMalformed (d : PersistentDevice) : Bool :=
  d.location.isMalformed || !validateDeviceSerial d.serial

-- `std::format("{},{},{},{}", ...)`
def PersistentDevice.text (d : PersistentDevice) : List Byte :=
  d.location.hostname ++ COMMA :: (d.location.service ++ COMMA :: (d.location.busid ++ COMMA :: d.serial))

-- The loop of `make_multi_sz`.
def appendDevices (utf : Utf) : List PersistentDevice → List WChar → Except Win32Error (List WChar)
  | [], multiSz => .ok multiSz
  | d :: rest, multiSz =>
    if d.isMalformed then .error .ERROR_INVALID_PARAMETER
    else
      match utf.utf8ToWchar d.text with
      | some ws => appendDevices utf rest (multiSz ++ (ws ++ [0]))
      | none => .error .ERROR_INVALID_PARAMETER

def makeMultiSz (utf : Utf) (devices : List PersistentDevice) : Except Win32Error (List WChar) :=
  (appendDevices utf devices []).map fun multiSz =>
    multiSz ++ List.replicate (if devices.isEmpty then 2 else 1) 0

-- The next element of a view that is split at commas; `none` is its end.
def nextField : Option (List Byte) → List Byte × Option (List Byte)
  | none => ([], none)
  | some str =>
    (str.takeWhile (· ≠ COMMA),
      match str.dropWhile (· ≠ COMMA) with
      | [] => none
      | _ :: rest => some rest)

def parsePersistentDevice (str : List Byte) : PersistentDevice :=
  let it := if str.isEmpty then none else some str
  let (hostname, it) := nextField it
  let (service, it) := nextField it
  let (busid, it) := nextField it
  { location := { hostname := hostname, service := service, busid := busid }
    serial := it.getD [] } -- remaining suffix

def splitMultiSz (str : List WChar) : List (List WChar) :=
  let ws := str.takeWhile (· ≠ 0)
  if ws.isEmpty then [] else ws :: splitMultiSz (str.drop (min (ws.length + 1) str.length))
termination_by str.length
decreasing_by
  have hws : 0 < ws.length := List.length_pos_iff.mpr (mt List.isEmpty_iff.mpr ‹_›)
  have hle : ws.length ≤ str.length := (List.takeWhile_sublist _).length_le
  rw [List.length_drop]
  omega

def wcharBytes (ws : List WChar) : List Byte := ws.flatMap fun c => [UInt8.ofNat c.toNat, UInt8.ofNat (c.toNat / 2 ^ 8)]

def wchars : List Byte → List WChar
  | b0 :: b1 :: rest => le16 b0 b1 :: wchars rest
  | _ => []

-- `std::wstring::resize`
def resizeString (str : List WChar) (n : Nat) : List WChar := str.take n ++ List.replicate (n - str.length) 0

-- STATUS_OBJECT_NAME_NOT_FOUND
def ERROR_FILE_NOT_FOUND : Win32Error := .other (.failure 0xC0000034)

-- The second component is what the driver has assigned to the value of the registry. The size of the string is
-- passed as a `DWORD`.
def setPersistent (utf : Utf) (env : Env) (pool : Nat → Byte) (devices : List PersistentDevice) :
    Option Win32Error × Option (List Byte) :=
  match makeMultiSz utf devices with
  | .error err => (some err, none)
  | .ok multiSz =>
    let bytes := wcharBytes multiSz
    let input := bytes.take (bytes.length % 2 ^ 32)
    let res := deviceIoControl (fun r => (VhciIoctl.setPersistent env r).1) pool input []
    (res.error, (VhciIoctl.setPersistent env (systemRequest input 0 pool)).2)

-- The loop of `get_persistent_devices`; `pool` is the memory of the system in each round, `none` the end of the fuel.
def getPersistentDevices (env : Env) (pool : Nat → Nat → Byte) :
    Nat → List WChar → Option (Except Win32Error (List WChar))
  | 0, _ => none
  | fuel + 1, val =>
    let res := deviceIoControl (VhciIoctl.getPersistent env) (pool fuel) [] (wcharBytes val)
    let val := resizeString (wchars res.output) (res.bytesReturned / 2)
    match res.error with
    | none => some (.ok val)
    | some err => if err = .ERROR_MORE_DATA then getPersistentDevices env pool fuel val else some (.error err)

-- What a string of the list comes to; the malformed ones are left out.
def readDevice (utf : Utf) (ws : List WChar) : Option PersistentDevice :=
  (utf.wcharToUtf8 ws).bind fun s =>
    let d := parsePersistentDevice s
    if d.isMalformed then none else some d

def getPersistent (utf : Utf) (env : Env) (pool : Nat → Nat → Byte) (fuel : Nat) :
    Option (Except Win32Error (List PersistentDevice)) :=
  (getPersistentDevices env pool fuel (List.replicate 512 0)).map fun
    | .ok multiSz => .ok ((splitMultiSz multiSz).filterMap (readDevice utf))
    | .error err => if err = ERROR_FILE_NOT_FOUND then .ok [] else .error err

-- The text that comes through a string of the list and the commas between the fields.
def DeviceLocation.IsPlain (d : DeviceLocation) : Prop :=
  ∀ field ∈ [d.hostname, d.service, d.busid], COMMA ∉ field ∧ 0 ∉ field

instance (d : DeviceLocation) : Decidable d.IsPlain :=
  inferInstanceAs (Decidable (∀ field ∈ [d.hostname, d.service, d.busid], COMMA ∉ field ∧ 0 ∉ field))

-- How many bytes the list takes.
def multiSzSize (utf : Utf) (devices : List PersistentDevice) : Nat :=
  2 * ((devices.map fun d => ((utf.utf8ToWchar d.text).getD []).length + 1).sum + 1)

-- What is known of the conversions: no text becomes empty, they invert each other, and they keep the terminator
-- and the comma.
structure Utf.Converts (utf : Utf) : Prop where
  nonempty : ∀ s, utf.utf8ToWchar s ≠ some []
  decode : ∀ s ws, utf.utf8ToWchar s = some ws → utf.wcharToUtf8 ws = some s
  encode : ∀ s ws, utf.wcharToUtf8 ws = some s → utf.utf8ToWchar s = some ws
  terminator : ∀ s ws, utf.utf8ToWchar s = some ws → (0 ∈ ws ↔ 0 ∈ s)
  comma : ∀ s ws ws', utf.utf8ToWchar s = some ws → utf.utf8ToWchar (s ++ [COMMA]) = some ws' → ws' = ws ++ [44]

end Usbip.Libusbip.Persistent

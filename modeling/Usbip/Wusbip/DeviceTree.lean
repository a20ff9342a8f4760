import Mathlib.Data.Nat.Digits.Defs
import Usbip.Library.Keyed
import Usbip.Libusbip.Events
import Usbip.Libusbip.UsbIds
import Usbip.Wusbip.PreFilter
import Usbip.Wusbip.TreeComparator

namespace Usbip.Wusbip.DeviceTree

open Usbip.Library.Keyed
open Usbip.Libusbip.Events (DeviceState)
open Usbip.Libusbip.Imported (ImportedDevice)
open Usbip.Libusbip.Persistent (DeviceLocation PersistentDevice Utf WChar)
open Usbip.Libusbip.Remote (UsbDevice WindowsSpeed)
open Usbip.Libusbip.UsbIds (Ids)

section Texts

def ascii (s : String) : Text := s.toList.map fun c => UInt16.ofNat c.toNat

def digitCode (d : Nat) : WChar := UInt16.ofNat (if d < 10 then 48 + d else 87 + d)

-- At least `width` digits.
def digitsText (base width n : Nat) : Text :=
  let digits := (Nat.digits base n).reverse.map digitCode
  List.replicate (width - digits.length) (digitCode 0) ++ digits

-- `%08x`
def hexText (n : Nat) : Text := digitsText 16 8 n

-- `%03d`
def portText (port : Int) : Text :=
  if 0 ≤ port then digitsText 10 3 port.toNat else HYPHEN :: digitsText 10 2 (-port).toNat

-- `%lx`
def toWxstring (sourceId : UInt32) : Text := if sourceId = 0 then [] else digitsText 16 1 sourceId.toNat

-- An empty string is made of text that is not valid.
def fromUTF8 (utf : Utf) (s : List Byte) : Text := (utf.utf8ToWchar s).getD []
def utf8String (utf : Utf) (s : Text) : List Byte := (utf.wcharToUtf8 s).getD []

def COLON : Byte := 58
def WIDE_COLON : WChar := 58

def makeServerUrl (utf : Utf) (loc : DeviceLocation) : Text := fromUTF8 utf (loc.hostname ++ COLON :: loc.service)

-- The host name and the service around the last colon.
def splitServerUrl (url : Text) : Option (Text × Text) :=
  if WIDE_COLON ∈ url then
    some (((url.reverse.dropWhile (· ≠ WIDE_COLON)).drop 1).reverse, (url.reverse.takeWhile (· ≠ WIDE_COLON)).reverse)
  else none

def getSpeedStr : WindowsSpeed → Text
  | .UsbLowSpeed => ascii "Low"
  | .UsbFullSpeed => ascii "Full"
  | .UsbHighSpeed => ascii "High"
  | .UsbSuperSpeed => ascii "Super"

-- `none` is a value that has no name.
def stateText : Option Attach.DeviceState → Text
  | some .unplugged => [0x25FB] -- white medium square
  | some .plugged => [0x25A3] -- white square containing small black square
  | some .connecting => ascii "connecting"
  | some .connected => ascii "connected"
  | some .disconnected => ascii "disconnected"
  | some .unplugging => ascii "unplugging"
  | none => []

def persistentMark : Text := [0x2713]

end Texts

section Columns

-- `device_columns`; the url is that of the server.
structure DeviceColumns where
  url : Text
  text : Column → Text

def DeviceColumns.set (dc : DeviceColumns) (col : Column) (value : Text) : DeviceColumns :=
  { dc with text := Function.update dc.text col value }

-- Equality and order of columns are those of the keys.
def DeviceColumns.sameKey (a b : DeviceColumns) : Bool := a.url == b.url && a.text .busid == b.text .busid

abbrev Flags := Column → Bool

def Flags.add (flags : Flags) (columns : List Column) : Flags := fun col => flags col || columns.contains col
def noFlags : Flags := fun _ => false

def makeCmpKey (utf : Utf) (loc : DeviceLocation) : DeviceColumns where
  url := makeServerUrl utf loc
  text := Function.update (fun _ => []) .busid (fromUTF8 utf loc.busid)

-- One round of the loop of `set_vendor_product`.
def setId (dc : DeviceColumns) (col : Column) (id : UInt16) (name : Libusbip.UsbIds.Text) : DeviceColumns :=
  if id = 0 then dc
  else dc.set col (if name.isEmpty then hexText id.toNat else name.map fun c => UInt16.ofNat c.toNat)

def setVendorProduct (ids : Ids) (dc : DeviceColumns) (vendorId productId : UInt16) : DeviceColumns :=
  let (vendor, product) := ids.findProduct vendorId productId
  setId (setId dc .vendor vendorId vendor) .product productId product

def isEmptyDevice (d : ImportedDevice) : Bool := d.devid == 0

def makeImportedColumns (utf : Utf) (ids : Ids) (dev : ImportedDevice) : DeviceColumns × Flags :=
  let dc := makeCmpKey utf dev.location
  if isEmptyDevice dev then (dc, noFlags)
  else
    let dc := (dc.set .devid (hexText dev.devid.toNat)).set .speed (getSpeedStr dev.speed)
    let dc := setVendorProduct ids dc dev.vendor dev.product
    let flags := noFlags.add [.devid, .speed, .vendor, .product]
    let (dc, flags) := if dev.port ≠ 0 then (dc.set .port (portText dev.port), flags.add [.port]) else (dc, flags)
    if dev.serial ≠ [] then (dc.set .serial (fromUTF8 utf dev.serial), flags.add [.serial]) else (dc, flags)

def makeDeviceColumns (utf : Utf) (ids : Ids) (st : DeviceState) : DeviceColumns × Flags :=
  let (dc, flags) := makeImportedColumns utf ids st.device
  ((dc.set .state (stateText st.state)).set .sourceId (toWxstring st.sourceId), flags.add [.state, .sourceId])

def makePersistentDevice (utf : Utf) (url busid serial : Text) : PersistentDevice :=
  let (hostname, service) := (splitServerUrl url).getD ([], [])
  { location := {
      hostname := utf8String utf hostname
      service := utf8String utf service
      busid := utf8String utf busid }
    serial := utf8String utf serial }

-- Devices are compared by their locations.
def containsDevice (persistent : List PersistentDevice) (pd : PersistentDevice) : Bool :=
  persistent.any fun d => d.location == pd.location

def savedKeys : List Column := [.busid, .devid, .speed, .vendor, .product, .serial, .notes]

def setSavedColumns (dc saved : DeviceColumns) : DeviceColumns :=
  { dc with text := fun col => if savedKeys.contains col then saved.text col else dc.text col }

-- What `update_from_saved` takes of the saved devices, of which the first with a key is the one that counts.
def fromSaved (dc : DeviceColumns) (flags : Flags) (saved : List DeviceColumns) (notesOnly : Bool) :
    DeviceColumns × Flags :=
  match saved.find? fun s => s.sameKey dc with
  | none => (dc, flags)
  | some s =>
    if notesOnly then (dc.set .notes (s.text .notes), flags.add [.notes])
    else (setSavedColumns dc s, flags.add savedKeys)

def updateFromSaved (utf : Utf) (dc : DeviceColumns) (flags : Flags) (persistent : List PersistentDevice)
    (saved : List DeviceColumns) (notesOnly : Bool) : DeviceColumns × Flags :=
  let (dc, flags) := fromSaved dc flags saved notesOnly
  if containsDevice persistent (makePersistentDevice utf dc.url (dc.text .busid) (dc.text .serial)) then
    (dc.set .persistent persistentMark, flags.add [.persistent])
  else (dc, flags)

def isPortResidual : Option Attach.DeviceState → Bool
  | some .unplugged | some .connecting | some .connected => true
  | _ => false

end Columns

section Tree

-- The texts of the item of a device.
abbrev Row := Column → Text

-- The servers and their devices.
abbrev Tree := Forest Text Text Row

def newRow (busid : Text) : Row := Function.update (fun _ => []) .busid busid

def findOrAddServer (tree : Tree) (url : Text) : Tree := alter url (fun devices => some (devices.getD [])) tree

-- Whether the device was added is the second component.
def findOrAddDevice (tree : Tree) (url busid : Text) : Tree × Bool :=
  let tree := findOrAddServer tree url
  let added := (findLeaf url busid tree).isNone
  (alter url (Option.map (alter busid fun row => some (row.getD (newRow busid)))) tree, added)

-- The item of the server goes if it has no children left.
def removeDevice (tree : Tree) (url busid : Text) : Tree :=
  alter url (fun devices => devices.bind fun devices => nonempty (alter busid (fun _ => none) devices)) tree

def modifyDevice (tree : Tree) (url busid : Text) (f : Row → Row) : Tree :=
  alter url (Option.map (alter busid (Option.map f))) tree

def patch (dc : DeviceColumns) (flags : Flags) (row : Row) : Row :=
  fun col => if col ≠ .busid ∧ flags col then dc.text col else row col

def updateDevice (tree : Tree) (url busid : Text) (columns : DeviceColumns × Flags) : Tree :=
  modifyDevice tree url busid (patch columns.1 columns.2)

def isEmptyRow (row : Row) : Bool := (row .devid).isEmpty

end Tree

end Usbip.Wusbip.DeviceTree

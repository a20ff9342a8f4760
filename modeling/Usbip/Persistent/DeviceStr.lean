import Usbip.Libusbip.Persistent

namespace Usbip.Persistent

open Usbip.Libusbip.Persistent
open Usbip.VhciIoctl

-- `length` and `maximumLength` are in bytes and of 16 bits. `buffer` is the memory from the pointer on, `none` NULL.
structure UnicodeString where
  length : Nat := 0
  maximumLength : Nat := 0
  buffer : Option (List WChar) := none
  deriving DecidableEq, Repr

def ushort (n : Nat) : Nat := n % 2 ^ 16

def UnicodeString.chars (s : UnicodeString) : List WChar := (s.buffer.getD []).take (s.length / 2)

-- The string that `WdfStringGetUnicodeString` gives.
def unicodeString (ws : List WChar) : UnicodeString where
  length := 2 * ws.length
  maximumLength := 2 * ws.length
  buffer := some ws

-- The services of the system: `RtlUnicodeToUTF8N` for a source and the room of the destination, and the hash.
structure Rtl where
  unicodeToUTF8N : Option (List WChar) → Nat → NTSTATUS × List Byte
  hashUnicodeString : List WChar → UInt32

-- The loop of `strchr`, from the character `i` on.
def strchrFrom (ch : WChar) : List WChar → Nat → Int
  | [], _ => -1
  | c :: rest, i => if c = ch then i else strchrFrom ch rest (i + 1)

def strchr (s : UnicodeString) (ch : WChar) : Int := strchrFrom ch s.chars 0

-- The head and the tail. One of them may be the string itself, which is not read after the first of them is set.
def split (str : UnicodeString) (sep : WChar) : UnicodeString × UnicodeString :=
  let pos := strchr str sep
  if pos < 0 then (str, {})
  else
    let pos := pos.toNat
    let headLength := ushort (ushort pos * 2)
    let tailLength := ushort (str.length - (headLength + 2))
    ({ length := headLength
       maximumLength := headLength
       buffer := if headLength ≠ 0 then str.buffer else none },
     { length := tailLength
       maximumLength := tailLength
       buffer := if tailLength ≠ 0 then str.buffer.map (·.drop (pos + 1)) else none })

-- `unicode_to_utf8` into a buffer that is null-terminated if there is room.
def unicodeToUtf8 (rtl : Rtl) (dst : List Byte) (src : UnicodeString) : NTSTATUS × List Byte :=
  let (st, bytes) := rtl.unicodeToUTF8N (src.buffer.map (·.take (src.length / 2))) dst.length
  let dst := overwrite dst 0 bytes
  (st, if bytes.length < dst.length then dst.set bytes.length 0 else dst)

-- The fields that `parse_device_str` sets, zeroed at first.
structure DeviceAttributes where
  nodeName : UnicodeString := {}
  serviceName : UnicodeString := {}
  busid : UnicodeString := {}
  serial : List Byte := List.replicate SERIAL_BUFSZ 0
  locationHash : UInt32 := 0
  deriving DecidableEq, Repr

-- The string is empty, or its first character is the terminator.
def isEmpty (s : UnicodeString) : Bool := s.length == 0 || (s.buffer.getD []).head? == some 0

def USBD_STATUS_INSUFFICIENT_RESOURCES : NTSTATUS := .failure 0xC0001000

-- `allocated`: there is memory for the text that is hashed.
def hashLocation (rtl : Rtl) (allocated : Bool) (r : DeviceAttributes) : NTSTATUS × UInt32 :=
  let cb := ushort (r.nodeName.length + r.serviceName.length + r.busid.length + 6)
  if allocated = false then (USBD_STATUS_INSUFFICIENT_RESOURCES, 0)
  else
    let text := r.nodeName.chars ++ 44 :: (r.serviceName.chars ++ 44 :: r.busid.chars)
    if cb < 2 * (text.length + 1) then (.STATUS_BUFFER_OVERFLOW, 0)
    else (.STATUS_SUCCESS, rtl.hashUnicodeString text)

def parseDeviceStr (rtl : Rtl) (allocated : Bool) (deviceStr : UnicodeString) : NTSTATUS × DeviceAttributes :=
  let (nodeName, serviceName) := split deviceStr 44
  let (serviceName, busid) := split serviceName 44
  let (busid, tail) := split busid 44 -- optional serial
  let r : DeviceAttributes := { nodeName := nodeName, serviceName := serviceName, busid := busid }
  let (err, serial) := unicodeToUtf8 rtl r.serial tail
  let r := { r with serial := serial }
  if err ≠ .STATUS_SUCCESS then (err, r)
  else if validateSerialNumber serial ≠ .STATUS_SUCCESS then (validateSerialNumber serial, r)
  else if isEmpty r.nodeName || isEmpty r.serviceName || isEmpty r.busid then (.STATUS_INVALID_PARAMETER, r)
  else
    let (st, hash) := hashLocation rtl allocated r
    (st, { r with locationHash := hash })

-- The fields of `host,service,busid[,serial]` as bytes or as wide characters.
structure DeviceText (α : Type) where
  hostname : List α
  service : List α
  busid : List α
  serial : Option (List α)

def DeviceText.join {α : Type} (sep : α) (text : DeviceText α) : List α :=
  text.hostname ++ sep :: (text.service ++ sep :: (text.busid ++ text.serial.elim [] (sep :: ·)))

-- An absent or empty serial needs no conversion.
def ConvertsSerial (utf : Utf) : Option (List Byte) → Option (List WChar) → Prop
  | none, none => True
  | some s, some ws => if s = [] then ws = [] else utf.utf8ToWchar s = some ws
  | _, _ => False

-- The same text in both encodings.
structure Converted (utf : Utf) (text : DeviceText Byte) (wide : DeviceText WChar) : Prop where
  hostname : utf.utf8ToWchar text.hostname = some wide.hostname
  service : utf.utf8ToWchar text.service = some wide.service
  busid : utf.utf8ToWchar text.busid = some wide.busid
  serial : ConvertsSerial utf text.serial wide.serial

structure WellFormed (text : DeviceText Byte) : Prop where
  nonempty : text.hostname ≠ [] ∧ text.service ≠ [] ∧ text.busid ≠ []
  comma : COMMA ∉ text.hostname ∧ COMMA ∉ text.service ∧ COMMA ∉ text.busid
  serial : ∀ s ∈ text.serial, validateDeviceSerial s = true

-- The characters before the terminator.
def cString (bytes : List Byte) : List Byte := bytes.takeWhile (· ≠ 0)

-- The fields of the library's device are those of the driver's attributes.
structure SameFields (utf : Utf) (d : PersistentDevice) (r : DeviceAttributes) : Prop where
  hostname : utf.utf8ToWchar d.location.hostname = some r.nodeName.chars
  service : utf.utf8ToWchar d.location.service = some r.serviceName.chars
  busid : utf.utf8ToWchar d.location.busid = some r.busid.chars
  serial : cString r.serial = d.serial

end Usbip.Persistent

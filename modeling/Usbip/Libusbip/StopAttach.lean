import Usbip.Libusbip.Persistent
import Usbip.VhciIoctl.StopAttach

namespace Usbip.Libusbip.StopAttach

open Usbip.Library.Words
open Usbip.Libusbip.Persistent (DeviceLocation)
open Usbip.Persistent (cString)
open Usbip.VhciIoctl
open Usbip.VhciIoctl.Imported (BUS_ID_SIZE sizeofService sizeofHost)
open Usbip.VhciIoctl.StopAttach (Services)

-- An error of the system or of the C runtime, zero if there is none.
abbrev ErrorCode := Nat

def ERROR_SUCCESS : ErrorCode := 0
def ERROR_INVALID_PARAMETER : ErrorCode := 87
def ERANGE : ErrorCode := 34

-- An array of the structure and the string for it.
structure Field where
  len : Nat
  src : List Byte

def Field.text (f : Field) : List Byte := cString f.src

-- There is room for the terminator too.
def Field.Fits (f : Field) : Prop := f.text.length < f.len

instance (f : Field) : Decidable f.Fits := inferInstanceAs (Decidable (_ < _))

-- The text in an array that was zeroed.
def Field.padded (f : Field) : List Byte := f.text ++ List.replicate (f.len - f.text.length) 0

-- `strncpy_s` into an array that was zeroed. If the text does not fit, the first character becomes the terminator,
-- what follows it, `rest`, is not specified; the handler of invalid parameters lets the call return.
def strncpyS (rest : Nat → Byte) (f : Field) : List Byte × ErrorCode :=
  if f.Fits then (f.padded, 0) else (0 :: (List.range (f.len - 1)).map rest, ERANGE)

def zeroed (fields : List Field) : List Byte := fields.flatMap fun f => List.replicate f.len 0

-- The loop of `assign` over arrays that were zeroed.
def assignFields (rest : Nat → Byte) : List Field → List Byte × ErrorCode
  | [] => ([], ERROR_SUCCESS)
  | f :: fields =>
    let (bytes, err) := strncpyS rest f
    if err ≠ 0 then (bytes ++ zeroed fields, ERROR_INVALID_PARAMETER)
    else
      let (others, err) := assignFields rest fields
      (bytes ++ others, err)

def fields (src : DeviceLocation) : List Field :=
  [{ len := BUS_ID_SIZE, src := src.busid }, { len := sizeofService, src := src.service },
    { len := sizeofHost, src := src.hostname }]

def assign (rest : Nat → Byte) (src : DeviceLocation) : List Byte × ErrorCode := assignFields rest (fields src)

-- The structure that is sent: the arrays are between the port and the padding before the count.
def request (arrays : List Byte) : List Byte :=
  bytes32 (UInt32.ofNat sizeofStopAttachAttempts) ++ (bytes32 0 ++ (arrays ++ (List.replicate 3 0 ++ bytes32 0)))

-- What a call sends to the driver, what it returns, and the collection of the driver after it.
structure Call where
  sent : Option (List Byte)
  result : Int
  lastError : Option Win32Error := none
  state : Usbip.Persistent.Requests.State

-- The call of `DeviceIoControl` and what is made of its outcome.
def control (sys : Services) (pool : Nat → Byte) (st : Usbip.Persistent.Requests.State) (r : List Byte) : Call :=
  let res := deviceIoControl (fun q => (VhciIoctl.StopAttach.stopAttachAttempts sys st q).1) pool r r
  let state := (VhciIoctl.StopAttach.stopAttachAttempts sys st (systemRequest r r.length pool)).2
  match res.error with
  | some err => { sent := some r, result := -1, lastError := some err, state := state }
  | none =>
    if res.bytesReturned ≠ sizeofStopAttachAttempts then
      { sent := some r, result := -1, lastError := some .USBIP_ERROR_DRIVER_RESPONSE, state := state }
    else { sent := some r, result := signed (ulongAt res.output offsetofStopCount), state := state }

-- `assign` returns zero if it has filled all the arrays, so the negation is true for it.
def stopAttachAttempts (sys : Services) (rest pool : Nat → Byte) (st : Usbip.Persistent.Requests.State) :
    Option DeviceLocation → Call
  | none => control sys pool st (request (zeroed (fields {})))
  | some location =>
    let (arrays, err) := assign rest location
    if err = 0 then { sent := none, result := -1, lastError := some .ERROR_INVALID_PARAMETER, state := st }
    else control sys pool st (request arrays)

-- The strings of a location as the driver is to get them.
def arrays (location : DeviceLocation) : List Byte := (fields location).flatMap Field.padded

def Fits (location : DeviceLocation) : Prop := ∀ f ∈ fields location, f.Fits

def Complete (location : DeviceLocation) : Prop := ∀ f ∈ fields location, f.text ≠ []

instance (location : DeviceLocation) : Decidable (Fits location) :=
  inferInstanceAs (Decidable (∀ f ∈ fields location, f.Fits))

instance (location : DeviceLocation) : Decidable (Complete location) :=
  inferInstanceAs (Decidable (∀ f ∈ fields location, f.text ≠ []))

-- What the driver makes of the strings of a location.
def locationHash (sys : Services) (location : DeviceLocation) : NTSTATUS × UInt32 :=
  let (st, attr) := VhciIoctl.StopAttach.initDeviceAttributes sys
    (Field.padded ⟨sizeofHost, location.hostname⟩) (Field.padded ⟨sizeofService, location.service⟩)
    (Field.padded ⟨BUS_ID_SIZE, location.busid⟩)
  (st, attr.locationHash)

-- A call that stops the attempts for one location: the requests of its hash are taken out of the collection and
-- counted.
structure Stops (sys : Services) (st : Usbip.Persistent.Requests.State) (location : DeviceLocation) (call : Call) :
    Prop where
  sent : call.sent = some (request (arrays location))
  stopped : ∀ hash, locationHash sys location = (.STATUS_SUCCESS, hash) → hash ≠ 0 →
    (∀ r ∈ st.reattachReq, st.locationHash r ≠ 0) →
      call.result = (st.reattachReq.countP fun r => st.locationHash r == hash) ∧
        call.state = { st with reattachReq := st.reattachReq.filter fun r => st.locationHash r != hash }

-- A call that refuses a location.
structure Refuses (st : Usbip.Persistent.Requests.State) (call : Call) : Prop where
  sent : call.sent = none
  result : call.result = -1
  state : call.state = st

-- What the call is to do for a location.
def TargetedStop (sys : Services) (st : Usbip.Persistent.Requests.State) (location : DeviceLocation) (call : Call) :
    Prop :=
  (Complete location → Fits location → Stops sys st location call) ∧ (¬Fits location → Refuses st call)

end Usbip.Libusbip.StopAttach

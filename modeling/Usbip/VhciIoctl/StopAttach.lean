import Usbip.Persistent.Requests
import Usbip.VhciIoctl.Imported

namespace Usbip.VhciIoctl.StopAttach

open Usbip.Library.Words
open Usbip.Persistent
open Usbip.VhciIoctl.Imported (BUS_ID_SIZE sizeofService sizeofHost)

-- The services of the system: the conversion to UTF-16 in memory that is allocated for it, and what `hash_location`
-- needs.
structure Services where
  utf8ToUnicode : List Byte → NTSTATUS × List Libusbip.Persistent.WChar
  rtl : Rtl
  allocated : Bool := true

variable (sys : Services)

-- An array of characters in the structure that was received.
def arrayAt (buffer : List Byte) (offset size : Nat) : List Byte := (buffer.drop offset).take size

-- One round of `save_device_location`. An array without a terminator is an error of `RtlStringCbLengthA`.
def saveString (src : List Byte) : NTSTATUS × UnicodeString :=
  if src.head? = some 0 then (.STATUS_SUCCESS, {})
  else if 0 ∉ src then (.STATUS_INVALID_PARAMETER, {})
  else
    let (st, ws) := sys.utf8ToUnicode (cString src)
    (st, { length := ushort (2 * ws.length), maximumLength := ushort (2 * ws.length), buffer := some ws })

def saveDeviceLocation (host service busid : List Byte) : NTSTATUS × DeviceAttributes :=
  let (st, nodeName) := saveString sys host
  if st ≠ .STATUS_SUCCESS then (st, { nodeName := nodeName })
  else
    let (st, serviceName) := saveString sys service
    if st ≠ .STATUS_SUCCESS then (st, { nodeName := nodeName, serviceName := serviceName })
    else
      let (st, busid) := saveString sys busid
      (st, { nodeName := nodeName, serviceName := serviceName, busid := busid })

def initDeviceAttributes (host service busid : List Byte) : NTSTATUS × DeviceAttributes :=
  let (st, attr) := saveDeviceLocation sys host service busid
  if st ≠ .STATUS_SUCCESS then (st, attr)
  else
    let (st, hash) := hashLocation sys.rtl sys.allocated attr
    (st, { attr with locationHash := hash })

-- The loop over the collection: how many requests were taken out of it, and what it leaves.
def stopRequests (st : Requests.State) (hash : UInt32) : Nat × Requests.State :=
  match _h : Requests.matching st hash with
  | none => (0, st)
  | some r =>
    let (cnt, st') := stopRequests { st with reattachReq := st.reattachReq.erase r } hash
    (cnt + 1, st')
termination_by st.reattachReq.length
decreasing_by
  have hmem : r ∈ st.reattachReq := List.mem_of_find?_eq_some _h
  have hpos : 0 < st.reattachReq.length := List.length_pos_of_mem hmem
  show (st.reattachReq.erase r).length < st.reattachReq.length
  rw [List.length_erase_of_mem hmem]
  omega

-- The hash that the strings of the request stand for, zero for all requests of the collection.
def targetHash (r : Request) : NTSTATUS × UInt32 :=
  if locationStrings r = 0 then (.STATUS_SUCCESS, 0) -- stop all
  else if locationStrings r ≠ 3 then (.STATUS_INVALID_PARAMETER, 0)
  else
    let (st, attr) := initDeviceAttributes sys (arrayAt r.buffer offsetofHost sizeofHost)
      (arrayAt r.buffer offsetofService sizeofService) (arrayAt r.buffer offsetofBusid BUS_ID_SIZE)
    (st, attr.locationHash)

-- The handler and what it does to the collection.
def stopAttachAttempts (st : Requests.State) (r : Request) : Reply × Requests.State :=
  let err := checkInput r sizeofStopAttachAttempts
  if err ≠ .STATUS_SUCCESS then (r.reply err, st)
  else
    let (status, hash) := targetHash sys r
    if status.isSuccess then
      let (cnt, st') := stopRequests st hash
      ({ status := status
         information := sizeofStopAttachAttempts
         output := overwrite r.buffer offsetofStopCount (bytes32 (UInt32.ofNat cnt)) }, st')
    else (r.reply status, st)

end Usbip.VhciIoctl.StopAttach

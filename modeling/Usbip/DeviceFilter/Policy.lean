import Usbip.Basic
import Usbip.Library.Words

namespace Usbip.DeviceFilter

open Usbip.Library.Words

def filterModeDisabled : Byte := 0
def filterModeWhitelist : Byte := 1

def FILTER_MATCH_CLASS : Byte := 1
def FILTER_MATCH_SUBCLASS : Byte := 2
def FILTER_MATCH_PROTOCOL : Byte := 4

structure DeviceFilterEntry where
  bClass : Byte := 0
  bSubClass : Byte := 0
  bProtocol : Byte := 0
  matchFlags : Byte := 0
  deriving DecidableEq, Repr

def MAX_DEVICE_FILTER_ENTRIES : Nat := 64

structure Policy where
  mode : Byte := 0
  count : UInt32 := 0
  entries : Vector DeviceFilterEntry MAX_DEVICE_FILTER_ENTRIES := Vector.replicate _ {}
  deriving DecidableEq

def policyEntryCapacity : Nat := MAX_DEVICE_FILTER_ENTRIES
def policyEntriesOffset : Nat := 8
def sizeofDeviceFilterEntry : Nat := 4
def sizeofPolicy : Nat := policyEntriesOffset + policyEntryCapacity * sizeofDeviceFilterEntry

-- The policy whose storage holds the bytes `memory`.
def Policy.ofMemory (memory : Nat → Byte) : Policy where
  mode := memory 0
  count := le32 (memory 4) (memory 5) (memory 6) (memory 7)
  entries := Vector.ofFn fun i =>
    { bClass := memory (policyEntriesOffset + 4 * i)
      bSubClass := memory (policyEntriesOffset + 4 * i + 1)
      bProtocol := memory (policyEntriesOffset + 4 * i + 2)
      matchFlags := memory (policyEntriesOffset + 4 * i + 3) }

def makeFailClosedPolicy : Policy := { mode := filterModeWhitelist, count := 0 }

inductive PolicyValueStatus where
  | ok
  | badTypeOrSize
  deriving DecidableEq

def REG_BINARY : Nat := 3

def sanitizeLoadedPolicy (raw : Policy) (actualBytes valueType : Nat) : Policy × PolicyValueStatus :=
  if valueType ≠ REG_BINARY ∨ actualBytes < policyEntriesOffset then
    (makeFailClosedPolicy, .badTypeOrSize)
  else
    let maxByLen := (actualBytes - policyEntriesOffset) / sizeofDeviceFilterEntry
    let count := min (min raw.count.toNat maxByLen) policyEntryCapacity
    ({ mode := if raw.mode = filterModeDisabled then filterModeDisabled else filterModeWhitelist
       count := UInt32.ofNat count
       entries := Vector.ofFn fun i =>
        if i.val < count then raw.entries[i] else makeFailClosedPolicy.entries[i] }, .ok)

-- What opening the Parameters key and `WdfRegistryQueryValue` come back with.
inductive RegistryQuery where
  | notOpened
  | notRead
  | read (type : Nat) (bytes : List Byte)
  deriving DecidableEq

-- `tmp` is on the stack and not initialised: past the bytes read it holds `garbage`. A
-- value longer than `tmp` is an error of the query.
def load (garbage : Nat → Byte) : RegistryQuery → Policy
  | .notOpened => makeFailClosedPolicy
  | .notRead => makeFailClosedPolicy
  | .read type bytes =>
    if sizeofPolicy < bytes.length then makeFailClosedPolicy
    else
      (sanitizeLoadedPolicy (Policy.ofMemory fun i => bytes.getD i (garbage i)) bytes.length type).1

-- The bytes of a policy in memory; three bytes of padding follow the mode.
def DeviceFilterEntry.bytes (e : DeviceFilterEntry) : List Byte := [e.bClass, e.bSubClass, e.bProtocol, e.matchFlags]

def Policy.bytes (p : Policy) : List Byte :=
  p.mode :: 0 :: 0 :: 0 :: bytes32 p.count ++ p.entries.toList.flatMap DeviceFilterEntry.bytes

def sanitizePolicyForStore (p : Policy) : Policy :=
  { p with
    count := if policyEntryCapacity < p.count.toNat then UInt32.ofNat policyEntryCapacity else p.count
    mode := if p.mode = filterModeDisabled then p.mode else filterModeWhitelist }

def serializedPolicySize (count : Nat) : Nat := policyEntriesOffset + count * sizeofDeviceFilterEntry

-- What `store` assigns to the value of the registry, as REG_BINARY.
def storedBytes (p : Policy) : List Byte :=
  let tmp := sanitizePolicyForStore p
  tmp.bytes.take (serializedPolicySize tmp.count.toNat)

def DeviceFilterEntry.accepts (e : DeviceFilterEntry) (cls sub proto : Byte) : Bool :=
  !(e.matchFlags &&& FILTER_MATCH_CLASS != 0 && e.bClass != cls) &&
  !(e.matchFlags &&& FILTER_MATCH_SUBCLASS != 0 && e.bSubClass != sub) &&
  !(e.matchFlags &&& FILTER_MATCH_PROTOCOL != 0 && e.bProtocol != proto)

def isAllowed (p : Policy) (cls sub proto : Byte) : Bool :=
  p.mode == filterModeDisabled ||
    (p.entries.toList.take p.count.toNat).any (fun e => e.accepts cls sub proto)

end Usbip.DeviceFilter

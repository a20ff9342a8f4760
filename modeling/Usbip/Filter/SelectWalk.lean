import Usbip.Filter.Request

namespace Usbip.Filter.Select

open Usbip.Library.Heap
open Usbip.Send

-- An access to a record, to an entry of its array of pipes, or through a null pointer.
inductive Visit where
  | record (offset : Nat)
  | pipe (offset : Nat)
  | null
  deriving DecidableEq, Repr

-- `cfgEnd` is null for a SELECT_INTERFACE.
def nextInterface (memory : Memory) (r : Nat) (cfgEnd : Option Nat) : Option Nat :=
  match cfgEnd with
  | none => some (next memory r)
  | some cfgEnd => if next memory r < cfgEnd then some (next memory r) else none

section Printing

-- Whether the text fits in the buffer, after what has been visited so far.
variable (print : List Visit → Bool)

-- The pipes from `j` on, and if all of them are printed.
def pipesStr (r : Nat) : (n j : Nat) → List Visit → Bool × List Visit
  | 0, _, trace => (true, trace)
  | n + 1, j, trace =>
    let trace := trace ++ [.pipe (pipeOffset r j)]
    if print trace then pipesStr r n (j + 1) trace else (false, trace)

def interfacesStr (memory : Memory) (cfgEnd : Option Nat) :
    (cnt : Nat) → (r : Option Nat) → List Visit → List Visit
  | 0, _, trace => trace
  | _ + 1, none, trace => trace ++ [.null]
  | cnt + 1, some r, trace =>
    let trace := trace ++ [.record r]
    if print trace then
      let (st, trace) := pipesStr print r (numberOfPipes memory r) 0 trace
      if st then interfacesStr memory cfgEnd cnt (nextInterface memory r cfgEnd) trace else trace
    else trace

-- `select_configuration_str` prints the descriptor first.
def selectConfigurationStr (cfg : RawUrb) : List Visit :=
  match cfg.configurationDescriptor with
  | none => []
  | some cd =>
    if print [] then
      interfacesStr print cfg.memory (some cfg.length) (bNumInterfaces cd).toNat (some offsetInterface) []
    else []

end Printing

-- The loop of `update_pipe_properties`: the endpoints and what is visited.
def updatePipeProperties (endpoints : Endpoints) (memory : Memory) (r : Nat) : Endpoints × List Visit :=
  (List.range (numberOfPipes memory r)).foldl
    (fun (endpoints, trace) j =>
      let pipe := pipeAt memory r j
      match findEndpoint endpoints (.address pipe.endpointAddress) with
      | some endp => (endpoints.setPipeHandle endp pipe.pipeHandle, trace ++ [.pipe (pipeOffset r j)])
      | none => (endpoints, trace ++ [.pipe (pipeOffset r j)]))
    (endpoints, [.record r])

-- The loop of the driver's `select_configuration`.
def selectInterfaces (memory : Memory) : (cnt : Nat) → (intf : Nat) → Endpoints → Endpoints × List Visit
  | 0, _, endpoints => (endpoints, [])
  | cnt + 1, intf, endpoints =>
    let (endpoints, visits) := updatePipeProperties endpoints memory intf
    let (endpoints, rest) := selectInterfaces memory cnt (next memory intf) endpoints
    (endpoints, visits ++ rest)

-- `select_configuration` of the driver: the setup packet, the endpoints and what is visited.
def selectConfiguration (print : List Visit → Bool) (endpoints : Endpoints) (r : RawUrb) :
    SetupPacket × Endpoints × List Visit :=
  let printed := selectConfigurationStr print r
  match r.configurationDescriptor with
  | none => (makeSetConfiguration 0, endpoints, printed)
  | some cd =>
    let (endpoints, visits) := selectInterfaces r.memory (bNumInterfaces cd).toNat offsetInterface endpoints
    (makeSetConfiguration (bConfigurationValue cd), endpoints, printed ++ visits)

end Usbip.Filter.Select

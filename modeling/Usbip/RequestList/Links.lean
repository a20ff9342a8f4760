import Usbip.Library.Ring
import Usbip.Transfers

namespace Usbip.Device.Links

open Function
open Usbip.Library
open Usbip.Library.Runs

-- A `LIST_ENTRY`: that of a request, or the head `device_ctx::requests`.
abbrev Node := Option Handle
abbrev Memory := Ring.Memory Node

-- The functions of the list on its links. They are `none` if they meet the context of a request that does not
-- exist, or if `fuel` rounds are not enough for their loop.
def appendRequest (memory : Memory) (r : Handle) : Option Memory := Ring.insertTailList memory none (some r)

def markRequestCancelable (request : Handle → Request) (memory : Memory) (seqnum : Seqnum) (fuel : Nat) :
    Option (NTSTATUS × Memory) := do
  let entry ← Ring.flink memory none
  let found ← Ring.findFrom memory (fun node => node.any fun r => (request r).seqnum == seqnum) none fuel entry
  match found.join with
  | none => some (.STATUS_SUCCESS, memory)
  | some r =>
    let err := (markCancelable (request r)).1
    if err = .STATUS_SUCCESS then some (err, memory)
    else do
      let memory ← Ring.removeEntryList memory (some r)
      some (err, memory)

-- The loop of `remove_request`. It goes on from an entry that it has just removed.
def removeFrom (request : Handle → Request) (crit : RequestSearch) (unmarkCancelable : Bool) :
    Nat → Memory → Node → Option (Memory × Option Handle)
  | 0, _, _ => none
  | _ + 1, memory, none => some (memory, none)
  | fuel + 1, memory, some r =>
    if crit.matches r (request r) = false then
      (Ring.flink memory (some r)).bind (removeFrom request crit unmarkCancelable fuel memory)
    else
      (Ring.removeEntryList memory (some r)).bind fun memory =>
        if unmarkCancelable ∧ (request r).cancelable ∧ (request r).cancellation = .fired then
          if crit.multimatch then
            (Ring.flink memory (some r)).bind (removeFrom request crit unmarkCancelable fuel memory)
          else some (memory, none)
        else some (memory, some r)

def removeRequest (request : Handle → Request) (memory : Memory) (crit : RequestSearch) (unmarkCancelable : Bool)
    (fuel : Nat) : Option (Memory × Option Handle) :=
  (Ring.flink memory none).bind (removeFrom request crit unmarkCancelable fuel memory)

-- What a step does to the links. The context of a request exists from its delivery to its completion.
def step (st : State) (memory : Memory) (fuel : Nat) : Action → Option Memory
  | .submit r _ _ => appendRequest (update memory (some r) (some { flink := none, blink := none })) r
  | .sendComplete r s success =>
    if success then (markRequestCancelable st.dev.request memory s fuel).map Prod.snd
    else (removeRequest st.dev.request memory (.request r) false fuel).map Prod.fst
  | .receive s => (removeRequest st.dev.request memory (.seqnum s) true fuel).map Prod.fst
  | .cancelRequest r => (removeRequest st.dev.request memory (.request r) false fuel).map Prod.fst
  | .purgeNext e => (removeRequest st.dev.request memory (.endpoint e) true fuel).map Prod.fst
  | .complete _ r => some (update memory (some r) none)
  | .draw _ | .drop _ | .wskSend .. | .cancel _ | .endpointPurge _ | .unlink .. | .sendUnlink .. | .close => some memory

-- The device with the links of its list. The loops get one round more than the list has entries.
def machine : Machine (State × Memory) Action where
  init s := Device.machine.init s.1 ∧ s.2 = update (fun _ => none) none (some { flink := none, blink := none })
  step s a := do
    let st ← Device.step s.1 a
    let memory ← step s.1 s.2 (s.1.dev.entries.length + 1) a
    some (st, memory)

end Usbip.Device.Links

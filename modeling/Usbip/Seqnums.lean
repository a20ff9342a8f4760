import Usbip.Transfers

namespace Usbip.Device.Seqnums

open Usbip.Library.Pool
open Usbip.Library.Runs

-- A number that was handed out and the direction that its caller asked for.
structure Result where
  dirIn : Bool
  seqnum : Seqnum
  deriving DecidableEq, Repr

-- A caller in the loop of `next_seqnum`, or the holder of the `i`-th number that was handed out.
inductive Call where
  | looping (dirIn : Bool)
  | returned (i : Nat)
  deriving DecidableEq, Repr

-- `results` in the order of the increments; `result` is the one that a request was appended with.
structure State where
  counter : UInt32 := 0
  calls : List Call := []
  results : List Result := []
  dev : RequestList := {}
  result : Handle → Nat := fun _ => 0

inductive Action where
  | call (dirIn : Bool)
  | increment (dirIn : Bool)
  | append (i : Nat) (r : Handle) (e : Endpoint)
  | drop (i : Nat)
  | mark (s : Seqnum)
  | remove (crit : RequestSearch) (unmarkCancelable : Bool)
  | cancellation (r : Handle) (c : Cancellation)
  deriving DecidableEq, Repr

-- One round of a caller, and whether it leaves the loop with what the round gave.
def incremented (st : State) (dirIn : Bool) : State :=
  match incrementSeqnum st.counter dirIn with
  | (counter, none) => { st with counter := counter }
  | (counter, some seqnum) =>
    { st with
      counter := counter
      calls := advance st.calls (.looping dirIn) [.returned st.results.length]
      results := st.results ++ [{ dirIn := dirIn, seqnum := seqnum }] }

def appended (st : State) (i : Nat) (r : Handle) (e : Endpoint) (res : Result) : State :=
  { st with
    calls := advance st.calls (.returned i) []
    dev := appendRequest st.dev r res.seqnum e
    result := fun h => if h = r then i else st.result h }

-- A request that WDF hands to the driver is not in the list. A number that goes into a CMD_UNLINK
-- is dropped. WDF changes nothing but what it knows of the cancellation.
def step (st : State) : Action → Option State
  | .call dirIn => some { st with calls := .looping dirIn :: st.calls }
  | .increment dirIn => if .looping dirIn ∈ st.calls then some (incremented st dirIn) else none
  | .append i r e =>
    if .returned i ∈ st.calls ∧ r ∉ st.dev.entries then st.results[i]?.map (appended st i r e) else none
  | .drop i => if .returned i ∈ st.calls then some { st with calls := advance st.calls (.returned i) [] } else none
  | .mark s => some { st with dev := (markRequestCancelable st.dev s).2 }
  | .remove crit unmarks => some { st with dev := (removeRequest st.dev crit unmarks).1 }
  | .cancellation r c => some { st with dev := st.dev.set r { st.dev.request r with cancellation := c } }

-- The counter may start anywhere.
def machine : Machine State Action where
  init st := ∃ counter, st = { counter := counter }
  step := step

end Usbip.Device.Seqnums

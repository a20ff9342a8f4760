import Usbip.Filter.Request
import Usbip.Library.Ring
import Usbip.Library.Runs

namespace Usbip.EndpointList

open Function
open Usbip.Library
open Usbip.Library.Runs
open Usbip.Filter (Endpoints EndpointSearch PipeHandle matchesSearch)
open Usbip.Send (EndpointDescriptor)

-- `UDECXUSBENDPOINT`; its context is at the same place.
abbrev Endpoint := Nat

def EP0 : EndpointDescriptor := {}

-- The endpoints of a device. `memory` has the `entry` of every `endpoint_ctx` that exists, `ep0` is that of the
-- `device_ctx`. `listed` are the endpoints that were added after `ep0` and still exist, the last one first.
structure State where
  memory : Ring.Memory Endpoint := fun _ => none
  ep0 : Option Endpoint := none
  descriptor : Endpoint → EndpointDescriptor := fun _ => {}
  pipeHandle : Endpoint → PipeHandle := fun _ => 0
  listed : List Endpoint := []

-- The endpoints as `find_endpoint` is meant to see them.
def State.endpoints (st : State) : Endpoints :=
  { list := st.listed, descriptor := st.descriptor, pipeHandle := st.pipeHandle }

-- The next three are `none` if they meet a null handle or the context of an endpoint that does not exist.
def insertEndpointList (st : State) (endp : Endpoint) : Option State := do
  let head ← st.ep0
  let memory ← Ring.insertHeadList st.memory head endp -- outdated endpoints will be at the end
  some { st with memory := memory }

def removeEndpointList (st : State) (endp : Endpoint) : Option State := do
  let memory ← Ring.removeEntryList st.memory endp
  let memory ← Ring.initializeListHead memory endp
  some { st with memory := memory }

-- The loop is left after `fuel` rounds.
def findEndpoint (st : State) (crit : EndpointSearch) (fuel : Nat) : Option (Option Endpoint) := do
  let head ← st.ep0
  let entry ← Ring.flink st.memory head
  Ring.findFrom st.memory (matchesSearch st.endpoints crit) head fuel entry

-- `UdecxUsbEndpointCreate` has made a context of zeros. The default control pipe comes without a descriptor.
def endpointAdd (st : State) (endp : Endpoint) (epd : Option EndpointDescriptor) : Option State := do
  let memory ← Ring.initializeListHead (update st.memory endp (some { flink := 0, blink := 0 })) endp
  let st := { st with
    memory := memory
    descriptor := update st.descriptor endp (epd.getD EP0)
    pipeHandle := update st.pipeHandle endp 0 }
  if epd.isSome then
    let st ← insertEndpointList st endp
    some { st with listed := endp :: st.listed }
  else some { st with ep0 := some endp, listed := [] }

-- The context is deleted after its cleanup.
def endpointCleanup (st : State) (endp : Endpoint) : Option State := do
  let st ← removeEndpointList st endp
  some { st with memory := update st.memory endp none, listed := st.listed.erase endp }

inductive Action where
  | endpointAdd (endp : Endpoint) (epd : Option EndpointDescriptor)
  | endpointCleanup (endp : Endpoint)
  | setPipeHandle (endp : Endpoint) (pipeHandle : PipeHandle)

-- The default control pipe is always added first: no endpoint is added to a device whose `ep0` does not exist.
-- Endpoints are cleaned up in any order, and a handle may be used again once its endpoint is deleted.
def enabled (st : State) : Action → Bool
  | .endpointAdd endp epd => (st.memory endp).isNone && (epd.isNone || (st.ep0.bind st.memory).isSome)
  | .endpointCleanup endp => (st.memory endp).isSome
  | .setPipeHandle endp _ => (st.memory endp).isSome

def perform (st : State) : Action → Option State
  | .endpointAdd endp epd => endpointAdd st endp epd
  | .endpointCleanup endp => endpointCleanup st endp
  | .setPipeHandle endp pipeHandle => some { st with pipeHandle := update st.pipeHandle endp pipeHandle }

def machine : Machine State Action where
  init st := st = {}
  step st a := if enabled st a then perform st a else none

end Usbip.EndpointList

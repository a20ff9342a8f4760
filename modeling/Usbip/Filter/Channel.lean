import Usbip.Filter.Request
import Usbip.Library.Runs

namespace Usbip.Filter

open Select
open Usbip.Library.Runs
open Usbip.Send
open Usbip.Wsk

namespace Channel

-- A stall that was cleared for a handle, and the endpoint that had the handle by what the two drivers were told.
structure ClearedStall where
  handle : PipeHandle
  address : Byte
  owner : Option Byte
  deriving DecidableEq, Repr

-- A request of the filter with the URB that was copied for it.
abbrev Posted := ControlUrb × RawUrb

-- The requests that the UDE driver has not got yet are in `sent`; it may get them in any order, as the drivers between
-- are not known. `taken` are those that it has begun with. `allocated` are the copies in the pool of the filter,
-- `fault` tells that memory was read or freed that was not one of them. `owner` and `cleared` are kept for the
-- statements: the last endpoint that a handle was for, and the stalls that were cleared.
structure State where
  shared : Filter.State
  allocated : List Pointer := []
  sent : List Posted := []
  taken : List Posted := []
  fault : Bool := false
  owner : PipeHandle → Option Byte := fun _ => none
  cleared : List ClearedStall := []

-- The endpoint of the default pipe; it is not in the list.
def ep0 : Nat := 0

def isPipeFunction (function : Nat) : Bool :=
  function == URB_FUNCTION_SYNC_RESET_PIPE_AND_CLEAR_STALL || function == URB_FUNCTION_SYNC_RESET_PIPE ||
    function == URB_FUNCTION_SYNC_CLEAR_STALL

def SelectConfiguration.pipes (r : SelectConfiguration) : List PipeInfo :=
  match r.configurationDescriptor with
  | none => []
  | some cd => (List.range cd.bNumInterfaces.toNat).flatMap fun i => (r.interface i).pipes

-- The pipes that a URB tells of.
def pipesOf (function : Nat) (urb : UrbUnion) : List PipeInfo :=
  if function = URB_FUNCTION_SELECT_INTERFACE then urb.selectInterface.pipes
  else if function = URB_FUNCTION_SELECT_CONFIGURATION then SelectConfiguration.pipes urb.selectConfiguration
  else []

def tell (owner : PipeHandle → Option Byte) (pipe : PipeInfo) : PipeHandle → Option Byte :=
  Function.update owner pipe.pipeHandle (some pipe.endpointAddress)

-- `send_request`: the copy goes again if there is no memory for the IRP or its URB.
def post (c : State) (urb : RawUrb) (buffer : Option Pointer) (sendable : Bool) : State :=
  match buffer, postProcessUrb c.shared buffer urb with
  | some buffer, some (r, shared) =>
    if sendable then
      { c with shared := shared, allocated := buffer :: c.allocated, sent := c.sent ++ [(r, urb)] }
    else { c with shared := shared }
  | _, _ => c

-- What is read of the memory that a request has in its buffer.
def reads (c : State) (r : ControlUrb) : Bool := isRequest r && !c.allocated.contains r.bufferAddress

def clearedBy (c : State) (r : ControlUrb) : List ClearedStall :=
  let (err, r', _) := acceptUrb c.shared ep0 r
  let handle := (c.shared.urbAt r.bufferAddress).pipeRequest
  if isPipeFunction (getFunction r) ∧ err = .STATUS_SUCCESS then
    [{ handle := handle, address := (SetupPacket.ofBytes r'.setupPacket).wIndexLow, owner := c.owner handle }]
  else []

-- The pipes that the UDE driver is told of by a request.
def toldBy (st : Filter.State) (r : ControlUrb) : List PipeInfo := pipesOf (getFunction r) (st.urbAt r.bufferAddress)

-- `control_transfer` on the default pipe
def take (c : State) (posted : Posted) (rest : List Posted) : State :=
  let (_, r, shared) := acceptUrb c.shared ep0 posted.1
  { c with
    shared := shared
    sent := rest
    taken := c.taken ++ [(r, posted.2)]
    fault := c.fault || reads c posted.1
    owner := (toldBy c.shared posted.1).foldl tell c.owner
    cleared := clearedBy c posted.1 ++ c.cleared }

-- `request_complete`
def free (c : State) (posted : Posted) : State :=
  let buffer := posted.1.bufferAddress
  { c with allocated := c.allocated.erase buffer, fault := c.fault || !c.allocated.contains buffer }

-- A URB that comes to an endpoint tells of its handle if it has one.
def tellEndpoint (c : State) (endp : Nat) (handle : PipeHandle) : PipeHandle → Option Byte :=
  if handle = 0 then c.owner else tell c.owner ⟨(c.shared.endpoints.descriptor endp).bEndpointAddress, handle⟩

-- `control_transfer` of a URB of somebody else
def transfer (c : State) (endp : Nat) (r : ControlUrb) : State :=
  { c with
    shared := (acceptUrb c.shared endp r).2.2
    fault := c.fault || reads c r
    owner := tellEndpoint c endp r.pipeHandle }

-- `bulk_or_interrupt_transfer` and `isoch_transfer`, which take a null handle too.
def dataTransfer (c : State) (endp : Nat) (handle : PipeHandle) : State :=
  { c with
    shared :=
      if c.shared.endpoints.pipeHandle endp ≠ handle then
        { c.shared with endpoints := c.shared.endpoints.setPipeHandle endp handle }
      else c.shared
    owner := tellEndpoint c endp handle }

def addEndpoint (endpoints : Endpoints) (endp : Nat) (descriptor : EndpointDescriptor) : Endpoints where
  list := endp :: endpoints.list
  descriptor := Function.update endpoints.descriptor endp descriptor
  pipeHandle := Function.update endpoints.pipeHandle endp 0

-- `post`: a URB has been completed with success. A request is completed before the UDE driver gets it, or when it is
-- done with it.
inductive Action where
  | post (urb : RawUrb) (buffer : Option Pointer) (sendable : Bool)
  | take (i : Nat)
  | cancel (i : Nat)
  | complete (i : Nat)
  | transfer (endp : Nat) (r : ControlUrb)
  | dataTransfer (endp : Nat) (handle : PipeHandle)
  | add (endp : Nat) (descriptor : EndpointDescriptor)
  | remove (endp : Nat)

def step (c : State) : Action → Option State
  | .post urb buffer sendable => some (post c urb buffer sendable)
  | .take i => c.sent[i]?.map fun posted => take c posted (c.sent.eraseIdx i)
  | .cancel i => c.sent[i]?.map fun posted => { free c posted with sent := c.sent.eraseIdx i }
  | .complete i => c.taken[i]?.map fun posted => { free c posted with taken := c.taken.eraseIdx i }
  | .transfer endp r => some (transfer c endp r)
  | .dataTransfer endp handle => some (dataTransfer c endp handle)
  | .add endp descriptor =>
    if endp = ep0 ∨ endp ∈ c.shared.endpoints.list then none
    else some { c with shared := { c.shared with endpoints := addEndpoint c.shared.endpoints endp descriptor } }
  | .remove endp =>
    some { c with
      shared := { c.shared with
        endpoints := { c.shared.endpoints with list := c.shared.endpoints.list.erase endp } } }

def machine : Machine State Action where
  init c := c.allocated = [] ∧ c.sent = [] ∧ c.taken = [] ∧ c.fault = false ∧ c.cleared = [] ∧
    c.shared.endpoints.list = []
  step := step

-- No endpoint but that of the pipe has its handle.
def Unused (endpoints : Endpoints) (pipe : PipeInfo) : Prop :=
  ∀ endp ∈ endpoints.list, endpoints.pipeHandle endp = pipe.pipeHandle →
    (endpoints.descriptor endp).bEndpointAddress = pipe.endpointAddress

instance (endpoints : Endpoints) (pipe : PipeInfo) : Decidable (Unused endpoints pipe) :=
  inferInstanceAs (Decidable (∀ endp ∈ endpoints.list, endpoints.pipeHandle endp = pipe.pipeHandle →
    (endpoints.descriptor endp).bEndpointAddress = pipe.endpointAddress))

-- The handles of a URB: none of them is for two endpoints.
def Told (endpoints : Endpoints) (pipes : List PipeInfo) : Prop :=
  (∀ pipe ∈ pipes, pipe.pipeHandle ≠ 0 ∧ Unused endpoints pipe) ∧
    pipes.Pairwise fun p q => p.pipeHandle = q.pipeHandle → p.endpointAddress = q.endpointAddress

instance (endpoints : Endpoints) (pipes : List PipeInfo) : Decidable (Told endpoints pipes) :=
  inferInstanceAs (Decidable (_ ∧ _))

-- The pool gives memory that is not in use, and the mark of the filter is on its own requests only.
def FreshMemory (c : State) : Action → Prop
  | .post urb buffer _ => ∀ p ∈ buffer, p ∉ c.allocated ∧ Fresh p urb
  | .transfer _ r => isRequest r = false
  | _ => True

instance (c : State) : (a : Action) → Decidable (FreshMemory c a)
  | .post urb buffer _ => inferInstanceAs (Decidable (∀ p ∈ buffer, p ∉ c.allocated ∧ Fresh p urb))
  | .transfer _ r => inferInstanceAs (Decidable (isRequest r = false))
  | .take _ | .cancel _ | .complete _ | .dataTransfer _ _ | .add _ _ | .remove _ => .isTrue trivial

def FreshHandle (c : State) (endp : Nat) (handle : PipeHandle) : Prop :=
  handle ≠ 0 → Unused c.shared.endpoints ⟨(c.shared.endpoints.descriptor endp).bEndpointAddress, handle⟩

instance (c : State) (endp : Nat) (handle : PipeHandle) : Decidable (FreshHandle c endp handle) :=
  inferInstanceAs (Decidable (_ → _))

-- A handle is not given to an endpoint while another one has it, and that of a pipe request lies in its length.
def FreshHandles (c : State) : Action → Prop
  | .post urb _ _ => isPipeFunction urb.function.toNat = true → offsetPointer + 8 ≤ urb.length
  | .take i => ∀ posted ∈ c.sent[i]?, Told c.shared.endpoints (toldBy c.shared posted.1)
  | .transfer endp r => FreshHandle c endp r.pipeHandle
  | .dataTransfer endp handle => FreshHandle c endp handle
  | _ => True

instance (c : State) : (a : Action) → Decidable (FreshHandles c a)
  | .post urb _ _ =>
    inferInstanceAs (Decidable (isPipeFunction urb.function.toNat = true → offsetPointer + 8 ≤ urb.length))
  | .take i => inferInstanceAs (Decidable (∀ posted ∈ c.sent[i]?, Told c.shared.endpoints (toldBy c.shared posted.1)))
  | .transfer endp r => inferInstanceAs (Decidable (FreshHandle c endp r.pipeHandle))
  | .dataTransfer endp handle => inferInstanceAs (Decidable (FreshHandle c endp handle))
  | .cancel _ | .complete _ | .add _ _ | .remove _ => .isTrue trivial

def Allowed (c : State) (a : Action) : Prop := FreshMemory c a ∧ FreshHandles c a

instance (c : State) (a : Action) : Decidable (Allowed c a) := inferInstanceAs (Decidable (_ ∧ _))

end Channel

end Usbip.Filter

import Usbip.Send.Decode

namespace Usbip.Send

open Usbip.Library.Runs
open Usbip.Wsk

-- A message between the handler that has prepared it and WskSend.
structure Sending where
  device : Nat
  dev : DeviceCtx
  request : Request
  buf : WskBuf

-- A `wsk_context` of the driver, in the lookaside list unless it is used for a message.
structure Slot where
  st : Wsk.State
  sending : Option Sending := none

-- All devices take their contexts from one list. `wire` are the bytes that the server of a device
-- gets, `sent` the commands that they stand for.
structure System where
  slot : Nat → Slot
  device : Nat → DeviceCtx
  wire : Nat → List Byte := fun _ => []
  sent : Nat → List Command := fun _ => []

def System.setSlot (st : System) (i : Nat) (slot : Slot) : System :=
  { st with slot := fun j => if j = i then slot else st.slot j }

def System.setDevice (st : System) (d : Nat) (dev : DeviceCtx) : System :=
  { st with device := fun e => if e = d then dev else st.device e }

def System.append (st : System) (d : Nat) (bytes : List Byte) (command : Command) : System :=
  { st with
    wire := fun e => if e = d then st.wire e ++ bytes else st.wire e
    sent := fun e => if e = d then st.sent e ++ [command] else st.sent e }

-- A receive thread works with a context, a handler fills one for a device, WskSend takes the bytes.
inductive Action where
  | receive (i : Nat) (a : Wsk.Action)
  | send (d i : Nat) (env : SendEnv) (request : Request)
  | wskSend (i : Nat)

-- A context that is not sent goes back to the list.
def step (sys : Services) (st : System) : Action → Option System
  | .receive i a =>
    if (st.slot i).sending.isSome then none
    else (Wsk.step sys (st.slot i).st a).map fun t => st.setSlot i { st := t }
  | .send d i env request =>
    if (st.slot i).sending.isSome then none
    else
      match handle env (st.device d) request (st.slot i).st with
      | .ok out t =>
        let sending := out.buf.map fun buf => { device := d, dev := st.device d, request := request, buf := buf }
        some ((st.setSlot i { st := { t with running := false }, sending := sending }).setDevice d out.dev)
      | .error _ _ => none
  | .wskSend i => do
    let slot := st.slot i
    let sending ← slot.sending
    let bytes ← transmitted slot.st sending.request.memory sending.buf
    let command ← sending.request.command sending.dev
    return (st.setSlot i { slot with sending := none }).append sending.device bytes command

def machine (sys : Services) : Machine System Action where
  init st := (∀ i, (Wsk.machine sys).init (st.slot i).st ∧ (st.slot i).sending = none) ∧
    st.wire = (fun _ => []) ∧ st.sent = fun _ => []
  step := step sys

-- The packets of an isochronous transfer.
def Request.packets : Request → Nat
  | .submit _ urb => if urb.function = .isochTransfer then urb.numberOfPackets.toNat else 0
  | .ep0Out _ | .unlink _ => 0

def Request.isIsoch : Request → Bool
  | .submit _ urb => urb.function == .isochTransfer
  | .ep0Out _ | .unlink _ => false

def Request.isControl : Request → Bool
  | .submit _ urb => urb.function == .controlTransfer
  | .ep0Out _ => true
  | .unlink _ => false

def Request.isUnlink : Request → Bool
  | .submit _ _ | .ep0Out _ => false
  | .unlink _ => true

-- The bytes that a request sends with a context of the list.
def sentBytes (env : SendEnv) (dev : DeviceCtx) (request : Request) (st : Wsk.State) : Option (List Byte) :=
  match handle env dev request st with
  | .ok out t => out.buf.bind (transmitted t request.memory)
  | .error _ _ => none

-- Where the MDL of the descriptors leads to, as an earlier use has left it.
def oldLink (s : Wsk.State) : Option Nat := (s.ctx.mdlIsoc.bind s.heap.mdl).bind MDL.next

-- The context has the MDL of the descriptors for `n` packets already.
def retains (s : Wsk.State) (n : Nat) : Bool :=
  match s.ctx.mdlIsoc.bind s.heap.mdl with
  | some m => m.byteCount == sizeofIsoPacketDescriptor * n && decide (n ≤ s.ctx.isocAllocCnt)
  | none => false

def keptLink (s : Wsk.State) (n : Nat) : Option Nat := if n ≠ 0 ∧ retains s n = true then oldLink s else none

-- No isochronous transfer finds the MDL that it uses again linked.
def Unlinked (st : System) : Action → Prop
  | .send _ i _ request => keptLink (st.slot i).st request.packets = none
  | .receive _ _ | .wskSend _ => True

instance (st : System) : (a : Action) → Decidable (Unlinked st a)
  | .send _ i _ request => inferInstanceAs (Decidable (keptLink (st.slot i).st request.packets = none))
  | .receive _ _ | .wskSend _ => .isTrue trivial

end Usbip.Send

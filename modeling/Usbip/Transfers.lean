import Usbip.Library.Pool
import Usbip.Library.Runs
import Usbip.RequestList

namespace Usbip.Device

open Usbip.Library.Pool
open Usbip.Library.Runs

-- The code that runs `send_cmd_unlink_and_complete` or `complete` for a request it holds.
inductive Thread where
  | sendComplete (s : Seqnum)
  | cancelRequest
  | endpointPurge (e : Endpoint)
  | recvLoop
  deriving DecidableEq, Repr

-- Where a thread, a callback or a wsk_context stands between two atomic sections. A context of
-- CMD_SUBMIT keeps the handle and the sequence number it was made with; its request is not yet
-- appended, it is not yet sent, owned by WSK, or dropped because the socket was closing.
inductive Task where
  | drawn (s : Seqnum)
  | sendSubmit (r : Handle) (s : Seqnum)
  | sent (r : Handle) (s : Seqnum)
  | refused (r : Handle) (s : Seqnum)
  | cancelRequest (r : Handle)
  | endpointPurge (e : Endpoint)
  | unlink (thread : Thread) (r : Handle)
  | sendUnlink (thread : Thread) (r : Handle) (s : Seqnum)
  | complete (thread : Thread) (r : Handle)
  deriving DecidableEq, Repr

inductive Command where
  | submit (s : Seqnum)
  | unlink (s : Seqnum)
  deriving DecidableEq, Repr

-- `closing` is the mark that `wsk::close` leaves in the socket.
structure State where
  seqnum : UInt32 := 0
  dev : RequestList := {}
  tasks : List Task := []
  wire : List Command := []
  closing : Bool := false

-- One round of the loop of `next_seqnum`. The number zero is skipped.
def incrementSeqnum (counter : UInt32) (dirIn : Bool) : UInt32 × Option Seqnum :=
  let counter := counter + 1
  let num := counter <<< 1
  (counter, if num = 0 then none else some (num ||| (if dirIn then 1 else 0)))

-- `next_seqnum` of one caller: after a number that is skipped the second round is the last.
def nextSeqnum (counter : UInt32) (dirIn : Bool) : UInt32 × Seqnum :=
  match incrementSeqnum counter dirIn with
  | (counter, some seqnum) => (counter, seqnum)
  | (counter, none) =>
    let (counter, seqnum) := incrementSeqnum counter dirIn
    (counter, seqnum.getD 0)

-- Sequence numbers that have not run their course yet.
def Task.uses (dev : RequestList) (s : Seqnum) : Task → Bool
  | .drawn n | .sendSubmit _ n | .sent _ n | .refused _ n => n == s
  | .cancelRequest r | .unlink _ r | .sendUnlink _ r _ | .complete _ r => (dev.request r).seqnum == s
  | .endpointPurge _ => false

def State.inUse (st : State) (s : Seqnum) : Bool :=
  st.dev.entries.any (fun r => (st.dev.request r).seqnum == s) || st.tasks.any (fun t => t.uses st.dev s)

-- WDF hands out a request again only after it was completed.
def Request.isFree (req : Request) : Bool := req.deliveries == 0 || req.completed != 0

def Request.deliver (req : Request) : Request :=
  { req with cancellation := .idle, deliveries := req.deliveries + 1, completed := 0 }

-- One atomic section of one thread, or a step of WDF or WSK.
inductive Action where
  | draw (dirIn : Bool)
  | drop (s : Seqnum)
  | submit (r : Handle) (e : Endpoint) (s : Seqnum)
  | wskSend (r : Handle) (s : Seqnum)
  | sendComplete (r : Handle) (s : Seqnum) (success : Bool)
  | receive (s : Seqnum)
  | cancel (r : Handle)
  | cancelRequest (r : Handle)
  | endpointPurge (e : Endpoint)
  | purgeNext (e : Endpoint)
  | unlink (thread : Thread) (r : Handle) (skip : Bool)
  | sendUnlink (thread : Thread) (r : Handle) (s : Seqnum)
  | complete (thread : Thread) (r : Handle)
  | close
  deriving DecidableEq, Repr

-- A reply takes the request out of the list; the receiving thread completes it.
def received (st : State) (s : Seqnum) : State :=
  let (dev, picked) := removeRequest st.dev (.seqnum s) true
  { st with
    dev := dev
    tasks := (picked.map (Task.complete .recvLoop)).toList ++ st.tasks }

-- One round of the loop of `endpoint_purge`.
def purged (st : State) (e : Endpoint) : State :=
  let (dev, picked) := removeRequest st.dev (.endpoint e) true
  { st with
    dev := dev
    tasks := advance st.tasks (.endpointPurge e) (picked.map (Task.unlink (.endpointPurge e))).toList }

def cancelled (st : State) (r : Handle) : State :=
  { st with
    dev := (removeRequest st.dev (.request r) false).1
    tasks := advance st.tasks (.cancelRequest r) [.unlink .cancelRequest r] }

-- `send_complete`. The success path goes by the sequence number, the failure path by the handle.
def sendCompleted (st : State) (r : Handle) (s : Seqnum) (success : Bool) : State :=
  if success then
    let (err, dev) := markRequestCancelable st.dev s
    { st with
      dev := dev
      tasks := advance st.tasks (.sent r s)
        (if err = .STATUS_SUCCESS then [] else [.unlink (.sendComplete s) r]) }
  else
    let (dev, picked) := removeRequest st.dev (.request r) false
    { st with
      dev := dev
      tasks := advance st.tasks (.sent r s)
        (if picked = none then [] else [.complete (.sendComplete s) r]) }

-- The upper driver cancels: WDF calls the callback if there is one.
def cancelledByUpper (st : State) (r : Handle) : State :=
  let req := st.dev.request r
  match req.cancellation with
  | .idle => { st with dev := st.dev.set r { req with cancellation := .cancelled } }
  | .armed =>
    { st with
      dev := st.dev.set r { req with cancellation := .fired }
      tasks := .cancelRequest r :: st.tasks }
  | _ => st

-- What the thread goes on with; the loop of `endpoint_purge` looks for the next request.
def Thread.resume : Thread → List Task
  | .endpointPurge e => [.endpointPurge e]
  | _ => []

def completedBy (st : State) (thread : Thread) (r : Handle) : State :=
  let req := st.dev.request r
  { st with
    dev := st.dev.set r { req with completed := req.completed + 1 }
    tasks := advance st.tasks (.complete thread r) thread.resume }

-- `set_cmd_submit_usbip_header`
def drew (st : State) (dirIn : Bool) : State :=
  let drawn := nextSeqnum st.seqnum dirIn
  { st with
    seqnum := drawn.1
    tasks := .drawn drawn.2 :: st.tasks }

def submitted (st : State) (r : Handle) (e : Endpoint) (s : Seqnum) : State :=
  { st with
    dev := appendRequest (st.dev.set r (st.dev.request r).deliver) r s e
    tasks := advance st.tasks (.drawn s) [.sendSubmit r s] }

-- `send_cmd_unlink_and_complete` up to its send. There is no CMD_UNLINK if the device is unplugged
-- or without memory for it (`skip`); else `set_cmd_unlink_usbip_header` draws a number for it.
def unlinking (st : State) (thread : Thread) (r : Handle) (skip : Bool) : State :=
  if skip then { st with tasks := advance st.tasks (.unlink thread r) [.complete thread r] }
  else
    { st with
      seqnum := (nextSeqnum st.seqnum false).1
      tasks := advance st.tasks (.unlink thread r) [.sendUnlink thread r (st.dev.request r).seqnum] }

def Task.isReceiving : Task → Bool
  | .complete .recvLoop _ => true
  | _ => false

-- There is one receiving thread. A context is dropped if it cannot be prepared for its send.
def step (st : State) : Action → Option State
  | .draw dirIn => some (drew st dirIn)
  | .drop s => if .drawn s ∈ st.tasks then some { st with tasks := advance st.tasks (.drawn s) [] } else none
  | .submit r e s =>
    if (st.dev.request r).isFree ∧ .drawn s ∈ st.tasks then some (submitted st r e s) else none
  | .wskSend r s =>
    if .sendSubmit r s ∈ st.tasks then
      some (if st.closing then { st with tasks := advance st.tasks (.sendSubmit r s) [.refused r s] }
        else
          { st with
            tasks := advance st.tasks (.sendSubmit r s) [.sent r s]
            wire := st.wire ++ [.submit s] })
    else none
  | .sendComplete r s success => if .sent r s ∈ st.tasks then some (sendCompleted st r s success) else none
  | .receive s => if st.tasks.any Task.isReceiving = false then some (received st s) else none
  | .cancel r =>
    if (st.dev.request r).isFree = false then some (cancelledByUpper st r) else none
  | .cancelRequest r => if .cancelRequest r ∈ st.tasks then some (cancelled st r) else none
  | .endpointPurge e => some { st with tasks := .endpointPurge e :: st.tasks }
  | .purgeNext e => if .endpointPurge e ∈ st.tasks then some (purged st e) else none
  | .unlink thread r skip => if .unlink thread r ∈ st.tasks then some (unlinking st thread r skip) else none
  | .sendUnlink thread r s =>
    if .sendUnlink thread r s ∈ st.tasks then
      some { st with
        tasks := advance st.tasks (.sendUnlink thread r s) [.complete thread r]
        wire := if st.closing then st.wire else st.wire ++ [.unlink s] }
    else none
  | .complete thread r => if .complete thread r ∈ st.tasks then some (completedBy st thread r) else none
  | .close => some { st with closing := true }

-- A device that has just been plugged in; its counter may start anywhere.
def machine : Machine State Action where
  init st := ∃ counter, st = { seqnum := counter }
  step := step

end Usbip.Device

import Mathlib.Logic.Function.Basic
import Usbip.Library.Pool
import Usbip.Library.Runs
import Usbip.Persistent.Schedule
import Usbip.Vhci.Ports

namespace Usbip.Persistent.Requests

open Function
open Usbip.Library.Pool
open Usbip.Library.Runs

-- Attach requests are numbered in the order in which they are created.
abbrev Request := Nat

inductive Owner where
  | creator
  | send
  | completionRoutine
  | timer
  | timerCallback
  deriving DecidableEq, Repr

-- What is under way. `counting` and `creating`: a call of `start_attach_attempts` that has yet to look at the
-- number of requests, or to create its own. `leaving`: an `ObjectDelete` goes out of scope with its request.
-- `released`: one whose request was sent or whose timer was started, it has yet to be released. `canceling`:
-- a call of `stop_attach_attempts` that has taken a request out of the collection and holds a reference to it.
inductive Task where
  | counting (hash : UInt32) (delayed : Bool)
  | creating (hash : UInt32) (delayed : Bool)
  | adding (r : Request) (delayed : Bool)
  | created (r : Request) (delayed : Bool)
  | sent (r : Request)
  | completing (r : Request)
  | armed (r : Request)
  | expired (r : Request)
  | sending (r : Request)
  | leaving (owner : Owner) (r : Request)
  | released (r : Request)
  | stopping (hash : UInt32)
  | canceling (hash : UInt32) (r : Request)
  deriving DecidableEq, Repr

-- `locationHash` and `ctx` are the contexts of the requests, `deletions` tells how often each was deleted.
structure State where
  vhci : Constants
  devicesCnt : Nat
  removing : Bool := false
  reattachReq : List Request := []
  next : Request := 0
  locationHash : Request → UInt32 := fun _ => 0
  ctx : Request → AttachCtx := fun _ => { delay := 0 }
  deletions : Request → Nat := fun _ => 0
  tasks : List Task := []

-- What the framework does. `initialized`: the buffers, the timer and the context of a new request are made.
structure Env where
  requestCreate : Bool := true
  initialized : Bool := true
  collectionAdd : Bool := true
  formatRequest : Bool := true
  requestSend : Bool := true
  completion : Completion := ⟨.STATUS_SUCCESS, false, false, .STATUS_SUCCESS⟩
  deriving DecidableEq, Repr

def createRequest (st : State) (hash : UInt32) : State :=
  { st with
    next := st.next + 1
    locationHash := update st.locationHash st.next hash
    ctx := update st.ctx st.next (startAttachAttempts st.vhci false) }

-- Whether the request is sent decides who has it afterwards.
def sendPluginHardware (env : Env) (sender : Owner) (r : Request) : List Task :=
  if env.formatRequest && env.requestSend then [.sent r, .released r] else [.leaving sender r]

-- `cleanup_attach_request`, which takes the request out of the collection, is part of the deletion.
def deleteRequest (st : State) (r : Request) : State :=
  { st with
    reattachReq := st.reattachReq.erase r
    deletions := update st.deletions r (st.deletions r + 1) }

-- The request that `reattach_req_remove` takes out of the collection.
def matching (st : State) (hash : UInt32) : Option Request :=
  st.reattachReq.find? fun r => hash == 0 || hash == st.locationHash r

-- What a task does next, and what it turns into.
def run (st : State) (env : Env) : Task → Option (State × List Task)
  | .counting hash delayed =>
    if st.reattachReq.length ≥ 4 * st.devicesCnt then some (st, []) else some (st, [.creating hash delayed])
  | .creating hash delayed =>
    if env.requestCreate then some (createRequest st hash, [.adding st.next delayed]) else some (st, [])
  | .adding r delayed =>
    if env.initialized && env.collectionAdd then
      some ({ st with reattachReq := st.reattachReq ++ [r] }, [.created r delayed])
    else some (st, [.leaving .creator r])
  | .created r delayed =>
    if delayed then
      let ctx := { st.ctx r with retryCnt := (st.ctx r).retryCnt + 1 }
      some ({ st with ctx := update st.ctx r ctx }, [.armed r, .released r])
    else some (st, sendPluginHardware env .creator r)
  | .sent r => some (st, [.completing r])
  | .completing r =>
    match onPluginHardware st.vhci (st.ctx r) { env.completion with removing := st.removing } with
    | .error _ => none
    | .ok none => some (st, [.leaving .completionRoutine r])
    | .ok (some (_, ctx)) => some ({ st with ctx := update st.ctx r ctx }, [.armed r, .released r])
  | .armed r => some (st, [.expired r])
  | .expired r => if st.removing then some (st, [.leaving .timerCallback r]) else some (st, [.sending r])
  | .sending r => some (st, sendPluginHardware env .timerCallback r)
  | .leaving _ r => some (deleteRequest st r, [])
  | .released _ => some (st, [])
  | .stopping hash =>
    match matching st hash with
    | none => some (st, [])
    | some r => some ({ st with reattachReq := st.reattachReq.erase r }, [.canceling hash r])
  -- The cancellation shows in the status that the request is completed with.
  | .canceling hash _ => some (st, [.stopping hash])

inductive Action where
  | startAttachAttempts (hash : UInt32) (delayed : Bool)
  | stopAttachAttempts (hash : UInt32)
  | queryRemove
  | go (task : Task) (env : Env)
  deriving DecidableEq, Repr

def step (st : State) : Action → Option State
  | .startAttachAttempts hash delayed =>
    if st.removing then some st else some { st with tasks := .counting hash delayed :: st.tasks }
  | .stopAttachAttempts hash => some { st with tasks := .stopping hash :: st.tasks }
  | .queryRemove => some { st with removing := true, tasks := .stopping 0 :: st.tasks }
  | .go task env =>
    if task ∈ st.tasks then
      (run st env task).map fun (st', next) => { st' with tasks := advance st.tasks task next }
    else none

-- A controller that has been made, whatever is in the registry.
def machine : Machine State Action where
  init st := ∃ (params : Option ReattachParameters) (vhci : Constants) (ports : Option Vhci.PortsParameters)
    (ctx : Vhci.VhciCtx), initConstants params = .ok vhci ∧ Vhci.allocDevices ports true = .ok ctx ∧
      st = { vhci := vhci, devicesCnt := ctx.devices.length }
  step := step

-- Whose scoped pointer, send or timer a request is.
def Task.ownership : Task → Option (Owner × Request)
  | .adding r _ | .created r _ => some (.creator, r)
  | .sent r => some (.send, r)
  | .completing r => some (.completionRoutine, r)
  | .armed r => some (.timer, r)
  | .expired r | .sending r => some (.timerCallback, r)
  | .leaving owner r => some (owner, r)
  | .counting .. | .creating .. | .released _ | .stopping _ | .canceling .. => none

def Task.ownerOf (r : Request) (task : Task) : Option Owner :=
  task.ownership.bind fun (owner, q) => if q = r then some owner else none

def State.owners (st : State) (r : Request) : List Owner := st.tasks.filterMap (Task.ownerOf r)

-- The requests that a step works with; `stop_attach_attempts` reads the contexts of the members it comes to.
def State.uses (st : State) : Action → List Request
  | .go (.canceling _ r) _ => [r]
  | .go (.stopping _) _ => st.reattachReq
  | .go task _ => (task.ownership.map Prod.snd).toList
  | _ => []

-- The requests that were created and are not deleted.
def State.live (st : State) : Nat := (List.range st.next).countP fun r => st.deletions r == 0

def State.limit (st : State) : Nat := 4 * st.devicesCnt

def Task.isCreating : Task → Bool
  | .creating .. => true
  | _ => false

-- What the number of members does not tell: the live requests that are not in the collection, since they are
-- new or were taken out by `stop_attach_attempts`, and those that others are about to create.
def State.unseen (st : State) : Nat :=
  (List.range st.next).countP (fun r => st.deletions r == 0 && !decide (r ∈ st.reattachReq)) +
    st.tasks.countP Task.isCreating

def Action.counts : Action → Bool
  | .go (.counting ..) _ => true
  | _ => false

-- A look at the number of members that finds room would also find it with what it does not see.
def SeesAll (st : State) (a : Action) : Prop :=
  a.counts = true → st.reattachReq.length < st.limit → st.reattachReq.length + st.unseen < st.limit

instance (st : State) (a : Action) : Decidable (SeesAll st a) :=
  inferInstanceAs (Decidable (a.counts = true → _ < st.limit → _ + st.unseen < st.limit))

end Usbip.Persistent.Requests

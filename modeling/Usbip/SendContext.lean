import Usbip.Socket

namespace Usbip.SendContext

open Usbip.Library.Pool
open Usbip.Library.Runs

inductive Command where
  | submit
  | unlink
  deriving DecidableEq, Repr

-- What holds a context that is in use: the `wsk_context_ptr` of a thread that fills it, the IRP with its
-- completion routine before and after WskSend was called, the `wsk_context_ptr` of `send_complete`.
-- A `wsk_context*` is a number.
inductive Task where
  | prepare (command : Command) (c : Nat)
  | armed (c : Nat)
  | pending (c : Nat)
  | sendComplete (c : Nat)
  deriving DecidableEq, Repr

-- `released` are the contexts that `send` has let go of and that were not freed since then. The pointer
-- to a context in `dropped` is lost. The last two record what was handed out and what was freed.
structure State where
  socket : Socket.State := {}
  created : Nat := 0
  lookaside : List Nat := []
  discarded : List Nat := []
  tasks : List Task := []
  released : List Nat := []
  dropped : List Nat := []
  handedOut : List Nat := []
  freed : List Nat := []

-- `kept` tells whether the lookaside list has room for a context that is freed.
inductive Action where
  | alloc (command : Command) (reused : Option Nat) (prepared : Bool)
  | fail (c : Nat) (kept : Bool)
  | release (command : Command) (c : Nat)
  | invoke (c : Nat)
  | complete (c : Nat)
  | free (c : Nat) (kept : Bool)
  | socket (a : Socket.Action)
  deriving DecidableEq, Repr

-- `SOCKET::invoke` goes on to call WskSend.
def accepts (socket : Socket.State) : Bool := (socket.invokeCnt + 1) &&& Socket.CLOSING == 0

-- `prepare_isoc` comes before the context is used, its failure frees the memory.
def prepareContext (st : State) (command : Command) (c : Nat) (prepared : Bool) : State :=
  if prepared then { st with tasks := .prepare command c :: st.tasks, handedOut := c :: st.handedOut }
  else { st with discarded := c :: st.discarded }

-- `ExAllocateFromLookasideListEx` takes a context of the list or makes one.
def alloc (st : State) (command : Command) (reused : Option Nat) (prepared : Bool) : Option State :=
  match reused with
  | some c =>
    if c ∈ st.lookaside then
      some (prepareContext { st with lookaside := st.lookaside.erase c } command c prepared)
    else none
  | none => some (prepareContext { st with created := st.created + 1 } command st.created prepared)

-- `ExFreeToLookasideListEx`
def free (st : State) (c : Nat) (kept : Bool) : State :=
  { st with
    lookaside := if kept then c :: st.lookaside else st.lookaside
    discarded := if kept then st.discarded else c :: st.discarded
    freed := c :: st.freed }

-- A submission can fail before the context is released. The lock around WskSend is left out: it only
-- takes away orders of the steps.
def step (st : State) : Action → Option State
  | .alloc command reused prepared => alloc st command reused prepared
  | .fail c kept =>
    if .prepare .submit c ∈ st.tasks then
      some (free { st with tasks := advance st.tasks (.prepare .submit c) [] } c kept)
    else none
  | .release command c =>
    if .prepare command c ∈ st.tasks then
      some { st with
        tasks := advance st.tasks (.prepare command c) [.armed c]
        released := c :: st.released }
    else none
  | .invoke c =>
    if .armed c ∈ st.tasks then
      (Socket.step st.socket .increment).map fun socket =>
        if accepts st.socket then { st with socket := socket, tasks := advance st.tasks (.armed c) [.pending c] }
        else
          { st with -- STATUS_NOT_SUPPORTED
            socket := socket
            tasks := advance st.tasks (.armed c) []
            dropped := c :: st.dropped }
    else none
  | .complete c =>
    if .pending c ∈ st.tasks then some { st with tasks := advance st.tasks (.pending c) [.sendComplete c] }
    else none
  | .free c kept =>
    if .sendComplete c ∈ st.tasks then
      some (free { st with
        tasks := advance st.tasks (.sendComplete c) []
        released := st.released.erase c } c kept)
    else none
  | .socket a => (Socket.step st.socket a).map fun socket => { st with socket := socket }

def machine : Machine State Action where
  init st := st = {}
  step := step

-- `send_complete` owns the context or will be called with it.
def Task.completes (c : Nat) : Task → Bool
  | .prepare _ _ => false
  | .armed d | .pending d | .sendComplete d => d == c

def Task.holds (c : Nat) : Task → Bool
  | .prepare _ d => d == c
  | task => task.completes c

-- No send finds the socket closing.
def Accepts (st : State) : Action → Prop
  | .invoke _ => accepts st.socket = true
  | _ => True

instance (st : State) : (a : Action) → Decidable (Accepts st a)
  | .invoke _ => inferInstanceAs (Decidable (accepts st.socket = true))
  | .alloc _ _ _ | .fail _ _ | .release _ _ | .complete _ | .free _ _ | .socket _ => .isTrue trivial

end Usbip.SendContext

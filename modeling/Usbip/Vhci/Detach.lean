import Usbip.Library.Pool
import Usbip.Library.Runs
import Usbip.Vhci

namespace Usbip.Vhci

open Usbip.Library.Pool
open Usbip.Library.Runs

def PORT_ALL_CLOSEONLY : Int := -2

-- What waits in the default queue. `source` is the device that a plug-out message of
-- `async_detach_and_delete` was made for; the message itself carries only the port.
inductive Ioctl where
  | pluginHardware
  | plugoutHardware (port : Int) (reattach : Bool) (source : Option Device)
  deriving DecidableEq, Repr

-- The two callers of `async_detach_and_delete`.
inductive Cause where
  | recvThread
  | sendComplete
  deriving DecidableEq, Repr

-- The callers of `detach`. The loop of `detach_all_devices` goes on with the next port.
inductive Caller where
  | plugoutHardware (source : Option Device)
  | detachAllDevices (source : Option Device) (port : Int) (plugoutAndDelete : Bool)
  | connected
  | deviceCleanup
  deriving DecidableEq, Repr

inductive Stage where
  | setFlag
  | join
  | reclaim
  | plugout
  deriving DecidableEq, Repr

-- Where the threads, work items and callbacks stand between two atomic sections.
inductive Task where
  | workitem
  | claim (d : Device)
  | plugIn (d : Device)
  | receiving (d : Device)
  | detaching (cause : Cause) (d : Device)
  | sending (cause : Cause) (d : Device) (port : Int)
  | handling (port : Int) (reattach : Bool) (source : Option Device)
  | detachAll (source : Option Device) (port : Int) (plugoutAndDelete : Bool)
  | detach (caller : Caller) (d : Device) (stage : Stage) (reattach : Bool)
  | attachTimer
  deriving DecidableEq, Repr

-- What the plug-out messages have done: which devices were detached, or all of them.
inductive Effect where
  | detached (source : Option Device) (d : Device)
  | detachedAll (source : Option Device)
  deriving DecidableEq, Repr

-- The default queue hands out the next IOCTL when it is not `busy` with one. `plugged` are the
-- devices that UDE has been given; only these can have sends under way.
structure State where
  vhci : VhciCtx
  created : Nat := 0
  plugged : List Device := []
  queue : List Ioctl := []
  busy : Bool := false
  tasks : List Task := []
  effects : List Effect := []

inductive Action where
  | requestPlugin
  | requestPlugout (port : Int) (reattach : Bool)
  | attachTimer
  | dispatch
  | connected (speed : Option Int)
  | claim (d : Device)
  | plugIn (d : Device) (plugged started : Bool)
  | recvExit (d : Device)
  | forcedClosed (d : Device)
  | readPort (cause : Cause) (d : Device)
  | send (cause : Cause) (d : Device) (port : Int) (sent : Bool)
  | handle (port : Int) (reattach : Bool) (source : Option Device)
  | detachNext (source : Option Device) (port : Int) (plugoutAndDelete : Bool)
  | detach (caller : Caller) (d : Device) (stage : Stage) (reattach timeout : Bool)
  | cleanup (d : Device)
  deriving DecidableEq, Repr

-- The receive thread of a device has not ended yet.
def Task.isRecvThread (d : Device) : Task → Bool
  | .receiving e => e == d
  | .detaching .recvThread e => e == d
  | .sending .recvThread e _ => e == d
  | _ => false

-- A caller of `detach` gets control back.
def Caller.resume : Caller → List Task
  | .detachAllDevices source port plugoutAndDelete => [.detachAll source (port + 1) plugoutAndDelete]
  | _ => []

-- The IOCTL that called `detach` is then completed.
def Caller.busyAfter (caller : Caller) (busy : Bool) : Bool :=
  match caller with
  | .plugoutHardware _ => false
  | _ => busy

def Caller.effect (d : Device) : Caller → List Effect
  | .plugoutHardware source => [.detached source d]
  | .detachAllDevices source _ _ => [.detached source d]
  | _ => []

-- `plugout_hardware` after the checks of the buffer.
def plugoutHardware (st : State) (port : Int) (reattach : Bool) (source : Option Device) : State :=
  let done := advance st.tasks (.handling port reattach source)
  if port ≤ 0 then
    { st with
      effects := .detachedAll source :: st.effects
      tasks := done [.detachAll source 1 (port != PORT_ALL_CLOSEONLY)] }
  else if isValidPort st.vhci port = false then
    { st with busy := false, tasks := done [] } -- STATUS_INVALID_PARAMETER
  else
    match getDevice st.vhci port with
    | some d => { st with tasks := done [.detach (.plugoutHardware source) d .setFlag reattach] }
    | none => { st with busy := false, tasks := done [] } -- STATUS_DEVICE_NOT_CONNECTED

-- One round of the loop of `detach_all_devices`.
def detachNext (st : State) (source : Option Device) (port : Int) (plugoutAndDelete : Bool) : State :=
  let done := advance st.tasks (.detachAll source port plugoutAndDelete)
  if port ≤ st.vhci.devices.length then
    match getDevice st.vhci port with
    | some d =>
      { st with tasks := done [.detach (.detachAllDevices source port plugoutAndDelete) d .setFlag false] }
    | none => { st with tasks := done [.detachAll source (port + 1) plugoutAndDelete] }
  else { st with busy := false, tasks := done [] }

-- `device::detach`. The join waits for the receive thread, a minute at most.
def detach (st : State) (caller : Caller) (d : Device) (stage : Stage) (reattach timeout : Bool) :
    Option State :=
  let done := advance st.tasks (.detach caller d stage reattach)
  let ctx := st.vhci.device d
  match stage with
  | .setFlag =>
    some (if ctx.unplugged then { st with busy := caller.busyAfter st.busy, tasks := done caller.resume }
      else
        { st with
          vhci := st.vhci.set d { ctx with unplugged := true }
          effects := caller.effect d ++ st.effects
          tasks := done [.detach caller d .join reattach] })
  | .join =>
    if timeout ∨ st.tasks.any (Task.isRecvThread d) = false then
      some { st with tasks := done [.detach caller d .reclaim reattach] }
    else none
  | .reclaim =>
    some { st with
      vhci := (reclaimRoothubPort st.vhci d).1
      tasks := done [.detach caller d .plugout reattach] }
  | .plugout =>
    some { st with
      busy := caller.busyAfter st.busy
      tasks := done (caller.resume ++ if reattach then [.attachTimer] else []) }

-- A device is cleaned up after it was deleted or when the controller goes away. Requests
-- to plug in come from users and from the timers of the attach attempts.
def step (st : State) : Action → Option State
  | .requestPlugin => some { st with queue := st.queue ++ [.pluginHardware] }
  | .requestPlugout port reattach =>
    some { st with queue := st.queue ++ [.plugoutHardware port reattach none] }
  | .attachTimer =>
    if .attachTimer ∈ st.tasks then
      some { st with
        queue := st.queue ++ [.pluginHardware]
        tasks := advance st.tasks .attachTimer [] }
    else none
  | .dispatch =>
    if st.busy then none
    else
      match st.queue with
      | [] => none
      | .pluginHardware :: rest => some { st with queue := rest, tasks := .workitem :: st.tasks }
      | .plugoutHardware port reattach source :: rest =>
        some { st with
          queue := rest
          busy := true
          tasks := .handling port reattach source :: st.tasks }
  | .connected speed =>
    if .workitem ∈ st.tasks then
      some (match speed with
        | none => { st with tasks := advance st.tasks .workitem [] }
        | some speed =>
          { st with
            vhci := st.vhci.set st.created { speed := speed }
            created := st.created + 1
            tasks := advance st.tasks .workitem [.claim st.created] })
    else none
  | .claim d =>
    if .claim d ∈ st.tasks then
      let (vhci, port) := claimRoothubPort st.vhci d
      some { st with
        vhci := vhci
        tasks := advance st.tasks (.claim d)
          [if port = 0 then .detach .connected d .setFlag false else .plugIn d] }
    else none
  | .plugIn d plugged started =>
    if .plugIn d ∈ st.tasks then
      some { st with
        plugged := if plugged then d :: st.plugged else st.plugged
        tasks := advance st.tasks (.plugIn d)
          [if plugged ∧ started then .receiving d else .detach .connected d .setFlag false] }
    else none
  | .recvExit d =>
    if .receiving d ∈ st.tasks then
      some { st with
        tasks := advance st.tasks (.receiving d)
          (if (st.vhci.device d).unplugged then [] else [.detaching .recvThread d]) }
    else none
  | .forcedClosed d =>
    if d ∈ st.plugged ∧ (st.vhci.device d).unplugged = false then
      some { st with tasks := .detaching .sendComplete d :: st.tasks }
    else none
  | .readPort cause d =>
    if .detaching cause d ∈ st.tasks then
      some { st with
        tasks := advance st.tasks (.detaching cause d) [.sending cause d (st.vhci.device d).port] }
    else none
  | .send cause d port sent =>
    if .sending cause d port ∈ st.tasks then
      some { st with
        queue := if sent then st.queue ++ [.plugoutHardware port true (some d)] else st.queue
        tasks := advance st.tasks (.sending cause d port) [] }
    else none
  | .handle port reattach source =>
    if .handling port reattach source ∈ st.tasks then some (plugoutHardware st port reattach source) else none
  | .detachNext source port plugoutAndDelete =>
    if .detachAll source port plugoutAndDelete ∈ st.tasks then some (detachNext st source port plugoutAndDelete)
    else none
  | .detach caller d stage reattach timeout =>
    if .detach caller d stage reattach ∈ st.tasks then detach st caller d stage reattach timeout else none
  | .cleanup d =>
    if d < st.created then some { st with tasks := .detach .deviceCleanup d .setFlag false :: st.tasks }
    else none

-- A controller without devices.
def machine : Machine State Action where
  init st := ∃ usb2 usb3, st = { vhci := { usb2Ports := usb2, devices := List.replicate (usb2 + usb3) none } }
  step := step

end Usbip.Vhci

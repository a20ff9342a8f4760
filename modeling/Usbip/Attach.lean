import Usbip.Library.Runs
import Usbip.Basic

namespace Usbip.Attach

open Usbip.Library.Runs

-- A status that `if (auto err = ...)` takes for an error. A call that waits does not answer STATUS_PENDING.
structure Failure where
  st : NTSTATUS
  ne_success : st ≠ .STATUS_SUCCESS
  ne_pending : st ≠ .STATUS_PENDING

abbrev Outcome := Option Failure

def CANCELLED : Failure := ⟨.STATUS_CANCELLED, by decide, by decide⟩
def PORTFULL : Failure := ⟨.USBIP_ERROR_PORTFULL, by decide, by decide⟩

-- `vhci::state`
inductive DeviceState where
  | unplugged
  | connecting
  | connected
  | plugged
  | disconnected
  | unplugging
  deriving DecidableEq, Repr

inductive Socket where
  | null
  | opened
  | closed
  deriving DecidableEq, Repr

-- `device_ctx_ext` with the WDFMEMORY it is in: the calls of WdfObjectDelete for it and the references.
structure DeviceCtxExt where
  sock : Socket := .null
  deletions : Nat := 0
  references : Nat := 0
  deriving DecidableEq, Repr

-- `ctxExt`: the handle of the memory is set.
structure DeviceCtx where
  ctxExt : Bool := true
  port : Int := 0
  unplugged : Bool := false
  deleted : Bool := false
  deriving DecidableEq, Repr

-- `ADDRINFOEXW`
abbrev Address := Nat

structure WorkitemCtx where
  ctxExt : Bool := false
  addrinfo : List Address := []
  oneAttempt : Bool
  deriving DecidableEq, Repr

-- Where the attach goes on. `armed`: WSK has the IRP and is going to run `irp_complete`;
-- `dropped`: nobody was given the IRP. `complete` has answered the request in the last stages.
inductive Control where
  | dispatched
  | dropped
  | armed
  | queued (st : Outcome)
  | answered (st : NTSTATUS)
  | reattaching
  | deleting
  | finished

-- The WDFREQUEST with the arguments of its IRP: `ai` are the addresses from ARG_AI on, none if it is null.
-- `pending`: `plugin_hardware` has returned STATUS_PENDING.
structure Request where
  control : Control := .dispatched
  ai : List Address := []
  pending : Bool := false
  completed : List NTSTATUS := []

-- Between two steps of `detach`.
inductive DetachStage where
  | closed
  | reclaimed
  | unplugging
  | unplugged
  | forceDelete
  | done
  deriving DecidableEq, Repr

structure Detach where
  stage : DetachStage
  plugoutAndDelete : Bool
  deriving DecidableEq, Repr

structure State where
  request : Request := {}
  workitem : Option WorkitemCtx := none
  ext : Option DeviceCtxExt := none
  device : Option DeviceCtx := none
  detaching : Option Detach := none
  removing : Bool := false
  events : List DeviceState := []
  usedAfterDelete : Bool := false

def State.addrinfo (s : State) : List Address := s.workitem.elim [] WorkitemCtx.addrinfo

def State.mapExt (f : DeviceCtxExt → DeviceCtxExt) (s : State) : State := { s with ext := s.ext.map f }
def State.mapDevice (f : DeviceCtx → DeviceCtx) (s : State) : State := { s with device := s.device.map f }
def State.mapWorkitem (f : WorkitemCtx → WorkitemCtx) (s : State) : State :=
  { s with workitem := s.workitem.map f }

def State.deviceStateChanged (state : DeviceState) (s : State) : State := { s with events := s.events ++ [state] }

-- The reference `ext` of `complete` is read.
def State.useExt (s : State) : State :=
  { s with usedAfterDelete := s.usedAfterDelete || s.ext.any fun ext => decide (0 < ext.deletions) }

-- `destroy_device_ctx_ext` runs once the memory is deleted and nobody refers to it.
def DeviceCtxExt.settled (ext : DeviceCtxExt) : DeviceCtxExt :=
  if 0 < ext.deletions ∧ ext.references = 0 then { ext with sock := .null } else ext

def DeviceCtxExt.delete (ext : DeviceCtxExt) : DeviceCtxExt :=
  DeviceCtxExt.settled { ext with deletions := ext.deletions + 1 }

def DeviceCtxExt.release (ext : DeviceCtxExt) : DeviceCtxExt :=
  DeviceCtxExt.settled { ext with references := ext.references - 1 }

-- `close_socket`, with what the close answers.
def closeSocket (closing : Outcome) (s : State) : Bool × State :=
  if s.ext.any (fun ext => ext.sock = .opened) then
    (closing.isNone, s.mapExt fun ext => { ext with sock := .closed })
  else (false, s)

-- What UDE and WSK answer to `detach`. `deleted`: UdecxUsbDevicePlugOutAndDelete has deleted the device at once.
structure DetachEnv where
  closing : Outcome := none
  plugOutAndDelete : Outcome := none
  deleted : Bool := true
  ep0Added : Bool := true

-- `device::detach` up to the join of the receive thread.
def disconnect (env : DetachEnv) (s : State) : State :=
  let (closed, t) := closeSocket env.closing (s.mapDevice fun dev => { dev with unplugged := true })
  if closed then t.deviceStateChanged .disconnected else t

-- `reclaim_roothub_port` and the reference to the memory that `detach` takes.
def reclaim (s : State) : State :=
  (s.mapDevice fun dev => { dev with port := 0 }).mapExt fun ext => { ext with references := ext.references + 1 }

def State.release (s : State) : State := s.mapExt DeviceCtxExt.release

def State.isUnplugged (s : State) : Bool := s.device.any (·.unplugged)
def State.isLive (s : State) : Bool := s.device.any fun dev => !dev.deleted

-- `detach(device, false)`
def detachOnly (env : DetachEnv) (s : State) : State :=
  if s.isUnplugged then s else (reclaim (disconnect env s)).release

def deviceCleanup (env : DetachEnv) (s : State) : State :=
  let t := detachOnly env s
  if t.device.any (·.ctxExt) then
    (t.mapExt DeviceCtxExt.delete).mapDevice fun dev => { dev with ctxExt := false }
  else t

-- WdfObjectDelete of the device; its cleanup callback runs once.
def deleteDevice (env : DetachEnv) (s : State) : State :=
  if s.isLive then (deviceCleanup env s).mapDevice fun dev => { dev with deleted := true } else s

def plugoutAndDelete (env : DetachEnv) (s : State) : State :=
  let s := s.deviceStateChanged .unplugging
  match env.plugOutAndDelete with
  | some _ => s
  | none =>
    let s := (if env.deleted then deleteDevice env s else s).deviceStateChanged .unplugged
    if env.ep0Added then s else deleteDevice env s

def detach (env : DetachEnv) (plugout : Bool) (s : State) : State :=
  if s.isUnplugged then s
  else
    let s := reclaim (disconnect env s)
    (if plugout then plugoutAndDelete env s else s).release

-- A call of `detach` by an IOCTL of the default queue, step by step.
def detachStage (env : DetachEnv) (task : Detach) (s : State) : State × Option DetachStage :=
  match task.stage with
  | .closed => (reclaim s, some .reclaimed)
  | .reclaimed =>
    if task.plugoutAndDelete then (s.deviceStateChanged .unplugging, some .unplugging) else (s, some .done)
  | .unplugging =>
    match env.plugOutAndDelete with
    | some _ => (s, some .done)
    | none => (if env.deleted then deleteDevice env s else s, some .unplugged)
  | .unplugged => (s.deviceStateChanged .unplugged, some .forceDelete)
  | .forceDelete => (if env.ep0Added then s else deleteDevice env s, some .done)
  | .done => (s.release, none)

def detachStep (env : DetachEnv) (task : Detach) (s : State) : State :=
  let (t, next) := detachStage env task s
  { t with detaching := next.map fun stage => { task with stage := stage } }

abbrev AttachM := EStateM Failure State

-- `if (auto err = f()) return err;`
def check (err : Outcome) : AttachM Unit :=
  match err with
  | some err => throw err
  | none => pure ()

-- What the calls under `connected` and `connect` answer. `port` is what `claim_roothub_port` returns.
structure CompleteEnv where
  closing : Outcome := none
  socket : Outcome := none
  setOptions : Outcome := none
  bind : Outcome := none
  importRemoteDevice : Outcome := none
  prepareInit : Outcome := none
  addSnapshotDescriptors : Outcome := none
  usbDeviceCreate : Outcome := none
  initDevice : Outcome := none
  port : Int := 1
  usbDevicePlugIn : Outcome := none
  recvThreadStart : Outcome := none
  detach : DetachEnv := {}

-- `device::create`
def create (env : CompleteEnv) : AttachM Unit := do
  check env.prepareInit
  check env.addSnapshotDescriptors
  check env.usbDeviceCreate
  modify fun s => { s with device := some {} }
  check env.initDevice

-- The second value is that of `plugged`.
def plugin (env : CompleteEnv) : AttachM (Outcome × Bool) := do
  if env.port = 0 then
    return (some PORTFULL, false)
  modify (State.mapDevice fun dev => { dev with port := env.port })
  match env.usbDevicePlugIn with
  | some err => return (some err, false)
  | none => return (env.recvThreadStart, true)

def connected (env : CompleteEnv) : AttachM Unit := do
  modify (State.deviceStateChanged .connected)
  check env.importRemoteDevice
  create env
  modify (State.mapWorkitem fun ctx => { ctx with ctxExt := false }) -- now dev owns it
  match ← plugin env with
  | (some err, plugged) =>
    modify (detach env.detach plugged)
    if !plugged then
      modify (deleteDevice env.detach)
    throw err
  | (none, _) => modify (State.deviceStateChanged .plugged)

def createSocket (env : CompleteEnv) : AttachM Unit := do
  check env.socket
  modify (State.mapExt fun ext => { ext with sock := .opened })
  check env.setOptions
  check env.bind

def connect (env : CompleteEnv) (ai : List Address) : AttachM NTSTATUS := do
  createSocket env
  modify fun s => { s with request := { s.request with ai := ai, control := .armed } }
  return .STATUS_PENDING

def onConnect (env : CompleteEnv) (st : Outcome) (ai : List Address) : AttachM NTSTATUS :=
  match st with
  | none => do
    connected env
    return .STATUS_SUCCESS
  | some err => do
    modify (State.mapExt fun ext => { ext with sock := .null })
    match ai.tail with
    | [] => throw err
    | next => if err.st = .STATUS_CANCELLED then throw err else connect env next

-- `complete` up to the test for STATUS_PENDING.
def proceed (env : CompleteEnv) (st : Outcome) : AttachM NTSTATUS := do
  let s ← get
  if s.removing then throw CANCELLED
  else
    match s.request.ai with
    | [] =>
      check st
      connect env s.addrinfo
    | ai => onConnect env st ai

-- WdfRequestComplete
def State.answer (st : NTSTATUS) (s : State) : State :=
  { s with request := { s.request with completed := s.request.completed ++ [st], control := .answered st } }

def complete (env : CompleteEnv) (st : Outcome) (s : State) : State :=
  match proceed env st s with
  | .error err t => t.answer err.st
  | .ok st t => if st = .STATUS_PENDING then t else t.answer st

-- The rest of `complete`; `canReattach` is what `can_reattach` returns.
def afterAnswer (canReattach : Bool) (st : NTSTATUS) (s : State) : State :=
  if s.workitem.any (·.oneAttempt) then { s with request := { s.request with control := .deleting } }
  else
    let s := s.useExt
    let control := if st.isError ∧ canReattach then Control.reattaching else .deleting
    { s with request := { s.request with control := control } }

def workitemCleanup (closing : Outcome) (s : State) : State :=
  if s.workitem.any (·.ctxExt) then
    ((((closeSocket closing s).2).deviceStateChanged .disconnected).mapExt DeviceCtxExt.delete).mapWorkitem
      fun ctx => { ctx with ctxExt := false }
  else s

-- WdfObjectDelete of the work item
def deleteWorkitem (closing : Outcome) (s : State) : State := { workitemCleanup closing s with workitem := none }

-- `attributes` is what `init_device_attributes` and the copy of the serial number answer.
structure PluginEnv where
  workItemCreate : Outcome := none
  memoryCreate : Outcome := none
  attributes : Outcome := none
  provider : Bool := true

def createDeviceCtxExt (env : PluginEnv) : AttachM Unit := do
  check env.memoryCreate
  modify fun s => { s.mapWorkitem fun ctx => { ctx with ctxExt := true } with ext := some {} }
  check env.attributes

-- `wsk::getaddrinfo` returns without passing the IRP on when there is no provider.
def getaddrinfo (env : PluginEnv) : AttachM Unit :=
  modify fun s => { s with request := { s.request with control := if env.provider then .armed else .dropped } }

-- `plugin_hardware` after the checks of the buffer; it returns STATUS_PENDING unless an error is thrown.
def pluginHardware (env : PluginEnv) (once : Bool) : AttachM Unit := do
  check env.workItemCreate
  modify fun s => { s with workitem := some { oneAttempt := once } }
  try
    createDeviceCtxExt env
  catch err =>
    modify (deleteWorkitem none)
    throw err
  modify (State.deviceStateChanged .connecting)
  getaddrinfo env

-- `device_control` completes the request if it is not pending.
def dispatch (env : PluginEnv) (once : Bool) (s : State) : State :=
  match pluginHardware env once s with
  | .ok _ t => { t with request := { t.request with pending := true } }
  | .error err t =>
    { t with request := { t.request with completed := t.request.completed ++ [err.st], control := .finished } }

-- `irp_complete`. WskGetAddressInfo has stored a list that is not empty if it was successful.
def irpComplete (st : Outcome) (first : Address) (rest : List Address) (s : State) : State :=
  let s := if s.request.ai = [] ∧ st.isNone then s.mapWorkitem fun ctx => { ctx with addrinfo := first :: rest } else s
  { s with request := { s.request with control := .queued st } }

inductive Action where
  | dispatch (env : PluginEnv) (once : Bool)
  | irpComplete (st : Outcome) (first : Address) (rest : List Address)
  | complete (env : CompleteEnv)
  | afterAnswer (canReattach : Bool)
  | startAttachAttempts
  | deleteWorkitem (closing : Outcome)
  | queryRemove
  | detach (env : DetachEnv) (plugoutAndDelete : Bool)
  | detachStep (env : DetachEnv)
  | deleteDevice (env : DetachEnv)

-- The default queue hands out an IOCTL that detaches the device only after the request is completed, and one
-- at a time. UDE deletes a device after UdecxUsbDevicePlugOutAndDelete, the controller when no IOCTL is left.
def step (s : State) : Action → Option State
  | .dispatch env once =>
    match s.request.control with
    | .dispatched => some (dispatch env once s)
    | _ => none
  | .irpComplete st first rest =>
    match s.request.control with
    | .armed => some (irpComplete st first rest s)
    | _ => none
  | .complete env =>
    match s.request.control with
    | .queued st => some (complete env st s)
    | _ => none
  | .afterAnswer canReattach =>
    match s.request.control with
    | .answered st => some (afterAnswer canReattach st s)
    | _ => none
  | .startAttachAttempts =>
    match s.request.control with
    | .reattaching => some { s.useExt with request := { s.request with control := .deleting } }
    | _ => none
  | .deleteWorkitem closing =>
    match s.request.control with
    | .deleting => some { deleteWorkitem closing s with request := { s.request with control := .finished } }
    | _ => none
  | .queryRemove => some { s with removing := true }
  | .detach env plugout =>
    if s.request.completed ≠ [] ∧ s.isLive ∧ s.device.any (fun dev => dev.port ≠ 0) ∧ s.detaching = none then
      some (if s.isUnplugged then s
        else { disconnect env s with detaching := some { stage := .closed, plugoutAndDelete := plugout } })
    else none
  | .detachStep env => s.detaching.map fun task => detachStep env task s
  | .deleteDevice env =>
    if s.request.completed ≠ [] ∧ s.isLive ∧
        s.detaching.all (fun task => task.stage ∈ [.unplugged, .forceDelete, .done]) then
      some (deleteDevice env s)
    else none

-- A request of the default queue that `device_control` has just been given.
def machine : Machine State Action where
  init s := ∃ removing, s = { removing := removing }
  step := step

end Usbip.Attach

import Usbip.Library.Arena
import Usbip.Library.Runs
import Usbip.Library.Simulation
import Usbip.WskContext

namespace Usbip.Wsk.Arrays

open Usbip.Library.Arena
open Usbip.Library.Runs
open Usbip.Library.Simulation

-- A context whose array of descriptors is a block of the pool. `isoc` is the pointer of the context and
-- `start p` the address that the MDL `p` was made for.
structure State where
  wsk : Wsk.State
  blocks : Blocks := {}
  isoc : Option Nat := none
  start : Nat → Option Nat := fun _ => none

def State.put (st : State) (wsk : Wsk.State) : State := { st with wsk := wsk }

-- ExFreePoolWithTag of what is not there stops the system.
inductive Fault where
  | wsk (fault : Wsk.Fault)
  | freedBlock
  deriving DecidableEq, Repr

def Fault.known : Fault → Option Wsk.Fault
  | .wsk fault => some fault
  | .freedBlock => none

abbrev M := EStateM Fault State

-- What is done to the MDLs and to the other fields.
def onWsk {α : Type} (x : Wsk.M α) : M α := lift State.wsk State.put Fault.wsk x

-- `unique_ptr(ptr)`
def freeBlock (p : Option Nat) : M Unit := do
  let st ← get
  match st.blocks.free p with
  | some blocks => set { st with blocks := blocks }
  | none => throw .freedBlock

-- `Mdl(ctx.isoc, isoc_len)`
def allocIsocMdl (available : Bool) (isocLen : Nat) : M (Option Nat) := do
  let mdl ← onWsk (allocMdl available .isoc isocLen)
  let st ← get
  set { st with start := fun p => if mdl = some p then st.isoc else st.start p }
  return mdl

def assignMdlIsoc (available : Bool) (isocLen : Nat) : M NTSTATUS := do
  let mdl ← allocIsocMdl available isocLen
  onWsk (freeMdl (← get).wsk.ctx.mdlIsoc)
  onWsk (setCtx fun ctx => { ctx with mdlIsoc := mdl })
  return if mdl = none then .STATUS_INSUFFICIENT_RESOURCES else .STATUS_SUCCESS

def growIsoc (env : Env) (numberOfPackets isocLen : Nat) : M NTSTATUS := do
  if (← get).wsk.ctx.isocAllocCnt < numberOfPackets then
    if env.isocPool = false then return .STATUS_INSUFFICIENT_RESOURCES
    else
      let st ← get
      set { st with blocks := st.blocks.alloc isocLen }
      freeBlock st.isoc
      let st' ← get
      set { st' with isoc := some st.blocks.fresh }
      onWsk (setCtx fun ctx =>
        { ctx with isoc := some (List.replicate isocLen 0), isocAllocCnt := numberOfPackets })
      onWsk (freeMdl (← get).wsk.ctx.mdlIsoc)
      onWsk (setCtx fun ctx => { ctx with mdlIsoc := none })
      return .STATUS_SUCCESS
  else return .STATUS_SUCCESS

def prepareIsoc (env : Env) (numberOfPackets : Nat) : M NTSTATUS := do
  onWsk (setCtx fun ctx => { ctx with isIsoc := numberOfPackets != 0 })
  if numberOfPackets = 0 then return .STATUS_SUCCESS
  else
    let isocLen := sizeofIsoPacketDescriptor * numberOfPackets % 2 ^ 32
    let err ← growIsoc env numberOfPackets isocLen
    if err ≠ .STATUS_SUCCESS then return err
    else if (← onWsk (mdlSize (← get).wsk.ctx.mdlIsoc)) = isocLen then return .STATUS_SUCCESS
    else assignMdlIsoc env.isocMdl isocLen

def reuse (env : Env) (numberOfPackets : Nat) : M NTSTATUS := do
  onWsk (freeMdl (← get).wsk.ctx.mdlBuf)
  onWsk (setCtx fun ctx => { ctx with mdlBuf := none, request := none })
  prepareIsoc env numberOfPackets

def numberOfPackets : M Nat := do
  return (← onWsk (mdlSize (← get).wsk.ctx.mdlIsoc)) / sizeofIsoPacketDescriptor

-- `free_function_ex` without the IRP and the context itself, whose fields are reset.
def freeFunctionEx : M Unit := do
  onWsk (freeMdl (some (← get).wsk.ctx.mdlHdr))
  onWsk (freeMdl (← get).wsk.ctx.mdlBuf)
  onWsk (freeMdl (← get).wsk.ctx.mdlBufTail)
  onWsk (freeMdl (← get).wsk.ctx.mdlIsoc)
  onWsk (setCtx fun ctx =>
    { ctx with mdlBuf := none, mdlBufTail := none, mdlIsoc := none, bufTail := false, isoc := none })
  freeBlock (← get).isoc
  let st ← get
  set { st with isoc := none }

-- `alloc_wsk_context`: a context that cannot be prepared is given up.
def allocWskContext (env : Env) (numberOfPackets : Nat) : M Bool := do
  let err ← reuse env numberOfPackets
  if err ≠ .STATUS_SUCCESS then
    freeFunctionEx
    return false
  else return true

-- `allocate_function_ex`
def newContext : State where
  wsk :=
    { heap := ({ fresh := 0 } : Heap).alloc { byteCount := Header.size, buffer := .header }
      ctx := { mdlHdr := 0 } }

-- What a context goes through: a receive thread that keeps it prepares it for a reply, it is taken from the
-- lookaside list for a message, and between that its other fields are used.
inductive Action where
  | prepare (env : Env) (numberOfPackets : Nat)
  | alloc (env : Env) (numberOfPackets : Nat)
  | use (wsk : Wsk.State)

-- The number of packets is checked before.
def Action.numberOfPackets : Action → Nat
  | .prepare _ numberOfPackets => numberOfPackets
  | .alloc _ numberOfPackets => numberOfPackets
  | .use _ => 0

-- The state after an action, `none` if there is no context any more.
def step (st : State) : Action → Option State
  | .prepare env numberOfPackets =>
    match prepareIsoc env numberOfPackets st with
    | .ok _ t => some t
    | .error _ _ => none
  | .alloc env numberOfPackets =>
    match allocWskContext env numberOfPackets st with
    | .ok true t => some t
    | .ok false _ => none
    | .error _ _ => none
  | .use wsk => some (st.put wsk)

def machine : Machine State Action where
  init st := st = newContext
  step := step

end Usbip.Wsk.Arrays

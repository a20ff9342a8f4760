import Usbip.Library.Chain
import Usbip.Urb

namespace Usbip.Wsk

open Usbip.Library.Chain

-- The memory an MDL of a wsk_context describes, from its first byte on. `headMapping` starts at the
-- system address of the first MDL of `TransferBufferMDL`.
inductive Buffer where
  | header
  | transferBuffer
  | headMapping
  | bufTail
  | isoc
  | payload
  deriving DecidableEq, Repr

structure MDL where
  next : Option Nat := none
  byteCount : Nat
  buffer : Buffer
  deriving DecidableEq, Repr

-- An `MDL*` is a number that is not handed out again, so a link to a freed MDL leads nowhere.
structure Heap where
  fresh : Nat := 0
  mdl : Nat → Option MDL := fun _ => none

def Heap.next (heap : Heap) (p : Nat) : Option (Option Nat) := (heap.mdl p).map MDL.next

def Heap.set (heap : Heap) (p : Nat) (mdl : Option MDL) : Heap :=
  { heap with mdl := fun q => if q = p then mdl else heap.mdl q }

def Heap.alloc (heap : Heap) (mdl : MDL) : Heap :=
  { heap.set heap.fresh (some mdl) with fresh := heap.fresh + 1 }

-- `IoFreeMdl` of what an `Mdl` holds
def Heap.release (heap : Heap) : Option Nat → Heap
  | some p => heap.set p none
  | none => heap

-- `wsk_context` without its IRP. A null `Mdl` is `none`; of the buffer of the tail only
-- whether it is there matters, the array of descriptors is kept with its bytes.
structure WskContext where
  request : Option UdeRequest := none
  mdlBuf : Option Nat := none
  bufTail : Bool := false
  mdlBufTail : Option Nat := none
  mdlHdr : Nat
  hdr : Header := {}
  mdlIsoc : Option Nat := none
  isoc : Option (List Byte) := none
  isocAllocCnt : Nat := 0
  isIsoc : Bool := false

-- A use of the array of descriptors: the packets it was used for, its bytes before the use,
-- for how many packets it was prepared and what was received in the same round.
structure IsocUse where
  cnt : Nat
  isoc : Option (List Byte)
  prepared : Option Nat
  writes : List (Buffer × List Byte)
  deriving DecidableEq, Repr

-- `buf.Mdl` and `buf.Length` of a payload at the time of WskReceive.
structure Handed where
  heap : Heap
  ctx : WskContext
  hasTail : Bool
  mdl : Option Nat
  length : Nat

-- What one round of the receive loop has done so far.
structure Round where
  prepared : Option Nat := none
  handed : Option Handed := none
  writes : List (Buffer × List Byte) := []
  uses : List IsocUse := []
  completed : Option (UdeRequest × NTSTATUS) := none

-- The properties of the device that replies depend on; `serial` tells that it has one.
structure DeviceProperties where
  speed : Int := 0
  serial : Bool := false
  iserial : Byte := 0
  deriving DecidableEq, Repr

structure State where
  heap : Heap
  ctx : WskContext
  dev : DeviceProperties := {}
  stream : List Byte := []
  running : Bool := true
  round : Round := {}

-- What the driver must not do: the thread hangs or the system stops.
inductive Fault where
  | freedMdl
  | endlessWalk
  | shortChain
  | noUrb
  | outOfBounds
  deriving DecidableEq, Repr

abbrev M := EStateM Fault State

-- What services of the system answer in one round, and what other threads have done to
-- the device. `request` is what `remove_request` finds for the sequence number.
structure Env where
  unplugged : Bool := false
  unpluggedLater : Bool := false
  request : Option UdeRequest := none
  receiveHeader : NTSTATUS := .STATUS_SUCCESS
  receivePayload : NTSTATUS := .STATUS_SUCCESS
  isocPool : Bool := true
  isocMdl : Bool := true
  tailPool : Bool := true
  tailMdl : Bool := true
  bufMdl : Bool := true
  bufAddress : Bool := true
  bufLock : Bool := true
  payloadPool : Bool := true
  payloadMdl : Bool := true

def readMdl (p : Nat) : M MDL := do
  match (← get).heap.mdl p with
  | some mdl => return mdl
  | none => throw .freedMdl

-- `IoAllocateMdl`
def allocMdl (available : Bool) (buffer : Buffer) (length : Nat) : M (Option Nat) := do
  if available then
    let p := (← get).heap.fresh
    modify fun s => { s with heap := s.heap.alloc { byteCount := length, buffer := buffer } }
    return some p
  else return none

def freeMdl (p : Option Nat) : M Unit := modify fun s => { s with heap := s.heap.release p }

-- `Mdl::next(MDL*)`
def setNext (p : Option Nat) (next : Option Nat) : M Unit := do
  match p with
  | some p =>
    let mdl ← readMdl p
    modify fun s => { s with heap := s.heap.set p (some { mdl with next := next }) }
  | none => return

-- `Mdl::size`
def mdlSize (p : Option Nat) : M Nat := do
  match p with
  | some p => return (← readMdl p).byteCount
  | none => return 0

def setCtx (f : WskContext → WskContext) : M Unit := modify fun s => { s with ctx := f s.ctx }
def setRound (f : Round → Round) : M Unit := modify fun s => { s with round := f s.round }

-- `mdl = Mdl(...)` followed by `prepare_nonpaged`: the old one is freed after the new one is there.
def assignMdlIsoc (available : Bool) (length : Nat) : M NTSTATUS := do
  let mdl ← allocMdl available .isoc length
  freeMdl (← get).ctx.mdlIsoc
  setCtx fun ctx => { ctx with mdlIsoc := mdl }
  return if mdl = none then .STATUS_INSUFFICIENT_RESOURCES else .STATUS_SUCCESS

def assignMdlBufTail (available : Bool) (length : Nat) : M NTSTATUS := do
  let mdl ← allocMdl available .bufTail length
  freeMdl (← get).ctx.mdlBufTail
  setCtx fun ctx => { ctx with mdlBufTail := mdl }
  return if mdl = none then .STATUS_INSUFFICIENT_RESOURCES else .STATUS_SUCCESS

def MAXLEN : Nat := 2048

def allocBufTail (env : Env) (length : Nat) : M NTSTATUS := do
  if MAXLEN < length then return .STATUS_BUFFER_TOO_SMALL
  else if (← get).ctx.bufTail then return .STATUS_SUCCESS
  else if env.tailPool = false then return .STATUS_INSUFFICIENT_RESOURCES
  else
    setCtx fun ctx => { ctx with bufTail := true }
    return .STATUS_SUCCESS

def allocMdlBufTail (env : Env) (length : Nat) : M NTSTATUS := do
  let err ← allocBufTail env length
  if err ≠ .STATUS_SUCCESS then return err
  else if (← mdlSize (← get).ctx.mdlBufTail) = length then return .STATUS_SUCCESS
  else assignMdlBufTail env.tailMdl length

-- A bigger array takes the place of the old one.
def growIsoc (env : Env) (numberOfPackets isocLen : Nat) : M NTSTATUS := do
  if (← get).ctx.isocAllocCnt < numberOfPackets then
    if env.isocPool = false then return .STATUS_INSUFFICIENT_RESOURCES
    else
      setCtx fun ctx =>
        { ctx with isoc := some (List.replicate isocLen 0), isocAllocCnt := numberOfPackets }
      freeMdl (← get).ctx.mdlIsoc
      setCtx fun ctx => { ctx with mdlIsoc := none }
      return .STATUS_SUCCESS
  else return .STATUS_SUCCESS

def prepareIsoc (env : Env) (numberOfPackets : Nat) : M NTSTATUS := do
  setCtx fun ctx => { ctx with isIsoc := numberOfPackets != 0 }
  if numberOfPackets = 0 then return .STATUS_SUCCESS
  else
    let isocLen := sizeofIsoPacketDescriptor * numberOfPackets % 2 ^ 32
    let err ← growIsoc env numberOfPackets isocLen
    if err ≠ .STATUS_SUCCESS then return err
    else if (← mdlSize (← get).ctx.mdlIsoc) = isocLen then return .STATUS_SUCCESS
    else assignMdlIsoc env.isocMdl isocLen

-- A context of the lookaside list that is used again, by a send or by a receive thread.
def reuse (env : Env) (numberOfPackets : Nat) : M NTSTATUS := do
  freeMdl (← get).ctx.mdlBuf
  setCtx fun ctx => { ctx with mdlBuf := none, request := none }
  prepareIsoc env numberOfPackets

inductive LockOperation where
  | IoReadAccess
  | IoWriteAccess
  deriving DecidableEq, Repr

def URB_BUF_LEN : Nat := 2 ^ 32 - 1

-- `mdl = Mdl(...)` of `make_transfer_buffer_mdl`; the `mdl_buf` of the context is null before.
def assignMdlBuf (available : Bool) (buffer : Buffer) (length : Nat) : M NTSTATUS := do
  let mdl ← allocMdl available buffer length
  setCtx fun ctx => { ctx with mdlBuf := mdl }
  return if mdl = none then .STATUS_INSUFFICIENT_RESOURCES else .STATUS_SUCCESS

-- The MDL that is made of the transfer buffer, for the size that the two tests let through.
def mapTransferBuffer (env : Env) (mdlSize : Nat) (operation : LockOperation) (urb : Urb) : M NTSTATUS := do
  match urb.transferBufferMdl with
  | [head] =>
    if head.toNat < mdlSize ∧ operation = .IoReadAccess then return .STATUS_BUFFER_TOO_SMALL
    else assignMdlBuf env.bufMdl .transferBuffer (min head.toNat mdlSize) -- the caller chains the gap
  | head :: next :: rest =>
    if ((head :: next :: rest).map UInt32.toNat).sum % 2 ^ 32 < mdlSize then return .STATUS_BUFFER_TOO_SMALL
    else if env.bufAddress = false then return .STATUS_UNSUCCESSFUL
    else assignMdlBuf env.bufMdl .headMapping mdlSize
  | [] =>
    if urb.transferBuffer = false then return .STATUS_INVALID_PARAMETER
    else
      let st ← assignMdlBuf env.bufMdl .transferBuffer mdlSize
      if st = .STATUS_SUCCESS ∧ env.bufLock = false then
        freeMdl (← get).ctx.mdlBuf
        setCtx fun ctx => { ctx with mdlBuf := none }
        return .STATUS_LOCK_NOT_GRANTED
      else return st

def makeTransferBufferMdl (env : Env) (mdlSize : Nat) (operation : LockOperation) (urb : Urb) : M NTSTATUS := do
  let transferBufferLength := urb.transferBufferLength.toNat
  if mdlSize ≠ URB_BUF_LEN ∧ transferBufferLength < mdlSize then return .STATUS_INVALID_PARAMETER
  else
    let mdlSize := if mdlSize = URB_BUF_LEN then transferBufferLength else mdlSize
    if mdlSize = 0 then return .STATUS_SUCCESS else mapTransferBuffer env mdlSize operation urb

end Usbip.Wsk

import Usbip.Library.Runs
import Usbip.WskContext

namespace Usbip.Wsk

open Usbip.Library.Chain
open Usbip.Library.Runs
open Usbip.Library.Words

-- Services outside the driver: `USBD_ParseDescriptors` and the status of `UdecxUrbRetrieveBuffer`.
structure Services where
  parseDescriptors : ParseDescriptors
  retrieveBuffer : Urb → NTSTATUS

def check (transferBufferLength : UInt32) (actualLength : Int) : NTSTATUS :=
  if 0 ≤ actualLength ∧ actualLength ≤ transferBufferLength.toNat then .STATUS_SUCCESS
  else .STATUS_INVALID_BUFFER_SIZE

-- `assign`: the new length and the status.
def assignLength (transferBufferLength : UInt32) (actualLength : Int) : UInt32 × NTSTATUS :=
  let err := check transferBufferLength actualLength
  (if err = .STATUS_SUCCESS then ofSigned actualLength else 0, err)

def setUrb (f : Urb → Urb) : M Unit :=
  setCtx fun ctx => { ctx with request := ctx.request.map fun req => { req with urb := req.urb.map f } }

-- `UdecxUrbSetBytesCompleted`
def setBytesCompleted (length : UInt32) : M Unit := setUrb fun urb => { urb with transferBufferLength := length }

-- `get_urb`
def getUrb : M Urb := do
  match (← get).ctx.request.bind UdeRequest.urb with
  | some urb => return urb
  | none => throw .noUrb

-- Each walk over a chain without a cycle meets every MDL once at most.
def tail (p : Nat) : M Nat := do
  let heap := (← get).heap
  match lastFrom heap.next (heap.fresh + 1) p with
  | some last => return last
  | none => throw .endlessWalk

def makeMdlChain : M (Option Nat) := do
  let ctx := (← get).ctx
  match ctx.isIsoc, ctx.mdlBuf with
  | false, head => return head
  | true, some head =>
    let t ← tail head
    setNext (some t) ctx.mdlIsoc
    return some head
  | true, none => return ctx.mdlIsoc

-- The part of `prepare_wsk_mdl` that makes the MDL of the transfer buffer and chains the gap.
def makeBufChain (env : Env) (actualLength : Nat) (urb : Urb) : M (NTSTATUS × Bool) := do
  let err ← makeTransferBufferMdl env actualLength .IoWriteAccess urb
  if err ≠ .STATUS_SUCCESS then return (err, false)
  else
    let len ← mdlSize (← get).ctx.mdlBuf
    if actualLength ≤ len then return (.STATUS_SUCCESS, false)
    else
      let err ← allocMdlBufTail env (actualLength - len)
      if err ≠ .STATUS_SUCCESS then return (err, false)
      else
        let ctx := (← get).ctx
        setNext ctx.mdlBuf ctx.mdlBufTail
        return (.STATUS_SUCCESS, true)

-- The tests of `prepare_wsk_mdl`; a transfer that is not isochronous gets its length here.
def checkLength (transferBufferLength : UInt32) : M Bool := do
  let ctx := (← get).ctx
  if ctx.isIsoc then
    return check transferBufferLength ctx.hdr.actualLength = .STATUS_SUCCESS ∧ transferBufferLength ≠ 0
  else
    let (length, err) := assignLength transferBufferLength ctx.hdr.actualLength
    setBytesCompleted length
    return err = .STATUS_SUCCESS ∧ ctx.hdr.direction ≠ directionOut ∧ length ≠ 0

-- The payload of an OUT transfer has no transfer buffer.
def chainBuf (env : Env) : M (NTSTATUS × Bool) := do
  let hdr := (← get).ctx.hdr
  if hdr.direction = directionOut then return (.STATUS_SUCCESS, false)
  else makeBufChain env hdr.actualLength.toNat (← getUrb)

-- The last part of `prepare_wsk_mdl`
def makeChain (env : Env) : M (NTSTATUS × Option Nat × Bool) := do
  let (err, hasTail) ← chainBuf env
  if err ≠ .STATUS_SUCCESS then return (err, none, false)
  else return (.STATUS_SUCCESS, ← makeMdlChain, hasTail)

def prepareWskMdl (sys : Services) (env : Env) : M (NTSTATUS × Option Nat × Bool) := do
  let hdr := (← get).ctx.hdr
  let err ← prepareIsoc env hdr.numberOfPackets.toNat
  if err ≠ .STATUS_SUCCESS then return (err, none, false)
  else
    setRound fun round => { round with prepared := some hdr.numberOfPackets.toNat }
    let urb ← getUrb
    let err := sys.retrieveBuffer urb
    if err ≠ .STATUS_SUCCESS then return (err, none, false)
    else if (← checkLength urb.transferBufferLength) = false then
      return (.STATUS_INVALID_BUFFER_SIZE, none, false)
    else makeChain env

-- Bytes of the socket arrive in the memory of an MDL.
def deliver (buffer : Buffer) (bytes : List Byte) : M Unit := do
  setRound fun round => { round with writes := round.writes ++ [(buffer, bytes)] }
  match buffer with
  | .header => setCtx fun ctx => { ctx with hdr := Header.ofBytes bytes }
  | .transferBuffer => setUrb fun urb => { urb with memory := bytes ++ urb.memory.drop bytes.length }
  | .headMapping => setUrb fun urb => { urb with memory := storeAt urb.mapping 0 bytes urb.memory }
  | .isoc =>
    match (← get).ctx.isoc with
    | some isoc =>
      if bytes.length ≤ isoc.length then
        setCtx fun ctx => { ctx with isoc := some (bytes ++ isoc.drop bytes.length) }
      else throw .outOfBounds
    | none => throw .outOfBounds
  | .bufTail | .payload => return

-- WskReceive fills the MDLs in order.
def scatter : Nat → Option Nat → List Byte → M Unit
  | _, _, [] => return
  | 0, _, _ => throw .endlessWalk
  | _ + 1, none, _ => throw .shortChain
  | fuel + 1, some p, bytes => do
    let mdl ← readMdl p
    deliver mdl.buffer (bytes.take mdl.byteCount)
    scatter fuel mdl.next (bytes.drop mdl.byteCount)

-- WskReceive with WSK_FLAG_WAITALL; less arrives only when the connection ends.
def receive (status : NTSTATUS) (mdl : Option Nat) (length : Nat) : M NTSTATUS := do
  if status.isSuccess = false then return status
  else
    let s ← get
    let bytes := s.stream.take length
    modify fun s => { s with stream := s.stream.drop length }
    scatter ((bytes.length + 1) * (s.heap.fresh + 1)) mdl bytes
    return if bytes.length = length then .STATUS_SUCCESS
      else if bytes.length = 0 then .STATUS_CONNECTION_DISCONNECTED
      else .STATUS_RECEIVE_PARTIAL

-- `make_mdl` and the receive that goes nowhere.
def drainPayload (env : Env) (length : Nat) : M NTSTATUS := do
  if 2 ^ 32 ≤ length then return .STATUS_INVALID_PARAMETER
  else if env.payloadPool = false then return .STATUS_INSUFFICIENT_RESOURCES
  else
    let mdl ← allocMdl env.payloadMdl .payload length
    setCtx fun ctx => { ctx with mdlBuf := mdl }
    if mdl = none then return .STATUS_INSUFFICIENT_RESOURCES
    else receive env.receivePayload mdl length

def recvPayload (sys : Services) (env : Env) (length : Nat) : M NTSTATUS := do
  let (err, mdl, hasTail) ← prepareWskMdl sys env
  if err ≠ .STATUS_SUCCESS then return err
  else
    let s ← get
    setRound fun round =>
      { round with
        handed := some { heap := s.heap, ctx := s.ctx, hasTail := hasTail, mdl := mdl, length := length } }
    receive env.receivePayload mdl length

-- `byteswap` reads and writes `cnt` descriptors before anything else does.
def swapIsoc (cnt : Nat) : M (List Byte) := do
  let s ← get
  let use : IsocUse :=
    { cnt := cnt, isoc := s.ctx.isoc, prepared := s.round.prepared, writes := s.round.writes }
  setRound fun round => { round with uses := round.uses ++ [use] }
  match s.ctx.isoc with
  | some isoc =>
    if sizeofIsoPacketDescriptor * cnt ≤ isoc.length then
      let isoc := byteswapIsoc isoc cnt
      setCtx fun ctx => { ctx with isoc := some isoc }
      return isoc
    else throw .outOfBounds
  | none => if cnt = 0 then return [] else throw .outOfBounds

-- What `isoch_transfer` sets in the URB before it looks at the packets.
def setIsochHeader (hdr : Header) (urb : Urb) : Urb :=
  let urb := { urb with errorCount := hdr.errorCount }
  let urb :=
    if hdr.numberOfPackets ≠ 0 ∧ hdr.numberOfPackets = hdr.errorCount then
      { urb with status := .ISOCH_REQUEST_FAILED }
    else urb
  if urb.transferFlags &&& USBD_START_ISO_TRANSFER_ASAP ≠ 0 then { urb with startFrame := hdr.startFrame }
  else urb

def isochTransfer (sys : Services) (urb : Urb) : M NTSTATUS := do
  let hdr := (← get).ctx.hdr
  let cnt := hdr.numberOfPackets
  let urb := setIsochHeader hdr urb
  setUrb fun _ => urb
  if cnt = urb.numberOfPackets.toNat then
    let isoc ← swapIsoc cnt.toNat
    let dirOut := hdr.direction ≠ directionIn
    let err := if dirOut then .STATUS_SUCCESS else sys.retrieveBuffer urb
    if err ≠ .STATUS_SUCCESS then return err
    else
      match fillIsocData urb dirOut (ofSigned hdr.actualLength) isoc with
      | some (st, urb) =>
        setUrb fun _ => urb
        return st
      | none => throw .outOfBounds
  else return .STATUS_INVALID_PARAMETER

def USB_REQUEST_GET_DESCRIPTOR : Byte := 6
def USB_DEVICE_DESCRIPTOR_TYPE : Byte := 1
def USB_CONFIGURATION_DESCRIPTOR_TYPE : Byte := 2

-- `post_control_transfer`: the configuration descriptor is patched and a missing serial
-- number is given an index.
def postControlTransfer (sys : Services) (urb : Urb) : M Unit := do
  let dscLen := urb.transferBufferLength.toNat % 2 ^ 16
  let dirIn := match urb.setupPacket[0]? with
    | some requestType => decide (128 ≤ requestType.toNat)
    | none => false
  if urb.transferFlags &&& USBD_DEFAULT_PIPE_TRANSFER = 0 ∨ dirIn = false ∨
      urb.setupPacket[1]? ≠ some USB_REQUEST_GET_DESCRIPTOR ∨ dscLen < 2 then return
  else if urb.memory.length < dscLen then throw .outOfBounds
  else
    let bLength := urb.memory.getD 0 0
    let bDescriptorType := urb.memory.getD 1 0
    if bDescriptorType = USB_CONFIGURATION_DESCRIPTOR_TYPE ∧ 9 < dscLen ∧ bLength = 9 ∧
        wTotalLength urb.memory = some dscLen then
      match patchConfigurationForUdecx sys.parseDescriptors (urb.memory.take dscLen) (← get).dev.speed with
      | some patched => setUrb fun urb => { urb with memory := patched ++ urb.memory.drop dscLen }
      | none => throw .outOfBounds
    else if bDescriptorType = USB_DEVICE_DESCRIPTOR_TYPE ∧ dscLen = 18 ∧ bLength = 18 ∧
        (← get).dev.serial = true then
      let index := if urb.memory.getD 16 0 = 0 then 255 else urb.memory.getD 16 0
      setUrb fun urb => { urb with memory := urb.memory.set 16 index }
      modify fun s => { s with dev := { s.dev with iserial := index } }
    else return

-- `post_process_transfer_buffer`
def postProcessTransferBuffer (sys : Services) (urb : Urb) : M Unit :=
  if urb.function = .controlTransfer then postControlTransfer sys urb else pure ()

-- `prepare_wsk_mdl` can have set the length.
def completedLength (transferBufferLength : UInt32) (actualLength : Int) : UInt32 × NTSTATUS :=
  if transferBufferLength = ofSigned actualLength then (transferBufferLength, .STATUS_SUCCESS)
  else assignLength transferBufferLength actualLength

def setCompletedLength (sys : Services) (urb : Urb) (st : NTSTATUS) : M NTSTATUS := do
  setBytesCompleted urb.transferBufferLength
  if st = .STATUS_SUCCESS ∧ urb.transferBufferLength ≠ 0 then
    postProcessTransferBuffer sys urb
    return st
  else return st

def retSubmitUrb (sys : Services) (urb : Urb) : M NTSTATUS := do
  let hdr := (← get).ctx.hdr
  let urb := { urb with status := if hdr.status ≠ 0 then toWindowsStatus hdr.status else .SUCCESS }
  setUrb fun _ => urb
  if isIsoch urb then isochTransfer sys urb
  else
    let err := sys.retrieveBuffer urb
    if err = .STATUS_INVALID_PARAMETER then return .STATUS_SUCCESS
    else if err ≠ .STATUS_SUCCESS then return err
    else
      let (length, st) := completedLength urb.transferBufferLength hdr.actualLength
      setCompletedLength sys { urb with transferBufferLength := length } st

def retSubmit (sys : Services) : M NTSTATUS := do
  let ctx := (← get).ctx
  match ctx.request.bind UdeRequest.urb with
  | some urb => retSubmitUrb sys urb
  | none => return if ctx.hdr.status ≠ 0 then .STATUS_UNSUCCESSFUL else .STATUS_SUCCESS

-- The header in the byte order of the host, if it is acceptable.
def validateHeader (hdr : Header) : Option Header :=
  let hdr := byteswapHeader hdr .net2host
  let accept (hdr : Header) : Option Header :=
    if isValidSeqnum hdr.seqnum then some { hdr with direction := extractDir hdr.seqnum } else none
  if hdr.command = RET_SUBMIT then
    if hdr.numberOfPackets = numberOfPacketsNonIsoch then accept { hdr with u3 := 0 }
    else if isValidNumberOfPackets hdr.numberOfPackets then accept hdr
    else none
  else if hdr.command = RET_UNLINK then accept hdr
  else none

-- `mdl_buf.reset()` and `mdl_hdr.next(nullptr)`
def resetHeader : M Unit := do
  freeMdl (← get).ctx.mdlBuf
  setCtx fun ctx => { ctx with mdlBuf := none }
  setNext (some (← get).ctx.mdlHdr) none

def recvUsbipHeader (env : Env) : M NTSTATUS := do
  resetHeader
  let err ← receive env.receiveHeader (some (← get).ctx.mdlHdr) Header.size
  if err ≠ .STATUS_SUCCESS then return err
  else
    match validateHeader (← get).ctx.hdr with
    | some hdr =>
      setCtx fun ctx => { ctx with hdr := hdr }
      return .STATUS_SUCCESS
    | none => return .STATUS_INVALID_PARAMETER

-- `complete_and_set_null`
def completeAndSetNull (st : NTSTATUS) : M Unit := do
  match (← get).ctx.request with
  | some req =>
    let cancel (urb : Urb) : Urb :=
      if st = .STATUS_CANCELLED ∧ urb.status = .PENDING then { urb with status := .CANCELED } else urb
    setRound fun round => { round with completed := some ({ req with urb := req.urb.map cancel }, st) }
    setCtx fun ctx => { ctx with request := none }
  | none => return

-- The body of the loop of `recv_loop`, for a header that was accepted: the payload first, if there is
-- one, then the request, if there is one.
def recvReplyPayload (sys : Services) (env : Env) : M NTSTATUS := do
  let ctx := (← get).ctx
  let sz := getPayloadSize ctx.hdr
  if sz = 0 then return .STATUS_SUCCESS
  else if env.unpluggedLater then return .STATUS_CANCELLED
  else if ctx.request.isSome then recvPayload sys env sz
  else drainPayload env sz

def recvReplyStatus (sys : Services) (status : NTSTATUS) : M NTSTATUS := do
  if status = .STATUS_SUCCESS ∧ (← get).ctx.request.isSome then retSubmit sys else return status

def recvReply (sys : Services) (env : Env) : M Bool := do
  setCtx fun ctx => { ctx with request := if ctx.hdr.command = RET_SUBMIT then env.request else none }
  let status ← recvReplyPayload sys env
  let st ← recvReplyStatus sys status
  completeAndSetNull st
  return status = .STATUS_SUCCESS

-- One round of `recv_loop`; the result tells whether there is a next one.
def recvRound (sys : Services) (env : Env) : M Bool := do
  setRound fun _ => {}
  if env.unplugged then return false
  else if (← recvUsbipHeader env) ≠ .STATUS_SUCCESS then return false
  else recvReply sys env

-- `recv_loop` as long as it continues, with what the services answer in each round.
def recvLoop (sys : Services) : List Env → State → Option State
  | [], st => some st
  | env :: rest, st =>
    match recvRound sys env st with
    | .ok true st => recvLoop sys rest st
    | _ => none

-- The life of a context: rounds of a receive thread, and the other uses that it is put to. The
-- links that a send makes start at the header, where a receive begins anew.
inductive Action where
  | round (env : Env)
  | reuse (env : Env) (numberOfPackets : Nat) (dev : DeviceProperties) (stream : List Byte)

def step (sys : Services) (st : State) : Action → Option State
  | .round env =>
    if st.running then
      match recvRound sys env st with
      | .ok running st => some { st with running := running }
      | .error _ _ => none
    else none
  | .reuse env numberOfPackets dev stream =>
    if maxIsoPackets < numberOfPackets then none -- a URB with more of them is rejected
    else
      match reuse env numberOfPackets { st with dev := dev, stream := stream, round := {} } with
      | .ok .STATUS_SUCCESS st => some { st with running := numberOfPackets = 0 }
      | _ => none

-- A context as `allocate_function_ex` makes it.
def machine (sys : Services) : Machine State Action where
  init st := ∃ dev stream, st =
    { heap := { fresh := 1, mdl := fun p => if p = 0 then some { byteCount := Header.size, buffer := .header } else none }
      ctx := { mdlHdr := 0 }
      dev := dev
      stream := stream }
  step := step sys

end Usbip.Wsk

import Usbip.Library.Stream
import Usbip.Transfers
import Usbip.WskReceive

namespace Usbip.Send

open Usbip.Library.Runs
open Usbip.Library.Words
open Usbip.Wsk

-- `USB_DEFAULT_PIPE_SETUP_PACKET`
structure SetupPacket where
  bmRequestType : Byte
  bRequest : Byte
  wValueLow : Byte := 0
  wValueHigh : Byte := 0
  wIndexLow : Byte := 0
  wIndexHigh : Byte := 0
  wLengthLow : Byte := 0
  wLengthHigh : Byte := 0
  deriving DecidableEq, Repr

namespace SetupPacket

def bytes (s : SetupPacket) : List Byte :=
  [s.bmRequestType, s.bRequest, s.wValueLow, s.wValueHigh, s.wIndexLow, s.wIndexHigh, s.wLengthLow, s.wLengthHigh]

-- The packet whose storage holds these bytes.
def ofBytes (bytes : List Byte) : SetupPacket where
  bmRequestType := bytes.getD 0 0
  bRequest := bytes.getD 1 0
  wValueLow := bytes.getD 2 0
  wValueHigh := bytes.getD 3 0
  wIndexLow := bytes.getD 4 0
  wIndexHigh := bytes.getD 5 0
  wLengthLow := bytes.getD 6 0
  wLengthHigh := bytes.getD 7 0

def wLength (s : SetupPacket) : UInt16 := le16 s.wLengthLow s.wLengthHigh

-- `is_transfer_dir_out`
def dirOut (s : SetupPacket) : Bool := decide (s.bmRequestType < 128)

end SetupPacket

def USB_ENDPOINT_DESCRIPTOR_TYPE : Byte := 5
def sizeofEndpointDescriptor : Byte := 7

structure EndpointDescriptor where
  bLength : Byte := sizeofEndpointDescriptor
  bDescriptorType : Byte := USB_ENDPOINT_DESCRIPTOR_TYPE
  bEndpointAddress : Byte := 0
  bmAttributes : Byte := 0
  bInterval : Byte := 0
  deriving DecidableEq, Repr

def usbEndpointNum (epd : EndpointDescriptor) : Byte := epd.bEndpointAddress &&& 15
def usbEndpointType (epd : EndpointDescriptor) : Byte := epd.bmAttributes &&& 3
def usbEndpointDirOut (epd : EndpointDescriptor) : Bool := epd.bEndpointAddress &&& 128 == 0

def usbDefaultControlPipe (epd : EndpointDescriptor) : Bool :=
  epd.bLength == sizeofEndpointDescriptor && epd.bDescriptorType == USB_ENDPOINT_DESCRIPTOR_TYPE &&
    epd.bEndpointAddress == 0 && usbEndpointType epd == 0

-- The fields of the device that commands are made of.
structure DeviceCtx where
  seqnum : UInt32 := 0
  devid : UInt32 := 0
  ep0 : EndpointDescriptor := {}
  iserial : Byte := 0
  deriving DecidableEq, Repr

def USBD_TRANSFER_DIRECTION_IN : UInt32 := 1
def USBD_SHORT_TRANSFER_OK : UInt32 := 2

def isTransferDirectionOut (transferFlags : UInt32) : Bool := transferFlags &&& USBD_TRANSFER_DIRECTION_IN == 0

def fixTransferFlags (transferFlags : UInt32) (dirOut : Bool) : UInt32 :=
  let inFlags := USBD_SHORT_TRANSFER_OK ||| USBD_TRANSFER_DIRECTION_IN
  if isTransferDirectionOut transferFlags = dirOut then transferFlags
  else if dirOut then transferFlags &&& ~~~inFlags
  else transferFlags ||| inFlags

def URB_SHORT_NOT_OK : UInt32 := 1
def URB_ISO_ASAP : UInt32 := 2

def toLinuxFlags (transferFlags : UInt32) (dirIn : Bool) : UInt32 :=
  if transferFlags &&& USBD_START_ISO_TRANSFER_ASAP ≠ 0 then URB_ISO_ASAP
  else if dirIn ∧ transferFlags &&& USBD_SHORT_TRANSFER_OK = 0 then URB_SHORT_NOT_OK
  else 0

-- `setupOut` is the direction in the setup packet of a control transfer.
def setCmdSubmitUsbipHeader (hdr : Header) (dev : DeviceCtx) (epd : EndpointDescriptor)
    (transferFlags transferBufferLength : UInt32) (setupOut : Option Bool) : Except NTSTATUS (Header × DeviceCtx) :=
  if transferFlags &&& USBD_DEFAULT_PIPE_TRANSFER ≠ 0 ∧ usbDefaultControlPipe epd = false then
    .error .STATUS_INVALID_PARAMETER
  else
    let dirOut := setupOut.getD (usbEndpointDirOut epd)
    let (counter, seqnum) := Device.nextSeqnum dev.seqnum (!dirOut)
    .ok
      ({ hdr with
         command := CMD_SUBMIT
         seqnum := seqnum
         devid := dev.devid
         direction := if dirOut then directionOut else directionIn
         ep := (usbEndpointNum epd).toUInt32
         u0 := toLinuxFlags (fixTransferFlags transferFlags dirOut) (!dirOut)
         u1 := transferBufferLength
         u2 := 0
         u3 := ofSigned numberOfPacketsNonIsoch
         u4 := epd.bInterval.toUInt32
         u5 := 0
         u6 := 0 },
        { dev with seqnum := counter })

def setCmdUnlinkUsbipHeader (hdr : Header) (dev : DeviceCtx) (seqnumUnlink : Seqnum) : Header × DeviceCtx :=
  let (counter, seqnum) := Device.nextSeqnum dev.seqnum false
  ({ hdr with
     command := CMD_UNLINK
     devid := dev.devid
     direction := directionOut
     seqnum := seqnum
     ep := 0
     u0 := seqnumUnlink },
    { dev with seqnum := counter })

-- The copy to `cmd_submit.setup`
def setSetup (hdr : Header) (s : SetupPacket) : Header :=
  { hdr with
    u5 := le32 s.bmRequestType s.bRequest s.wValueLow s.wValueHigh
    u6 := le32 s.wIndexLow s.wIndexHigh s.wLengthLow s.wLengthHigh }

-- What the URB says that the transfer buffer of a packed request points at.
structure PackedUrb where
  endpointAddress : Option Byte := none
  interfaceNumber : Byte := 0
  alternateSetting : Byte := 0
  configurationValue : Option Byte := none
  deriving DecidableEq, Repr

-- A URB whose length is one of `cmd_submit`, with what else the control transfers read.
structure TransferUrb extends Urb where
  timeout : UInt32 := 0
  packed : PackedUrb := {}
  lt : transferBufferLength.toNat < 2 ^ 31

-- `WSK_BUF` without its offset, which is zero.
structure WskBuf where
  mdl : Option Nat
  length : Nat
  deriving DecidableEq, Repr

-- How a handler ends, with the buffer that is left to WskSend.
structure Outcome where
  status : NTSTATUS
  dev : DeviceCtx
  buf : Option WskBuf := none
  deriving DecidableEq, Repr

-- `requestCtx` stands for the context of the request, the next two for `fill_usb_device_serial`.
structure SendEnv extends Wsk.Env where
  requestCtx : NTSTATUS := .STATUS_SUCCESS
  serialLength : NTSTATUS := .STATUS_SUCCESS
  retrieveBuffer : NTSTATUS := .STATUS_SUCCESS

-- `alloc_wsk_context` with a context of the lookaside list.
def allocWskContext (env : SendEnv) (request : Option UdeRequest) (numberOfPackets : Nat) : M NTSTATUS := do
  let err ← reuse env.toEnv numberOfPackets
  setCtx fun ctx => { ctx with request := request }
  return err

-- `byteswap(ctx.isoc, number_of_packets(ctx))` and the link from the tail to the descriptors.
def appendIsoc : M Unit := do
  let cnt := (← mdlSize (← get).ctx.mdlIsoc) / sizeofIsoPacketDescriptor
  let ctx := (← get).ctx
  match ctx.isoc with
  | some isoc =>
    if sizeofIsoPacketDescriptor * cnt ≤ isoc.length then
      setCtx fun ctx => { ctx with isoc := some (byteswapIsoc isoc cnt) }
      let t ← Wsk.tail ctx.mdlHdr
      setNext (some t) ctx.mdlIsoc
    else throw .outOfBounds
  | none => throw .outOfBounds

def makeBuf (env : SendEnv) (transferBuffer : Option Urb) : M NTSTATUS := do
  match transferBuffer with
  | some urb =>
    if (← get).ctx.hdr.direction = directionOut then
      makeTransferBufferMdl env.toEnv URB_BUF_LEN .IoReadAccess urb
    else return .STATUS_SUCCESS
  | none => return .STATUS_SUCCESS

def prepareWskBuf (env : SendEnv) (transferBuffer : Option Urb) : M (Except NTSTATUS WskBuf) := do
  let err ← makeBuf env transferBuffer
  if err ≠ .STATUS_SUCCESS then return .error err
  else
    let ctx := (← get).ctx
    setNext (some ctx.mdlHdr) ctx.mdlBuf
    if ctx.isIsoc then
      appendIsoc
      return .ok { mdl := some ctx.mdlHdr, length := getTotalSize ctx.hdr }
    else return .ok { mdl := some ctx.mdlHdr, length := getTotalSize ctx.hdr }

def send (env : SendEnv) (dev : DeviceCtx) (transferBuffer : Option Urb) : M Outcome := do
  match ← prepareWskBuf env transferBuffer with
  | .error err => return { status := err, dev := dev }
  | .ok buf =>
    setCtx fun ctx => { ctx with hdr := byteswapHeader ctx.hdr .host2net }
    return { status := .STATUS_PENDING, dev := dev, buf := some buf }

def USB_STRING_DESCRIPTOR_TYPE : Byte := 3

def getDeviceStringDescr (s : SetupPacket) : Byte :=
  if s.bmRequestType = 128 ∧ s.bRequest = USB_REQUEST_GET_DESCRIPTOR ∧ s.wValueHigh = USB_STRING_DESCRIPTOR_TYPE then
    s.wValueLow
  else 0

def fillUsbDeviceSerial (env : SendEnv) (urb : Urb) : NTSTATUS :=
  if urb.transferBufferLength < 2 then .STATUS_BUFFER_TOO_SMALL
  else if env.serialLength ≠ .STATUS_SUCCESS then env.serialLength
  else env.retrieveBuffer

def makeSetConfiguration (configurationValue : Byte) : SetupPacket :=
  { bmRequestType := 0, bRequest := 9, wValueLow := configurationValue }

def makeSetInterface (interfaceNumber alternateSetting : Byte) : SetupPacket :=
  { bmRequestType := 1, bRequest := 11, wValueLow := alternateSetting, wIndexLow := interfaceNumber }

def makeClearEndpointStall (endpointAddress : Byte) : SetupPacket :=
  { bmRequestType := 2, bRequest := 1, wIndexLow := endpointAddress }

def USB_RT_PORT : Byte := 35

def makeResetPort (port : UInt16) : SetupPacket :=
  { bmRequestType := USB_RT_PORT
    bRequest := 3
    wValueLow := 4
    wIndexLow := UInt8.ofNat port.toNat
    wIndexHigh := UInt8.ofNat (port.toNat / 2 ^ 8) }

-- `filter::impl::setup_packet`
def filterSetupPacket : SetupPacket := { bmRequestType := 128, bRequest := 26, wIndexLow := 255, wIndexHigh := 255 }

def isRequest (urb : TransferUrb) : Bool :=
  urb.timeout &&& 0xFFFF0000 == 0xFFFF0000 &&
    urb.transferFlags == USBD_DEFAULT_PIPE_TRANSFER ||| USBD_TRANSFER_DIRECTION_IN &&
    SetupPacket.ofBytes urb.setupPacket == filterSetupPacket

def getFunction (urb : TransferUrb) : Nat := urb.timeout.toNat % 2 ^ 16

def URB_FUNCTION_SELECT_CONFIGURATION : Nat := 0
def URB_FUNCTION_SELECT_INTERFACE : Nat := 1
def URB_FUNCTION_SYNC_RESET_PIPE_AND_CLEAR_STALL : Nat := 30
def URB_FUNCTION_SYNC_RESET_PIPE : Nat := 48
def URB_FUNCTION_SYNC_CLEAR_STALL : Nat := 49

-- The setup packet that takes the place of the packed request.
def unpackSetup (packed : PackedUrb) (function : Nat) : Except NTSTATUS SetupPacket :=
  if function = URB_FUNCTION_SYNC_RESET_PIPE_AND_CLEAR_STALL ∨ function = URB_FUNCTION_SYNC_RESET_PIPE ∨
      function = URB_FUNCTION_SYNC_CLEAR_STALL then
    match packed.endpointAddress with
    | some address => .ok (makeClearEndpointStall address)
    | none => .error .STATUS_INVALID_HANDLE
  else if function = URB_FUNCTION_SELECT_INTERFACE then
    .ok (makeSetInterface packed.interfaceNumber packed.alternateSetting)
  else if function = URB_FUNCTION_SELECT_CONFIGURATION then
    .ok (makeSetConfiguration (packed.configurationValue.getD 0))
  else .error .STATUS_INVALID_PARAMETER

def unpackRequest (urb : TransferUrb) : Except NTSTATUS Urb :=
  if isRequest urb then
    (unpackSetup urb.packed (getFunction urb)).map fun pkt =>
      { urb.toUrb with
        transferFlags := urb.transferFlags ^^^ USBD_TRANSFER_DIRECTION_IN
        setupPacket := pkt.bytes }
  else .ok urb.toUrb

-- The rest of a control transfer, once the request is unpacked and its length is checked.
def sendControl (env : SendEnv) (dev : DeviceCtx) (epd : EndpointDescriptor) (urb : Urb) : M Outcome := do
  let pkt := SetupPacket.ofBytes urb.setupPacket
  let err ← allocWskContext env (some { urb := some urb }) 0
  if err ≠ .STATUS_SUCCESS then return { status := .STATUS_INSUFFICIENT_RESOURCES, dev := dev }
  else
    match setCmdSubmitUsbipHeader (← get).ctx.hdr dev epd urb.transferFlags pkt.wLength.toUInt32
      (some pkt.dirOut) with
    | .error err => return { status := err, dev := dev }
    | .ok (hdr, dev) =>
      setCtx fun ctx => { ctx with hdr := setSetup hdr pkt }
      send env dev (some urb)

def controlTransfer (env : SendEnv) (dev : DeviceCtx) (epd : EndpointDescriptor) (urb : TransferUrb) : M Outcome := do
  match unpackRequest urb with
  | .error err => return { status := err, dev := dev }
  | .ok urb =>
    let pkt := SetupPacket.ofBytes urb.setupPacket
    let idx := getDeviceStringDescr pkt
    if urb.transferBufferLength < pkt.wLength.toUInt32 then return { status := .STATUS_INVALID_PARAMETER, dev := dev }
    else if idx ≠ 0 ∧ idx = dev.iserial ∧ (fillUsbDeviceSerial env urb).isSuccess then
      return { status := fillUsbDeviceSerial env urb, dev := dev }
    else sendControl env dev epd urb

def bulkOrInterruptTransfer (env : SendEnv) (dev : DeviceCtx) (epd : EndpointDescriptor) (urb : Urb) : M Outcome := do
  let err ← allocWskContext env (some { urb := some urb }) 0
  if err ≠ .STATUS_SUCCESS then return { status := .STATUS_INSUFFICIENT_RESOURCES, dev := dev }
  else
    match setCmdSubmitUsbipHeader (← get).ctx.hdr dev epd urb.transferFlags urb.transferBufferLength none with
    | .error err => return { status := err, dev := dev }
    | .ok (hdr, dev) =>
      setCtx fun ctx => { ctx with hdr := hdr }
      send env dev (some urb)

def IsoPacketDescriptor.bytes (d : IsoPacketDescriptor) : List Byte :=
  bytes32 d.offset ++ bytes32 d.length ++ bytes32 d.actualLength ++ bytes32 d.status

-- The loop of `repack`: the descriptors it has written when it ends.
def repackPackets (transferBufferLength : UInt32) : List IsoPacket → List IsoPacketDescriptor × NTSTATUS
  | [] => ([], .STATUS_SUCCESS)
  | packet :: rest =>
    let offset := packet.offset
    let nextOffset := (rest.head?.map IsoPacket.offset).getD transferBufferLength
    if offset ≤ nextOffset ∧ nextOffset ≤ transferBufferLength then
      let (descriptors, st) := repackPackets transferBufferLength rest
      ({ offset := offset, length := nextOffset - offset, actualLength := 0, status := 0 } :: descriptors, st)
    else ([], .STATUS_INVALID_PARAMETER)

def repack (urb : Urb) : M NTSTATUS := do
  let n := urb.numberOfPackets.toNat
  if urb.isoPacket.length < n then throw .outOfBounds
  else
    let (descriptors, st) := repackPackets urb.transferBufferLength (urb.isoPacket.take n)
    let bytes := descriptors.flatMap IsoPacketDescriptor.bytes
    let isoc := (← get).ctx.isoc.getD []
    if bytes.length ≤ isoc.length then
      setCtx fun ctx => { ctx with isoc := ctx.isoc.map fun isoc => bytes ++ isoc.drop bytes.length }
      return st
    else throw .outOfBounds

def isochTransfer (env : SendEnv) (dev : DeviceCtx) (epd : EndpointDescriptor) (urb : Urb) : M Outcome := do
  if maxIsoPackets < urb.numberOfPackets.toNat then return { status := .STATUS_INVALID_PARAMETER, dev := dev }
  else
    let err ← allocWskContext env (some { urb := some urb }) urb.numberOfPackets.toNat
    if err ≠ .STATUS_SUCCESS then return { status := .STATUS_INSUFFICIENT_RESOURCES, dev := dev }
    else
      match setCmdSubmitUsbipHeader (← get).ctx.hdr dev epd (urb.transferFlags ||| USBD_START_ISO_TRANSFER_ASAP)
        urb.transferBufferLength none with
      | .error err => return { status := err, dev := dev }
      | .ok (hdr, dev) =>
        setCtx fun ctx => { ctx with hdr := hdr }
        let err ← repack urb
        if err ≠ .STATUS_SUCCESS then return { status := err, dev := dev }
        else
          setCtx fun ctx =>
            { ctx with hdr := { ctx.hdr with u2 := ofSigned urb.startFrame, u3 := urb.numberOfPackets } }
          send env dev (some urb)

def usbSubmitUrb (env : SendEnv) (dev : DeviceCtx) (epd : EndpointDescriptor) (urb : TransferUrb) : M Outcome := do
  if env.requestCtx ≠ .STATUS_SUCCESS then return { status := env.requestCtx, dev := dev }
  else
    match urb.function with
    | .bulkOrInterruptTransfer => bulkOrInterruptTransfer env dev epd urb.toUrb
    | .isochTransfer => isochTransfer env dev epd urb.toUrb
    | .controlTransfer => controlTransfer env dev epd urb
    | .other => return { status := .STATUS_NOT_SUPPORTED, dev := dev }

def sendEp0Out (env : SendEnv) (dev : DeviceCtx) (setup : SetupPacket) : M Outcome := do
  let err ← allocWskContext env (some {}) 0
  if err ≠ .STATUS_SUCCESS then return { status := .STATUS_INSUFFICIENT_RESOURCES, dev := dev }
  else
    match setCmdSubmitUsbipHeader (← get).ctx.hdr dev dev.ep0 USBD_DEFAULT_PIPE_TRANSFER 0 (some true) with
    | .error err => return { status := err, dev := dev }
    | .ok (hdr, dev) =>
      setCtx fun ctx => { ctx with hdr := setSetup hdr setup }
      send env dev none

-- The part of `send_cmd_unlink_and_complete` that sends.
def sendCmdUnlink (env : SendEnv) (dev : DeviceCtx) (seqnum : Seqnum) : M Outcome := do
  let err ← allocWskContext env none 0
  if err ≠ .STATUS_SUCCESS then return { status := .STATUS_INSUFFICIENT_RESOURCES, dev := dev }
  else
    let (hdr, dev) := setCmdUnlinkUsbipHeader (← get).ctx.hdr dev seqnum
    setCtx fun ctx => { ctx with hdr := hdr }
    send env dev none

-- The requests that the driver makes of its own on the default control pipe.
inductive Ep0Request where
  | setConfiguration (configurationValue : Byte)
  | setInterface (interfaceNumber alternateSetting : Byte)
  | clearEndpointStall (endpointAddress : Byte)
  | resetPort (port : UInt16)
  deriving DecidableEq, Repr

def Ep0Request.setup : Ep0Request → SetupPacket
  | .setConfiguration configurationValue => makeSetConfiguration configurationValue
  | .setInterface interfaceNumber alternateSetting => makeSetInterface interfaceNumber alternateSetting
  | .clearEndpointStall endpointAddress => makeClearEndpointStall endpointAddress
  | .resetPort port => makeResetPort port

inductive Request where
  | submit (epd : EndpointDescriptor) (urb : TransferUrb)
  | ep0Out (request : Ep0Request)
  | unlink (seqnum : Seqnum)

def handle (env : SendEnv) (dev : DeviceCtx) : Request → M Outcome
  | .submit epd urb => usbSubmitUrb env dev epd urb
  | .ep0Out request => sendEp0Out env dev request.setup
  | .unlink seqnum => sendCmdUnlink env dev seqnum

-- What the MDLs that are made of a transfer buffer describe, byte by byte: the buffer itself, or what the mapping of
-- the first MDL of a chain leads to.
def memoryOf (urb : Urb) : Buffer → Nat → Byte
  | .headMapping, i => (urb.mapping i).read urb.memory
  | _, i => urb.memory.getD i 0

def Request.memory : Request → Buffer → Nat → Byte
  | .submit _ urb => memoryOf urb.toUrb
  | .ep0Out _ | .unlink _ => fun _ _ => 0

-- The bytes that an MDL of a context describes, given those of the transfer buffer.
def readBuffer (ctx : WskContext) (memory : Buffer → Nat → Byte) (mdl : MDL) : List Byte :=
  let byte (i : Nat) : Byte := match mdl.buffer with
    | .header => ctx.hdr.bytes.getD i 0
    | .transferBuffer => memory .transferBuffer i
    | .headMapping => memory .headMapping i
    | .isoc => (ctx.isoc.getD []).getD i 0
    | .bufTail | .payload => 0
  (List.range mdl.byteCount).map byte

-- WskSend reads the MDLs in order until it has `length` bytes.
def gather (heap : Heap) (ctx : WskContext) (memory : Buffer → Nat → Byte) : Nat → Option Nat → Nat → Option (List Byte)
  | _, _, 0 => some []
  | 0, _, _ + 1 => none
  | _ + 1, none, _ + 1 => none
  | fuel + 1, some p, length + 1 =>
    match heap.mdl p with
    | none => none
    | some mdl =>
      let bytes := (readBuffer ctx memory mdl).take (length + 1)
      (gather heap ctx memory fuel mdl.next (length + 1 - bytes.length)).map (bytes ++ ·)

def transmitted (st : Wsk.State) (memory : Buffer → Nat → Byte) (buf : WskBuf) : Option (List Byte) :=
  gather st.heap st.ctx memory ((buf.length + 1) * (st.heap.fresh + 1)) buf.mdl buf.length

end Usbip.Send

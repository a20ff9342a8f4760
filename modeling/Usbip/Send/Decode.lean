import Usbip.Send

namespace Usbip.Send

open Usbip.Library.Stream
open Usbip.Library.Words

-- The commands of the protocol, with what follows their headers.
structure CmdSubmit where
  seqnum : UInt32
  devid : UInt32
  direction : UInt32
  ep : UInt32
  transferFlags : UInt32
  transferBufferLength : UInt32
  startFrame : UInt32
  numberOfPackets : UInt32
  interval : UInt32
  setup : List Byte
  payload : List Byte
  packets : List IsoPacketDescriptor
  deriving DecidableEq, Repr

structure CmdUnlink where
  seqnum : UInt32
  devid : UInt32
  direction : UInt32
  ep : UInt32
  unlinkSeqnum : UInt32
  deriving DecidableEq, Repr

inductive Command where
  | submit (cmd : CmdSubmit)
  | unlink (cmd : CmdUnlink)
  deriving DecidableEq, Repr

-- A word of the stream, the most significant byte first.
def be32 (bytes : List Byte) (offset : Nat) : UInt32 :=
  le32 (bytes.getD (offset + 3) 0) (bytes.getD (offset + 2) 0) (bytes.getD (offset + 1) 0) (bytes.getD offset 0)

def decodePackets : Nat → List Byte → List IsoPacketDescriptor
  | 0, _ => []
  | n + 1, bytes =>
    { offset := be32 bytes 0, length := be32 bytes 4, actualLength := be32 bytes 8, status := be32 bytes 12 } ::
      decodePackets n (bytes.drop 16)

-- What follows the header: the transfer buffer if it goes out, then the packets of an isochronous transfer.
def payloadLength (bytes : List Byte) : Nat := if be32 bytes 12 = 0 then (be32 bytes 24).toNat else 0
def packetCount (bytes : List Byte) : Nat := if be32 bytes 32 = 0xFFFFFFFF then 0 else (be32 bytes 32).toNat

-- The server's side of the protocol.
def decodeCommand (bytes : List Byte) : Option (Command × List Byte) :=
  let word (i : Nat) : UInt32 := be32 bytes (4 * i)
  if bytes.length < 48 then none
  else if word 0 = 1 then
    let n := payloadLength bytes
    let cnt := packetCount bytes
    if bytes.length < 48 + n + 16 * cnt then none
    else
      some
        (.submit
          { seqnum := word 1
            devid := word 2
            direction := word 3
            ep := word 4
            transferFlags := word 5
            transferBufferLength := word 6
            startFrame := word 7
            numberOfPackets := word 8
            interval := word 9
            setup := (bytes.drop 40).take 8
            payload := (bytes.drop 48).take n
            packets := decodePackets cnt (bytes.drop (48 + n)) },
          bytes.drop (48 + n + 16 * cnt))
  else if word 0 = 2 then
    some
      (.unlink { seqnum := word 1, devid := word 2, direction := word 3, ep := word 4, unlinkSeqnum := word 5 },
        bytes.drop 48)
  else none

-- The first bytes of a buffer.
def firstBytes (memory : List Byte) (n : Nat) : List Byte := (List.range n).map fun i => memory.getD i 0

-- A packet of an isochronous transfer reaches from its offset to the one of the next packet.
def isoPackets (urb : Urb) : List IsoPacketDescriptor :=
  (List.range urb.numberOfPackets.toNat).map fun i =>
    let offset (i : Nat) : UInt32 := ((urb.isoPacket[i]?).map IsoPacket.offset).getD 0
    let next := if i + 1 < urb.numberOfPackets.toNat then offset (i + 1) else urb.transferBufferLength
    { offset := offset i, length := next - offset i, actualLength := 0, status := 0 }

-- What a transfer asks for.
structure Transfer where
  epd : EndpointDescriptor
  transferFlags : UInt32
  dirOut : Bool
  length : UInt32
  memory : List Byte := []
  startFrame : Int := 0
  packets : Option (List IsoPacketDescriptor) := none
  setup : SetupPacket := { bmRequestType := 0, bRequest := 0 }

-- What follows the header and comes before the packets, for the bytes that a transfer has in its buffer and for those
-- that are read instead of them.
def Transfer.payload (transfer : Transfer) : List Byte :=
  if transfer.dirOut then firstBytes transfer.memory transfer.length.toNat else []

def Transfer.reads (transfer : Transfer) (byte : Nat → Byte) : List Byte :=
  if transfer.dirOut then (List.range transfer.length.toNat).map byte else []

def Transfer.commandWith (dev : DeviceCtx) (transfer : Transfer) (payload : List Byte) : Command :=
  .submit
    { seqnum := (Device.nextSeqnum dev.seqnum (!transfer.dirOut)).2
      devid := dev.devid
      direction := if transfer.dirOut then 0 else 1
      ep := (usbEndpointNum transfer.epd).toUInt32
      transferFlags := toLinuxFlags (fixTransferFlags transfer.transferFlags transfer.dirOut) (!transfer.dirOut)
      transferBufferLength := transfer.length
      startFrame := ofSigned transfer.startFrame
      numberOfPackets := transfer.packets.elim 0xFFFFFFFF fun packets => UInt32.ofNat packets.length
      interval := transfer.epd.bInterval.toUInt32
      setup := transfer.setup.bytes
      payload := payload
      packets := transfer.packets.getD [] }

def Transfer.command (dev : DeviceCtx) (transfer : Transfer) : Command := transfer.commandWith dev transfer.payload

def controlOf (epd : EndpointDescriptor) (urb : Urb) : Transfer where
  epd := epd
  transferFlags := urb.transferFlags
  dirOut := (SetupPacket.ofBytes urb.setupPacket).dirOut
  length := (SetupPacket.ofBytes urb.setupPacket).wLength.toUInt32
  memory := urb.memory
  setup := SetupPacket.ofBytes urb.setupPacket

def bulkOrInterruptOf (epd : EndpointDescriptor) (urb : Urb) : Transfer where
  epd := epd
  transferFlags := urb.transferFlags
  dirOut := usbEndpointDirOut epd
  length := urb.transferBufferLength
  memory := urb.memory

def isochOf (epd : EndpointDescriptor) (urb : Urb) : Transfer where
  epd := epd
  transferFlags := urb.transferFlags ||| USBD_START_ISO_TRANSFER_ASAP
  dirOut := usbEndpointDirOut epd
  length := urb.transferBufferLength
  memory := urb.memory
  startFrame := urb.startFrame
  packets := some (isoPackets urb)

def ep0OutOf (dev : DeviceCtx) (setup : SetupPacket) : Transfer where
  epd := dev.ep0
  transferFlags := USBD_DEFAULT_PIPE_TRANSFER
  dirOut := true
  length := 0
  setup := setup

-- The transfer that a request stands for; a packed request is one in disguise.
def Request.transfer (dev : DeviceCtx) : Request → Option Transfer
  | .submit epd urb =>
    match urb.function with
    | .bulkOrInterruptTransfer => some (bulkOrInterruptOf epd urb.toUrb)
    | .isochTransfer => some (isochOf epd urb.toUrb)
    | .controlTransfer => (unpackRequest urb).toOption.map (controlOf epd)
    | .other => none
  | .ep0Out request => some (ep0OutOf dev request.setup)
  | .unlink _ => none

def Request.command (dev : DeviceCtx) : Request → Option Command
  | .unlink seqnum =>
    some (.unlink
      { seqnum := (Device.nextSeqnum dev.seqnum false).2
        devid := dev.devid
        direction := 0
        ep := 0
        unlinkSeqnum := seqnum })
  | request => (request.transfer dev).map (Transfer.command dev)

theorem firstBytes_length (memory : List Byte) (n : Nat) : (firstBytes memory n).length = n := by
  simp [firstBytes]

def IsoPacketDescriptor.wire (d : IsoPacketDescriptor) : List Byte :=
  bytes32 (swap32 d.offset) ++ bytes32 (swap32 d.length) ++ bytes32 (swap32 d.actualLength) ++ bytes32 (swap32 d.status)

theorem IsoPacketDescriptor.wire_length (d : IsoPacketDescriptor) : (IsoPacketDescriptor.wire d).length = 16 := rfl

theorem decodePackets_wire (descriptors : List IsoPacketDescriptor) (rest : List Byte) :
    decodePackets descriptors.length (descriptors.flatMap IsoPacketDescriptor.wire ++ rest) = descriptors := by
  induction descriptors with
  | nil => rfl
  | cons d descriptors ih =>
      rw [List.length_cons, decodePackets, List.flatMap_cons, List.append_assoc,
        List.drop_left' (IsoPacketDescriptor.wire_length d), ih]
      congr 1
      change IsoPacketDescriptor.mk (swap32 (swap32 d.offset)) (swap32 (swap32 d.length))
        (swap32 (swap32 d.actualLength)) (swap32 (swap32 d.status)) = d
      simp only [swap32_swap32]

section Header

variable (hdr : Header) (rest : List Byte)

-- The bytes of a header as they are sent.
def wireHeader : List Byte := (byteswapHeader hdr .host2net).bytes

theorem wireHeader_length : (wireHeader hdr).length = 48 := rfl

-- What the server reads in the header of a command.
structure ReadHeader (hdr : Header) (bytes rest : List Byte) : Prop where
  command : be32 bytes 0 = hdr.command
  seqnum : be32 bytes 4 = hdr.seqnum
  devid : be32 bytes 8 = hdr.devid
  direction : be32 bytes 12 = hdr.direction
  ep : be32 bytes 16 = hdr.ep
  u0 : be32 bytes 20 = hdr.u0
  left : bytes.drop 48 = rest

structure ReadSubmit (hdr : Header) (bytes rest : List Byte) : Prop extends ReadHeader hdr bytes rest where
  u1 : be32 bytes 24 = hdr.u1
  u2 : be32 bytes 28 = hdr.u2
  u3 : be32 bytes 32 = hdr.u3
  u4 : be32 bytes 36 = hdr.u4
  setup : (bytes.drop 40).take 8 = bytes32 hdr.u5 ++ bytes32 hdr.u6

theorem readSubmit (h : hdr.command = CMD_SUBMIT) : ReadSubmit hdr (wireHeader hdr ++ rest) rest := by
  have hswap : byteswapHeader hdr .host2net = bswapBasic (bswapCmdSubmit hdr) := by
    rw [byteswapHeader, bswapUnion, if_pos h]
  rw [wireHeader, hswap]
  constructor
  · constructor
    case left => rfl
    all_goals exact swap32_swap32 _
  case setup => rfl
  all_goals exact swap32_swap32 _

theorem readUnlink (h : hdr.command = CMD_UNLINK) : ReadHeader hdr (wireHeader hdr ++ rest) rest := by
  have hswap : byteswapHeader hdr .host2net = bswapBasic (bswapCmdUnlink hdr) := by
    rw [byteswapHeader, bswapUnion, if_neg (by rw [h]; decide), if_neg (by rw [h]; decide), if_pos h]
  rw [wireHeader, hswap]
  constructor
  case left => rfl
  all_goals exact swap32_swap32 _

end Header

-- A submission whose header tells how much follows it.
theorem encodes_submit {hdr : Header} {payload : List Byte} {packets : List IsoPacketDescriptor}
    (hcommand : hdr.command = CMD_SUBMIT) (hpayload : payload.length = if hdr.direction = 0 then hdr.u1.toNat else 0)
    (hpackets : packets.length = if hdr.u3 = 0xFFFFFFFF then 0 else hdr.u3.toNat) :
    Encodes decodeCommand (wireHeader hdr ++ (payload ++ packets.flatMap IsoPacketDescriptor.wire))
      (.submit
        { seqnum := hdr.seqnum
          devid := hdr.devid
          direction := hdr.direction
          ep := hdr.ep
          transferFlags := hdr.u0
          transferBufferLength := hdr.u1
          startFrame := hdr.u2
          numberOfPackets := hdr.u3
          interval := hdr.u4
          setup := bytes32 hdr.u5 ++ bytes32 hdr.u6
          payload := payload
          packets := packets }) := by
  refine ⟨List.append_ne_nil_of_left_ne_nil (by simp [wireHeader, Header.bytes, Header.words, bytes32]) _,
    fun rest => ?_⟩
  rw [List.append_assoc]
  have hread := readSubmit hdr (payload ++ packets.flatMap IsoPacketDescriptor.wire ++ rest) hcommand
  have hlen : (packets.flatMap IsoPacketDescriptor.wire).length = 16 * packets.length := by
    simp [List.length_flatMap, IsoPacketDescriptor.wire_length, Nat.mul_comm]
  have hn : payloadLength (wireHeader hdr ++ (payload ++ packets.flatMap IsoPacketDescriptor.wire ++ rest)) =
      payload.length := by
    rw [payloadLength, hread.direction, hread.u1, hpayload]
  have hcnt : packetCount (wireHeader hdr ++ (payload ++ packets.flatMap IsoPacketDescriptor.wire ++ rest)) =
      packets.length := by
    rw [packetCount, hread.u3, hpackets]
  have hone : hdr.command = 1 := hcommand
  have hdrop := hread.left
  unfold decodeCommand
  simp only [Nat.reduceMul, hread.command, hread.seqnum, hread.devid, hread.direction, hread.ep, hread.u0, hread.u1,
    hread.u2, hread.u3, hread.u4, hread.setup, hn, hcnt, hone, if_true]
  have hlong : ¬ (wireHeader hdr ++ (payload ++ packets.flatMap IsoPacketDescriptor.wire ++ rest)).length <
      48 + payload.length + 16 * packets.length := by
    simp only [List.length_append, wireHeader_length, hlen]
    omega
  rw [if_neg (by omega), if_neg hlong]
  simp only [← List.drop_drop, hdrop]
  rw [List.append_assoc, List.take_left' rfl, List.drop_left' rfl, decodePackets_wire, List.drop_left' hlen]

theorem encodes_unlink {hdr : Header} (hcommand : hdr.command = CMD_UNLINK) :
    Encodes decodeCommand (wireHeader hdr)
      (.unlink
        { seqnum := hdr.seqnum
          devid := hdr.devid
          direction := hdr.direction
          ep := hdr.ep
          unlinkSeqnum := hdr.u0 }) := by
  refine ⟨by simp [wireHeader, Header.bytes, Header.words, bytes32], fun rest => ?_⟩
  have hread := readUnlink hdr rest hcommand
  have htwo : hdr.command = 2 := hcommand
  have hlong : ¬ (wireHeader hdr ++ rest).length < 48 := by
    rw [List.length_append, wireHeader_length]
    omega
  unfold decodeCommand
  simp only [Nat.reduceMul, hread.command, hread.seqnum, hread.devid, hread.direction, hread.ep, hread.u0, hread.left,
    htwo, if_neg hlong]
  rfl

end Usbip.Send

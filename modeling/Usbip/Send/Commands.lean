import Usbip.Send.Theorems

namespace Usbip.Send

open Usbip.Library.Chain
open Usbip.Library.Hoare
open Usbip.Library.Stream
open Usbip.Library.Words
open Usbip.Wsk

namespace Transfer

-- The header of a submission in the byte order of the host; every word of it is set.
def header (dev : DeviceCtx) (transfer : Transfer) : Header where
  command := CMD_SUBMIT
  seqnum := (Device.nextSeqnum dev.seqnum (!transfer.dirOut)).2
  devid := dev.devid
  direction := if transfer.dirOut then directionOut else directionIn
  ep := (usbEndpointNum transfer.epd).toUInt32
  u0 := toLinuxFlags (fixTransferFlags transfer.transferFlags transfer.dirOut) (!transfer.dirOut)
  u1 := transfer.length
  u2 := ofSigned transfer.startFrame
  u3 := transfer.packets.elim 0xFFFFFFFF fun packets => UInt32.ofNat packets.length
  u4 := transfer.epd.bInterval.toUInt32
  u5 := le32 transfer.setup.bmRequestType transfer.setup.bRequest transfer.setup.wValueLow transfer.setup.wValueHigh
  u6 := le32 transfer.setup.wIndexLow transfer.setup.wIndexHigh transfer.setup.wLengthLow transfer.setup.wLengthHigh

-- `packets` and `length` are in the range of the driver.
structure Bounded (transfer : Transfer) : Prop where
  length : transfer.length.toNat < 2 ^ 31
  packets : (transfer.packets.getD []).length ≤ 1024

variable {transfer : Transfer} (dev : DeviceCtx)

def packetList (transfer : Transfer) : List IsoPacketDescriptor := transfer.packets.getD []

theorem payload_length : transfer.payload.length = if transfer.dirOut then transfer.length.toNat else 0 := by
  unfold payload
  split_ifs
  · exact firstBytes_length _ _
  · rfl

theorem direction_eq_zero : (transfer.header dev).direction = 0 ↔ transfer.dirOut = true := by
  unfold header
  cases transfer.dirOut <;> simp [directionOut, directionIn]

theorem toNat_packets (h : transfer.Bounded) {packets : List IsoPacketDescriptor}
    (hsome : transfer.packets = some packets) : (UInt32.ofNat packets.length).toNat = packets.length := by
  have hpackets := h.packets
  rw [hsome, Option.getD_some] at hpackets
  exact UInt32.toNat_ofNat_of_lt' (by simp only [UInt32.size]; omega)

theorem packetCount (h : transfer.Bounded) :
    transfer.packetList.length =
      if (transfer.header dev).u3 = 0xFFFFFFFF then 0 else (transfer.header dev).u3.toNat := by
  have hpackets := h.packets
  unfold header packetList
  cases hsome : transfer.packets with
  | none => rfl
  | some packets =>
      rw [hsome, Option.getD_some] at hpackets
      have hn := toNat_packets h hsome
      have hne : UInt32.ofNat packets.length ≠ 0xFFFFFFFF := by
        intro heq
        rw [heq] at hn
        have hmax : (0xFFFFFFFF : UInt32).toNat = 4294967295 := rfl
        omega
      rw [Option.getD_some, Option.elim_some, if_neg hne, hn]

-- The message of a transfer as it is sent with a payload.
def wire (transfer : Transfer) (payload : List Byte) : List Byte :=
  wireHeader (transfer.header dev) ++ (payload ++ transfer.packetList.flatMap IsoPacketDescriptor.wire)

theorem reads_length (byte : Nat → Byte) :
    (transfer.reads byte).length = if transfer.dirOut then transfer.length.toNat else 0 := by
  unfold reads
  split_ifs <;> simp

theorem encodes (h : transfer.Bounded) {payload : List Byte}
    (hlen : payload.length = if transfer.dirOut then transfer.length.toNat else 0) :
    Encodes decodeCommand (transfer.wire dev payload) (transfer.commandWith dev payload) := by
  have hpayload : payload.length =
      if (transfer.header dev).direction = 0 then (transfer.header dev).u1.toNat else 0 := by
    rw [hlen]
    simp only [direction_eq_zero]
    rfl
  have hcommand : (transfer.header dev).command = CMD_SUBMIT := rfl
  have hencodes := encodes_submit hcommand hpayload (packetCount dev h)
  have hsetup : bytes32 (transfer.header dev).u5 ++ bytes32 (transfer.header dev).u6 = transfer.setup.bytes := by
    simp [header, bytes32, SetupPacket.bytes]
  rw [hsetup] at hencodes
  exact hencodes

theorem totalSize (h : transfer.Bounded) : getTotalSize (transfer.header dev) =
    Header.size + transfer.payload.length + sizeofIsoPacketDescriptor * transfer.packetList.length := by
  have hbuf :
      (if (transfer.header dev).direction == directionOut then (transfer.header dev).transferBufferLength else 0) =
      (transfer.payload.length : Int) := by
    have hsigned : signed transfer.length = transfer.length.toNat := if_pos h.length
    have hlength : (transfer.header dev).transferBufferLength = signed transfer.length := rfl
    rw [hlength, hsigned, payload_length]
    have hout : (transfer.header dev).direction = 0 ↔ transfer.dirOut = true := direction_eq_zero dev
    cases hdir : transfer.dirOut <;> simp_all [directionOut]
  have hcnt : (if toSize (transfer.header dev).cmdNumberOfPackets = toSize numberOfPacketsNonIsoch then 0
      else toSize (transfer.header dev).cmdNumberOfPackets) = transfer.packetList.length := by
    have hpackets := h.packets
    unfold header packetList
    cases hsome : transfer.packets with
    | none => rfl
    | some packets =>
        rw [hsome, Option.getD_some] at hpackets
        have hn := toNat_packets h hsome
        have hsigned : signed (UInt32.ofNat packets.length) = packets.length := by
          unfold signed
          rw [hn, if_pos (by omega)]
        have hsize : toSize (packets.length : Int) = packets.length := by
          rw [toSize_nonneg (by omega) (by omega)]
          rfl
        have hmax : toSize numberOfPacketsNonIsoch = 2 ^ 64 - 1 := by decide
        rw [Header.cmdNumberOfPackets, Option.getD_some, Option.elim_some, hsigned, hsize, if_neg (by omega)]
  have hcommand : (transfer.header dev).command = CMD_SUBMIT := rfl
  have hpayload : transfer.payload.length = _ := payload_length
  have hlength := h.length
  have hpackets : transfer.packetList.length ≤ 1024 := h.packets
  rw [getTotalSize, getIsocDescr, if_pos hcommand]
  dsimp only
  rw [hbuf, hcnt]
  unfold Header.size sizeofIsoPacketDescriptor
  have hsmall : transfer.payload.length < 2 ^ 31 := by
    rw [hpayload]
    split_ifs <;> omega
  rw [toSize_nonneg (by omega) (by omega)]
  omega

end Transfer

section Packets

theorem byteswapWords_flatMap (packets : List IsoPacketDescriptor) :
    byteswapWords (packets.flatMap IsoPacketDescriptor.bytes) = packets.flatMap IsoPacketDescriptor.wire := by
  induction packets with
  | nil => rfl
  | cons d packets ih =>
      rw [List.flatMap_cons, List.flatMap_cons, ← ih, IsoPacketDescriptor.wire, bytes32_swap32, bytes32_swap32,
        bytes32_swap32, bytes32_swap32]
      rfl

theorem IsoPacketDescriptor.flatMap_length (packets : List IsoPacketDescriptor) :
    (packets.flatMap IsoPacketDescriptor.bytes).length = sizeofIsoPacketDescriptor * packets.length := by
  have hlen : ∀ d : Usbip.IsoPacketDescriptor, (IsoPacketDescriptor.bytes d).length = sizeofIsoPacketDescriptor :=
    fun _ => rfl
  simp [List.length_flatMap, hlen, Nat.mul_comm]

theorem firstBytes_append (front back : List Byte) : firstBytes (front ++ back) front.length = front := by
  have h := firstBytes_self (front ++ back)
  have htake := firstBytes_take (front ++ back) (Nat.le_add_right front.length back.length)
  rw [← List.length_append, h, List.take_left] at htake
  exact htake.symm

-- The descriptors that the server gets are those of the array.
theorem firstBytes_byteswapIsoc (packets : List IsoPacketDescriptor) (rest : List Byte) :
    firstBytes (byteswapIsoc (packets.flatMap IsoPacketDescriptor.bytes ++ rest) packets.length)
      (sizeofIsoPacketDescriptor * packets.length) = packets.flatMap IsoPacketDescriptor.wire := by
  have hlen := IsoPacketDescriptor.flatMap_length packets
  have hwire : (packets.flatMap IsoPacketDescriptor.wire).length = sizeofIsoPacketDescriptor * packets.length := by
    rw [← byteswapWords_flatMap, byteswapWords_length, hlen]
  rw [byteswapIsoc, List.take_left' hlen, byteswapWords_flatMap, ← hwire, firstBytes_append]

end Packets

-- What a transfer has become when it is left to WskSend. The payload is what the MDL of the transfer buffer describes.
structure Submitted (s t : Wsk.State) (dev : DeviceCtx) (transfer : Transfer) (buffer : Buffer) (buf : WskBuf) :
    Prop where
  hdr : t.ctx.hdr = byteswapHeader (transfer.header dev) .host2net
  mdl : buf.mdl = some t.ctx.mdlHdr
  length : buf.length =
    Header.size + transfer.payload.length + sizeofIsoPacketDescriptor * transfer.packetList.length
  bytes : ∀ memory, transmitted t memory buf = some (transfer.wire dev (transfer.reads (memory buffer)))
  chain : ∃ len, Describes t (keptLink s transfer.packetList.length) (layout buffer len transfer.packetList.length) ∧
    transfer.payload.length ≤ len ∧ (transfer.packets ≠ none → len = transfer.payload.length)

section Handlers

variable {s : Wsk.State} {env : SendEnv} {dev : DeviceCtx}

-- What is left to do once the header is filled in.
theorem sendTransfer_spec {s' : Wsk.State} {dev' : DeviceCtx} {transfer : Transfer} {transferBuffer : Option Urb}
    (hb : transfer.Bounded) (halloc : Allocated s s' transfer.packetList.length)
    (hhdr : s'.ctx.hdr = transfer.header dev)
    (hpackets : transfer.packetList ≠ [] → ∃ rest,
      s'.ctx.isoc = some (transfer.packetList.flatMap IsoPacketDescriptor.bytes ++ rest))
    (hle : transfer.payload.length ≤ mapped (transfer.header dev) transferBuffer)
    (hall : transfer.packets ≠ none → transfer.payload.length = mapped (transfer.header dev) transferBuffer) :
    From s' (send env dev' transferBuffer)
      (fun out t => Inv t.heap t.ctx ∧ out.dev = dev' ∧ ∀ buf, out.buf = some buf →
        Submitted s t dev transfer (bufferOf transferBuffer) buf)
      (fun _ _ => False) := by
  refine (send_spec halloc.filled).mono (fun out t ht => ?_) fun _ _ h => h
  obtain ⟨hkeeps, hdev, hready⟩ := ht
  refine ⟨hkeeps.inv, hdev, fun buf hbuf => ?_⟩
  have hready := hready buf hbuf
  have hne : transfer.packetList.length ≠ 0 → transfer.packetList ≠ [] := fun h => List.ne_nil_of_length_pos (by omega)
  rw [hhdr] at hready
  have hlen : buf.length = Header.size + transfer.payload.length +
      sizeofIsoPacketDescriptor * transfer.packetList.length := by
    rw [hready.length, hhdr, Transfer.totalSize dev hb]
  have hall' : transfer.packetList.length ≠ 0 → transfer.payload.length = mapped s'.ctx.hdr transferBuffer := by
    rw [hhdr]
    refine fun h => hall fun hnone => hne h ?_
    rw [Transfer.packetList, hnone, Option.getD_none]
  have hbytes := hready.transmitted hlen (by rw [hhdr]; exact hle) hall'
  refine ⟨hready.hdr, hready.mdl, hlen, fun memory => ?_, mapped (transfer.header dev) transferBuffer, ?_, hle,
    fun h => (hall h).symm⟩
  · have hpayload : (List.range transfer.payload.length).map (memory (bufferOf transferBuffer)) =
        transfer.reads (memory (bufferOf transferBuffer)) := by
      rw [Transfer.payload_length]
      unfold Transfer.reads
      split_ifs <;> rfl
    have hiso : firstBytes (t.ctx.isoc.getD []) (sizeofIsoPacketDescriptor * transfer.packetList.length) =
        transfer.packetList.flatMap IsoPacketDescriptor.wire := by
      by_cases hnil : transfer.packetList = []
      · rw [hnil]
        rfl
      · obtain ⟨rest, hrest⟩ := hpackets hnil
        have hflag : s'.ctx.isIsoc = true := by
          rw [halloc.filled.flag]
          simpa using hnil
        rw [hready.isoc, swapped, if_pos hflag, hrest, Option.map_some, Option.getD_some, firstBytes_byteswapIsoc]
    rw [hbytes, hpayload, hiso]
    rfl
  · have hchain := hready.chain
    rw [halloc.link, hhdr] at hchain
    exact hchain

-- The words that `set_cmd_submit_usbip_header` writes are all of those of the header.
theorem setCmdSubmitUsbipHeader_ok {old hdr : Header} {dev' : DeviceCtx} {epd : EndpointDescriptor}
    {transferFlags length : UInt32} {setupOut : Option Bool}
    (h : setCmdSubmitUsbipHeader old dev epd transferFlags length setupOut = .ok (hdr, dev')) :
    hdr = Transfer.header dev
      { epd := epd
        transferFlags := transferFlags
        dirOut := setupOut.getD (usbEndpointDirOut epd)
        length := length } := by
  unfold setCmdSubmitUsbipHeader at h
  split at h
  · cases h
  · cases h
    rfl

theorem mapped_header (transfer : Transfer) (urb : Urb) :
    mapped (transfer.header dev) (some urb) = if transfer.dirOut then urb.transferBufferLength.toNat else 0 := by
  have hout : (transfer.header dev).direction = 0 ↔ transfer.dirOut = true := Transfer.direction_eq_zero dev
  unfold mapped directionOut
  simp only [hout, Option.elim_some]

theorem setHdr_allocated {t : Wsk.State} {n : Nat} (h : Allocated s t n) (hdr : Header) :
    Allocated s { t with ctx := { t.ctx with hdr := hdr } } n := by
  obtain ⟨⟨hi, hbuf, hflag, hisoc⟩, hlink⟩ := h
  exact ⟨⟨hi.congr rfl rfl rfl rfl rfl rfl, hbuf, hflag, hisoc⟩, hlink⟩

-- The handler ends with a context that is fit to be used again; if it sends, it is this transfer.
def Handles (s : Wsk.State) (dev : DeviceCtx) (transfer : Transfer) (buffer : Buffer) (out : Outcome)
    (t : Wsk.State) : Prop :=
  Inv t.heap t.ctx ∧ ∀ buf, out.buf = some buf → transfer.Bounded ∧ Submitted s t dev transfer buffer buf

-- A handler goes on only with a context that has been prepared.
theorem Handles.of_alloc (hi : Inv s.heap s.ctx) {request : Option UdeRequest} {n : Nat} (hn : n ≤ 1024)
    {transfer : Transfer} {buffer : Buffer} {k : M Outcome} {E : Fault → Wsk.State → Prop}
    (hk : ∀ t, Allocated s t n → From t k (Handles s dev transfer buffer) E) :
    From s (allocWskContext env request n >>= fun err =>
        if err ≠ .STATUS_SUCCESS then pure { status := .STATUS_INSUFFICIENT_RESOURCES, dev := dev } else k)
      (Handles s dev transfer buffer) E := by
  refine (allocWskContext_spec hi hn).safe.bind fun err t ht => ?_
  obtain ⟨hinv, _, halloc⟩ := ht
  refine From.ite (fun _ => From.pure _ ⟨hinv, fun _ h => nomatch h⟩) fun herr => ?_
  exact hk t (halloc (not_not.mp herr))

-- A transfer without packets is sent when its header is.
theorem setHdr_send_spec {t : Wsk.State} {dev' : DeviceCtx} {transfer : Transfer} {hdr : Header} {urb : Option Urb}
    (hb : transfer.Bounded) (hnone : transfer.packets = none) (halloc : Allocated s t 0)
    (hhdr : hdr = transfer.header dev) (hle : transfer.payload.length ≤ mapped (transfer.header dev) urb) :
    From t (setCtx (fun ctx => { ctx with hdr := hdr }) >>= fun _ => send env dev' urb)
      (Handles s dev transfer (bufferOf urb)) (fun _ _ => False) := by
  have hlist : transfer.packetList = [] := by
    rw [Transfer.packetList, hnone]
    rfl
  have halloc' : Allocated s { t with ctx := { t.ctx with hdr := hdr } } transfer.packetList.length := by
    rw [hlist]
    exact setHdr_allocated halloc hdr
  refine From.modify_bind ((sendTransfer_spec hb halloc' hhdr (fun h => absurd hlist h) hle
    fun h => absurd hnone h).mono (fun out u hu => ?_) fun _ _ h => h)
  exact ⟨hu.1, fun buf hbuf => ⟨hb, hu.2.2 buf hbuf⟩⟩

theorem bulkOrInterruptTransfer_spec (hi : Inv s.heap s.ctx) {epd : EndpointDescriptor} {urb : Urb}
    (hlt : urb.transferBufferLength.toNat < 2 ^ 31) :
    From s (bulkOrInterruptTransfer env dev epd urb) (Handles s dev (bulkOrInterruptOf epd urb) (mappedBuffer urb))
      (fun _ _ => False) := by
  refine Handles.of_alloc hi (Nat.zero_le _) fun t halloc => From.get_bind ?_
  split
  · exact From.pure _ ⟨halloc.filled.inv, fun _ h => nomatch h⟩
  · rename_i hdr dev' hset
    have hb : (bulkOrInterruptOf epd urb).Bounded := ⟨hlt, Nat.zero_le _⟩
    have hmapped : mapped ((bulkOrInterruptOf epd urb).header dev) (some urb) = _ := mapped_header _ urb
    have hpayload : (bulkOrInterruptOf epd urb).payload.length = _ := Transfer.payload_length
    have hhdr : hdr = (bulkOrInterruptOf epd urb).header dev := by
      rw [setCmdSubmitUsbipHeader_ok hset]
      rfl
    refine setHdr_send_spec hb rfl halloc hhdr ?_
    rw [hmapped, hpayload]
    exact Nat.le_refl _

theorem sendControl_spec (hi : Inv s.heap s.ctx) {epd : EndpointDescriptor} {urb : Urb}
    (hlen : (SetupPacket.ofBytes urb.setupPacket).wLength.toUInt32 ≤ urb.transferBufferLength) :
    From s (sendControl env dev epd urb) (Handles s dev (controlOf epd urb) (mappedBuffer urb)) (fun _ _ => False) := by
  refine Handles.of_alloc hi (Nat.zero_le _) fun t halloc => From.get_bind ?_
  split
  · exact From.pure _ ⟨halloc.filled.inv, fun _ h => nomatch h⟩
  · rename_i hdr dev' hset
    have hwlen := (SetupPacket.ofBytes urb.setupPacket).wLength.toNat_lt
    have hb : (controlOf epd urb).Bounded := by
      refine ⟨?_, Nat.zero_le _⟩
      change (SetupPacket.ofBytes urb.setupPacket).wLength.toUInt32.toNat < 2 ^ 31
      rw [UInt16.toNat_toUInt32]
      omega
    have hmapped : mapped ((controlOf epd urb).header dev) (some urb) = _ := mapped_header _ urb
    have hpayload : (controlOf epd urb).payload.length = _ := Transfer.payload_length
    have hhdr : setSetup hdr (SetupPacket.ofBytes urb.setupPacket) = (controlOf epd urb).header dev := by
      rw [setCmdSubmitUsbipHeader_ok hset]
      rfl
    refine setHdr_send_spec hb rfl halloc hhdr ?_
    rw [hmapped, hpayload]
    split_ifs
    · exact UInt32.le_iff_toNat_le.mp hlen
    · exact Nat.le_refl _

theorem sendEp0Out_spec (hi : Inv s.heap s.ctx) (setup : SetupPacket) :
    From s (sendEp0Out env dev setup) (Handles s dev (ep0OutOf dev setup) .transferBuffer) (fun _ _ => False) := by
  refine Handles.of_alloc hi (Nat.zero_le _) fun t halloc => From.get_bind ?_
  split
  · exact From.pure _ ⟨halloc.filled.inv, fun _ h => nomatch h⟩
  · rename_i hdr dev' hset
    have hb : (ep0OutOf dev setup).Bounded := ⟨Nat.two_pow_pos 31, Nat.zero_le _⟩
    have hhdr : setSetup hdr setup = (ep0OutOf dev setup).header dev := by
      rw [setCmdSubmitUsbipHeader_ok hset]
      rfl
    exact setHdr_send_spec hb rfl halloc hhdr (Nat.zero_le _)

-- A control transfer is accepted only with a buffer for what its setup packet announces.
theorem controlTransfer_spec (hi : Inv s.heap s.ctx) {epd : EndpointDescriptor} {urb : TransferUrb} :
    From s (controlTransfer env dev epd urb)
      (fun out t => Inv t.heap t.ctx ∧ ∀ buf, out.buf = some buf →
        ∃ u, unpackRequest urb = .ok u ∧ (controlOf epd u).Bounded ∧
          Submitted s t dev (controlOf epd u) (mappedBuffer u) buf)
      (fun _ _ => False) := by
  unfold controlTransfer
  cases hu : unpackRequest urb with
  | error err => exact From.pure _ ⟨hi, fun _ h => nomatch h⟩
  | ok u =>
      refine From.ite (fun _ => From.pure _ ⟨hi, fun _ h => nomatch h⟩) fun hlen => ?_
      refine From.ite (fun _ => From.pure _ ⟨hi, fun _ h => nomatch h⟩) fun _ => ?_
      refine (sendControl_spec hi (UInt32.not_lt.mp hlen)).mono (fun out t ht => ?_) fun _ _ h => h
      exact ⟨ht.1, fun buf hbuf => ⟨u, rfl, ht.2 buf hbuf⟩⟩

theorem repackPackets_ok {transferBufferLength : UInt32} {packets : List IsoPacket}
    {descriptors : List IsoPacketDescriptor}
    (h : repackPackets transferBufferLength packets = (descriptors, .STATUS_SUCCESS)) :
    descriptors = (List.range packets.length).map fun i =>
      let offset (i : Nat) : UInt32 := ((packets[i]?).map IsoPacket.offset).getD 0
      let next := if i + 1 < packets.length then offset (i + 1) else transferBufferLength
      { offset := offset i, length := next - offset i, actualLength := 0, status := 0 } := by
  induction packets generalizing descriptors with
  | nil =>
      cases h
      rfl
  | cons packet rest ih =>
      rw [repackPackets] at h
      dsimp only at h
      split at h
      · cases hrest : repackPackets transferBufferLength rest with
        | mk tail st =>
            rw [hrest] at h
            cases h
            rw [List.length_cons, List.range_succ_eq_map, List.map_cons, List.map_map, ih hrest]
            congr 1
            · cases rest <;> simp
            · refine List.map_congr_left fun i _ => ?_
              simp
      · cases h

theorem isoPackets_take (urb : Urb) (h : urb.numberOfPackets.toNat ≤ urb.isoPacket.length) :
    ((List.range (urb.isoPacket.take urb.numberOfPackets.toNat).length).map fun i =>
      let offset (i : Nat) : UInt32 :=
        (((urb.isoPacket.take urb.numberOfPackets.toNat)[i]?).map IsoPacket.offset).getD 0
      let next := if i + 1 < (urb.isoPacket.take urb.numberOfPackets.toNat).length then offset (i + 1)
        else urb.transferBufferLength
      ({ offset := offset i, length := next - offset i, actualLength := 0, status := 0 } :
        Usbip.IsoPacketDescriptor)) = isoPackets urb := by
  rw [List.length_take, Nat.min_eq_left h]
  refine List.map_congr_left fun i hi => ?_
  have hi := List.mem_range.mp hi
  dsimp only
  rw [List.getElem?_take_of_lt hi]
  split_ifs with hnext
  · rw [List.getElem?_take_of_lt hnext]
  · rfl

theorem isoPackets_length (urb : Urb) : (isoPackets urb).length = urb.numberOfPackets.toNat := by
  simp [isoPackets]

-- The array of descriptors is the only thing that changes.
theorem repack_spec (hi : Inv s.heap s.ctx) {urb : Urb} :
    From s (repack urb)
      (fun r t => Inv t.heap t.ctx ∧ t = { s with ctx := { s.ctx with isoc := t.ctx.isoc } } ∧
        (r = .STATUS_SUCCESS → ∀ isoc, s.ctx.isoc = some isoc → ∃ rest,
          t.ctx.isoc = some ((isoPackets urb).flatMap IsoPacketDescriptor.bytes ++ rest)))
      (fun _ _ => True) := by
  refine From.ite (fun _ => From.throw _ trivial) fun hlen => ?_
  have hlen := Nat.le_of_not_lt hlen
  cases hpackets : repackPackets urb.transferBufferLength (urb.isoPacket.take urb.numberOfPackets.toNat) with
  | mk descriptors st =>
      refine From.get_bind (From.ite (fun hfits => ?_) fun _ => From.throw _ trivial)
      refine From.modify_bind (From.pure _ ⟨hi.congr rfl rfl rfl rfl rfl ?_, rfl, ?_⟩)
      · cases hisoc : s.ctx.isoc with
        | none => simp only [hisoc, Option.map_none]
        | some isoc =>
            rw [hisoc, Option.getD_some] at hfits
            simp only [hisoc, Option.map_some, Option.getD_some, List.length_append, List.length_drop]
            dsimp only at hfits
            omega
      · intro hst isoc hisoc
        subst hst
        rw [← isoPackets_take urb hlen, ← repackPackets_ok hpackets]
        refine ⟨isoc.drop (descriptors.flatMap IsoPacketDescriptor.bytes).length, ?_⟩
        simp only [hisoc, Option.map_some]

theorem isochTransfer_spec (hi : Inv s.heap s.ctx) {epd : EndpointDescriptor} {urb : Urb}
    (hlt : urb.transferBufferLength.toNat < 2 ^ 31) :
    From s (isochTransfer env dev epd urb) (Handles s dev (isochOf epd urb) (mappedBuffer urb)) (fun _ _ => True) := by
  refine From.ite (fun _ => From.pure _ ⟨hi, fun _ h => nomatch h⟩) fun hmax => ?_
  have hn : urb.numberOfPackets.toNat ≤ 1024 := by
    unfold maxIsoPackets at hmax
    omega
  have hcount : (isochOf epd urb).packetList.length = urb.numberOfPackets.toNat := isoPackets_length urb
  refine Handles.of_alloc hi hn fun t halloc => From.get_bind ?_
  split
  · exact From.pure _ ⟨halloc.filled.inv, fun _ h => nomatch h⟩
  rename_i hdr dev' hset
  have halloc' := setHdr_allocated halloc hdr
  refine From.modify_bind ((repack_spec halloc'.filled.inv).bind fun err u hu => ?_)
  obtain ⟨hinvu, hsame, hrepacked⟩ := hu
  refine From.ite (fun _ => From.pure _ ⟨hinvu, fun _ h => nomatch h⟩) fun herr => ?_
  have hb : (isochOf epd urb).Bounded := ⟨hlt, by rw [← hcount] at hn; exact hn⟩
  have hmapped : mapped ((isochOf epd urb).header dev) (some urb) = (isochOf epd urb).payload.length := by
    rw [mapped_header, Transfer.payload_length]
    rfl
  have hhdr : u.ctx.hdr = hdr := by rw [hsame]
  have hallocu : Allocated s u (isochOf epd urb).packetList.length := by
    rw [hcount, hsame]
    rw [hsame] at hinvu
    exact ⟨⟨hinvu, halloc'.filled.buf, halloc'.filled.flag, halloc'.filled.isoc⟩, halloc'.link⟩
  have hset' : { u.ctx.hdr with u2 := ofSigned urb.startFrame, u3 := urb.numberOfPackets } =
      (isochOf epd urb).header dev := by
    have hpackets : urb.numberOfPackets = UInt32.ofNat (isoPackets urb).length := by
      rw [isoPackets_length, UInt32.ofNat_toNat]
    rw [hhdr, setCmdSubmitUsbipHeader_ok hset, hpackets]
    rfl
  refine From.modify_bind ((sendTransfer_spec hb (setHdr_allocated hallocu _) hset' (fun hne => ?_)
    (Nat.le_of_eq hmapped.symm) fun _ => hmapped.symm).mono
      (fun out v hv => ⟨hv.1, fun buf hbuf => ⟨hb, hv.2.2 buf hbuf⟩⟩) fun _ _ _ => trivial)
  -- The array is there when there are packets.
  have hne : (isochOf epd urb).packetList.length ≠ 0 := fun h => hne (List.eq_nil_of_length_eq_zero h)
  rw [hcount] at hne
  obtain ⟨_, _, _, _, _, hcnt⟩ := halloc'.filled.isoc hne
  have harray := halloc'.filled.inv.array
  cases hisoc : t.ctx.isoc with
  | none =>
      simp only [hisoc, Option.getD_none, List.length_nil, sizeofIsoPacketDescriptor] at harray
      dsimp only at hcnt harray
      omega
  | some isoc =>
      obtain ⟨rest, hrest⟩ := hrepacked (not_not.mp herr) isoc hisoc
      exact ⟨rest, hrest⟩

-- What a command to unlink another one has become; the words of its header that it does not use
-- are those that the context had.
structure UnlinkSent (s t : Wsk.State) (dev : DeviceCtx) (seqnum : Seqnum) (buf : WskBuf) : Prop where
  hdr : t.ctx.hdr = byteswapHeader (setCmdUnlinkUsbipHeader s.ctx.hdr dev seqnum).1 .host2net
  mdl : buf.mdl = some t.ctx.mdlHdr
  length : buf.length = Header.size
  bytes : ∀ memory, transmitted t memory buf = some (wireHeader (setCmdUnlinkUsbipHeader s.ctx.hdr dev seqnum).1)
  chain : Describes t none (layout .transferBuffer 0 0)

theorem totalSize_unlink {hdr : Header} (h : hdr.command = CMD_UNLINK) : getTotalSize hdr = Header.size := by
  have h1 : hdr.command ≠ CMD_SUBMIT := by rw [h]; decide
  have h2 : hdr.command ≠ RET_SUBMIT := by rw [h]; decide
  simp only [getTotalSize, getIsocDescr, if_neg h1, if_neg h2]
  decide

theorem sendCmdUnlink_spec (hi : Inv s.heap s.ctx) (seqnum : Seqnum) :
    From s (sendCmdUnlink env dev seqnum)
      (fun out t => Inv t.heap t.ctx ∧ ∀ buf, out.buf = some buf → UnlinkSent s t dev seqnum buf)
      (fun _ _ => False) := by
  refine (allocWskContext_spec hi (Nat.zero_le _)).bind fun err t ht => ?_
  obtain ⟨hinv, hold, halloc⟩ := ht
  refine From.ite (fun _ => From.pure _ ⟨hinv, fun _ h => nomatch h⟩) fun herr => From.get_bind ?_
  have halloc := halloc (not_not.mp herr)
  refine From.modify_bind ((send_spec (setHdr_allocated halloc _).filled).mono (fun out u hu => ?_) fun _ _ h => h)
  obtain ⟨hkeeps, _, hready⟩ := hu
  refine ⟨hkeeps.inv, fun buf hbuf => ?_⟩
  have hready := hready buf hbuf
  have hlen : buf.length = Header.size := hready.length.trans (totalSize_unlink rfl)
  have hbytes := hready.transmitted (l := 0) (n := 0) hlen (Nat.zero_le _) (fun h => absurd rfl h)
  have hchain : Describes u none (layout .transferBuffer 0 0) :=
    (congrArg (fun last => Describes u last (layout .transferBuffer 0 0)) halloc.link).mp hready.chain
  refine ⟨?_, hready.mdl, hlen, ?_, hchain⟩
  · rw [← hold]
    exact hready.hdr
  · rw [← hold]
    exact hbytes

-- What the MDL of the transfer buffer of a request describes.
def Request.buffer : Request → Buffer
  | .submit _ urb => mappedBuffer urb.toUrb
  | .ep0Out _ | .unlink _ => .transferBuffer

-- A packed request becomes a control transfer with the same buffer.
structure SameBuffer (urb urb' : Urb) : Prop where
  memory : urb'.memory = urb.memory
  mdl : urb'.transferBufferMdl = urb.transferBufferMdl

theorem SameBuffer.buffer {urb urb' : Urb} (h : SameBuffer urb urb') : mappedBuffer urb' = mappedBuffer urb := by
  rw [mappedBuffer, h.mdl, mappedBuffer]

theorem unpackRequest_sameBuffer {urb : TransferUrb} {u : Urb} (h : unpackRequest urb = .ok u) :
    SameBuffer urb.toUrb u := by
  unfold unpackRequest at h
  split at h
  · cases hs : unpackSetup urb.packed (getFunction urb) with
    | error err =>
        rw [hs] at h
        cases h
    | ok pkt =>
        rw [hs] at h
        cases h
        exact ⟨rfl, rfl⟩
  · cases h
    exact ⟨rfl, rfl⟩

theorem usbSubmitUrb_spec (hi : Inv s.heap s.ctx) {epd : EndpointDescriptor} {urb : TransferUrb} :
    From s (usbSubmitUrb env dev epd urb)
      (fun out t => Inv t.heap t.ctx ∧ ∀ buf, out.buf = some buf → ∃ transfer,
        (Request.submit epd urb).transfer dev = some transfer ∧ transfer.Bounded ∧
          Submitted s t dev transfer (Request.submit epd urb).buffer buf)
      (fun _ _ => True) := by
  refine From.ite (fun _ => From.pure _ ⟨hi, fun _ h => nomatch h⟩) fun _ => ?_
  cases hfunction : urb.function with
  | bulkOrInterruptTransfer =>
      refine (bulkOrInterruptTransfer_spec hi urb.lt).mono (fun out t ht => ?_) fun _ _ _ => trivial
      exact ⟨ht.1, fun buf hbuf => ⟨_, by simp only [Request.transfer, hfunction], ht.2 buf hbuf⟩⟩
  | isochTransfer =>
      refine (isochTransfer_spec hi urb.lt).mono (fun out t ht => ?_) fun _ _ _ => trivial
      exact ⟨ht.1, fun buf hbuf => ⟨_, by simp only [Request.transfer, hfunction], ht.2 buf hbuf⟩⟩
  | controlTransfer =>
      refine (controlTransfer_spec hi).mono (fun out t ht => ⟨ht.1, fun buf hbuf => ?_⟩) fun _ _ _ => trivial
      obtain ⟨u, hu, hb, hs⟩ := ht.2 buf hbuf
      rw [(unpackRequest_sameBuffer hu).buffer] at hs
      exact ⟨_, by simp only [Request.transfer, hfunction, hu]; rfl, hb, hs⟩
  | other => exact From.pure _ ⟨hi, fun _ h => nomatch h⟩

-- A request that is sent is a transfer or unlinks one.
inductive Sent (s t : Wsk.State) (dev : DeviceCtx) (buf : WskBuf) : Request → Prop
  | submit {request : Request} {transfer : Transfer} : request.transfer dev = some transfer → transfer.Bounded →
      Submitted s t dev transfer request.buffer buf → Sent s t dev buf request
  | unlink {seqnum : Seqnum} : UnlinkSent s t dev seqnum buf → Sent s t dev buf (.unlink seqnum)

theorem handle_spec (hi : Inv s.heap s.ctx) (request : Request) :
    From s (handle env dev request)
      (fun out t => Inv t.heap t.ctx ∧ ∀ buf, out.buf = some buf → Sent s t dev buf request) (fun _ _ => True) := by
  cases request with
  | submit epd urb =>
      refine (usbSubmitUrb_spec hi).mono (fun out t ht => ⟨ht.1, fun buf hbuf => ?_⟩) fun _ _ _ => trivial
      obtain ⟨transfer, htransfer, hb, hs⟩ := ht.2 buf hbuf
      exact .submit htransfer hb hs
  | ep0Out request =>
      refine (sendEp0Out_spec hi request.setup).mono (fun out t ht => ⟨ht.1, fun buf hbuf => ?_⟩) fun _ _ _ => trivial
      obtain ⟨hb, hs⟩ := ht.2 buf hbuf
      exact .submit rfl hb hs
  | unlink seqnum =>
      refine (sendCmdUnlink_spec hi seqnum).mono (fun out t ht => ⟨ht.1, fun buf hbuf => ?_⟩) fun _ _ _ => trivial
      exact .unlink (ht.2 buf hbuf)

end Handlers

end Usbip.Send

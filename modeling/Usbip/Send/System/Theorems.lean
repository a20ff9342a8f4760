import Usbip.Send.Commands
import Usbip.Seqnums.Theorems

namespace Usbip.Send

open Usbip.Library.Chain
open Usbip.Library.Runs
open Usbip.Library.Stream
open Usbip.Library.Words
open Usbip.Wsk
open Usbip.Device.Seqnums (extractDir_nextSeqnum)

-- `wLength` of the setup packet in a header.
def setupLength (hdr : Header) : UInt16 := le16 (byteOf hdr.u6 2) (byteOf hdr.u6 3)

-- The length in `WSK_BUF` and the chain that goes with it, by the header that the server reads.
structure Framed (t : Wsk.State) (request : Request) (buf : WskBuf) (hdr : Header) : Prop where
  header : hdr = byteswapHeader t.ctx.hdr .net2host
  length : buf.length = Header.size +
    (if request.isUnlink = false ∧ hdr.direction = directionOut then hdr.transferBufferLength.toNat else 0) +
      sizeofIsoPacketDescriptor * request.packets
  covers : ∃ nodes last, Linked t.heap.next buf.mdl nodes last ∧ (∀ q ∈ nodes, ∃ m, t.heap.mdl q = some m) ∧
    buf.length ≤ total (segments t.heap nodes)
  direction : extractDir hdr.seqnum = hdr.direction
  setup : request.isControl = true → hdr.transferBufferLength = (setupLength hdr).toNat

-- The chain ends, and it ends where the message does.
def Exact (t : Wsk.State) (buf : WskBuf) : Prop :=
  ∃ nodes, Chained t.heap.next buf.mdl nodes ∧ total (segments t.heap nodes) = buf.length

section Requests

variable {request : Request} {transfer : Transfer} {dev : DeviceCtx}

-- The parts of a transfer, by the kind of its request.
structure TransferOf (dev : DeviceCtx) (request : Request) (transfer : Transfer) : Prop where
  packets : transfer.packetList.length = request.packets
  isoch : request.isIsoch = true → transfer.packets ≠ none
  control : request.isControl = true → transfer.length = transfer.setup.wLength.toUInt32
  notUnlink : request.isUnlink = false
  command : request.command dev = some (transfer.command dev)

theorem transferOf (h : request.transfer dev = some transfer) : TransferOf dev request transfer := by
  cases request with
  | unlink seqnum => cases h
  | ep0Out request =>
      cases h
      refine ⟨rfl, fun h => by simp [Request.isIsoch] at h, fun _ => ?_, rfl, rfl⟩
      cases request <;> rfl
  | submit epd urb =>
      have hcommand : (Request.submit epd urb).command dev = some (transfer.command dev) := by
        rw [Request.command, h, Option.map_some]
        exact fun _ h => by cases h
      simp only [Request.transfer] at h
      cases hf : urb.function with
      | bulkOrInterruptTransfer =>
          rw [hf] at h
          cases h
          refine ⟨?_, fun h => ?_, fun h => ?_, rfl, hcommand⟩
          · rw [Request.packets, hf]
            rfl
          · rw [Request.isIsoch, hf] at h
            cases h
          · rw [Request.isControl, hf] at h
            cases h
      | isochTransfer =>
          rw [hf] at h
          cases h
          refine ⟨?_, fun _ h => (by cases h), fun h => ?_, rfl, hcommand⟩
          · rw [Request.packets, if_pos hf]
            exact isoPackets_length _
          · rw [Request.isControl, hf] at h
            cases h
      | controlTransfer =>
          rw [hf] at h
          cases hu : unpackRequest urb with
          | error err =>
              rw [hu] at h
              cases h
          | ok u =>
              rw [hu] at h
              cases h
              refine ⟨?_, fun h => ?_, fun _ => rfl, rfl, hcommand⟩
              · rw [Request.packets, hf]
                rfl
              · rw [Request.isIsoch, hf] at h
                cases h
      | other =>
          rw [hf] at h
          cases h

-- The MDL that is made of the transfer buffer of an OUT transfer describes its bytes.
def Request.ReadsOn (dev : DeviceCtx) : Request → Prop
  | .submit epd urb => ∀ transfer ∈ (Request.submit epd urb).transfer dev,
      transfer.dirOut = true → LeadsOn urb.toUrb transfer.length.toNat
  | .ep0Out _ | .unlink _ => True

instance (dev : DeviceCtx) : (request : Request) → Decidable (request.ReadsOn dev)
  | .submit epd urb => inferInstanceAs (Decidable (∀ transfer ∈ (Request.submit epd urb).transfer dev,
      transfer.dirOut = true → LeadsOn urb.toUrb transfer.length.toNat))
  | .ep0Out _ | .unlink _ => .isTrue trivial

theorem memoryOf_eq {urb : Urb} {n : Nat} (h : LeadsOn urb n) :
    (List.range n).map (memoryOf urb (mappedBuffer urb)) = firstBytes urb.memory n := by
  refine List.map_congr_left fun i hi => ?_
  have hown := leadsOn_iff.mp h i (List.mem_range.mp hi)
  unfold place at hown
  unfold mappedBuffer
  split at hown
  · simp only [memoryOf]
    rw [hown]
    rfl
  · rfl

-- The bytes of a transfer that are in the memory of its request.
theorem transfer_memory (h : request.transfer dev = some transfer) :
    transfer.memory = [] ∧ transfer.length = 0 ∨
      ∃ epd urb, request = .submit epd urb ∧ transfer.memory = urb.memory := by
  cases request with
  | unlink seqnum => cases h
  | ep0Out request =>
      cases h
      exact .inl ⟨rfl, rfl⟩
  | submit epd urb =>
      refine .inr ⟨epd, urb, rfl, ?_⟩
      simp only [Request.transfer] at h
      cases hf : urb.function with
      | bulkOrInterruptTransfer =>
          rw [hf] at h
          cases h
          rfl
      | isochTransfer =>
          rw [hf] at h
          cases h
          rfl
      | controlTransfer =>
          rw [hf] at h
          cases hu : unpackRequest urb with
          | error err =>
              rw [hu] at h
              cases h
          | ok u =>
              rw [hu] at h
              cases h
              exact (unpackRequest_sameBuffer hu).memory
      | other =>
          rw [hf] at h
          cases h

-- What is read is what the transfer has.
theorem Request.ReadsOn.reads (hreads : request.ReadsOn dev) (h : request.transfer dev = some transfer) :
    transfer.reads (request.memory request.buffer) = transfer.payload := by
  unfold Transfer.reads Transfer.payload
  split_ifs with hout
  · obtain ⟨_, hlength⟩ | ⟨epd, urb, rfl, hmemory⟩ := transfer_memory h
    · rw [hlength]
      rfl
    · rw [hmemory]
      exact memoryOf_eq (hreads transfer h hout)
  · rfl

-- In physical memory: an OUT transfer of the whole buffer can be read if the MDL describes the bytes of the URB.
theorem readsOn_iff_describes {epd : EndpointDescriptor} {urb : TransferUrb} {wsk : Wsk.Env}
    {system : TransferBuffer.Env} {r : TransferBuffer.UrbTransfer}
    (htransfer : (Request.submit epd urb).transfer dev = some transfer) (hout : transfer.dirOut = true)
    (hlength : transfer.length = urb.transferBufferLength) (hmatches : TransferBuffer.Matches wsk urb.toUrb system r)
    (hdistinct : (r.bytes system.addressSpace).Nodup)
    (hst : (TransferBuffer.mapTransferBuffer system transfer.length.toNat .IoReadAccess r).1 = .STATUS_SUCCESS) :
    (Request.submit epd urb).ReadsOn dev ↔
      TransferBuffer.Describes r system.addressSpace transfer.length.toNat
        (TransferBuffer.mapTransferBuffer system transfer.length.toNat .IoReadAccess r) := by
  have hle : transfer.length.toNat ≤ r.transferBufferLength.toNat := by
    rw [hlength, ← hmatches.length]
  rw [TransferBuffer.describes_iff_leadsOn hmatches hdistinct hle hst]
  constructor
  · exact fun hreads => hreads transfer htransfer hout
  · intro hleads transfer' htransfer' _
    cases htransfer.symm.trans htransfer'
    exact hleads

variable {s t : Wsk.State} {buffer : Buffer} {buf : WskBuf}

theorem Submitted.framed (h : Submitted s t dev transfer buffer buf) (hb : transfer.Bounded)
    (hof : TransferOf dev request transfer) : Framed t request buf (transfer.header dev) := by
  have hsigned : (transfer.header dev).transferBufferLength = transfer.length.toNat := if_pos hb.length
  have hout : (transfer.header dev).direction = directionOut ↔ transfer.dirOut = true :=
    Transfer.direction_eq_zero dev
  obtain ⟨len, ⟨nodes, hlinked, hsegments, hlive⟩, hle, _⟩ := h.chain
  refine ⟨?_, ?_, ⟨nodes, _, h.mdl ▸ hlinked, hlive, ?_⟩, ?_, fun hcontrol => ?_⟩
  · rw [h.hdr, byteswapHeader_byteswapHeader]
  · rw [h.length, Transfer.payload_length, hof.packets, hsigned]
    simp only [hof.notUnlink, hout, true_and, Int.toNat_natCast]
  · rw [hsegments, total_layout, h.length]
    omega
  · have hseqnum := extractDir_nextSeqnum dev.seqnum (!transfer.dirOut)
    have hdirection : (transfer.header dev).direction = if transfer.dirOut then directionOut else directionIn := rfl
    rw [hdirection]
    refine hseqnum.trans ?_
    cases transfer.dirOut <;> rfl
  · have hsetup : setupLength (transfer.header dev) = transfer.setup.wLength := by
      obtain ⟨_, _, h2, h3⟩ := byteOf_le32 transfer.setup.wIndexLow transfer.setup.wIndexHigh
        transfer.setup.wLengthLow transfer.setup.wLengthHigh
      change le16 (byteOf (le32 _ _ _ _) 2) (byteOf (le32 _ _ _ _) 3) = _
      rw [h2, h3]
      rfl
    rw [hsigned, hsetup, hof.control hcontrol, UInt16.toNat_toUInt32]

theorem UnlinkSent.framed {seqnum : Seqnum} (h : UnlinkSent s t dev seqnum buf) :
    Framed t (.unlink seqnum) buf (setCmdUnlinkUsbipHeader s.ctx.hdr dev seqnum).1 := by
  obtain ⟨nodes, hlinked, hsegments, hlive⟩ := h.chain
  refine ⟨?_, ?_, ⟨nodes, none, h.mdl ▸ hlinked, hlive, ?_⟩, ?_, fun hcontrol => ?_⟩
  · rw [h.hdr, byteswapHeader_byteswapHeader]
  · rw [h.length]
    rfl
  · rw [hsegments, h.length]
    decide
  · exact extractDir_nextSeqnum dev.seqnum false
  · cases hcontrol

theorem Submitted.exact (h : Submitted s t dev transfer buffer buf) (hof : TransferOf dev request transfer)
    (hisoch : request.isIsoch = true) (hlink : keptLink s request.packets = none) : Exact t buf := by
  obtain ⟨len, ⟨nodes, hlinked, hsegments, _⟩, _, hlen⟩ := h.chain
  rw [hof.packets, hlink] at hlinked
  refine ⟨nodes, h.mdl ▸ hlinked, ?_⟩
  rw [hsegments, total_layout, h.length, hlen (hof.isoch hisoch)]

end Requests

-- What holds between the handler and WskSend.
structure Pending (st : Wsk.State) (sending : Sending) : Prop where
  framed : ∃ hdr, Framed st sending.request sending.buf hdr
  bytes : ∃ bytes, transmitted st sending.request.memory sending.buf = some bytes

-- The message is one of the command that was submitted.
def Encoded (st : Wsk.State) (sending : Sending) : Prop :=
  ∃ bytes command, transmitted st sending.request.memory sending.buf = some bytes ∧
    sending.request.command sending.dev = some command ∧ Encodes decodeCommand bytes command

-- The thread that used the context before plays no part.
theorem Pending.stop {st : Wsk.State} {sending : Sending} (h : Pending st sending) :
    Pending { st with running := false } sending := by
  obtain ⟨⟨hdr, hframed⟩, hbytes⟩ := h
  exact ⟨⟨hdr, hframed.header, hframed.length, hframed.covers, hframed.direction, hframed.setup⟩, hbytes⟩

theorem Sent.pending {s t : Wsk.State} {d : Nat} {dev : DeviceCtx} {request : Request} {buf : WskBuf}
    (h : Sent s t dev buf request) : Pending t { device := d, dev := dev, request := request, buf := buf } := by
  cases h with
  | submit htransfer hb hsubmitted =>
      exact ⟨⟨_, hsubmitted.framed hb (transferOf htransfer)⟩, _, hsubmitted.bytes _⟩
  | unlink hunlink => exact ⟨⟨_, hunlink.framed⟩, _, hunlink.bytes _⟩

theorem Sent.encoded {s t : Wsk.State} {d : Nat} {dev : DeviceCtx} {request : Request} {buf : WskBuf}
    (h : Sent s t dev buf request) (hreads : request.ReadsOn dev) :
    Encoded t { device := d, dev := dev, request := request, buf := buf } := by
  cases h with
  | @submit _ transfer htransfer hb hsubmitted =>
      have hbytes := hsubmitted.bytes request.memory
      rw [hreads.reads htransfer] at hbytes
      exact ⟨_, _, hbytes, (transferOf htransfer).command, Transfer.encodes dev hb Transfer.payload_length⟩
  | unlink hunlink => exact ⟨_, _, hunlink.bytes _, rfl, encodes_unlink rfl⟩

structure SystemInv (st : System) : Prop where
  context : ∀ i, Inv (st.slot i).st.heap (st.slot i).st.ctx
  pending : ∀ i sending, (st.slot i).sending = some sending → Pending (st.slot i).st sending

section Runs

variable {sys : Services}

theorem SystemInv.setSlot {st : System} (hi : SystemInv st) {i : Nat} {slot : Slot}
    (hslot : Inv slot.st.heap slot.st.ctx)
    (hpending : ∀ sending, slot.sending = some sending → Pending slot.st sending) : SystemInv (st.setSlot i slot) := by
  refine ⟨fun j => ?_, fun j sending h => ?_⟩
  · by_cases hj : j = i
    · simpa [System.setSlot, hj] using hslot
    · simpa [System.setSlot, hj] using hi.context j
  · by_cases hj : j = i
    · simp only [System.setSlot, hj, if_true] at h ⊢
      exact hpending sending h
    · simp only [System.setSlot, hj, if_false] at h ⊢
      exact hi.pending j sending h

-- What a step does.
inductive Steps (sys : Services) (st : System) : Action → System → Prop where
  | receive {i : Nat} {a : Wsk.Action} {t : Wsk.State} : Wsk.step sys (st.slot i).st a = some t →
      Steps sys st (.receive i a) (st.setSlot i { st := t })
  | send {d i : Nat} {env : SendEnv} {request : Request} {out : Outcome} {t : Wsk.State} :
      handle env (st.device d) request (st.slot i).st = .ok out t →
      Steps sys st (.send d i env request)
        ((st.setSlot i
          { st := { t with running := false }
            sending := out.buf.map fun buf =>
              { device := d, dev := st.device d, request := request, buf := buf } }).setDevice d out.dev)
  | wskSend {i : Nat} {sending : Sending} {bytes : List Byte} {command : Command} :
      (st.slot i).sending = some sending →
      transmitted (st.slot i).st sending.request.memory sending.buf = some bytes →
      sending.request.command sending.dev = some command →
      Steps sys st (.wskSend i)
        ((st.setSlot i { st.slot i with sending := none }).append sending.device bytes command)

theorem step_cases {st next : System} {a : Action} (h : step sys st a = some next) : Steps sys st a next := by
  cases a with
  | receive i a =>
      simp only [step] at h
      split at h
      · cases h
      · obtain ⟨t, ht, rfl⟩ := Option.map_eq_some_iff.mp h
        exact .receive ht
  | send d i env request =>
      simp only [step] at h
      split at h
      · cases h
      · split at h
        · rename_i out t hhandle
          cases h
          exact .send hhandle
        · cases h
  | wskSend i =>
      simp only [step] at h
      obtain ⟨sending, hsending, h⟩ := Option.bind_eq_some_iff.mp h
      obtain ⟨bytes, hbytes, h⟩ := Option.bind_eq_some_iff.mp h
      obtain ⟨command, hcommand, h⟩ := Option.bind_eq_some_iff.mp h
      cases h
      exact .wskSend hsending hbytes hcommand

theorem step_inv {st next : System} {a : Action} (hi : SystemInv st) (h : step sys st a = some next) :
    SystemInv next := by
  cases step_cases h with
  | @receive i a t ht => exact hi.setSlot (Wsk.step_inv (hi.context i) ht).1 fun _ h => by cases h
  | @send d i env request out t hhandle =>
      obtain ⟨hinv, hsent⟩ := (handle_spec (hi.context i) request).ok hhandle
      let sending := out.buf.map fun buf => Sending.mk d (st.device d) request buf
      let slot : Slot := { st := { t with running := false }, sending := sending }
      have hslot : SystemInv (st.setSlot i slot) := by
        refine hi.setSlot hinv fun sending h => ?_
        obtain ⟨buf, hbuf, rfl⟩ := Option.map_eq_some_iff.mp h
        exact (hsent buf hbuf).pending.stop
      exact ⟨hslot.context, hslot.pending⟩
  | @wskSend i sending bytes command hsending hbytes hcommand =>
      have hslot : SystemInv (st.setSlot i { st.slot i with sending := none }) :=
        hi.setSlot (hi.context i) fun _ h => by cases h
      exact ⟨hslot.context, hslot.pending⟩

theorem reachable_inv {ok : System → Action → Prop} {st : System} (h : (machine sys).Reachable ok st) :
    SystemInv st := by
  refine h.invariant (I := SystemInv) (fun st hinit => ?_) fun _ _ _ hi _ hs => step_inv hi hs
  refine ⟨fun i => (init_inv (hinit.1 i).1).1, fun i sending h => ?_⟩
  rw [(hinit.1 i).2] at h
  cases h

-- All that the servers have got, and what they are going to get, are the commands.
structure Readable (st : System) : Prop where
  encoded : ∀ i sending, (st.slot i).sending = some sending → Encoded (st.slot i).st sending
  wire : ∀ d, Carries decodeCommand (st.wire d) (st.sent d)

theorem Readable.setSlot {st : System} (h : Readable st) {i : Nat} {slot : Slot}
    (hslot : ∀ sending, slot.sending = some sending → Encoded slot.st sending) : Readable (st.setSlot i slot) := by
  refine ⟨fun j sending hsending => ?_, h.wire⟩
  by_cases hj : j = i
  · simp only [System.setSlot, hj, if_true] at hsending ⊢
    exact hslot sending hsending
  · simp only [System.setSlot, hj, if_false] at hsending ⊢
    exact h.encoded j sending hsending

-- Every OUT transfer that is sent can be read through the MDL of its transfer buffer.
def ReadsOn (st : System) : Action → Prop
  | .send d _ _ request => request.ReadsOn (st.device d)
  | .receive _ _ | .wskSend _ => True

instance (st : System) : (a : Action) → Decidable (ReadsOn st a)
  | .send d _ _ request => inferInstanceAs (Decidable (request.ReadsOn (st.device d)))
  | .receive _ _ | .wskSend _ => .isTrue trivial

theorem step_readable {st next : System} {a : Action} (hi : SystemInv st) (hr : Readable st) (hok : ReadsOn st a)
    (h : step sys st a = some next) : Readable next := by
  cases step_cases h with
  | receive _ => exact hr.setSlot fun _ h => by cases h
  | @send d i env request out t hhandle =>
      obtain ⟨_, hsent⟩ := (handle_spec (hi.context i) request).ok hhandle
      let sending := out.buf.map fun buf => Sending.mk d (st.device d) request buf
      let slot : Slot := { st := { t with running := false }, sending := sending }
      have hslot : Readable (st.setSlot i slot) := by
        refine hr.setSlot fun sending h => ?_
        obtain ⟨buf, hbuf, rfl⟩ := Option.map_eq_some_iff.mp h
        exact (hsent buf hbuf).encoded hok
      exact ⟨hslot.encoded, hslot.wire⟩
  | @wskSend i sending bytes command hsending hbytes hcommand =>
      have hslot : Readable (st.setSlot i { st.slot i with sending := none }) := hr.setSlot fun _ h => by cases h
      obtain ⟨bytes', command', hbytes', hcommand', hencodes⟩ := hr.encoded i sending hsending
      rw [hbytes] at hbytes'
      rw [hcommand] at hcommand'
      cases hbytes'
      cases hcommand'
      refine ⟨hslot.encoded, fun e => ?_⟩
      by_cases he : e = sending.device
      · simp only [System.append, he, if_true]
        exact (hr.wire sending.device).snoc hencodes
      · simp only [System.append, he, if_false]
        exact hr.wire e

theorem reachable_readable {st : System} (h : (machine sys).Reachable ReadsOn st) : Readable st := by
  refine h.invariant_under (J := Readable) (fun _ hs => reachable_inv hs) (fun st hinit => ?_)
    fun _ _ _ hi hr hok hs => step_readable hi hr hok hs
  obtain ⟨hslots, hwire, hsent⟩ := hinit
  refine ⟨fun i sending hs => ?_, fun d => ?_⟩
  · rw [(hslots i).2] at hs
    cases hs
  · rw [hwire, hsent]
    exact .nil

-- The chains of the isochronous transfers on their way.
def ExactPending (st : System) : Prop :=
  ∀ i sending, (st.slot i).sending = some sending → sending.request.isIsoch = true → Exact (st.slot i).st sending.buf

theorem Exact.stop {st : Wsk.State} {buf : WskBuf} (h : Exact st buf) : Exact { st with running := false } buf := h

theorem ExactPending.setSlot {st : System} (h : ExactPending st) {i : Nat} {slot : Slot}
    (hslot : ∀ sending, slot.sending = some sending → sending.request.isIsoch = true → Exact slot.st sending.buf) :
    ExactPending (st.setSlot i slot) := by
  intro j sending hsending hisoch
  by_cases hj : j = i
  · simp only [System.setSlot, hj, if_true] at hsending ⊢
    exact hslot sending hsending hisoch
  · simp only [System.setSlot, hj, if_false] at hsending ⊢
    exact h j sending hsending hisoch

theorem step_exact {st next : System} {a : Action} (hi : SystemInv st) (hexact : ExactPending st) (hok : Unlinked st a)
    (h : step sys st a = some next) : ExactPending next := by
  cases step_cases h with
  | receive _ => exact hexact.setSlot fun _ h => by cases h
  | @send d i env request out t hhandle =>
      obtain ⟨_, hsent⟩ := (handle_spec (hi.context i) request).ok hhandle
      refine hexact.setSlot fun sending h hisoch => ?_
      obtain ⟨buf, hbuf, rfl⟩ := Option.map_eq_some_iff.mp h
      cases hsent buf hbuf with
      | submit htransfer _ hsubmitted => exact (hsubmitted.exact (transferOf htransfer) hisoch hok).stop
      | unlink _ => cases hisoch
  | @wskSend i _ _ _ _ _ _ =>
      have hslot : ExactPending (st.setSlot i { st.slot i with sending := none }) :=
        hexact.setSlot fun _ h => by cases h
      exact hslot

theorem reachable_exact {st : System} (h : (machine sys).Reachable Unlinked st) : ExactPending st := by
  refine h.invariant_under (J := ExactPending) (fun _ hs => reachable_inv hs) (fun st hinit i sending hs => ?_)
    fun _ _ _ hi hexact hok hs => step_exact hi hexact hok hs
  rw [(hinit.1 i).2] at hs
  cases hs

-- In runs in which no isochronous transfer uses a linked MDL again, and all OUT transfers can be read, each message is
-- framed as its header tells, and the server of each device reads the commands that were submitted.
theorem send_framing {st : System} (h : (machine sys).Reachable (fun st a => Unlinked st a ∧ ReadsOn st a) st) :
    (∀ i sending, (st.slot i).sending = some sending →
      (∃ hdr, Framed (st.slot i).st sending.request sending.buf hdr) ∧
      (sending.request.isIsoch = true → Exact (st.slot i).st sending.buf) ∧
      ∃ bytes, transmitted (st.slot i).st sending.request.memory sending.buf = some bytes) ∧
    ∀ d, decodeAll decodeCommand (st.wire d).length (st.wire d) = some (st.sent d) := by
  have hexact := reachable_exact (h.mono fun _ _ hok => hok.1)
  have hreadable := reachable_readable (h.mono fun _ _ hok => hok.2)
  refine ⟨fun i sending hsending => ?_, fun d => (hreadable.wire d).decodeAll_eq⟩
  have hpending := (reachable_inv h).pending i sending hsending
  exact ⟨hpending.framed, hexact i sending hsending, hpending.bytes⟩

-- The words of the header that a command leaves as they were.
def SameRest (old old' : Header) : Request → Prop
  | .unlink _ => old.u1 = old'.u1 ∧ old.u2 = old'.u2 ∧ old.u3 = old'.u3 ∧ old.u4 = old'.u4 ∧ old.u5 = old'.u5 ∧
      old.u6 = old'.u6
  | .submit _ _ | .ep0Out _ => True

theorem wireHeader_inj {hdr hdr' : Header} : wireHeader hdr = wireHeader hdr' ↔ hdr = hdr' := by
  refine ⟨fun h => ?_, fun h => by rw [h]⟩
  have hbytes := congrArg Header.ofBytes h
  unfold wireHeader at hbytes
  rw [ofBytes_bytes, ofBytes_bytes] at hbytes
  rw [← byteswapHeader_byteswapHeader hdr, hbytes, byteswapHeader_byteswapHeader]

theorem sentBytes_sent {env : SendEnv} {dev : DeviceCtx} {request : Request} {s : Wsk.State} {bytes : List Byte}
    (hi : Inv s.heap s.ctx) (h : sentBytes env dev request s = some bytes) :
    ∃ t buf, Sent s t dev buf request ∧ transmitted t request.memory buf = some bytes := by
  unfold sentBytes at h
  split at h
  · rename_i out t hhandle
    obtain ⟨buf, hbuf, hbytes⟩ := Option.bind_eq_some_iff.mp h
    exact ⟨t, buf, ((handle_spec hi request).ok hhandle).2 buf hbuf, hbytes⟩
  · cases h

-- The bytes that are sent, as a function of the request, the device and, for an unlink, of the old header.
theorem sentBytes_unlink {env : SendEnv} {dev : DeviceCtx} {seqnum : Seqnum} {s : Wsk.State} {bytes : List Byte}
    (hi : Inv s.heap s.ctx) (h : sentBytes env dev (.unlink seqnum) s = some bytes) :
    bytes = wireHeader (setCmdUnlinkUsbipHeader s.ctx.hdr dev seqnum).1 := by
  obtain ⟨t, buf, hsent, hbytes⟩ := sentBytes_sent hi h
  cases hsent with
  | submit htransfer => cases htransfer
  | unlink hunlink => exact (Option.some_inj.mp ((hunlink.bytes _).symm.trans hbytes)).symm

theorem sentBytes_submit {env : SendEnv} {dev : DeviceCtx} {request : Request} {s : Wsk.State} {bytes : List Byte}
    (hi : Inv s.heap s.ctx) (hsubmit : request.isUnlink = false) (h : sentBytes env dev request s = some bytes) :
    ∃ transfer, request.transfer dev = some transfer ∧
      bytes = transfer.wire dev (transfer.reads (request.memory request.buffer)) := by
  obtain ⟨t, buf, hsent, hbytes⟩ := sentBytes_sent hi h
  cases hsent with
  | unlink => cases hsubmit
  | submit htransfer _ hsubmitted =>
      exact ⟨_, htransfer, Option.some_inj.mp (hbytes.symm.trans (hsubmitted.bytes _))⟩

-- Two contexts of any runs send the same bytes, unless it is an unlink and they were used differently before.
theorem sentBytes_eq_iff {ok ok' : System → Action → Prop} {st st' : System} (h : (machine sys).Reachable ok st)
    (h' : (machine sys).Reachable ok' st') {i j : Nat} {env env' : SendEnv} {dev : DeviceCtx} {request : Request}
    {bytes bytes' : List Byte} (hbytes : sentBytes env dev request (st.slot i).st = some bytes)
    (hbytes' : sentBytes env' dev request (st'.slot j).st = some bytes') :
    bytes = bytes' ↔ SameRest (st.slot i).st.ctx.hdr (st'.slot j).st.ctx.hdr request := by
  have hi := (reachable_inv h).context i
  have hi' := (reachable_inv h').context j
  cases hunlink : request.isUnlink with
  | false =>
      obtain ⟨transfer, htransfer, rfl⟩ := sentBytes_submit hi hunlink hbytes
      obtain ⟨transfer', htransfer', rfl⟩ := sentBytes_submit hi' hunlink hbytes'
      rw [htransfer] at htransfer'
      cases htransfer'
      cases request with
      | submit epd urb => exact ⟨fun _ => trivial, fun _ => rfl⟩
      | ep0Out request => exact ⟨fun _ => trivial, fun _ => rfl⟩
      | unlink seqnum => cases hunlink
  | true =>
      cases request with
      | submit epd urb => cases hunlink
      | ep0Out request => cases hunlink
      | unlink seqnum =>
          rw [sentBytes_unlink hi hbytes, sentBytes_unlink hi' hbytes', wireHeader_inj]
          simp [setCmdUnlinkUsbipHeader, SameRest]

end Runs

-- Contexts that are all new but for the bytes that the first one is going to receive.
def sampleSystem (stream : List Byte) : System where
  slot i := { st := sampleContext (if i = 0 then stream else []) }
  device _ := { devid := 0x10002 }

theorem sampleSystem_reachable (ok : System → Action → Prop) (stream : List Byte) :
    (machine sampleServices).Reachable ok (sampleSystem stream) :=
  .init ⟨fun _ => ⟨⟨_, _, rfl⟩, rfl⟩, rfl, rfl⟩

-- The second context has sent SET_CONFIGURATION.
def usedContexts : List Action := [.send 0 1 {} (.ep0Out (.setConfiguration 1)), .wskSend 1]

def bothSent (p : List Byte → List Byte → Bool) (st : System) : Bool :=
  (sentBytes {} {} (.unlink 5) (st.slot 0).st).any fun bytes =>
    (sentBytes {} {} (.unlink 5) (st.slot 1).st).any fun bytes' => p bytes bytes'

theorem bothSent_bytes {p : List Byte → List Byte → Bool} {st : System} (h : bothSent p st = true) :
    ∃ bytes bytes', sentBytes {} {} (.unlink 5) (st.slot 0).st = some bytes ∧
      sentBytes {} {} (.unlink 5) (st.slot 1).st = some bytes' ∧ p bytes bytes' = true := by
  obtain ⟨bytes, hbytes, h⟩ := (Option.any_eq_true _ _).mp h
  obtain ⟨bytes', hbytes', hp⟩ := (Option.any_eq_true _ _).mp h
  exact ⟨bytes, bytes', hbytes, hbytes', hp⟩

theorem sentBytes_eq_iff_unlink :
    ∃ (st : System) (bytes bytes' : List Byte), sentBytes {} {} (.unlink 5) (st.slot 0).st = some bytes ∧
      sentBytes {} {} (.unlink 5) (st.slot 1).st = some bytes' ∧
      (bytes = bytes' ↔ SameRest (st.slot 0).st.ctx.hdr (st.slot 1).st.ctx.hdr (.unlink 5)) := by
  have hrun : ((machine sampleServices).run (fun _ _ => True) (sampleSystem []) usedContexts).any
      (bothSent fun _ _ => true) = true := by
    decide +kernel
  obtain ⟨st, hr, hboth⟩ := (sampleSystem_reachable _ _).exists_run hrun
  obtain ⟨bytes, bytes', hbytes, hbytes', _⟩ := bothSent_bytes hboth
  exact ⟨st, bytes, bytes', hbytes, hbytes', sentBytes_eq_iff hr hr hbytes hbytes'⟩

-- The unlink of the second context carries the setup packet of the request before.
theorem unlink_sends_old_setup :
    ¬ ∀ (st st' : System), (machine sampleServices).Reachable (fun _ _ => True) st →
      (machine sampleServices).Reachable (fun _ _ => True) st' →
      ∀ (i j : Nat) (env env' : SendEnv) (dev : DeviceCtx) (request : Request) (bytes bytes' : List Byte),
        sentBytes env dev request (st.slot i).st = some bytes →
        sentBytes env' dev request (st'.slot j).st = some bytes' → bytes = bytes' := by
  intro h
  have hrun : ((machine sampleServices).run (fun _ _ => True) (sampleSystem []) usedContexts).any
      (bothSent fun bytes bytes' => bytes != bytes') = true := by
    decide +kernel
  obtain ⟨st, hr, hboth⟩ := (sampleSystem_reachable _ _).exists_run hrun
  obtain ⟨bytes, bytes', hbytes, hbytes', hne⟩ := bothSent_bytes hboth
  exact bne_iff_ne.mp hne (h st st hr hr 0 1 {} {} {} (.unlink 5) bytes bytes' hbytes hbytes')

def bulkOut : TransferUrb where
  function := .bulkOrInterruptTransfer
  transferBuffer := true
  transferBufferLength := 3
  memory := [1, 2, 3]
  lt := by decide

def isochIn : TransferUrb where
  function := .isochTransfer
  transferFlags := USBD_TRANSFER_DIRECTION_IN
  transferBuffer := true
  transferBufferLength := 8
  numberOfPackets := 1
  isoPacket := [{ offset := 0 }]
  lt := by decide

theorem send_framing_bulk :
    ∃ st : System, (st.wire 0).length = 51 ∧
      (∀ (i : Nat) (sending : Sending), (st.slot i).sending = some sending →
        (∃ hdr, Framed (st.slot i).st sending.request sending.buf hdr) ∧
        (sending.request.isIsoch = true → Exact (st.slot i).st sending.buf) ∧
        ∃ bytes, transmitted (st.slot i).st sending.request.memory sending.buf = some bytes) ∧
      ∀ d, decodeAll decodeCommand (st.wire d).length (st.wire d) = some (st.sent d) := by
  have hrun : ((machine sampleServices).run (fun st a => Unlinked st a ∧ ReadsOn st a) (sampleSystem [])
      [.send 0 0 {} (.submit { bEndpointAddress := 2, bmAttributes := 2 } bulkOut), .wskSend 0,
        .send 0 0 {} (.submit { bEndpointAddress := 129, bmAttributes := 1 } isochIn)]).any
        (fun (st : System) => (st.wire 0).length == 51) = true := by
    decide +kernel
  obtain ⟨st, hr, hlen⟩ := (sampleSystem_reachable _ _).exists_run hrun
  exact ⟨st, by simpa using hlen, send_framing hr⟩

-- A receive thread has linked the MDL of the descriptors to itself; the context is used to send then.
def loopPending (st : System) : Bool :=
  (st.slot 0).sending.any fun sending =>
    sending.request.isIsoch && decide (sending.buf.mdl = some 0 ∧ (st.slot 0).st.heap.next 0 = some (some 1) ∧
      (st.slot 0).st.heap.next 1 = some (some 1))

theorem send_endless_chain :
    ¬ ∀ st : System, (machine sampleServices).Reachable (fun _ _ => True) st →
      (∀ (i : Nat) (sending : Sending), (st.slot i).sending = some sending →
        (∃ hdr, Framed (st.slot i).st sending.request sending.buf hdr) ∧
        (sending.request.isIsoch = true → Exact (st.slot i).st sending.buf) ∧
        ∃ bytes, transmitted (st.slot i).st sending.request.memory sending.buf = some bytes) ∧
      ∀ d, decodeAll decodeCommand (st.wire d).length (st.wire d) = some (st.sent d) := by
  intro h
  have hrun : ((machine sampleServices).run (fun _ _ => True) (sampleSystem (sampleReply ++ sampleReply))
      [.receive 0 (.round sampleEnv), .receive 0 (.round sampleEnv), .receive 0 (.round { unplugged := true }),
        .send 0 0 {} (.submit { bEndpointAddress := 129, bmAttributes := 1 } isochIn)]).any loopPending = true := by
    decide +kernel
  obtain ⟨st, hr, hloop⟩ := (sampleSystem_reachable _ _).exists_run hrun
  obtain ⟨sending, hsending, hloop⟩ := (Option.any_eq_true _ _).mp hloop
  obtain ⟨hisoch, hlinks⟩ := Bool.and_eq_true_iff.mp hloop
  obtain ⟨hmdl, h0, h1⟩ := of_decide_eq_true hlinks
  obtain ⟨nodes, hchain, _⟩ := ((h st hr).1 0 sending hsending).2.1 hisoch
  rw [hmdl] at hchain
  exact not_chained_of_loop (show Linked _ (some 0) [0] (some 1) from ⟨rfl, _, h0, rfl⟩) h1 hchain

end Usbip.Send

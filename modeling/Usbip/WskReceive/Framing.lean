import Usbip.TransferBuffer.Theorems
import Usbip.WskReceive.Isoch

namespace Usbip.Wsk

open Usbip.Library.Hoare
open Usbip.Library.Runs
open Usbip.Library.Words

structure Reply where
  hdr : Header
  payload : List Byte

def Reply.bytes (reply : Reply) : List Byte := replyBytes reply.hdr reply.payload

def HasBuffer (urb : Urb) : Prop := urb.transferBuffer = true ∨ urb.transferBufferMdl ≠ []

-- How many bytes of a payload are for the transfer buffer; the server leaves `direction` zero.
def Reply.bufBytes (reply : Reply) : Nat :=
  if extractDir reply.hdr.seqnum = directionIn then reply.hdr.actualLength.toNat else 0

-- A reply to a transfer, which may have been cancelled in the meantime.
structure SubmitReply (reply : Reply) (request : Option UdeRequest) : Prop where
  command : reply.hdr.command = RET_SUBMIT
  actual : 0 ≤ reply.hdr.actualLength
  packets : reply.hdr.numberOfPackets = numberOfPacketsNonIsoch ∨ isValidNumberOfPackets reply.hdr.numberOfPackets = true
  payload : reply.payload.length =
    reply.bufBytes + sizeofIsoPacketDescriptor * reply.hdr.numberOfPackets.toNat
  requested : ∀ urb, request = some { urb := some urb } →
    reply.hdr.actualLength ≤ urb.transferBufferLength.toNat ∧ (HasBuffer urb ∨ urb.transferBufferLength = 0)
  isoch : ∀ urb, request = some { urb := some urb } → isIsoch urb = true →
    reply.hdr.numberOfPackets = urb.numberOfPackets.toNat
  other : ∀ urb, request = some { urb := some urb } → isIsoch urb = false → reply.hdr.numberOfPackets ≤ 0

structure UnlinkReply (reply : Reply) : Prop where
  command : reply.hdr.command = RET_UNLINK
  payload : reply.payload = []

-- What a server may answer to the commands it has got.
def Conforming (reply : Reply) (request : Option UdeRequest) : Prop :=
  isValidSeqnum reply.hdr.seqnum = true ∧ (SubmitReply reply request ∨ UnlinkReply reply)

-- What arrived in one of the buffers.
def bytesOf (buffer : Buffer) (received : List (Buffer × List Byte)) : List Byte :=
  (received.filter fun piece => piece.1 = buffer).flatMap Prod.snd

-- A reply after its round: all of its bytes are read, those for the transfer buffer go to the MDL that was made of it.
structure Received (reply : Reply) (request : Option UdeRequest) (u : State) : Prop where
  received : ∃ received, u.round.writes = (.header, (byteswapHeader reply.hdr .host2net).bytes) :: received ∧
    received.flatMap Prod.snd = reply.payload ∧
    (request = none → ∀ piece ∈ received, piece.1 = .payload) ∧
    ∀ urb, reply.hdr.command = RET_SUBMIT → request = some { urb := some urb } →
      bytesOf (mappedBuffer urb) received = reply.payload.take (bufLength urb reply.bufBytes) ∧
      bytesOf .bufTail received = (reply.payload.take reply.bufBytes).drop (bufLength urb reply.bufBytes) ∧
      bytesOf .isoc received = reply.payload.drop reply.bufBytes
  completed : ∀ urb, reply.hdr.command = RET_SUBMIT → request = some { urb := some urb } → isIsoch urb = false →
    ∃ done st, u.round.completed = some ({ urb := some done }, st) ∧
      (done.transferBufferLength.toNat : Int) = reply.hdr.actualLength ∧
      (urb.function ≠ .controlTransfer →
        done.memory = store urb (reply.payload.take (bufLength urb reply.bufBytes)))

-- The places that bytes for the transfer buffer have been written to.
def written (urb : Urb) (writes : List (Buffer × List Byte)) : List (Place × Byte) :=
  (bytesOf (mappedBuffer urb) writes).mapIdx fun i byte => (place urb i, byte)

-- All of the bytes went where they belong.
structure Consumed (reply : Reply) (request : Option UdeRequest) (u : State) : Prop
    extends Received reply request u where
  placed : ∀ urb, reply.hdr.command = RET_SUBMIT → request = some { urb := some urb } →
    written urb u.round.writes =
      (reply.payload.take (bufLength urb reply.bufBytes)).mapIdx fun i byte => (.own i, byte)
  memory : ∀ urb, reply.hdr.command = RET_SUBMIT → request = some { urb := some urb } → isIsoch urb = false →
    urb.function ≠ .controlTransfer → ∃ done st, u.round.completed = some ({ urb := some done }, st) ∧
      done.memory = reply.payload.take (bufLength urb reply.bufBytes) ++ urb.memory.drop (bufLength urb reply.bufBytes)

-- The request of a reply, if there is one, can be reached through the MDL that is made of its transfer buffer.
def Reaches (reply : Reply) (request : Option UdeRequest) : Prop :=
  ∀ urb, reply.hdr.command = RET_SUBMIT → request = some { urb := some urb } →
    LeadsOn urb (bufLength urb reply.bufBytes)

section Round

variable {sys : Services} {env : Env} {reply : Reply} {rest : List Byte}

-- The header that the round works with.
def hostHeader (hdr : Header) : Header :=
  { hdr with
    direction := extractDir hdr.seqnum
    u3 := if hdr.command = RET_SUBMIT ∧ hdr.numberOfPackets = numberOfPacketsNonIsoch then 0 else hdr.u3 }

theorem nextHeader_reply {hdr : Header} (hconf : Conforming reply env.request)
    (h : nextHeader env (reply.bytes ++ rest) = some hdr) : hdr = hostHeader reply.hdr := by
  unfold nextHeader at h
  split at h
  · have htake : (reply.bytes ++ rest).take Header.size = (byteswapHeader reply.hdr .host2net).bytes := by
      rw [Reply.bytes, replyBytes, List.append_assoc]
      exact List.take_left' (bytes_length _)
    rw [htake, ofBytes_bytes, validateHeader, byteswapHeader_byteswapHeader] at h
    obtain ⟨hseqnum, hsubmit | hunlink⟩ := hconf
    · have hcommand := hsubmit.command
      simp only [if_pos hcommand] at h
      obtain hnone | hvalid := hsubmit.packets
      · simp only [if_pos hnone, hseqnum, if_true, Option.some_inj] at h
        rw [← h, hostHeader, if_pos ⟨hcommand, hnone⟩]
      · have hne : reply.hdr.numberOfPackets ≠ numberOfPacketsNonIsoch := by
          intro heq
          rw [heq] at hvalid
          cases hvalid
        simp only [if_neg hne, hvalid, hseqnum, if_true, Option.some_inj] at h
        rw [← h, hostHeader, if_neg fun hc => hne hc.2]
    · have hcommand := hunlink.command
      have hne : reply.hdr.command ≠ RET_SUBMIT := by
        rw [hcommand]
        decide
      simp only [if_neg hne, if_pos hcommand, hseqnum, if_true, Option.some_inj] at h
      rw [← h, hostHeader, if_neg fun hc => hne hc.1]
  · cases h

theorem hostHeader_packets (hdr : Header) (hsubmit : hdr.command = RET_SUBMIT) :
    (hostHeader hdr).numberOfPackets.toNat = hdr.numberOfPackets.toNat := by
  by_cases hnone : hdr.numberOfPackets = numberOfPacketsNonIsoch
  · have hzero : (hostHeader hdr).numberOfPackets = 0 := by
      rw [Header.numberOfPackets, hostHeader, if_pos ⟨hsubmit, hnone⟩]
      rfl
    rw [hzero, hnone]
    rfl
  · have hsame : (hostHeader hdr).numberOfPackets = hdr.numberOfPackets := by
      rw [Header.numberOfPackets, hostHeader, if_neg fun hc => hnone hc.2]
      rfl
    rw [hsame]

theorem extractDir_eq (seqnum : Seqnum) : extractDir seqnum = directionOut ∨ extractDir seqnum = directionIn := by
  have hbit : (extractDir seqnum).toNat = seqnum.toNat % 2 := by
    simp [extractDir, Nat.and_one_is_mod]
  obtain hzero | hone := Nat.mod_two_eq_zero_or_one seqnum.toNat
  · exact .inl (UInt32.toNat_inj.mp (hbit.trans hzero))
  · exact .inr (UInt32.toNat_inj.mp (hbit.trans hone))

theorem hostHeader_bufBytes (reply : Reply) : bufBytes (hostHeader reply.hdr) = reply.bufBytes := by
  unfold bufBytes Reply.bufBytes
  change (if extractDir reply.hdr.seqnum = directionOut then 0 else reply.hdr.actualLength.toNat) = _
  obtain hout | hin := extractDir_eq reply.hdr.seqnum
  · rw [if_pos hout, if_neg (by rw [hout]; decide)]
  · rw [if_pos hin, if_neg (by rw [hin]; decide)]

-- The length that is computed of a header is the one of the payload.
theorem hostHeader_payloadSize (hconf : Conforming reply env.request) (hvalid : ValidHeader (hostHeader reply.hdr)) :
    getPayloadSize (hostHeader reply.hdr) = reply.payload.length := by
  obtain ⟨_, hsubmit | hunlink⟩ := hconf
  · have hcommand : (hostHeader reply.hdr).command = RET_SUBMIT := hsubmit.command
    rw [payloadSize_received hcommand (hvalid.packets hcommand) (.inr hsubmit.actual), hostHeader_bufBytes,
      hostHeader_packets _ hsubmit.command, hsubmit.payload]
  · have hcommand : (hostHeader reply.hdr).command = RET_UNLINK := hunlink.command
    rw [payloadSize_unlink hcommand, hunlink.payload]
    rfl

-- The buffers of a whole payload.
theorem bytesOf_append (buffer : Buffer) (front back : List (Buffer × List Byte)) :
    bytesOf buffer (front ++ back) = bytesOf buffer front ++ bytesOf buffer back := by
  rw [bytesOf, List.filter_append, List.flatMap_append, bytesOf, bytesOf]

theorem bytesOf_isoc (urb : Urb) {n : Nat} {bytes : List Byte} (hlen : bytes.length = sizeofIsoPacketDescriptor * n) :
    bytesOf (mappedBuffer urb) (pieces (isocSegments n) bytes) = [] ∧
      bytesOf .bufTail (pieces (isocSegments n) bytes) = [] ∧ bytesOf .isoc (pieces (isocSegments n) bytes) = bytes := by
  by_cases hn : n = 0
  · obtain rfl : bytes = [] := List.eq_nil_of_length_eq_zero (by rw [hlen, hn]; rfl)
    simp [bytesOf]
  · rw [pieces_isocSegments hn hlen]
    simp [bytesOf]

theorem bytesOf_buf (urb : Urb) {a : Nat} {bytes : List Byte} (hlen : a ≤ bytes.length) :
    bytesOf (mappedBuffer urb) (pieces (bufSegments urb a) bytes) = bytes.take (bufLength urb a) ∧
      bytesOf .bufTail (pieces (bufSegments urb a) bytes) = (bytes.take a).drop (bufLength urb a) ∧
      bytesOf .isoc (pieces (bufSegments urb a) bytes) = [] := by
  have hle := bufLength_le urb a
  rw [pieces_bufSegments urb hlen]
  split_ifs with hzero hgap
  · obtain rfl := hzero
    obtain hnone : bufLength urb 0 = 0 := by omega
    simp [hnone, bytesOf]
  · simp [bytesOf]
  · have hfull : bufLength urb a = a := by omega
    simp [hfull, bytesOf]

theorem bytesOf_payload {urb : Urb} {hdr : Header} {bytes : List Byte}
    (hlen : bytes.length = total (payloadSegments urb hdr)) :
    bytesOf (mappedBuffer urb) (pieces (payloadSegments urb hdr) bytes) = bytes.take (bufLength urb (bufBytes hdr)) ∧
      bytesOf .bufTail (pieces (payloadSegments urb hdr) bytes) =
        (bytes.take (bufBytes hdr)).drop (bufLength urb (bufBytes hdr)) ∧
      bytesOf .isoc (pieces (payloadSegments urb hdr) bytes) = bytes.drop (bufBytes hdr) := by
  rw [total_payloadSegments] at hlen
  obtain ⟨hbuf, htail, hnone⟩ := bytesOf_buf urb (show bufBytes hdr ≤ bytes.length by omega)
  have hdrop : (bytes.drop (bufBytes hdr)).length = sizeofIsoPacketDescriptor * hdr.numberOfPackets.toNat := by
    rw [List.length_drop]
    omega
  obtain ⟨hbuf', htail', hisoc⟩ := bytesOf_isoc urb hdrop
  rw [payloadSegments, pieces_append, total_bufSegments]
  simp only [bytesOf_append, hbuf, htail, hnone, hbuf', htail', hisoc, List.append_nil, List.nil_append, and_self]

-- The state in which the payload of a reply is received.
structure AtPayload (reply : Reply) (env : Env) (rest : List Byte) (s : State) : Prop where
  hdr : s.ctx.hdr = hostHeader reply.hdr
  size : getPayloadSize s.ctx.hdr = reply.payload.length
  request : s.ctx.request = if reply.hdr.command = RET_SUBMIT then env.request else none
  stream : s.stream = reply.payload ++ rest
  writes : s.round.writes = [(.header, (byteswapHeader reply.hdr .host2net).bytes)]

theorem Started.atPayload {st s : State} {hdr : Header} (h : Started env st s hdr) (hconf : Conforming reply env.request)
    (hstream : st.stream = reply.bytes ++ rest) : AtPayload reply env rest (withRequest env s) := by
  have hnext := h.next
  rw [hstream] at hnext
  obtain rfl := nextHeader_reply hconf hnext
  have hhdr : s.ctx.hdr = hostHeader reply.hdr := h.hdr
  have hsplit : st.stream = (byteswapHeader reply.hdr .host2net).bytes ++ (reply.payload ++ rest) := by
    rw [hstream, Reply.bytes, replyBytes, List.append_assoc]
  refine ⟨hhdr, ?_, ?_, ?_, ?_⟩
  · change getPayloadSize s.ctx.hdr = _
    rw [hhdr]
    exact hostHeader_payloadSize hconf (nextHeader_valid hnext)
  · change (if s.ctx.hdr.command = RET_SUBMIT then env.request else none) = _
    rw [hhdr]
    rfl
  · change s.stream = _
    rw [h.stream, hsplit]
    exact List.drop_left' (bytes_length _)
  · change s.round.writes = _
    rw [h.writes, hsplit]
    exact congrArg (fun bytes => [(Buffer.header, bytes)]) (List.take_left' (bytes_length _))

variable {s v : State}

theorem AtPayload.take (h : AtPayload reply env rest s) : s.stream.take (getPayloadSize s.ctx.hdr) = reply.payload := by
  rw [h.stream, h.size, List.take_left]

theorem AtPayload.arrived_stream (h : AtPayload reply env rest s) (ha : Arrived s v) : v.stream = rest := by
  have hdrop : s.stream.drop (getPayloadSize s.ctx.hdr) = rest := by
    rw [h.stream, h.size, List.drop_left]
  cases ha with
  | nothing hzero =>
      rw [hzero, List.drop_zero] at hdrop
      exact hdrop
  | received => exact hdrop
  | drained _ _ _ hstream => exact hstream.trans hdrop

theorem AtPayload.submitted (h : AtPayload reply env rest s) {urb : Urb}
    (hreq : s.ctx.request = some { urb := some urb }) :
    reply.hdr.command = RET_SUBMIT ∧ env.request = some { urb := some urb } := by
  have hrequest := h.request
  rw [hreq] at hrequest
  split at hrequest
  · exact ⟨‹_›, hrequest.symm⟩
  · cases hrequest

theorem AtPayload.arrived_writes (h : AtPayload reply env rest s) (ha : Arrived s v) :
    ∃ received, v.round.writes = (.header, (byteswapHeader reply.hdr .host2net).bytes) :: received ∧
      received.flatMap Prod.snd = reply.payload ∧
      (env.request = none → ∀ piece ∈ received, piece.1 = .payload) ∧
      ∀ urb, reply.hdr.command = RET_SUBMIT → env.request = some { urb := some urb } →
        bytesOf (mappedBuffer urb) received = reply.payload.take (bufLength urb reply.bufBytes) ∧
        bytesOf .bufTail received = (reply.payload.take reply.bufBytes).drop (bufLength urb reply.bufBytes) ∧
        bytesOf .isoc received = reply.payload.drop reply.bufBytes := by
  have hbufBytes : bufBytes s.ctx.hdr = reply.bufBytes := by rw [h.hdr, hostHeader_bufBytes]
  cases ha with
  | nothing hzero =>
      have hpayload : reply.payload = [] := List.eq_nil_of_length_eq_zero (h.size.symm.trans hzero)
      exact ⟨[], h.writes, by rw [hpayload]; rfl, fun _ _ hp => (nomatch hp),
        fun urb _ _ => by simp [hpayload, bytesOf]⟩
  | @received v head hasTail urb hprep hpos hlen hle =>
      obtain ⟨hcommand, hreq⟩ := h.submitted hprep.request
      have htake := h.take
      have hbytes : reply.payload.length = total (payloadSegments urb s.ctx.hdr) := h.size.symm.trans hlen
      refine ⟨pieces (payloadSegments urb s.ctx.hdr) reply.payload, ?_, pieces_flatten (Nat.le_of_eq hbytes),
        fun hnone => ?_, fun urb' _ hreq' => ?_⟩
      · have hwrites : v.round.writes = s.round.writes := by rw [hprep.round]
        simp [arrived, handOver, hwrites, h.writes, htake]
      · rw [hreq] at hnone
        cases hnone
      · rw [hreq] at hreq'
        cases hreq'
        rw [← hbufBytes]
        exact bytesOf_payload hbytes
  | drained hnone hpos hle hstream hctx hround =>
      refine ⟨[(.payload, reply.payload)], ?_, by simp, fun _ piece hp => ?_, fun urb hcommand hreq => ?_⟩
      · rw [hround, h.take, h.writes]
        rfl
      · rw [List.mem_singleton.mp hp]
      · rw [h.request, if_pos hcommand, hreq] at hnone
        cases hnone

-- The URB of a transfer that is not isochronous when its payload has arrived.
structure Filled (reply : Reply) (urb urb' : Urb) : Prop where
  function : urb'.function = urb.function
  buffer : HasBuffer urb → HasBuffer urb'
  checked : check urb'.transferBufferLength reply.hdr.actualLength = .STATUS_SUCCESS
  length : ¬ HasBuffer urb → (urb'.transferBufferLength.toNat : Int) = reply.hdr.actualLength
  memory : urb'.memory = store urb (reply.payload.take (bufLength urb reply.bufBytes))

-- The length that the transfer buffer is set to is the one of the reply.
theorem SubmitReply.assigned (hsubmit : SubmitReply reply env.request) {length : UInt32}
    (hcheck : check length reply.hdr.actualLength = .STATUS_SUCCESS) :
    ((assignLength length reply.hdr.actualLength).1.toNat : Int) = reply.hdr.actualLength := by
  have hassigned : (assignLength length reply.hdr.actualLength).1 = ofSigned reply.hdr.actualLength := if_pos hcheck
  rw [hassigned]
  exact toNat_ofSigned hsubmit.actual (signed_lt _)

theorem AtPayload.arrived_request (h : AtPayload reply env rest s) (ha : Arrived s v)
    (hsubmit : SubmitReply reply env.request) {urb : Urb} (hreq : env.request = some { urb := some urb })
    (hisoch : isIsoch urb = false) :
    v.ctx.hdr = s.ctx.hdr ∧ ∃ urb', v.ctx.request = some { urb := some urb' } ∧ Filled reply urb urb' := by
  have hrequest := h.request
  rw [if_pos hsubmit.command, hreq] at hrequest
  obtain ⟨hle, hbuffer⟩ := hsubmit.requested urb hreq
  have hcheck : check urb.transferBufferLength reply.hdr.actualLength = .STATUS_SUCCESS := if_pos ⟨hsubmit.actual, hle⟩
  have hbufBytes : bufBytes s.ctx.hdr = reply.bufBytes := by rw [h.hdr, hostHeader_bufBytes]
  cases ha with
  | nothing hzero =>
      have hpayload : reply.payload.length = 0 := h.size.symm.trans hzero
      have hnone : bufLength urb reply.bufBytes = 0 := by
        have hshort := bufLength_le urb reply.bufBytes
        have hlen := hsubmit.payload
        omega
      refine ⟨rfl, urb, hrequest, rfl, id, hcheck, fun hno => ?_, by simp [hnone]⟩
      have hempty := hbuffer.resolve_left hno
      have hactual := hsubmit.actual
      rw [hempty] at hle ⊢
      exact Int.le_antisymm hactual hle
  | @received v head hasTail urb' hprep hpos hlen hle' =>
      obtain ⟨_, hreq'⟩ := h.submitted hprep.request
      rw [hreq] at hreq'
      cases hreq'
      have hbytes : reply.payload.length = total (payloadSegments urb s.ctx.hdr) := h.size.symm.trans hlen
      have hactual : s.ctx.hdr.actualLength = reply.hdr.actualLength := by
        rw [h.hdr]
        rfl
      have hnone : s.ctx.hdr.numberOfPackets.toNat = 0 := by
        rw [h.hdr, hostHeader_packets _ hsubmit.command]
        have hpackets := hsubmit.other urb hreq hisoch
        omega
      have hleft := hprep.left
      rw [hnone, hactual] at hleft
      have hassigned := hsubmit.assigned hcheck
      refine ⟨?_, { lengthened false urb reply.hdr.actualLength with
        memory := store urb (reply.payload.take (bufLength urb reply.bufBytes)) }, ?_, rfl, id, ?_,
        fun _ => hassigned, rfl⟩
      · have htake : (s.stream.take (getPayloadSize s.ctx.hdr)).length = total (payloadSegments urb s.ctx.hdr) := by
          rw [h.take]
          exact hbytes
        exact (payload_hdr _ _ htake).trans hprep.hdr
      · change ((pieces _ _).foldl deliverTo v.ctx).request = _
        rw [h.take, deliver_payloadSegments v.ctx urb s.ctx.hdr hbytes, hbufBytes]
        exact deliverTo_mapped hleft (lengthened_mdl _ _ _)
      · exact if_pos ⟨hsubmit.actual, Int.le_of_eq hassigned.symm⟩
  | drained hno =>
      rw [hrequest] at hno
      cases hno

theorem AtPayload.completed (h : AtPayload reply env rest s) (ha : Arrived s v) {u : State} (hreplied : Replied sys v u)
    (hsys : ∀ urb, HasBuffer urb → sys.retrieveBuffer urb = .STATUS_SUCCESS) (hsubmit : SubmitReply reply env.request)
    {urb : Urb} (hreq : env.request = some { urb := some urb }) (hisoch : isIsoch urb = false) :
    ∃ done st, u.round.completed = some ({ urb := some done }, st) ∧
      (done.transferBufferLength.toNat : Int) = reply.hdr.actualLength ∧
      (urb.function ≠ .controlTransfer →
        done.memory = store urb (reply.payload.take (bufLength urb reply.bufBytes))) := by
  obtain ⟨hhdr, urb', hurb', hfilled⟩ := h.arrived_request ha hsubmit hreq hisoch
  have hisoch' : isIsoch urb' = false := by rw [isIsoch, hfilled.function]; exact hisoch
  obtain ⟨w, left, status, st, hleft, hcompleted⟩ := hreplied.transferred urb' hurb' hisoch'
  have hactual : v.ctx.hdr.actualLength = reply.hdr.actualLength := by
    rw [hhdr, h.hdr]
    rfl
  refine ⟨_, st, hcompleted, ?_, fun hfunction => ?_⟩
  · change (left.transferBufferLength.toNat : Int) = _
    by_cases hretrieve : sys.retrieveBuffer { urb' with status := left.status } = .STATUS_SUCCESS
    · rw [hleft.length hretrieve (hactual ▸ hfilled.checked), hactual]
      exact toNat_ofSigned hsubmit.actual (signed_lt _)
    · rw [hleft.failed hretrieve]
      exact hfilled.length fun hbuffer => hretrieve (hsys _ (hfilled.buffer hbuffer))
  · change left.memory = _
    rw [hleft.memory (hfilled.function ▸ hfunction), hfilled.memory]

theorem recvRound_receives (hsys : ∀ urb, HasBuffer urb → sys.retrieveBuffer urb = .STATUS_SUCCESS) {st u : State}
    (hi : Inv st.heap st.ctx) (hconf : Conforming reply env.request) (hstream : st.stream = reply.bytes ++ rest)
    (hrun : recvRound sys env st = .ok true u) :
    Inv u.heap u.ctx ∧ u.stream = rest ∧ Received reply env.request u := by
  obtain ⟨hinv, _, ⟨_, hstop, _⟩ | ⟨s, hdr, hstart, _, hgo⟩⟩ := (recvRound_spec hi).ok hrun
  · cases hstop
  obtain ⟨v, harrived, hreplied⟩ := hgo rfl
  have hat := hstart.atPayload hconf hstream
  obtain ⟨received, hwrites, hreceived⟩ := hat.arrived_writes harrived
  refine ⟨hinv, hreplied.stream.trans (hat.arrived_stream harrived),
    ⟨received, hreplied.writes.trans hwrites, hreceived⟩,
    fun urb hcommand hreq hisoch => ?_⟩
  obtain hsubmit | hunlink := hconf.2
  · exact hat.completed harrived hreplied hsys hsubmit hreq hisoch
  · rw [hunlink.command] at hcommand
    cases hcommand

theorem written_eq_iff {urb : Urb} {writes : List (Buffer × List Byte)} {bytes : List Byte}
    (h : bytesOf (mappedBuffer urb) writes = bytes) :
    written urb writes = bytes.mapIdx (fun i byte => (.own i, byte)) ↔ LeadsOn urb bytes.length := by
  rw [written, h, List.mapIdx_eq_mapIdx_iff, leadsOn_iff]
  exact forall₂_congr fun i hi => by simp

theorem Conforming.bufLength_le_payload {request : Option UdeRequest} (h : Conforming reply request)
    (hcommand : reply.hdr.command = RET_SUBMIT) (urb : Urb) :
    (reply.payload.take (bufLength urb reply.bufBytes)).length = bufLength urb reply.bufBytes := by
  obtain hsubmit | hunlink := h.2
  · have hle := bufLength_le urb reply.bufBytes
    have hpayload := hsubmit.payload
    rw [List.length_take]
    omega
  · rw [hunlink.command] at hcommand
    cases hcommand

-- What is received reaches a request if the MDL of its transfer buffer does.
theorem Received.consumed_iff {u : State} (h : Received reply env.request u) (hconf : Conforming reply env.request) :
    Consumed reply env.request u ↔ Reaches reply env.request := by
  have hbytes : ∀ urb, reply.hdr.command = RET_SUBMIT → env.request = some { urb := some urb } →
      bytesOf (mappedBuffer urb) u.round.writes = reply.payload.take (bufLength urb reply.bufBytes) := by
    intro urb hcommand hreq
    obtain ⟨received, hwrites, _, _, hreceived⟩ := h.received
    have hne := (mappedBuffer_ofMdlBuf urb).ne.1
    rw [hwrites, bytesOf, List.filter_cons_of_neg (by simpa using hne.symm)]
    exact (hreceived urb hcommand hreq).1
  constructor
  · intro hconsumed urb hcommand hreq
    have hplaced := (written_eq_iff (hbytes urb hcommand hreq)).mp (hconsumed.placed urb hcommand hreq)
    rwa [hconf.bufLength_le_payload hcommand] at hplaced
  · intro hreaches
    refine ⟨h, fun urb hcommand hreq => ?_, fun urb hcommand hreq hisoch hfunction => ?_⟩
    · refine (written_eq_iff (hbytes urb hcommand hreq)).mpr ?_
      rw [hconf.bufLength_le_payload hcommand]
      exact hreaches urb hcommand hreq
    · obtain ⟨done, st, hcompleted, _, hmemory⟩ := h.completed urb hcommand hreq hisoch
      have hlen := hconf.bufLength_le_payload hcommand urb
      refine ⟨done, st, hcompleted, ?_⟩
      rw [hmemory hfunction, store_own (by rw [hlen]; exact hreaches urb hcommand hreq), hlen]

theorem leadsOn_bufLength {urb : Urb} {n : Nat} : LeadsOn urb (bufLength urb n) ↔ LeadsOn urb n := by
  unfold LeadsOn bufLength
  split
  case h_1 head hmdl =>
    rw [hmdl]
    exact iff_of_true (fun _ _ _ h => nomatch h) fun _ _ _ h => nomatch h
  case h_2 => rfl

-- In physical memory: the bytes reach the request if the MDL describes those of the URB.
theorem Received.consumed_iff_describes {u : State} (h : Received reply env.request u)
    (hconf : Conforming reply env.request) (hcommand : reply.hdr.command = RET_SUBMIT) {urb : Urb}
    (hreq : env.request = some { urb := some urb }) {system : TransferBuffer.Env} {r : TransferBuffer.UrbTransfer}
    (hmatches : TransferBuffer.Matches env urb system r) (hdistinct : (r.bytes system.addressSpace).Nodup)
    (hst : (TransferBuffer.mapTransferBuffer system reply.bufBytes .IoWriteAccess r).1 = .STATUS_SUCCESS) :
    Consumed reply env.request u ↔
      TransferBuffer.Describes r system.addressSpace reply.bufBytes
        (TransferBuffer.mapTransferBuffer system reply.bufBytes .IoWriteAccess r) := by
  have hle : reply.bufBytes ≤ r.transferBufferLength.toNat := by
    obtain hsubmit | hunlink := hconf.2
    · have hactual := (hsubmit.requested urb hreq).1
      rw [← hmatches.length]
      unfold Reply.bufBytes
      split_ifs
      · omega
      · exact Nat.zero_le _
    · rw [hunlink.command] at hcommand
      cases hcommand
  rw [h.consumed_iff hconf, TransferBuffer.describes_iff_leadsOn hmatches hdistinct hle hst, ← leadsOn_bufLength]
  constructor
  · exact fun hreaches => hreaches urb hcommand hreq
  · intro hleads urb' _ hreq'
    rw [hreq] at hreq'
    cases hreq'
    exact hleads

end Round

section Loop

variable {sys : Services}

def streamOf (replies : List (Reply × Env)) : List Byte := replies.flatMap fun r => r.1.bytes

theorem recvLoop_stream (hsys : ∀ urb, HasBuffer urb → sys.retrieveBuffer urb = .STATUS_SUCCESS) {st t : State}
    {replies : List (Reply × Env)} {rest : List Byte} (hi : Inv st.heap st.ctx)
    (hconf : ∀ r ∈ replies, Conforming r.1 r.2.request) (hstream : st.stream = streamOf replies ++ rest)
    (hloop : recvLoop sys (replies.map Prod.snd) st = some t) : Inv t.heap t.ctx ∧ t.stream = rest := by
  induction replies generalizing st with
  | nil =>
      cases hloop
      exact ⟨hi, hstream⟩
  | cons r replies ih =>
      rw [streamOf, List.flatMap_cons, List.append_assoc] at hstream
      rw [List.map_cons, recvLoop] at hloop
      split at hloop
      · rename_i u hrun
        obtain ⟨hinv, hleft, _⟩ := recvRound_receives hsys hi (hconf r List.mem_cons_self) hstream hrun
        exact ih hinv (fun r hr => hconf r (List.mem_cons_of_mem _ hr)) hleft hloop
      · cases hloop

-- Whatever the replies before it, a reply is read where it begins and the next one where it ends. Its bytes reach
-- the request if the mapping of the first MDL of a chain leads on to the others, as far as the payload goes.
theorem recvLoop_framing (hsys : ∀ urb, HasBuffer urb → sys.retrieveBuffer urb = .STATUS_SUCCESS)
    {ok : State → Action → Prop} {st t u : State} (hr : (machine sys).Reachable ok st)
    {front back : List (Reply × Env)} {reply : Reply} {env : Env} {rest : List Byte}
    (hconf : ∀ r ∈ front ++ (reply, env) :: back, Conforming r.1 r.2.request)
    (hstream : st.stream = streamOf (front ++ (reply, env) :: back) ++ rest)
    (hloop : recvLoop sys (front.map Prod.snd) st = some t) (hround : recvRound sys env t = .ok true u) :
    t.stream = reply.bytes ++ (streamOf back ++ rest) ∧ u.stream = streamOf back ++ rest ∧
      Received reply env.request u ∧ (Consumed reply env.request u ↔ Reaches reply env.request) := by
  have hsplit : st.stream = streamOf front ++ (reply.bytes ++ (streamOf back ++ rest)) := by
    rw [hstream]
    simp [streamOf]
  obtain ⟨hinv, hleft⟩ := recvLoop_stream hsys (reachable_inv hr)
    (fun r hr => hconf r (List.mem_append_left _ hr)) hsplit hloop
  have hreply := hconf (reply, env) (List.mem_append_right _ List.mem_cons_self)
  obtain ⟨_, hrest, hreceived⟩ := recvRound_receives hsys hinv hreply hleft hround
  exact ⟨hleft, hrest, hreceived, hreceived.consumed_iff hreply⟩

theorem recvLoop_last {st u : State} {envs : List Env} {env : Env} (h : recvLoop sys (envs ++ [env]) st = some u) :
    ∃ t, recvLoop sys envs st = some t ∧ recvRound sys env t = .ok true u := by
  induction envs generalizing st with
  | nil =>
      rw [List.nil_append, recvLoop] at h
      split at h
      · cases h
        exact ⟨st, rfl, ‹_›⟩
      · cases h
  | cons first envs ih =>
      rw [List.cons_append, recvLoop] at h
      split at h
      · rename_i v hfirst
        obtain ⟨t, ht, hlast⟩ := ih h
        exact ⟨t, by rw [recvLoop, hfirst]; exact ht, hlast⟩
      · cases h

end Loop

-- An isochronous reply, then one whose transfer has been cancelled.
def sampleIsoch : Reply where
  hdr := sampleHeader 8 1
  payload := [1, 2, 3, 4, 5, 6, 7, 8] ++ List.replicate 16 0

def sampleCancelled : Reply where
  hdr := sampleHeader 2 (-1)
  payload := [5, 6]

def cancelledEnv : Env where
  request := none

def sampleReplies : List (Reply × Env) := [(sampleIsoch, sampleEnv)] ++ [(sampleCancelled, cancelledEnv)]

theorem sampleIsoch_conforming : Conforming sampleIsoch sampleEnv.request := by
  refine ⟨by decide, .inl ⟨by decide, by decide, by decide, by decide, ?_, ?_, ?_⟩⟩
  all_goals
    intro urb hurb
    cases hurb
  · exact ⟨by decide, .inl (.inr (by decide))⟩
  · decide
  · decide

theorem sampleCancelled_conforming : Conforming sampleCancelled cancelledEnv.request := by
  refine ⟨by decide, .inl ⟨by decide, by decide, by decide, by decide, ?_, ?_, ?_⟩⟩
  all_goals
    intro urb hurb
    cases hurb

theorem recvLoop_framing_cancelled :
    ∃ u, recvLoop sampleServices [sampleEnv, cancelledEnv] (sampleContext (streamOf sampleReplies)) = some u ∧
      u.stream = [] := by
  have hrun : (recvLoop sampleServices [sampleEnv, cancelledEnv]
      (sampleContext (streamOf sampleReplies))).isSome = true := by decide +kernel
  have hconf : ∀ r ∈ [(sampleIsoch, sampleEnv)] ++ (sampleCancelled, cancelledEnv) :: [],
      Conforming r.1 r.2.request := by
    intro r hr
    obtain hr | hr := List.mem_append.mp hr
    · rw [List.mem_singleton.mp hr]
      exact sampleIsoch_conforming
    · rw [List.mem_singleton.mp hr]
      exact sampleCancelled_conforming
  have hstream : (sampleContext (streamOf sampleReplies)).stream =
      streamOf ([(sampleIsoch, sampleEnv)] ++ (sampleCancelled, cancelledEnv) :: []) ++ [] :=
    (List.append_nil (streamOf sampleReplies)).symm
  have hreachable := sampleContext_reachable (fun _ _ => True) (streamOf sampleReplies)
  obtain ⟨u, hu⟩ := Option.isSome_iff_exists.mp hrun
  obtain ⟨t, hloop, hround⟩ := recvLoop_last (show recvLoop _ ([sampleEnv] ++ [cancelledEnv]) _ = _ from hu)
  obtain ⟨_, hleft, _⟩ := recvLoop_framing (fun _ h => if_pos h) hreachable hconf hstream hloop hround
  exact ⟨u, hu, hleft⟩

-- Two MDLs of four bytes; somebody else's memory follows the mapping of the first of them.
def splitUrb : Urb where
  function := .bulkOrInterruptTransfer
  transferBufferLength := 8
  transferBufferMdl := [4, 4]
  memory := List.replicate 8 0

def splitEnv : Env where
  request := some { urb := some splitUrb }

def splitReply : Reply where
  hdr := sampleHeader 8 (-1)
  payload := [1, 2, 3, 4, 5, 6, 7, 8]

theorem splitReply_conforming : Conforming splitReply splitEnv.request := by
  refine ⟨by decide, .inl ⟨by decide, by decide, by decide, by decide, ?_, ?_, ?_⟩⟩
  all_goals
    intro urb hurb
    cases hurb
  · exact ⟨by decide, .inl (.inr (by decide))⟩
  · decide
  · decide

-- The last four bytes of the payload do not reach the request.
theorem recvLoop_past_head :
    ¬ ∀ (st t u : State) (front back : List (Reply × Env)) (reply : Reply) (env : Env) (rest : List Byte),
      (machine sampleServices).Reachable (fun _ _ => True) st →
      (∀ r ∈ front ++ (reply, env) :: back, Conforming r.1 r.2.request) →
      st.stream = streamOf (front ++ (reply, env) :: back) ++ rest →
      recvLoop sampleServices (front.map Prod.snd) st = some t → recvRound sampleServices env t = .ok true u →
        t.stream = reply.bytes ++ (streamOf back ++ rest) ∧ u.stream = streamOf back ++ rest ∧
          Consumed reply env.request u := by
  intro h
  have hrun : (recvLoop sampleServices [splitEnv] (sampleContext splitReply.bytes)).isSome = true := by decide +kernel
  obtain ⟨u, hu⟩ := Option.isSome_iff_exists.mp hrun
  obtain ⟨t, hloop, hround⟩ := recvLoop_last (show recvLoop _ ([] ++ [splitEnv]) _ = _ from hu)
  have hconf : ∀ r ∈ [] ++ (splitReply, splitEnv) :: [], Conforming r.1 r.2.request := by
    intro r hr
    rw [List.mem_singleton.mp hr]
    exact splitReply_conforming
  have hstream : (sampleContext splitReply.bytes).stream = streamOf ([] ++ (splitReply, splitEnv) :: []) ++ [] := by
    simp [sampleContext, streamOf]
  obtain ⟨_, _, hconsumed⟩ :=
    h _ t u [] [] splitReply splitEnv [] (sampleContext_reachable _ _) hconf hstream hloop hround
  have hreaches := (hconsumed.toReceived.consumed_iff splitReply_conforming).mp hconsumed
  have hown := hreaches splitUrb rfl rfl 4 4 [] rfl 4 (by decide) (by decide)
  revert hown
  decide

end Usbip.Wsk

import Usbip.WskReceive.Chain

namespace Usbip.Wsk

open Usbip.Library.Hoare
open Usbip.Library.Runs
open Usbip.Library.Words

-- The descriptors of a use: prepared for as many packets in this round and received in it.
def FromThisReply (u : IsocUse) : Prop :=
  u.cnt = 0 ∨ ∃ isoc, u.isoc = some isoc ∧ u.prepared = some u.cnt ∧
    sizeofIsoPacketDescriptor * u.cnt ≤ isoc.length ∧
    (Buffer.isoc, isoc.take (sizeofIsoPacketDescriptor * u.cnt)) ∈ u.writes

-- A reply with packets for an isochronous URB whose negative length hides them.
structure StaleHeader (hdr : Header) (urb : Urb) : Prop where
  command : hdr.command = RET_SUBMIT
  isoch : isIsoch urb = true
  direction : hdr.direction ≠ directionOut
  packets : hdr.numberOfPackets = urb.numberOfPackets.toNat
  some : 0 < urb.numberOfPackets.toNat
  length : hdr.actualLength = -16 * hdr.numberOfPackets

def Stale (env : Env) (st : State) : Prop :=
  env.unplugged = false ∧ ∃ hdr urb, nextHeader env st.stream = some hdr ∧
    env.request = some { urb := some urb } ∧ StaleHeader hdr urb

section Uses

variable {s v : State} {urb : Urb}

theorem mem_usesOf {u : IsocUse} (h : u ∈ usesOf s urb) :
    isIsoch urb = true ∧ s.ctx.hdr.numberOfPackets = urb.numberOfPackets.toNat ∧
      u = useOf s s.ctx.hdr.numberOfPackets.toNat := by
  unfold usesOf at h
  split at h
  · rename_i hc
    exact ⟨hc.1, hc.2, List.mem_singleton.mp h⟩
  · cases h

-- The whole array of descriptors of a message is behind its other bytes.
theorem received_fromThisReply {head : Option Nat} {hasTail : Bool}
    (h : Prepared s v head hasTail s.ctx.hdr.numberOfPackets.toNat urb)
    (hlen : getPayloadSize s.ctx.hdr = total (payloadSegments urb s.ctx.hdr))
    (harrived : getPayloadSize s.ctx.hdr ≤ s.stream.length) :
    FromThisReply (useOf (arrived { handOver v head hasTail (getPayloadSize s.ctx.hdr) with
      stream := s.stream.drop (getPayloadSize s.ctx.hdr) }
      (pieces (payloadSegments urb s.ctx.hdr) (s.stream.take (getPayloadSize s.ctx.hdr))))
      s.ctx.hdr.numberOfPackets.toNat) := by
  have hbytes : (s.stream.take (getPayloadSize s.ctx.hdr)).length = total (payloadSegments urb s.ctx.hdr) := by
    rw [List.length_take]
    omega
  generalize s.stream.take (getPayloadSize s.ctx.hdr) = bytes at hbytes ⊢
  by_cases hn : s.ctx.hdr.numberOfPackets.toNat = 0
  · exact .inl hn
  have hdrop : (bytes.drop (bufBytes s.ctx.hdr)).length =
      sizeofIsoPacketDescriptor * s.ctx.hdr.numberOfPackets.toNat := by
    rw [total_payloadSegments] at hbytes
    rw [List.length_drop]
    omega
  have hmem : (Buffer.isoc, sizeofIsoPacketDescriptor * s.ctx.hdr.numberOfPackets.toNat) ∈
      payloadSegments urb s.ctx.hdr := by
    refine List.mem_append_right _ ?_
    rw [isocSegments, if_neg hn]
    exact List.mem_singleton_self _
  obtain ⟨isoc, hisoc, hroom⟩ := h.fits _ hmem rfl
  have hroom : sizeofIsoPacketDescriptor * s.ctx.hdr.numberOfPackets.toNat ≤ isoc.length := hroom
  refine .inr ⟨bytes.drop (bufBytes s.ctx.hdr) ++ isoc.drop (bytes.drop (bufBytes s.ctx.hdr)).length, ?_, ?_, ?_, ?_⟩
  · rw [useOf, arrived]
    dsimp only
    rw [deliver_payloadSegments _ urb s.ctx.hdr hbytes, deliverTo_mapped_rest]
    simp [deliverTo, handOver, hisoc]
  · simp [useOf, arrived, handOver, h.round]
  · change sizeofIsoPacketDescriptor * s.ctx.hdr.numberOfPackets.toNat ≤ _
    rw [List.length_append, hdrop]
    omega
  · rw [useOf, ← hdrop, List.take_left]
    refine List.mem_append_right _ ?_
    rw [payloadSegments, pieces_append, total_bufSegments, pieces_isocSegments hn hdrop]
    exact List.mem_append_right _ (List.mem_singleton_self _)

theorem payload_hdr {bytes : List Byte} (ctx : WskContext) (hdr : Header)
    (hlen : bytes.length = total (payloadSegments urb hdr)) :
    ((pieces (payloadSegments urb hdr) bytes).foldl deliverTo ctx).hdr = ctx.hdr := by
  rw [deliver_payloadSegments ctx urb hdr hlen, deliverTo_mapped_rest]
  rfl

-- What was used for a reply that is not stale.
theorem usedBy_fromThisReply (hv : ValidHeader s.ctx.hdr)
    (hsubmit : s.ctx.request ≠ none → s.ctx.hdr.command = RET_SUBMIT)
    {uses : List IsocUse} (husedBy : UsedBy s uses)
    (hfresh : ∀ urb, s.ctx.request = some { urb := some urb } → ¬ StaleHeader s.ctx.hdr urb) :
    ∀ u ∈ uses, FromThisReply u := by
  intro u hu
  obtain ⟨v, urb, harrived, hreq, hmem⟩ := husedBy u hu
  obtain ⟨hisoch, hcnt, rfl⟩ := mem_usesOf hmem
  cases harrived with
  | nothing hzero =>
      have hcommand := hsubmit (by rw [hreq]; simp)
      have hpackets := hv.packets hcommand
      have hsum := (payloadSize_eq_zero hcommand hpackets).mp hzero
      by_contra hbad
      have hsome : 0 < urb.numberOfPackets.toNat := by
        refine Nat.pos_of_ne_zero fun hnone => hbad (.inl ?_)
        rw [hnone] at hcnt
        simp [useOf, hcnt]
      refine hfresh urb hreq ⟨hcommand, hisoch, fun hout => ?_, hcnt, hsome, ?_⟩
      · rw [if_pos hout] at hsum
        omega
      · split at hsum <;> omega
  | @received v head hasTail urb' hprep hpos hlen hle =>
      have hbytes : (s.stream.take (getPayloadSize s.ctx.hdr)).length = total (payloadSegments urb' s.ctx.hdr) := by
        rw [List.length_take, Nat.min_eq_left hle, hlen]
      have hhdr := (payload_hdr _ s.ctx.hdr hbytes).trans hprep.hdr
      have hcnt' := congrArg (fun hdr => hdr.numberOfPackets.toNat) hhdr
      exact (congrArg (fun n => FromThisReply (useOf _ n)) hcnt').mpr (received_fromThisReply hprep hlen hle)
  | drained hnone hpos hle hstream hctx hround =>
      rw [hctx] at hreq
      simp [hnone] at hreq

end Uses

section Runs

variable {sys : Services}

-- In every state that can be reached a round uses descriptors of its own reply only, unless the length
-- in the header hides them.
theorem recvRound_own_descriptors {ok : State → Action → Prop} {st : State} (hr : (machine sys).Reachable ok st)
    (env : Env) :
    (∀ u ∈ (after (recvRound sys env st)).round.uses, FromThisReply u) ↔ ¬ Stale env st := by
  have hi := reachable_inv hr
  -- Either the round ends before a reply or the reply is started.
  have hround : (env.unplugged = true ∨ nextHeader env st.stream = none) ∧
        (after (recvRound sys env st)).round.uses = [] ∨
      ∃ u hdr, Started env st u hdr ∧ Observed (withRequest env u) (after (recvRound sys env st)) := by
    cases hrun : recvRound sys env st with
    | ok go t =>
        obtain ⟨_, _, ⟨hidle, _, huses, _⟩ | ⟨u, hdr, hstart, hobserved, _⟩⟩ := (recvRound_spec hi).ok hrun
        · exact .inl ⟨hidle, huses⟩
        · exact .inr ⟨u, hdr, hstart, hobserved⟩
    | error e t =>
        obtain ⟨u, hdr, hstart, hobserved, _⟩ := (recvRound_spec hi).error hrun
        exact .inr ⟨u, hdr, hstart, hobserved⟩
  obtain ⟨hidle, huses⟩ | ⟨u, hdr, hstart, hobserved⟩ := hround
  · refine iff_of_true (by rw [huses]; exact fun _ h => nomatch h) ?_
    rintro ⟨hplugged, hdr, urb, hnext, _⟩
    rw [hplugged, hnext] at hidle
    simp at hidle
  have hvalid : ValidHeader (withRequest env u).ctx.hdr := hstart.hdr ▸ nextHeader_valid hstart.next
  constructor
  · rintro hall ⟨_, hdr', urb, hnext, hreq, hstale⟩
    rw [hstart.next] at hnext
    cases hnext
    obtain rfl := hstart.hdr
    have hzero : getPayloadSize u.ctx.hdr = 0 := by
      refine (payloadSize_eq_zero hstale.command (hvalid.packets hstale.command)).mpr ?_
      have hlength := hstale.length
      rw [if_neg hstale.direction]
      omega
    have hrequest : (withRequest env u).ctx.request = some { urb := some urb } := (if_pos hstale.command).trans hreq
    have huses := hobserved.usedAtOnce hzero urb hrequest
    rw [usesOf, if_pos ⟨hstale.isoch, hstale.packets⟩] at huses
    have hsome := hstale.some
    have hpackets := hstale.packets
    obtain hnone | ⟨_, _, hprepared, _⟩ := hall _ (by rw [huses]; exact List.mem_singleton_self _)
    · have hnone : u.ctx.hdr.numberOfPackets.toNat = 0 := hnone
      omega
    · have hprepared : u.round.prepared = _ := hprepared
      rw [hstart.step.round] at hprepared
      cases hprepared
  · intro hfresh
    refine usedBy_fromThisReply hvalid withRequest_submit hobserved.usedBy fun urb hreq hstale => hfresh ?_
    have hrequest : (if u.ctx.hdr.command = RET_SUBMIT then env.request else none) = some { urb := some urb } := hreq
    have hstale : StaleHeader u.ctx.hdr urb := hstale
    rw [if_pos hstale.command] at hrequest
    exact ⟨hstart.plugged, hdr, urb, hstart.next, hrequest, hstart.hdr ▸ hstale⟩

theorem recvRound_own_descriptors_sample :
    ¬ Stale sampleEnv (sampleContext sampleReply) ∧
      ∀ u ∈ (after (recvRound sampleServices sampleEnv (sampleContext sampleReply))).round.uses, FromThisReply u := by
  have hrun := recvRound_own_descriptors (sampleContext_reachable (fun _ _ => True) sampleReply) sampleEnv
  suffices hfresh : ¬ Stale sampleEnv (sampleContext sampleReply) from ⟨hfresh, hrun.mpr hfresh⟩
  rintro ⟨_, hdr, urb, hnext, _, hstale⟩
  have hlength : (nextHeader sampleEnv (sampleContext sampleReply).stream).all
      (fun hdr => decide (0 ≤ hdr.actualLength)) = true := by decide +kernel
  rw [hnext, Option.all_some] at hlength
  have hpos := of_decide_eq_true hlength
  have hactual := hstale.length
  have hpackets := hstale.packets
  have hsome := hstale.some
  omega

-- A header that hides one packet uses the array that is not there yet.
theorem recvRound_stale_descriptors :
    ∃ st, (machine sampleServices).Reachable (fun _ _ => True) st ∧
      ∃ u ∈ (after (recvRound sampleServices sampleEnv st)).round.uses, ¬ FromThisReply u := by
  refine ⟨_, sampleContext_reachable _ (replyBytes (sampleHeader (-16) 1) []), ?_⟩
  have huse : (after (recvRound sampleServices sampleEnv (sampleContext
      (replyBytes (sampleHeader (-16) 1) [])))).round.uses.any
      (fun u => decide (u.cnt = 1 ∧ u.isoc = none)) = true := by decide +kernel
  obtain ⟨u, hu, hnull⟩ := List.any_eq_true.mp huse
  obtain ⟨hcnt, hisoc⟩ := of_decide_eq_true hnull
  refine ⟨u, hu, ?_⟩
  rintro (hzero | ⟨isoc, hsome, _⟩)
  · omega
  · rw [hisoc] at hsome
    cases hsome

end Runs

end Usbip.Wsk

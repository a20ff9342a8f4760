import Usbip.WskReceive.Receive

namespace Usbip.Wsk

open Usbip.Library.Chain
open Usbip.Library.Hoare
open Usbip.Library.Runs
open Usbip.Library.Words

section PayloadSize

variable {hdr : Header}

theorem payloadSize_unlink (h : hdr.command = RET_UNLINK) : getPayloadSize hdr = 0 := by
  have h1 : hdr.command ≠ CMD_SUBMIT := by rw [h]; decide
  have h2 : hdr.command ≠ RET_SUBMIT := by rw [h]; decide
  simp only [getPayloadSize, getTotalSize, getIsocDescr, if_neg h1, if_neg h2]
  decide

theorem toSize_nonneg {value : Int} (h : 0 ≤ value) (hlt : value < 2 ^ 64) : toSize value = value.toNat := by
  unfold toSize
  omega

-- The sizes are computed with 64 bits, so only a negative `actual_length` can cancel the packets.
theorem payloadSize_submit (h : hdr.command = RET_SUBMIT)
    (hn : 0 ≤ hdr.numberOfPackets ∧ hdr.numberOfPackets ≤ maxIsoPackets) :
    getPayloadSize hdr =
      toSize ((if hdr.direction = directionOut then 0 else hdr.actualLength) + 16 * hdr.numberOfPackets) := by
  have h1 : hdr.command ≠ CMD_SUBMIT := by rw [h]; decide
  obtain ⟨hlow, hhigh⟩ := hn
  unfold maxIsoPackets at hhigh
  have hcnt : toSize hdr.numberOfPackets = hdr.numberOfPackets.toNat := toSize_nonneg hlow (by omega)
  have hne : hdr.numberOfPackets.toNat ≠ toSize numberOfPacketsNonIsoch := by
    have : toSize numberOfPacketsNonIsoch = 2 ^ 64 - 1 := by decide
    omega
  simp only [getPayloadSize, getTotalSize, getIsocDescr, if_neg h1, if_pos h, hcnt, if_neg hne, beq_iff_eq]
  simp only [toSize, Header.size, sizeofIsoPacketDescriptor]
  split <;> omega

theorem payloadSize_received (h : hdr.command = RET_SUBMIT)
    (hn : 0 ≤ hdr.numberOfPackets ∧ hdr.numberOfPackets ≤ maxIsoPackets)
    (ha : hdr.direction = directionOut ∨ 0 ≤ hdr.actualLength) :
    getPayloadSize hdr = bufBytes hdr + sizeofIsoPacketDescriptor * hdr.numberOfPackets.toNat := by
  have hu := signed_lt hdr.u1
  have hactual : hdr.actualLength = signed hdr.u1 := rfl
  rw [payloadSize_submit h hn]
  unfold maxIsoPackets at hn
  simp only [bufBytes, sizeofIsoPacketDescriptor]
  split
  · rw [toSize_nonneg (by omega) (by omega)]
    omega
  · have ha := ha.resolve_left ‹_›
    rw [toSize_nonneg (by omega) (by omega)]
    omega

-- Only a negative length hides the packets of a reply.
theorem payloadSize_eq_zero (h : hdr.command = RET_SUBMIT)
    (hn : 0 ≤ hdr.numberOfPackets ∧ hdr.numberOfPackets ≤ maxIsoPackets) :
    getPayloadSize hdr = 0 ↔
      (if hdr.direction = directionOut then 0 else hdr.actualLength) + 16 * hdr.numberOfPackets = 0 := by
  have hl := neg_le_signed hdr.u1
  have hu := signed_lt hdr.u1
  have hactual : hdr.actualLength = signed hdr.u1 := rfl
  rw [payloadSize_submit h hn]
  unfold maxIsoPackets at hn
  unfold toSize
  split <;> omega

end PayloadSize

theorem total_bufSegments (urb : Urb) (a : Nat) : total (bufSegments urb a) = a := by
  have hle := bufLength_le urb a
  unfold bufSegments
  split_ifs <;> simp [total] <;> omega

theorem total_isocSegments (n : Nat) : total (isocSegments n) = sizeofIsoPacketDescriptor * n := by
  unfold isocSegments
  split_ifs with hn
  · rw [hn]
    rfl
  · simp [total]

-- The MDLs of a payload and how many bytes of it each of them takes.
def payloadSegments (urb : Urb) (hdr : Header) : List (Buffer × Nat) :=
  bufSegments urb (bufBytes hdr) ++ isocSegments hdr.numberOfPackets.toNat

theorem total_payloadSegments (urb : Urb) (hdr : Header) :
    total (payloadSegments urb hdr) = bufBytes hdr + sizeofIsoPacketDescriptor * hdr.numberOfPackets.toNat := by
  rw [payloadSegments, total_append, total_bufSegments, total_isocSegments]

theorem pieces_isocSegments {n : Nat} {bytes : List Byte} (hn : n ≠ 0)
    (hlen : bytes.length = sizeofIsoPacketDescriptor * n) : pieces (isocSegments n) bytes = [(.isoc, bytes)] := by
  rw [isocSegments, if_neg hn]
  refine pieces_single (List.ne_nil_of_length_pos ?_) (Nat.le_of_eq hlen)
  simp only [sizeofIsoPacketDescriptor] at hlen
  omega

theorem deliverTo_nothing (ctx : WskContext) {buffer : Buffer} (h : buffer ≠ .header) :
    deliverTo ctx (buffer, []) = ctx := by
  cases buffer with
  | header => exact absurd rfl h
  | transferBuffer => simp [deliverTo]
  | headMapping => simp [deliverTo, storeAt]
  | bufTail => rfl
  | isoc => simp [deliverTo]
  | payload => rfl

theorem deliver_isocSegments (ctx : WskContext) {n : Nat} {bytes : List Byte}
    (hlen : bytes.length = sizeofIsoPacketDescriptor * n) :
    (pieces (isocSegments n) bytes).foldl deliverTo ctx = deliverTo ctx (.isoc, bytes) := by
  by_cases hn : n = 0
  · obtain rfl : bytes = [] := List.eq_nil_of_length_eq_zero (by rw [hlen, hn]; rfl)
    rw [deliverTo_nothing ctx (by simp), pieces_nothing, List.foldl_nil]
  · rw [pieces_isocSegments hn hlen]
    rfl

theorem pieces_bufSegments (urb : Urb) {a : Nat} {bytes : List Byte} (hlen : a ≤ bytes.length) :
    pieces (bufSegments urb a) bytes =
      if a = 0 then []
      else (mappedBuffer urb, bytes.take (bufLength urb a)) ::
        if bufLength urb a < a then [(.bufTail, (bytes.take a).drop (bufLength urb a))] else [] := by
  have hle := bufLength_le urb a
  unfold bufSegments
  split_ifs with hzero hgap
  · exact pieces_nil bytes
  · cases bytes with
    | nil =>
        rw [List.length_nil] at hlen
        omega
    | cons b bytes =>
        have hne : (b :: bytes).drop (bufLength urb a) ≠ [] := by
          refine List.ne_nil_of_length_pos ?_
          rw [List.length_drop]
          omega
        rw [pieces, pieces_one hne, List.drop_take]
  · have hne : bytes ≠ [] := by
      rintro rfl
      rw [List.length_nil] at hlen
      omega
    have hfull : bufLength urb a = a := by omega
    rw [pieces_one hne, hfull]

-- The bytes are written where the MDL of the transfer buffer describes them.
theorem deliverTo_mapped {ctx : WskContext} {urb left : Urb} {bytes : List Byte}
    (hreq : ctx.request = some { urb := some left }) (hmdl : left.transferBufferMdl = urb.transferBufferMdl) :
    (deliverTo ctx (mappedBuffer urb, bytes)).request =
      some { urb := some { left with memory := store left bytes } } := by
  unfold mappedBuffer store
  rw [← hmdl]
  split
  case h_1 head next rest hchain =>
    have hplace : place left = left.mapping := by
      funext i
      simp [place, hchain]
    simp [deliverTo, hreq, hplace]
  case h_2 hchain =>
    have hplace : place left = .own := by
      funext i
      unfold place
      split
      · exact absurd ‹_› (hchain _ _ _)
      · rfl
    simp [deliverTo, hreq, hplace, storeAt_own]

theorem deliverTo_mapped_rest (ctx : WskContext) (urb : Urb) (bytes : List Byte) :
    deliverTo ctx (mappedBuffer urb, bytes) =
      { ctx with request := (deliverTo ctx (mappedBuffer urb, bytes)).request } := by
  unfold mappedBuffer
  split <;> rfl

-- What the tail takes does not reach the URB.
theorem deliver_bufSegments (ctx : WskContext) (urb : Urb) {a : Nat} {bytes : List Byte} (hlen : a ≤ bytes.length) :
    (pieces (bufSegments urb a) bytes).foldl deliverTo ctx =
      deliverTo ctx (mappedBuffer urb, bytes.take (bufLength urb a)) := by
  have hle := bufLength_le urb a
  rw [pieces_bufSegments urb hlen]
  split_ifs with hzero hgap
  · have hnone : bufLength urb a = 0 := by omega
    rw [hnone, List.take_zero, deliverTo_nothing ctx (mappedBuffer_ofMdlBuf urb).ne.1, List.foldl_nil]
  · rfl
  · rfl

-- The whole payload: its first bytes for the transfer buffer, its last ones for the descriptors.
theorem deliver_payloadSegments (ctx : WskContext) (urb : Urb) (hdr : Header) {bytes : List Byte}
    (hlen : bytes.length = total (payloadSegments urb hdr)) :
    (pieces (payloadSegments urb hdr) bytes).foldl deliverTo ctx =
      deliverTo (deliverTo ctx (mappedBuffer urb, bytes.take (bufLength urb (bufBytes hdr))))
        (.isoc, bytes.drop (bufBytes hdr)) := by
  rw [total_payloadSegments] at hlen
  rw [payloadSegments, pieces_append, total_bufSegments, List.foldl_append, deliver_bufSegments ctx urb (by omega),
    deliver_isocSegments]
  rw [List.length_drop]
  omega

theorem owners_length (ctx : WskContext) (hasTail : Bool) : (owners ctx hasTail).length ≤ 3 := by
  have hif : ∀ (c : Bool) (p : Option Nat), (if c then p.toList else []).length ≤ 1 := by
    intro c p
    cases c <;> cases p <;> simp
  have hbuf := hif true ctx.mdlBuf
  have htail := hif hasTail ctx.mdlBufTail
  have hisoc := hif ctx.isIsoc ctx.mdlIsoc
  rw [if_pos rfl] at hbuf
  rw [owners, List.length_append, List.length_append]
  omega

-- The chain and the length are noted when they are given to WskReceive.
def handOver (v : State) (head : Option Nat) (hasTail : Bool) (length : Nat) : State :=
  { v with
    round := { v.round with
      handed := some { heap := v.heap, ctx := v.ctx, hasTail := hasTail, mdl := head, length := length } } }

section Specs

variable {s : State} {env : Env} {sys : Services}

-- The condition under which the chain of a message is not spoilt by an earlier one.
def Fresh (s : State) : Prop :=
  Clean s.heap s.ctx ∧ ∀ urb, s.ctx.request = some { urb := some urb } →
    FreshTail s.heap s.ctx urb (bufBytes s.ctx.hdr)

theorem Prepared.fits {v : State} {head : Option Nat} {hasTail : Bool} {urb : Urb}
    (h : Prepared s v head hasTail s.ctx.hdr.numberOfPackets.toNat urb) :
    ∀ segment ∈ payloadSegments urb s.ctx.hdr, Fits v.ctx segment := by
  intro segment hmem hb
  obtain hmem | hmem := List.mem_append.mp hmem
  · unfold bufSegments at hmem
    split_ifs at hmem <;> simp at hmem
    · obtain rfl | rfl := hmem
      · exact absurd hb (mappedBuffer_ofMdlBuf urb).ne.2.2
      · cases hb
    · rw [hmem] at hb
      exact absurd hb (mappedBuffer_ofMdlBuf urb).ne.2.2
  · unfold isocSegments at hmem
    split_ifs at hmem with hn
    · cases hmem
    · obtain rfl := List.mem_singleton.mp hmem
      have harray := h.inv.array
      have halloc := h.alloc
      cases hisoc : v.ctx.isoc with
      | none =>
          rw [hisoc] at harray
          simp [sizeofIsoPacketDescriptor] at harray
          omega
      | some isoc =>
          rw [hisoc] at harray
          refine ⟨isoc, rfl, ?_⟩
          simp only [Option.getD_some, sizeofIsoPacketDescriptor] at harray ⊢
          omega

theorem check_nonneg {transferBufferLength : UInt32} {actualLength : Int}
    (h : check transferBufferLength actualLength = .STATUS_SUCCESS) : 0 ≤ actualLength := by
  by_contra hneg
  rw [check, if_neg fun h => hneg h.1] at h
  cases h

-- What a payload leaves behind, whether or not all of it has arrived.
structure PayloadStep (s t : State) : Prop where
  inv : Inv t.heap t.ctx
  uses : t.round.uses = s.round.uses
  clean : Fresh s → Clean t.heap t.ctx
  handed : t.round.handed = s.round.handed ∨ ∃ v head hasTail urb,
    Prepared s v head hasTail s.ctx.hdr.numberOfPackets.toNat urb ∧
      t.round.handed = (handOver v head hasTail (getPayloadSize s.ctx.hdr)).round.handed

-- The state after a payload all of which has arrived.
inductive Arrived (s : State) : State → Prop
  | nothing : getPayloadSize s.ctx.hdr = 0 → Arrived s s
  | received {v : State} {head : Option Nat} {hasTail : Bool} {urb : Urb} :
      Prepared s v head hasTail s.ctx.hdr.numberOfPackets.toNat urb →
      0 < getPayloadSize s.ctx.hdr →
      getPayloadSize s.ctx.hdr = total (payloadSegments urb s.ctx.hdr) →
      getPayloadSize s.ctx.hdr ≤ s.stream.length →
      Arrived s (arrived { handOver v head hasTail (getPayloadSize s.ctx.hdr) with
        stream := s.stream.drop (getPayloadSize s.ctx.hdr) }
        (pieces (payloadSegments urb s.ctx.hdr) (s.stream.take (getPayloadSize s.ctx.hdr))))
  | drained {t : State} : s.ctx.request = none → 0 < getPayloadSize s.ctx.hdr →
      getPayloadSize s.ctx.hdr ≤ s.stream.length →
      t.stream = s.stream.drop (getPayloadSize s.ctx.hdr) → t.ctx = { s.ctx with mdlBuf := t.ctx.mdlBuf } →
      t.round = { s.round with
        writes := s.round.writes ++ [(.payload, s.stream.take (getPayloadSize s.ctx.hdr))] } →
      Arrived s t

theorem prepared_length {v : State} {head : Option Nat} {hasTail : Bool} {urb : Urb}
    (h : Prepared s v head hasTail s.ctx.hdr.numberOfPackets.toNat urb) (hv : ValidHeader s.ctx.hdr)
    (hsubmit : s.ctx.hdr.command = RET_SUBMIT) :
    getPayloadSize s.ctx.hdr = total (payloadSegments urb s.ctx.hdr) := by
  rw [total_payloadSegments]
  exact payloadSize_received hsubmit (hv.packets hsubmit) (.inr (check_nonneg h.checked))

theorem receive_prepared {v : State} {head : Option Nat} {hasTail : Bool} {urb : Urb} {status : NTSTATUS}
    (h : Prepared s v head hasTail s.ctx.hdr.numberOfPackets.toNat urb) (hsize : 0 < getPayloadSize s.ctx.hdr)
    (hlen : getPayloadSize s.ctx.hdr = total (payloadSegments urb s.ctx.hdr)) :
    From (handOver v head hasTail (getPayloadSize s.ctx.hdr)) (receive status head (getPayloadSize s.ctx.hdr))
      (fun r t => PayloadStep s t ∧ (r = .STATUS_SUCCESS → Arrived s t)) (fun _ _ => False) := by
  obtain ⟨last, hlinked, hend⟩ := h.chain
  have hsegments : segments v.heap (owners v.ctx hasTail) = payloadSegments urb s.ctx.hdr := h.segments
  have hclean : Fresh s → Clean v.heap v.ctx := fun hf => (hend hf.1 (hf.2 urb h.request)).2
  have hround : v.round.uses = s.round.uses := by rw [h.round]
  have hfresh : 0 < v.heap.fresh := by
    obtain ⟨m, hm, _⟩ := h.inv.hdr
    exact Nat.zero_lt_of_lt (h.inv.lt hm)
  have hle : getPayloadSize s.ctx.hdr ≤ total (segments v.heap (owners v.ctx hasTail)) := by
    rw [hsegments]
    exact Nat.le_of_eq hlen
  have hfits : ∀ segment ∈ segments v.heap (owners v.ctx hasTail), Fits v.ctx segment := by
    rw [hsegments]
    exact h.fits
  refine (receive_spec (s := handOver v head hasTail _) hlinked hle (owners_length _ _) hfresh hfits).mono
    (fun r t ht => ?_) fun _ _ h => h
  have hstream : (handOver v head hasTail (getPayloadSize s.ctx.hdr)).stream = s.stream := h.stream
  have hsegments : segments (handOver v head hasTail (getPayloadSize s.ctx.hdr)).heap (owners v.ctx hasTail) =
    payloadSegments urb s.ctx.hdr := hsegments
  rw [hstream, hsegments] at ht
  have hhanded : ∃ v' head' hasTail' urb', Prepared s v' head' hasTail' s.ctx.hdr.numberOfPackets.toNat urb' ∧
      (handOver v head hasTail (getPayloadSize s.ctx.hdr)).round.handed =
        (handOver v' head' hasTail' (getPayloadSize s.ctx.hdr)).round.handed := ⟨v, head, hasTail, urb, h, rfl⟩
  obtain ⟨_, hr, rfl⟩ | ⟨_, hiff, rfl⟩ := ht
  · exact ⟨⟨h.inv, hround, hclean, .inr hhanded⟩, fun h => absurd h hr⟩
  · have hsame := SameMemory.received (pieces_fits h.fits (s.stream.take (getPayloadSize s.ctx.hdr)))
    refine ⟨⟨hsame.inv h.inv, hround, fun hf p m hp hm => hclean hf p m ?_ hm, .inr hhanded⟩,
      fun hr => .received h hsize hlen (hiff.mp hr)⟩
    have hisoc := congrArg WskContext.mdlIsoc hsame.rest
    exact hisoc ▸ hp

theorem recvPayload_spec (hi : Inv s.heap s.ctx) (hnone : s.ctx.mdlBuf = none) (hvalid : ValidHeader s.ctx.hdr)
    (hsubmit : s.ctx.hdr.command = RET_SUBMIT) (hsize : 0 < getPayloadSize s.ctx.hdr) :
    From s (recvPayload sys env (getPayloadSize s.ctx.hdr))
      (fun r t => PayloadStep s t ∧ (r = .STATUS_SUCCESS → Arrived s t))
      (fun e t => t.round.uses = s.round.uses ∧ t.round.handed = s.round.handed ∧
        (e = .noUrb ∨ e = .endlessWalk ∧ ¬ Fresh s)) := by
  have hpackets := hvalid.packets hsubmit
  have hn : s.ctx.hdr.numberOfPackets.toNat ≤ 1024 := by
    unfold maxIsoPackets at hpackets
    omega
  refine ((prepareWskMdl_spec hi hnone rfl hn).mono (fun _ _ h => h) fun e t ht => ?_).bind fun r v hv => ?_
  · exact ⟨by rw [ht.1], by rw [ht.1], ht.2⟩
  obtain ⟨err, head, hasTail⟩ := r
  refine From.ite (fun herr => From.pure _ ?_) fun herr => From.get_bind (From.modify_bind ?_)
  · have hfail := hv.2 herr
    exact ⟨⟨hfail.inv, by rw [hfail.round], fun h => hfail.clean h.1, .inl (by rw [hfail.round])⟩,
      fun h => absurd h herr⟩
  obtain ⟨urb, hprep⟩ := hv.1 (not_not.mp herr)
  exact (receive_prepared hprep hsize (prepared_length hprep hvalid hsubmit)).safe

theorem drainPayload_spec (hi : Inv s.heap s.ctx) (hnone : s.ctx.mdlBuf = none) (hreq : s.ctx.request = none)
    (hsize : 0 < getPayloadSize s.ctx.hdr) :
    From s (drainPayload env (getPayloadSize s.ctx.hdr))
      (fun r t => PayloadStep s t ∧ (r = .STATUS_SUCCESS → Arrived s t)) (fun _ _ => False) := by
  have hrefl : PayloadStep s s := ⟨hi, rfl, fun h => h.1, .inl rfl⟩
  refine From.ite (fun _ => From.pure _ ⟨hrefl, fun h => nomatch h⟩) fun _ => ?_
  refine From.ite (fun _ => From.pure _ ⟨hrefl, fun h => nomatch h⟩) fun _ => ?_
  refine allocMdl_spec.bind fun mdl t ht => From.modify_bind ?_
  obtain ⟨rfl, rfl⟩ | ⟨rfl, rfl⟩ := ht
  · refine From.ite (fun _ => From.pure _ ⟨⟨?_, rfl, fun h => h.1, .inl rfl⟩, fun h => nomatch h⟩) fun h => absurd rfl h
    exact hi.congr rfl hnone.symm rfl rfl rfl rfl
  refine From.ite (fun h => nomatch h) fun _ => ?_
  -- The payload goes to an MDL that was made for it.
  have hinv := (hi.alloc { byteCount := getPayloadSize s.ctx.hdr, buffer := .payload }).ownBuf Heap.alloc_self
    (.inr (.inr rfl))
  have hclean : Fresh s → Clean (s.heap.alloc { byteCount := getPayloadSize s.ctx.hdr, buffer := .payload }) s.ctx := by
    intro h p m hp hm
    obtain ⟨n, hn, _⟩ := hi.isoc p hp
    rw [hi.alloc_of_live hn] at hm
    cases hm
    exact h.1 p m hp hn
  have hself : (s.heap.alloc { byteCount := getPayloadSize s.ctx.hdr, buffer := .payload }).mdl s.heap.fresh =
    some { byteCount := getPayloadSize s.ctx.hdr, buffer := .payload } := Heap.alloc_self
  generalize s.heap.alloc _ = heap at hinv hclean hself ⊢
  have hsegments : segments heap [s.heap.fresh] = [(.payload, getPayloadSize s.ctx.hdr)] := by simp [segments, hself]
  have hlinked : Linked heap.next (some s.heap.fresh) [s.heap.fresh] none := by simp [Linked, Heap.next_eq hself]
  have hfits : ∀ segment ∈ [(Buffer.payload, getPayloadSize s.ctx.hdr)],
      Fits { s.ctx with mdlBuf := some s.heap.fresh } segment := by
    intro segment hmem
    obtain rfl := List.mem_singleton.mp hmem
    intro h
    cases h
  rw [← hsegments] at hfits
  refine (receive_spec (s := { s with heap := heap, ctx := { s.ctx with mdlBuf := some s.heap.fresh } }) hlinked ?_
    (by simp) (Nat.zero_lt_of_lt (hinv.lt hself)) hfits).mono (fun r t ht => ?_) fun _ _ h => h
  · simp [hsegments, total]
  have hsame := SameMemory.received (pieces_fits hfits (s.stream.take (getPayloadSize s.ctx.hdr)))
  dsimp only at ht
  rw [hsegments] at ht hsame
  obtain ⟨_, hr, rfl⟩ | ⟨_, hiff, rfl⟩ := ht
  · exact ⟨⟨hinv, rfl, hclean, .inl rfl⟩, fun h => absurd h hr⟩
  · refine ⟨⟨hsame.inv hinv, rfl, fun hf p m hp hm => hclean hf p m ?_ hm, .inl rfl⟩, fun hr => ?_⟩
    · have hisoc := congrArg WskContext.mdlIsoc hsame.rest
      exact hisoc ▸ hp
    · have hlen := hiff.mp hr
      have hne : s.stream.take (getPayloadSize s.ctx.hdr) ≠ [] := by
        refine List.ne_nil_of_length_pos ?_
        rw [List.length_take]
        omega
      rw [pieces_single hne (List.length_take_le _ _)]
      exact .drained hreq hsize hlen rfl rfl rfl

theorem recvReplyPayload_spec (hi : Inv s.heap s.ctx) (hnone : s.ctx.mdlBuf = none) (hv : ValidHeader s.ctx.hdr)
    (hsubmit : s.ctx.request ≠ none → s.ctx.hdr.command = RET_SUBMIT) :
    From s (recvReplyPayload sys env)
      (fun r t => PayloadStep s t ∧ (r = .STATUS_SUCCESS → Arrived s t) ∧
        (getPayloadSize s.ctx.hdr = 0 → r = .STATUS_SUCCESS))
      (fun e t => 0 < getPayloadSize s.ctx.hdr ∧ t.round.uses = s.round.uses ∧ t.round.handed = s.round.handed ∧
        (e = .noUrb ∨ e = .endlessWalk ∧ ¬ Fresh s)) := by
  have hrefl : PayloadStep s s := ⟨hi, rfl, fun h => h.1, .inl rfl⟩
  refine From.get_bind (From.ite (fun hzero => ?_) fun hpos => ?_)
  · exact From.pure _ ⟨hrefl, fun _ => .nothing hzero, fun _ => rfl⟩
  have hsize := Nat.pos_of_ne_zero hpos
  refine From.ite (fun _ => From.pure _ ⟨hrefl, fun h => (nomatch h), fun h => absurd h hpos⟩) fun _ => ?_
  refine From.ite (fun hsome => ?_) fun hno => ?_
  · have hreq : s.ctx.request ≠ none := Option.isSome_iff_ne_none.mp hsome
    exact (recvPayload_spec hi hnone hv (hsubmit hreq) hsize).mono (fun r t ht => ⟨ht.1, ht.2, fun h => absurd h hpos⟩)
      fun _ _ h => ⟨hsize, h⟩
  · have hreq : s.ctx.request = none := by simpa using hno
    exact (drainPayload_spec hi hnone hreq hsize).safe.mono (fun r t ht => ⟨ht.1, ht.2, fun h => absurd h hpos⟩)
      fun _ _ h => h

-- Every use of the descriptors goes back to a payload that has arrived.
def UsedBy (s : State) (uses : List IsocUse) : Prop :=
  ∀ u ∈ uses, ∃ v urb, Arrived s v ∧ v.ctx.request = some { urb := some urb } ∧ u ∈ usesOf v urb

-- A reply without a payload is handled at once.
def UsedAtOnce (s : State) (uses : List IsocUse) : Prop :=
  getPayloadSize s.ctx.hdr = 0 → ∀ urb, s.ctx.request = some { urb := some urb } → uses = usesOf s urb

-- The request after its payload has arrived: the URB that is completed, if it is not isochronous.
structure Replied (sys : Services) (v t : State) : Prop where
  stream : t.stream = v.stream
  writes : t.round.writes = v.round.writes
  nothing : v.ctx.request = none → t.round.completed = v.round.completed
  completed : v.ctx.request ≠ none → t.round.completed ≠ none
  transferred : ∀ urb, v.ctx.request = some { urb := some urb } → isIsoch urb = false →
    ∃ w left status st, Transferred sys v w urb left ∧
      t.round.completed = some ({ urb := some { left with status := status } }, st)

theorem completeAndSetNull_spec {st : NTSTATUS} :
    From s (completeAndSetNull st)
      (fun _ t => t.heap = s.heap ∧ t.stream = s.stream ∧ t.ctx = { s.ctx with request := none } ∧
        t.round = { s.round with completed := t.round.completed } ∧
        (s.ctx.request = none → t.round.completed = s.round.completed) ∧
        ∀ req, s.ctx.request = some req → ∃ done, t.round.completed = some (done, st) ∧
          ∀ urb, req.urb = some urb → ∃ status, done.urb = some { urb with status := status })
      (fun _ _ => False) := by
  refine From.get_bind ?_
  cases hreq : s.ctx.request with
  | none => exact From.pure _ ⟨rfl, rfl, by rw [← hreq], rfl, fun _ => rfl, fun _ h => nomatch h⟩
  | some req =>
      refine From.modify_bind (From.update ⟨rfl, rfl, rfl, rfl, fun h => (nomatch h), fun req' h => ?_⟩)
      cases h
      refine ⟨_, rfl, fun urb hurb => ?_⟩
      simp only [hurb, Option.map_some]
      split
      · exact ⟨_, rfl⟩
      · exact ⟨urb.status, rfl⟩

theorem recvReplyStatus_spec {v : State} {status : NTSTATUS} (hstep : PayloadStep s v) (hempty : s.round.uses = [])
    (harrived : status = .STATUS_SUCCESS → Arrived s v)
    (hnow : getPayloadSize s.ctx.hdr = 0 → status = .STATUS_SUCCESS) :
    From v (recvReplyStatus sys status)
      (fun _ t => (∃ uses, Handles v t uses) ∧ UsedBy s t.round.uses ∧ UsedAtOnce s t.round.uses ∧
        (status = .STATUS_SUCCESS → ∀ urb, v.ctx.request = some { urb := some urb } → isIsoch urb = false →
          ∃ left, Transferred sys v t urb left))
      (fun e t => e = .outOfBounds ∧ t.round.handed = v.round.handed ∧ UsedBy s t.round.uses ∧
        UsedAtOnce s t.round.uses) := by
  have hnone : v.round.uses = [] := hstep.uses.trans hempty
  refine From.get_bind (From.ite (fun h => ?_) fun h => ?_)
  · obtain ⟨hsuccess, hsome⟩ := h
    obtain ⟨req, hreq⟩ := Option.isSome_iff_exists.mp hsome
    have harrived := harrived hsuccess
    -- What the request makes of the descriptors, whether or not it ends well.
    have huses :
        ∀ uses, uses = v.round.uses ++ (req.urb.map (usesOf v)).getD [] → UsedBy s uses ∧ UsedAtOnce s uses := by
      rintro uses rfl
      rw [hnone, List.nil_append]
      refine ⟨fun u hu => ?_, fun hzero urb hurb => ?_⟩
      · obtain ⟨_ | urb⟩ := req
        · cases hu
        · exact ⟨v, urb, harrived, hreq, hu⟩
      · obtain ⟨_⟩ | ⟨_, hpos, _⟩ | ⟨_, hpos⟩ := harrived
        · rw [hreq] at hurb
          cases hurb
          rfl
        · omega
        · omega
    refine (retSubmit_spec hreq).mono (fun _ t ht => ?_) fun e t ht => ?_
    · obtain ⟨hhandles, htransferred⟩ := ht
      refine ⟨⟨_, hhandles⟩, (huses _ (by rw [hhandles.round])).1, (huses _ (by rw [hhandles.round])).2,
        fun _ urb hurb => ?_⟩
      rw [hreq] at hurb
      cases hurb
      exact htransferred urb rfl
    · obtain ⟨he, hround⟩ := ht
      exact ⟨he, by rw [hround], (huses _ (by rw [hround])).1, (huses _ (by rw [hround])).2⟩
  · have hno : status = .STATUS_SUCCESS → v.ctx.request = none := by
      intro hsuccess
      simpa using fun hsome => h ⟨hsuccess, hsome⟩
    refine From.pure _ ⟨⟨[], .refl v⟩, ?_, fun hzero urb hurb => ?_, fun hsuccess urb hurb => ?_⟩
    · rw [hnone]
      exact fun _ hu => nomatch hu
    · have hsuccess := hnow hzero
      obtain ⟨_⟩ | ⟨_, hpos, _⟩ | ⟨_, hpos⟩ := harrived hsuccess
      · rw [hno hsuccess] at hurb
        cases hurb
      · omega
      · omega
    · rw [hno hsuccess] at hurb
      cases hurb

-- The request of a reply is looked up in between.
def withRequest (env : Env) (s : State) : State :=
  { s with ctx := { s.ctx with request := if s.ctx.hdr.command = RET_SUBMIT then env.request else none } }

theorem withRequest_submit (h : (withRequest env s).ctx.request ≠ none) :
    (withRequest env s).ctx.hdr.command = RET_SUBMIT := by
  by_contra hne
  exact h (if_neg hne)

-- What is noted of a reply, whether or not it ends well.
structure Observed (s t : State) : Prop where
  handed : t.round.handed = s.round.handed ∨ ∃ v head hasTail urb,
    Prepared s v head hasTail s.ctx.hdr.numberOfPackets.toNat urb ∧
      t.round.handed = (handOver v head hasTail (getPayloadSize s.ctx.hdr)).round.handed
  usedBy : UsedBy s t.round.uses
  usedAtOnce : UsedAtOnce s t.round.uses

theorem recvReply_spec (hi : Inv s.heap s.ctx) (hnone : s.ctx.mdlBuf = none) (hv : ValidHeader s.ctx.hdr)
    (hempty : s.round.uses = []) :
    From s (recvReply sys env)
      (fun go t => Inv t.heap t.ctx ∧ (Fresh (withRequest env s) → Clean t.heap t.ctx) ∧
        Observed (withRequest env s) t ∧ (go = true → ∃ v, Arrived (withRequest env s) v ∧ Replied sys v t))
      (fun e t => Observed (withRequest env s) t ∧
        (e = .noUrb ∨ e = .outOfBounds ∨ e = .endlessWalk ∧ ¬ Fresh (withRequest env s))) := by
  refine From.modify_bind ?_
  change From (withRequest env s) _ _ _
  have hinv : Inv (withRequest env s).heap (withRequest env s).ctx := hi.congr rfl rfl rfl rfl rfl rfl
  have hsubmit : (withRequest env s).ctx.request ≠ none → (withRequest env s).ctx.hdr.command = RET_SUBMIT :=
    withRequest_submit
  have hv : ValidHeader (withRequest env s).ctx.hdr := hv
  have hempty : (withRequest env s).round.uses = [] := hempty
  have hnone : (withRequest env s).ctx.mdlBuf = none := hnone
  generalize withRequest env s = s1 at *
  refine ((recvReplyPayload_spec hinv hnone hv hsubmit).mono (fun _ _ h => h) fun e t ht => ?_).bind
    fun status v hv => ?_
  · obtain ⟨hsize, huses, hhanded, he⟩ := ht
    refine ⟨⟨.inl hhanded, ?_, fun hzero => by omega⟩, by tauto⟩
    rw [huses, hempty]
    exact fun _ hu => nomatch hu
  obtain ⟨hstep, harrived, hnow⟩ := hv
  refine ((recvReplyStatus_spec hstep hempty harrived hnow).mono (fun _ _ h => h) fun e t ht => ?_).bind
    fun st w hw => ?_
  · obtain ⟨he, hhanded, husedBy, hatOnce⟩ := ht
    exact ⟨⟨by rw [hhanded]; exact hstep.handed, husedBy, hatOnce⟩, .inr (.inl he)⟩
  obtain ⟨⟨uses, hhandles⟩, husedBy, hatOnce, htransferred⟩ := hw
  refine completeAndSetNull_spec.safe.bind fun _ t ht => From.pure _ ?_
  obtain ⟨hheap, hstream, hctx, hround, hcompleted, hdone⟩ := ht
  have huses : t.round.uses = w.round.uses := by rw [hround]
  have hhanded : t.round.handed = v.round.handed := by rw [hround, hhandles.round]
  have hisoc : t.ctx.mdlIsoc = v.ctx.mdlIsoc := by rw [hctx, hhandles.ctx]
  have hsame : t.heap = v.heap := hheap.trans hhandles.heap
  refine ⟨?_, fun hf p m hp hm => ?_, ⟨by rw [hhanded]; exact hstep.handed, huses ▸ husedBy, huses ▸ hatOnce⟩,
    fun hgo => ⟨v, harrived (of_decide_eq_true hgo), hstream.trans hhandles.stream, ?_, fun hreq => ?_, fun hreq => ?_,
      fun urb hurb hisoch => ?_⟩⟩
  · rw [hsame, hctx, hhandles.ctx]
    exact hstep.inv.congr rfl rfl rfl rfl rfl hhandles.array
  · exact hstep.clean hf p m (hisoc ▸ hp) (hsame ▸ hm)
  · rw [hround, hhandles.round]
  · have hnone : w.ctx.request = none := by
      have := hhandles.request
      rw [hreq] at this
      simpa using this
    rw [hcompleted hnone, hhandles.round]
  · obtain ⟨req, hw⟩ : ∃ req, w.ctx.request = some req := by
      refine Option.isSome_iff_exists.mp ?_
      rw [hhandles.request]
      exact Option.isSome_iff_ne_none.mpr hreq
    obtain ⟨done, hdone, _⟩ := hdone req hw
    rw [hdone]
    simp
  · obtain ⟨left, hleft⟩ := htransferred (of_decide_eq_true hgo) urb hurb hisoch
    obtain ⟨⟨done⟩, hdone, hstatus⟩ := hdone _ hleft.request
    obtain ⟨status', hstatus⟩ := hstatus left rfl
    cases hstatus
    exact ⟨w, left, status', st, hleft, hdone⟩

-- The state of a round in which a header has been accepted.
structure Started (env : Env) (st u : State) (hdr : Header) : Prop where
  plugged : env.unplugged = false
  next : nextHeader env st.stream = some hdr
  step : HeaderStep { st with round := {} } u
  hdr : u.ctx.hdr = hdr
  stream : u.stream = st.stream.drop Header.size
  writes : u.round.writes = [(.header, st.stream.take Header.size)]

-- The tail that a round is about to use again is not linked to anything.
def TailUnlinked (env : Env) (st : State) : Prop :=
  ∀ hdr urb, nextHeader env st.stream = some hdr → hdr.command = RET_SUBMIT →
    env.request = some { urb := some urb } → FreshTail st.heap st.ctx urb (bufBytes hdr)

theorem tailUnlinked_iff (env : Env) (st : State) :
    TailUnlinked env st ↔ (nextHeader env st.stream).all (fun hdr => (env.request.bind UdeRequest.urb).all fun urb =>
      decide (hdr.command = RET_SUBMIT → FreshTail st.heap st.ctx urb (bufBytes hdr))) = true := by
  unfold TailUnlinked
  cases hnext : nextHeader env st.stream with
  | none => simp
  | some hdr =>
      cases hreq : env.request with
      | none => simp
      | some req =>
          obtain ⟨_ | urb⟩ := req
          · simp
          · rw [Option.all_some, Option.bind_some, Option.all_some, decide_eq_true_iff]
            refine ⟨fun h hcommand => h hdr urb rfl hcommand rfl, fun h hdr' urb' hhdr hcommand hurb => ?_⟩
            cases hhdr
            cases hurb
            exact h hcommand

instance (env : Env) (st : State) : Decidable (TailUnlinked env st) :=
  decidable_of_iff' _ (tailUnlinked_iff env st)

theorem HeaderStep.clean {st u : State} (h : HeaderStep st u) (hi : Inv st.heap st.ctx) (hc : Clean st.heap st.ctx) :
    Clean u.heap u.ctx := by
  intro p m hp hm
  rw [h.ctx] at hp
  obtain ⟨n, hn, hb, _⟩ := hi.isoc p hp
  rw [h.kept p n hn (.inr hb)] at hm
  cases hm
  exact hc p m hp hn

theorem Started.fresh {st u : State} {hdr : Header} (h : Started env st u hdr) (hi : Inv st.heap st.ctx)
    (hc : Clean st.heap st.ctx) (ht : TailUnlinked env st) : Fresh (withRequest env u) := by
  refine ⟨h.step.clean hi hc, fun urb hurb p m hp hm => ?_⟩
  have hreq : (if u.ctx.hdr.command = RET_SUBMIT then env.request else none) = some { urb := some urb } := hurb
  split at hreq
  · rename_i hcommand
    have hp : u.ctx.mdlBufTail = some p := hp
    rw [h.step.ctx] at hp
    obtain ⟨n, hn, hb, _⟩ := hi.tail p hp
    have hm : u.heap.mdl p = some m := hm
    rw [h.step.kept p n hn (.inl hb)] at hm
    cases hm
    change bufLength urb (bufBytes u.ctx.hdr) < bufBytes u.ctx.hdr →
      m.byteCount = bufBytes u.ctx.hdr - bufLength urb (bufBytes u.ctx.hdr) → _
    rw [h.hdr] at hcommand ⊢
    exact ht hdr urb h.next hcommand hreq p m hp hn
  · cases hreq

theorem recvRound_spec {st : State} (hi : Inv st.heap st.ctx) :
    From st (recvRound sys env)
      (fun go t => Inv t.heap t.ctx ∧ (Clean st.heap st.ctx → TailUnlinked env st → Clean t.heap t.ctx) ∧
        ((env.unplugged = true ∨ nextHeader env st.stream = none) ∧ go = false ∧ t.round.uses = [] ∧
            t.round.handed = none ∨
          ∃ u hdr, Started env st u hdr ∧ Observed (withRequest env u) t ∧
            (go = true → ∃ v, Arrived (withRequest env u) v ∧ Replied sys v t)))
      (fun e t => ∃ u hdr, Started env st u hdr ∧ Observed (withRequest env u) t ∧
        (e = .noUrb ∨ e = .outOfBounds ∨ e = .endlessWalk ∧ ¬ (Clean st.heap st.ctx ∧ TailUnlinked env st))) := by
  refine From.modify_bind (From.ite (fun hun => ?_) fun hplugged => ?_)
  · exact From.pure _ ⟨hi, fun hc _ => hc, .inl ⟨.inl hun, rfl, rfl, rfl⟩⟩
  refine (recvUsbipHeader_spec (s := { st with round := {} }) hi).safe.bind fun err u hu => ?_
  obtain ⟨hstep, hiff, hnext⟩ := hu
  have hround := hstep.round
  refine From.ite (fun herr => From.pure _ ?_) fun herr => ?_
  · have hnone : nextHeader env st.stream = none := not_not.mp fun h => herr (hiff.mpr h)
    exact ⟨hstep.inv, fun hc _ => hstep.clean hi hc, .inl ⟨.inr hnone, rfl, by rw [hround], by rw [hround]⟩⟩
  obtain ⟨hdr, hhdr⟩ := Option.ne_none_iff_exists'.mp (hiff.mp (not_not.mp herr))
  obtain ⟨heq, hstream, hwrites⟩ := hnext hdr hhdr
  have hstart : Started env st u hdr := ⟨by simpa using hplugged, hhdr, hstep, heq, hstream, hwrites⟩
  have hvalid : ValidHeader u.ctx.hdr := heq ▸ nextHeader_valid hhdr
  refine (recvReply_spec hstep.inv (by rw [hstep.ctx]) hvalid (by rw [hround])).mono (fun go t ht => ?_) fun e t ht => ?_
  · obtain ⟨hinv, hclean, hobserved, hgo⟩ := ht
    exact ⟨hinv, fun hc hf => hclean (hstart.fresh hi hc hf), .inr ⟨u, hdr, hstart, hobserved, hgo⟩⟩
  · obtain ⟨hobserved, he⟩ := ht
    refine ⟨u, hdr, hstart, hobserved, he.imp id fun h => h.imp id fun h => ⟨h.1, fun hf => h.2 ?_⟩⟩
    exact hstart.fresh hi hf.1 hf.2

end Specs

-- A header and what follows it as the server sends them.
def replyBytes (hdr : Header) (payload : List Byte) : List Byte := (byteswapHeader hdr .host2net).bytes ++ payload

-- A device and its transfers for runs on fixed inputs. The MDL of the transfer buffer is
-- shorter than its length.
def sampleServices : Services where
  parseDescriptors := fun _ _ _ _ => none
  retrieveBuffer := fun urb =>
    if urb.transferBuffer = true ∨ urb.transferBufferMdl ≠ [] then .STATUS_SUCCESS else .STATUS_INVALID_PARAMETER

def sampleUrb : Urb where
  function := .isochTransfer
  transferBufferLength := 8
  transferBufferMdl := [4]
  memory := List.replicate 8 0
  numberOfPackets := 1
  isoPacket := [{ offset := 0 }]

def sampleEnv : Env where
  request := some { urb := some sampleUrb }

def sampleHeader (actualLength : Int) (numberOfPackets : Int) : Header where
  command := RET_SUBMIT
  seqnum := 3
  u1 := ofSigned actualLength
  u3 := ofSigned numberOfPackets

def sampleContext (stream : List Byte) : State where
  heap :=
    { fresh := 1
      mdl := fun p => if p = 0 then some { byteCount := Header.size, buffer := .header } else none }
  ctx := { mdlHdr := 0 }
  stream := stream

theorem sampleContext_reachable (ok : State → Action → Prop) (stream : List Byte) :
    (machine sampleServices).Reachable ok (sampleContext stream) :=
  .init ⟨{}, stream, rfl⟩

end Usbip.Wsk

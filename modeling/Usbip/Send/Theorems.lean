import Usbip.Send.System
import Usbip.WskReceive.Chain
import Usbip.WskReceive.Framing

namespace Usbip.Send

open Usbip.Library.Chain
open Usbip.Library.Hoare
open Usbip.Library.Runs
open Usbip.Library.Stream
open Usbip.Library.Words
open Usbip.Wsk

section PrepareWskBuf

variable {s : Wsk.State} {env : SendEnv} {transferBuffer : Option Urb}

-- How much of the transfer buffer goes with a header.
def mapped (hdr : Header) (transferBuffer : Option Urb) : Nat :=
  if hdr.direction = directionOut then transferBuffer.elim 0 fun urb => urb.transferBufferLength.toNat else 0

-- What the MDL that is made of it describes.
def bufferOf (transferBuffer : Option Urb) : Buffer := transferBuffer.elim .transferBuffer mappedBuffer

theorem bufferOf_cases (transferBuffer : Option Urb) :
    bufferOf transferBuffer = .transferBuffer ∨ bufferOf transferBuffer = .headMapping := by
  cases transferBuffer with
  | none => exact .inl rfl
  | some urb => exact mappedBuffer_cases urb

theorem bufferOf_ofMdlBuf (transferBuffer : Option Urb) : (bufferOf transferBuffer).ofMdlBuf :=
  (bufferOf_cases transferBuffer).imp id .inl

def mappedSegments (buffer : Buffer) (n : Nat) : List (Buffer × Nat) := if n = 0 then [] else [(buffer, n)]

-- `mdl_buf` describes exactly `n` bytes.
def Mapped (t : Wsk.State) (buffer : Buffer) (n : Nat) : Prop :=
  n = 0 ∧ t.ctx.mdlBuf = none ∨ n ≠ 0 ∧ ∃ p, t.ctx.mdlBuf = some p ∧
    t.heap.mdl p = some { byteCount := n, buffer := buffer }

theorem makeBuf_spec (hi : Inv s.heap s.ctx) (hnone : s.ctx.mdlBuf = none) :
    From s (makeBuf env transferBuffer)
      (fun r t => BufStep s t ∧ (r = .STATUS_SUCCESS →
        Mapped t (bufferOf transferBuffer) (mapped s.ctx.hdr transferBuffer)))
      (fun _ _ => False) := by
  have hrefl : BufStep s s := ⟨hi, .refl s, fun _ _ h => h, rfl⟩
  cases transferBuffer with
  | none =>
      refine From.pure _ ⟨hrefl, fun _ => .inl ⟨?_, hnone⟩⟩
      unfold mapped
      split_ifs <;> rfl
  | some urb =>
      refine From.get_bind (From.ite (fun hout => ?_) fun hin => ?_)
      · have hlen : mapped s.ctx.hdr (some urb) = urb.transferBufferLength.toNat := if_pos hout
        have hmake : makeTransferBufferMdl env.toEnv URB_BUF_LEN .IoReadAccess urb =
            if urb.transferBufferLength.toNat = 0 then pure .STATUS_SUCCESS
            else mapTransferBuffer env.toEnv urb.transferBufferLength.toNat .IoReadAccess urb := by
          simp [makeTransferBufferMdl]
        rw [hlen, hmake]
        refine From.ite (fun hzero => From.pure _ ⟨hrefl, fun _ => .inl ⟨hzero, hnone⟩⟩) fun hpos => ?_
        refine (mapTransferBuffer_spec hi hnone).mono (fun r t ht => ⟨ht.1, fun hr => ?_⟩) fun _ _ h => h
        obtain ⟨hread, p, m, hp, hm, hb, hnext, hc, _⟩ := ht.2 hr
        obtain ⟨next, byteCount, buffer⟩ := m
        obtain rfl : next = none := hnext
        obtain rfl : buffer = mappedBuffer urb := hb
        obtain rfl : byteCount = urb.transferBufferLength.toNat := hc.trans (hread rfl)
        exact .inr ⟨hpos, p, hp, hm⟩
      · exact From.pure _ ⟨hrefl, fun _ => .inl ⟨if_neg hin, hnone⟩⟩

-- The context that a handler leaves to `send`: no MDL of a transfer buffer, and the one of the
-- descriptors for the packets of the command.
structure Filled (s : Wsk.State) (n : Nat) : Prop where
  inv : Inv s.heap s.ctx
  buf : s.ctx.mdlBuf = none
  flag : s.ctx.isIsoc = (n != 0)
  isoc : n ≠ 0 → ∃ p m, s.ctx.mdlIsoc = some p ∧ s.heap.mdl p = some m ∧
    m.byteCount = sizeofIsoPacketDescriptor * n ∧ n ≤ s.ctx.isocAllocCnt

-- Where the MDL of the descriptors leads to.
def isocLink (s : Wsk.State) : Option Nat :=
  if s.ctx.isIsoc then (s.ctx.mdlIsoc.bind s.heap.mdl).bind MDL.next else none

def swapped (ctx : WskContext) (n : Nat) : Option (List Byte) :=
  if ctx.isIsoc then ctx.isoc.map fun isoc => byteswapIsoc isoc n else ctx.isoc

-- The part of the chain before the descriptors.
structure HeadChain (u : Wsk.State) (nodes : List Nat) (buffer : Buffer) (len : Nat) : Prop where
  chain : Chained u.heap.next (some u.ctx.mdlHdr) nodes
  segments : segments u.heap nodes = (.header, Header.size) :: mappedSegments buffer len
  own : ∀ q ∈ nodes, ∃ m, u.heap.mdl q = some m ∧ m.buffer ≠ .isoc ∧ m.buffer ≠ .bufTail

theorem linkHeader_spec {buffer : Buffer} {len : Nat} (hi : Inv s.heap s.ctx) (hb : buffer.ofMdlBuf)
    (hmapped : Mapped s buffer len) :
    From s (setNext (some s.ctx.mdlHdr) s.ctx.mdlBuf)
      (fun _ u => Inv u.heap u.ctx ∧ u.ctx = s.ctx ∧ HeadChain u (s.ctx.mdlHdr :: s.ctx.mdlBuf.toList) buffer len ∧
        ∀ q, q ≠ s.ctx.mdlHdr → u.heap.mdl q = s.heap.mdl q)
      (fun _ _ => False) := by
  obtain ⟨m, hm, hhdr, hc⟩ := hi.hdr
  refine (setNext_spec hm _).mono (fun _ u hu => ?_) fun _ _ h => h
  subst hu
  refine ⟨hi.setNext hm (by simp [hhdr]) (by simp [hhdr]), rfl, ?_, fun q hq => Heap.set_of_ne hq _⟩
  have hself : (s.heap.set s.ctx.mdlHdr (some { m with next := s.ctx.mdlBuf })).mdl s.ctx.mdlHdr = _ := Heap.set_self _
  obtain ⟨rfl, hnone⟩ | ⟨hpos, p, hp, hmp⟩ := hmapped
  · rw [hnone] at hself ⊢
    refine ⟨⟨rfl, none, Heap.next_eq hself, rfl⟩, ?_, fun q hq => ?_⟩
    · simp [segments, hhdr, hc, mappedSegments]
    · obtain rfl := List.mem_singleton.mp hq
      exact ⟨_, hself, by simp [hhdr], by simp [hhdr]⟩
  · have hne : p ≠ s.ctx.mdlHdr := ne_of_buffer hmp hm (by rw [hhdr]; exact hb.ne.1)
    have hkept := (Heap.set_of_ne hne (some { m with next := s.ctx.mdlBuf })).trans hmp
    rw [hp] at hself hkept ⊢
    refine ⟨⟨rfl, some p, Heap.next_eq hself, rfl, none, Heap.next_eq hkept, rfl⟩, ?_, fun q hq => ?_⟩
    · rw [Option.toList_some, segments, List.filterMap_cons_some (b := (.header, Header.size))
        (by rw [hself, Option.map_some, hhdr, hc]),
        List.filterMap_cons_some (b := (buffer, len)) (by rw [hkept, Option.map_some])]
      simp [mappedSegments, hpos]
    · obtain rfl | hq := List.mem_cons.mp hq
      · exact ⟨_, hself, by simp [hhdr], by simp [hhdr]⟩
      · obtain rfl := List.mem_singleton.mp hq
        exact ⟨_, hkept, hb.ne.2.2, hb.ne.2.1⟩

-- The MDLs of a chain that ends with `last`, with what they describe.
def Describes (t : Wsk.State) (last : Option Nat) (layout : List (Buffer × Nat)) : Prop :=
  ∃ nodes, Linked t.heap.next (some t.ctx.mdlHdr) nodes last ∧ segments t.heap nodes = layout ∧
    ∀ q ∈ nodes, ∃ m, t.heap.mdl q = some m

theorem HeadChain.length_le {nodes : List Nat} {buffer : Buffer} {len : Nat}
    (h : HeadChain s nodes buffer len) (hi : Inv s.heap s.ctx) :
    nodes.length ≤ s.heap.fresh := by
  have hsub : nodes ⊆ List.range s.heap.fresh := fun q hq => by
    obtain ⟨m, hm, _⟩ := h.own q hq
    exact List.mem_range.mpr (hi.lt hm)
  have hfew := (List.subperm_of_subset h.chain.nodup hsub).length_le
  rwa [List.length_range] at hfew

-- The MDL of the descriptors comes after the last one that the walk from the header meets.
theorem linkIsoc_spec {n len : Nat} {buffer : Buffer} {nodes : List Nat} (hi : Inv s.heap s.ctx)
    (hhead : HeadChain s nodes buffer len) (hne : nodes ≠ []) (hn : n ≠ 0)
    {p : Nat} {m : MDL} (hp : s.ctx.mdlIsoc = some p) (hm : s.heap.mdl p = some m)
    (hc : m.byteCount = sizeofIsoPacketDescriptor * n) :
    From s (Wsk.tail s.ctx.mdlHdr >>= fun t => setNext (some t) s.ctx.mdlIsoc)
      (fun _ t => Inv t.heap t.ctx ∧ t.ctx = s.ctx ∧
        Describes t m.next ((.header, Header.size) :: mappedSegments buffer len ++ isocSegments n))
      (fun _ _ => False) := by
  have hwalk := lastFrom_eq hhead.chain (Nat.le_succ_of_le (hhead.length_le hi))
  obtain ⟨front, last, rfl⟩ := (List.eq_nil_or_concat' nodes).resolve_left hne
  rw [List.getLast?_concat] at hwalk
  refine (tail_spec hwalk).bind fun t v hv => ?_
  obtain ⟨rfl, rfl⟩ := hv
  obtain ⟨k, hk, hbi, hbt⟩ := hhead.own last (by simp)
  refine (setNext_spec hk _).mono (fun _ t ht => ?_) fun _ _ h => h
  subst ht
  obtain ⟨j, hj, hbj, _⟩ := hi.isoc p hp
  rw [hm] at hj
  cases hj
  have hpl : p ≠ last := ne_of_buffer hm hk (by rw [hbj]; exact hbi.symm)
  have hpm := (Heap.set_of_ne hpl (some { k with next := v.ctx.mdlIsoc })).trans hm
  refine ⟨hi.setNext hk (fun h => absurd h hbt) (fun h => absurd h hbi), rfl, (front ++ [last]) ++ [p], ?_, ?_,
    fun q hq => ?_⟩
  · refine Linked.append (hhead.chain.relink (fun q hq => ?_) (Heap.next_eq (Heap.set_self _))) ?_
    · have hnot : q ≠ last := by
        rintro rfl
        exact (List.nodup_append.mp hhead.chain.nodup).2.2 q hq q (by simp) rfl
      rw [Heap.next, Heap.next, Heap.set_of_ne hnot]
    · exact ⟨hp, _, Heap.next_eq hpm, rfl⟩
  · rw [segments_append, segments_same (fun q hq => ?_) (same_set hk _), hhead.segments]
    · rw [segments, List.filterMap_cons_some (b := (.isoc, sizeofIsoPacketDescriptor * n))
        (by rw [hpm, Option.map_some, hbj, hc]), List.filterMap_nil, isocSegments, if_neg hn]
    · obtain ⟨k', hk', _⟩ := hhead.own q hq
      exact ⟨k', hk'⟩
  · obtain hq | hq := List.mem_append.mp hq
    · obtain ⟨k', hk', _⟩ := hhead.own q hq
      obtain ⟨k'', hk'', _⟩ := same_set hk v.ctx.mdlIsoc q k' hk'
      exact ⟨k'', hk''⟩
    · obtain rfl := List.mem_singleton.mp hq
      exact ⟨m, hpm⟩

-- The descriptors are put in network order before.
theorem appendIsoc_spec {n len : Nat} {buffer : Buffer} {nodes : List Nat} (hi : Inv s.heap s.ctx)
    (hhead : HeadChain s nodes buffer len) (hne : nodes ≠ []) (hn : n ≠ 0)
    {p : Nat} {m : MDL} (hp : s.ctx.mdlIsoc = some p) (hm : s.heap.mdl p = some m)
    (hc : m.byteCount = sizeofIsoPacketDescriptor * n) (hcnt : n ≤ s.ctx.isocAllocCnt) :
    From s appendIsoc
      (fun _ t => Inv t.heap t.ctx ∧
        t.ctx = { s.ctx with isoc := s.ctx.isoc.map fun isoc => byteswapIsoc isoc n } ∧
        Describes t m.next ((.header, Header.size) :: mappedSegments buffer len ++ isocSegments n))
      (fun _ _ => False) := by
  refine From.get_bind ((mdlSize_spec fun q hq => ?_).bind fun k u hu => ?_)
  · exact ⟨m, by rw [hp] at hq; cases hq; exact hm⟩
  obtain ⟨rfl, hsize⟩ := hu
  obtain rfl : k = sizeofIsoPacketDescriptor * n := by
    obtain ⟨hnull, _⟩ | ⟨q, m', hq, hm', hk⟩ := hsize
    · rw [hp] at hnull
      cases hnull
    · rw [hp] at hq
      cases hq
      rw [hm] at hm'
      cases hm'
      exact hk.symm.trans hc
  refine From.get_bind ?_
  dsimp only
  rw [Nat.mul_div_cancel_left n (by decide)]
  have hlen := hi.array
  have hmul := Nat.mul_le_mul_left sizeofIsoPacketDescriptor hcnt
  cases harray : u.ctx.isoc with
  | none =>
      rw [harray, Option.getD_none, List.length_nil] at hlen
      unfold sizeofIsoPacketDescriptor at hlen
      omega
  | some isoc =>
      rw [harray, Option.getD_some] at hlen
      refine From.ite (fun _ => From.modify_bind ?_) fun hshort => absurd (hlen ▸ hmul) hshort
      have hi' : Inv u.heap { u.ctx with isoc := some (byteswapIsoc isoc n) } :=
        hi.congr rfl rfl rfl rfl rfl (by simp [harray, byteswapIsoc_length])
      apply linkIsoc_spec hi'
      · exact ⟨hhead.chain, hhead.segments, hhead.own⟩
      · exact hne
      · exact hn
      · exact hp
      · exact hm
      · exact hc

-- The layout of a message with `len` bytes of a transfer buffer and `n` packets.
def layout (buffer : Buffer) (len n : Nat) : List (Buffer × Nat) :=
  (.header, Header.size) :: mappedSegments buffer len ++ isocSegments n

-- What `prepare_wsk_buf` has done for the header of `s` when the header is `hdr`.
structure BufReady (s t : Wsk.State) (transferBuffer : Option Urb) (n : Nat) (buf : WskBuf) (hdr : Header) : Prop where
  hdr : t.ctx.hdr = hdr
  isoc : t.ctx.isoc = swapped s.ctx n
  mdl : buf.mdl = some t.ctx.mdlHdr
  length : buf.length = getTotalSize s.ctx.hdr
  chain : Describes t (isocLink s) (layout (bufferOf transferBuffer) (mapped s.ctx.hdr transferBuffer) n)

theorem prepareWskBuf_spec {n : Nat} (hf : Filled s n) :
    From s (prepareWskBuf env transferBuffer)
      (fun r t => KeepsArray s t ∧ ∀ buf, r = .ok buf → BufReady s t transferBuffer n buf s.ctx.hdr)
        (fun _ _ => False) := by
  refine (makeBuf_spec hf.inv hf.buf).bind fun err t ht => ?_
  obtain ⟨hbuf, hmade⟩ := ht
  refine From.ite (fun _ => From.pure _ ⟨hbuf.keepsArray, fun _ h => nomatch h⟩) fun herr => From.get_bind ?_
  have hctx := hbuf.ctx
  have hflag : t.ctx.isIsoc = (n != 0) := by rw [hctx]; exact hf.flag
  refine (linkHeader_spec hbuf.inv (bufferOf_ofMdlBuf _) (hmade (not_not.mp herr))).bind fun _ u hu => ?_
  obtain ⟨hi, hsame, hhead, hother⟩ := hu
  have hkeeps : KeepsArray s u := hbuf.keepsArray.trans ⟨hi, by rw [hsame], by rw [hsame]⟩
  have hhdr : u.ctx.hdr = s.ctx.hdr := by rw [hsame, hctx]
  have hmdl : some t.ctx.mdlHdr = some u.ctx.mdlHdr := by rw [hsame]
  have hlen : getTotalSize t.ctx.hdr = getTotalSize s.ctx.hdr := by rw [hctx]
  refine From.ite (fun hisoc => ?_) fun hnone => From.pure _ ⟨hkeeps, fun buf h => ?_⟩
  · have hn : n ≠ 0 := by
      rw [hisoc] at hflag
      simpa using hflag.symm
    obtain ⟨p, m, hp, hm, hc, hcnt⟩ := hf.isoc hn
    have hpu : u.ctx.mdlIsoc = some p := by rw [hsame, hctx]; exact hp
    have hcntu : n ≤ u.ctx.isocAllocCnt := by rw [hsame, hctx]; exact hcnt
    obtain ⟨k, hk, hbk, _⟩ := hf.inv.isoc p hp
    obtain ⟨j, hj, hbj, _⟩ := hf.inv.hdr
    have hph : p ≠ t.ctx.mdlHdr := by
      rw [hctx]
      exact ne_of_buffer hk hj (by simp [hbk, hbj])
    have hmu : u.heap.mdl p = some m := (hother p hph).trans (hbuf.live p m hm)
    have hhead' : HeadChain u (t.ctx.mdlHdr :: t.ctx.mdlBuf.toList) (bufferOf transferBuffer)
        (mapped s.ctx.hdr transferBuffer) := hhead
    refine (appendIsoc_spec hi hhead' (List.cons_ne_nil _ _) hn hpu hmu hc hcntu).bind fun _ v hv => ?_
    obtain ⟨hinv, hctxv, hdescribes⟩ := hv
    refine From.pure _ ⟨hkeeps.trans ⟨hinv, by rw [hctxv], by rw [hctxv]⟩, fun buf h => ?_⟩
    cases h
    have hisocs : s.ctx.isIsoc = true := by rw [hf.flag]; simpa using hn
    have hlink : isocLink s = m.next := by
      rw [isocLink, if_pos hisocs, hp, Option.bind_some, hm, Option.bind_some]
    refine ⟨by rw [hctxv]; exact hhdr, ?_, ?_, hlen, by rw [hlink]; exact hdescribes⟩
    · rw [swapped, if_pos hisocs, hctxv, hsame, hctx]
    · rw [hctxv]
      exact hmdl
  · cases h
    have hisocs : s.ctx.isIsoc = false := by
      rw [hctx] at hnone
      simpa using hnone
    have hn : n = 0 := by
      rw [hf.flag] at hisocs
      simpa using hisocs
    refine ⟨hhdr, ?_, hmdl, hlen, ?_⟩
    · rw [swapped, hisocs, hsame, hctx]
      rfl
    · rw [isocLink, hisocs]
      refine ⟨_, hhead.chain, ?_, fun q hq => ?_⟩
      · rw [hhead.segments, layout, isocSegments, if_pos hn, List.append_nil]
      · obtain ⟨k, hk, _⟩ := hhead.own q hq
        exact ⟨k, hk⟩

-- The header is left to WskSend in network order.
theorem send_spec {dev : DeviceCtx} {n : Nat} (hf : Filled s n) :
    From s (send env dev transferBuffer)
      (fun out t => KeepsArray s t ∧ out.dev = dev ∧ ∀ buf, out.buf = some buf →
        BufReady s t transferBuffer n buf (byteswapHeader s.ctx.hdr .host2net))
      (fun _ _ => False) := by
  refine (prepareWskBuf_spec hf).bind fun r t ht => ?_
  obtain ⟨hkeeps, hready⟩ := ht
  cases r with
  | error err => exact From.pure _ ⟨hkeeps, rfl, fun _ h => nomatch h⟩
  | ok buf =>
      obtain ⟨hhdr, hisoc, hmdl, hlen, nodes, hlinked, hsegments, hlive⟩ := hready buf rfl
      have hheader : Inv t.heap { t.ctx with hdr := byteswapHeader t.ctx.hdr .host2net } :=
        hkeeps.inv.congr rfl rfl rfl rfl rfl rfl
      refine From.modify_bind (From.pure _ ⟨hkeeps.trans ⟨hheader, rfl, rfl⟩, rfl, fun b h => ?_⟩)
      cases h
      exact ⟨congrArg (byteswapHeader · .host2net) hhdr, hisoc, hmdl, hlen, nodes, hlinked, hsegments, hlive⟩

end PrepareWskBuf

section Transmitted

variable {s t : Wsk.State} {ctx : WskContext} {memory : Buffer → Nat → Byte}

def readSegment (ctx : WskContext) (memory : Buffer → Nat → Byte) (segment : Buffer × Nat) : List Byte :=
  readBuffer ctx memory { byteCount := segment.2, buffer := segment.1 }

theorem readSegment_length (segment : Buffer × Nat) : (readSegment ctx memory segment).length = segment.2 := by
  simp [readSegment, readBuffer]

@[simp] theorem gather_zero {heap : Heap} (fuel : Nat) (head : Option Nat) :
    gather heap ctx memory fuel head 0 = some [] := by
  cases fuel <;> rfl

-- WskSend reads the buffers of the chain one after the other.
theorem gather_linked {heap : Heap} {head last : Option Nat} {nodes : List Nat} {length fuel : Nat}
    (hlinked : Linked heap.next head nodes last) (hlive : ∀ q ∈ nodes, ∃ m, heap.mdl q = some m)
    (hfuel : nodes.length ≤ fuel) (hlen : length ≤ total (segments heap nodes)) :
    gather heap ctx memory fuel head length =
      some (((segments heap nodes).flatMap (readSegment ctx memory)).take length) := by
  induction nodes generalizing head length fuel with
  | nil =>
      obtain rfl : length = 0 := Nat.le_zero.mp hlen
      simp
  | cons p rest ih =>
      obtain ⟨rfl, q, hq, hrest⟩ := hlinked
      obtain ⟨m, hm⟩ := hlive p List.mem_cons_self
      have hlive' : ∀ q ∈ rest, ∃ m, heap.mdl q = some m := fun r hr => hlive r (List.mem_cons_of_mem _ hr)
      have hnext : m.next = q := by
        rw [Heap.next_eq hm] at hq
        exact Option.some_inj.mp hq
      have hsegments : segments heap (p :: rest) = (m.buffer, m.byteCount) :: segments heap rest :=
        List.filterMap_cons_some (by rw [hm, Option.map_some])
      have hread : readSegment ctx memory (m.buffer, m.byteCount) = readBuffer ctx memory m := rfl
      have hcount : (readSegment ctx memory (m.buffer, m.byteCount)).length = m.byteCount := readSegment_length _
      rw [hread] at hcount
      rw [hsegments, total_cons] at hlen
      cases length with
      | zero => simp
      | succ length =>
          cases fuel with
          | zero => simp at hfuel
          | succ fuel =>
              rw [hsegments, List.flatMap_cons, hread, gather, hm]
              dsimp only
              rw [hnext, ih hrest hlive' (by simpa using hfuel) (by rw [List.length_take]; omega), Option.map_some,
                List.take_append, List.length_take, hcount]
              congr 3
              omega

theorem firstBytes_self (bytes : List Byte) : firstBytes bytes bytes.length = bytes := by
  refine List.ext_getElem (by simp [firstBytes]) fun i h _ => ?_
  simp [firstBytes] at h ⊢
  rw [List.getElem?_eq_getElem h, Option.getD_some]

theorem firstBytes_take (memory : List Byte) {l n : Nat} (h : l ≤ n) :
    (firstBytes memory n).take l = firstBytes memory l := by
  rw [firstBytes, ← List.map_take, List.take_range, Nat.min_eq_left h, firstBytes]

theorem segments_length {heap : Heap} {nodes : List Nat} (hlive : ∀ q ∈ nodes, ∃ m, heap.mdl q = some m) :
    (segments heap nodes).length = nodes.length := by
  induction nodes with
  | nil => rfl
  | cons p rest ih =>
      obtain ⟨m, hm⟩ := hlive p List.mem_cons_self
      have hcons : segments heap (p :: rest) = (m.buffer, m.byteCount) :: segments heap rest :=
        List.filterMap_cons_some (by rw [hm, Option.map_some])
      rw [hcons, List.length_cons, List.length_cons, ih fun q hq => hlive q (List.mem_cons_of_mem _ hq)]

theorem layout_length_le (buffer : Buffer) (len n : Nat) : (layout buffer len n).length ≤ 3 := by
  unfold layout mappedSegments isocSegments
  split_ifs <;> simp

theorem total_layout (buffer : Buffer) (len n : Nat) :
    total (layout buffer len n) = Header.size + len + sizeofIsoPacketDescriptor * n := by
  unfold layout
  rw [List.cons_append, total_cons, total_append, total_isocSegments, Nat.add_assoc]
  congr 2
  unfold mappedSegments
  split_ifs with hzero
  · exact hzero.symm
  · exact Nat.add_zero _

theorem readSegment_buffer {buffer : Buffer} (h : buffer = .transferBuffer ∨ buffer = .headMapping) (n : Nat) :
    readSegment ctx memory (buffer, n) = (List.range n).map (memory buffer) := by
  obtain rfl | rfl := h <;> rfl

theorem readLayout {buffer : Buffer} (h : buffer = .transferBuffer ∨ buffer = .headMapping) (len n : Nat) :
    (layout buffer len n).flatMap (readSegment ctx memory) =
      ctx.hdr.bytes ++ ((List.range len).map (memory buffer) ++
        firstBytes (ctx.isoc.getD []) (sizeofIsoPacketDescriptor * n)) := by
  have hhdr : readSegment ctx memory (.header, Header.size) = ctx.hdr.bytes := firstBytes_self _
  have hmapped : (mappedSegments buffer len).flatMap (readSegment ctx memory) = (List.range len).map (memory buffer) := by
    unfold mappedSegments
    split_ifs with hzero
    · rw [hzero]
      rfl
    · rw [← readSegment_buffer h]
      exact List.append_nil _
  have hisoc : (isocSegments n).flatMap (readSegment ctx memory) =
      firstBytes (ctx.isoc.getD []) (sizeofIsoPacketDescriptor * n) := by
    unfold isocSegments
    split_ifs with hzero
    · rw [hzero]
      rfl
    · exact List.append_nil _
  rw [layout, List.flatMap_append, List.flatMap_cons, hhdr, hmapped, hisoc, List.append_assoc]

variable {transferBuffer : Option Urb} {n l : Nat} {buf : WskBuf} {hdr : Header}

-- The header, `l` bytes of the transfer buffer and the descriptors are sent.
theorem BufReady.transmitted (h : BufReady s t transferBuffer n buf hdr)
    (hlen : buf.length = Header.size + l + sizeofIsoPacketDescriptor * n) (hle : l ≤ mapped s.ctx.hdr transferBuffer)
    (hall : n ≠ 0 → l = mapped s.ctx.hdr transferBuffer) (memory : Buffer → Nat → Byte) :
    transmitted t memory buf =
      some (hdr.bytes ++ ((List.range l).map (memory (bufferOf transferBuffer)) ++
        firstBytes (t.ctx.isoc.getD []) (sizeofIsoPacketDescriptor * n))) := by
  obtain ⟨nodes, hlinked, hsegments, hlive⟩ := h.chain
  have hnodes := segments_length hlive
  have hfew := layout_length_le (bufferOf transferBuffer) (mapped s.ctx.hdr transferBuffer) n
  rw [hsegments] at hnodes
  have hfuel : nodes.length ≤ (buf.length + 1) * (t.heap.fresh + 1) := by
    have hpos : 0 < t.heap.fresh + 1 := Nat.succ_pos _
    have hmul := Nat.le_mul_of_pos_right (buf.length + 1) hpos
    unfold Header.size at hlen
    omega
  have hlinked' : Linked t.heap.next buf.mdl nodes (isocLink s) := by
    rw [h.mdl]
    exact hlinked
  have hroom : buf.length ≤ total (segments t.heap nodes) := by
    rw [hsegments, total_layout]
    omega
  rw [Send.transmitted, gather_linked hlinked' hlive hfuel hroom, hsegments, readLayout (bufferOf_cases _), h.hdr, hlen,
    List.take_append,
    List.take_of_length_le (by rw [bytes_length]; omega), bytes_length, Nat.add_assoc, Nat.add_sub_cancel_left]
  by_cases hn : n = 0
  · rw [hn, Nat.mul_zero, Nat.add_zero, List.take_append, ← List.map_take, List.take_range, Nat.min_eq_left hle]
    simp [firstBytes]
  · rw [← hall hn, List.take_of_length_le]
    rw [List.length_append, List.length_map, List.length_range, firstBytes_length]

end Transmitted

section Alloc

variable {s : Wsk.State} {env : SendEnv}

theorem retains_of_mdl {p : Nat} {m : MDL} (hp : s.ctx.mdlIsoc = some p) (hm : s.heap.mdl p = some m) (n : Nat) :
    retains s n = true ↔ m.byteCount = sizeofIsoPacketDescriptor * n ∧ n ≤ s.ctx.isocAllocCnt := by
  rw [retains, hp, Option.bind_some, hm]
  simp

theorem retains_le {n : Nat} (h : retains s n = true) : n ≤ s.ctx.isocAllocCnt := by
  unfold retains at h
  split at h
  · exact of_decide_eq_true (Bool.and_eq_true_iff.mp h).2
  · cases h

theorem growIsoc_link {n len : Nat} :
    From s (growIsoc env.toEnv n len)
      (fun r t => s.ctx.isocAllocCnt < n ∧ (r = .STATUS_SUCCESS → t.ctx.mdlIsoc = none) ∨
        n ≤ s.ctx.isocAllocCnt ∧ t = s)
      (fun _ _ => True) := by
  refine From.get_bind (From.ite (fun hgrow => From.ite (fun _ => ?_) fun _ => ?_) fun hfit => ?_)
  · exact From.pure _ (.inl ⟨hgrow, fun h => nomatch h⟩)
  · exact From.modify_bind (From.get_bind (From.modify_bind (From.modify_bind
      (From.pure _ (.inl ⟨hgrow, fun _ => rfl⟩)))))
  · exact From.pure _ (.inr ⟨Nat.le_of_not_lt hfit, rfl⟩)

theorem assignMdlIsoc_link (hi : Inv s.heap s.ctx) {available : Bool} {len : Nat} :
    From s (assignMdlIsoc available len) (fun r t => r = .STATUS_SUCCESS → oldLink t = none) (fun _ _ => True) := by
  have hold : ∀ p, s.ctx.mdlIsoc = some p → ∃ m, s.heap.mdl p = some m ∧ m.buffer = .isoc := by
    intro p hp
    obtain ⟨m, hm, hb, _⟩ := hi.isoc p hp
    exact ⟨m, hm, hb⟩
  refine (allocMdl_spec.mono (fun _ _ h => h) fun _ _ _ => trivial).bind fun mdl t ht => ?_
  refine From.get_bind (From.modify_bind (From.modify_bind (From.pure _ fun hr => ?_)))
  obtain ⟨rfl, rfl⟩ | ⟨rfl, rfl⟩ := ht
  · cases hr
  · have hnew := hi.replace_self hold { byteCount := len, buffer := .isoc }
    rw [oldLink, Option.bind_some, hnew, Option.bind_some]

-- A new MDL is linked to nothing.
theorem prepareIsoc_link (hi : Inv s.heap s.ctx) {n : Nat} (hn : n ≤ 1024) :
    From s (prepareIsoc env.toEnv n) (fun r t => r = .STATUS_SUCCESS → n ≠ 0 → oldLink t = keptLink s n)
      (fun _ _ => True) := by
  refine From.modify_bind (From.ite (fun hzero => From.pure _ fun _ h => absurd hzero h) fun hne => ?_)
  have hi' : Inv s.heap { s.ctx with isIsoc := n != 0 } := hi.congr rfl rfl rfl rfl rfl rfl
  have hlen : sizeofIsoPacketDescriptor * n % 2 ^ 32 = sizeofIsoPacketDescriptor * n := by
    simp only [sizeofIsoPacketDescriptor]
    omega
  rw [hlen]
  refine From.bind (((growIsoc_spec hi' hn).and growIsoc_link).mono (fun _ _ h => h) fun _ _ _ => trivial)
    fun err t ht => ?_
  obtain ⟨⟨hgrow, _, _⟩, hlink⟩ := ht
  refine From.ite (fun herr => From.pure _ fun h => absurd h herr) fun herr => From.get_bind ?_
  have herr := not_not.mp herr
  -- The descriptors are in an MDL of the right size, or a new one is made.
  refine From.bind ((mdlSize_spec fun p hp => ?_).mono (fun _ _ h => h) fun _ _ _ => trivial) fun k u hu => ?_
  · obtain ⟨m, hm, _⟩ := hgrow.inv.isoc p hp
    exact ⟨m, hm⟩
  obtain ⟨rfl, hsize⟩ := hu
  have hassign : From u (assignMdlIsoc env.isocMdl (sizeofIsoPacketDescriptor * n))
      (fun r t => r = .STATUS_SUCCESS → oldLink t = none) (fun _ _ => True) := assignMdlIsoc_link hgrow.inv
  obtain ⟨hmore, hnone⟩ | ⟨hfit, rfl⟩ := hlink
  · have hnone := hnone herr
    refine From.ite (fun hk => ?_) fun _ => hassign.mono (fun _ _ h hr _ => ?_) fun _ _ h => h
    · obtain ⟨_, rfl⟩ | ⟨p, m, hp, _⟩ := hsize
      · unfold sizeofIsoPacketDescriptor at hk
        omega
      · rw [hnone] at hp
        cases hp
    · have hmore : s.ctx.isocAllocCnt < n := hmore
      rw [h hr, keptLink, if_neg fun hc => absurd (retains_le hc.2) (Nat.not_le_of_lt hmore)]
  · refine From.ite (fun hk => From.pure _ fun _ _ => ?_) fun hk => hassign.mono (fun _ _ h hr _ => ?_) fun _ _ h => h
    · obtain ⟨_, rfl⟩ | ⟨p, m, hp, hm, hc⟩ := hsize
      · unfold sizeofIsoPacketDescriptor at hk
        omega
      · rw [keptLink, if_pos ⟨hne, (retains_of_mdl hp hm n).mpr ⟨hc.trans hk, hfit⟩⟩]
        rfl
    · rw [h hr, keptLink, if_neg fun hc => hk ?_]
      obtain ⟨hnull, _⟩ | ⟨p, m, hp, hm, rfl⟩ := hsize
      · have hnull : s.ctx.mdlIsoc = none := hnull
        simp [retains, hnull] at hc
      · exact ((retains_of_mdl hp hm n).mp hc.2).1

-- A context is ready for a command of `n` packets, with the header that it had.
structure Allocated (s t : Wsk.State) (n : Nat) : Prop where
  filled : Filled t n
  link : isocLink t = keptLink s n

theorem allocWskContext_spec (hi : Inv s.heap s.ctx) {request : Option UdeRequest} {n : Nat} (hn : n ≤ 1024) :
    From s (allocWskContext env request n)
      (fun r t => Inv t.heap t.ctx ∧ t.ctx.hdr = s.ctx.hdr ∧ (r = .STATUS_SUCCESS → Allocated s t n))
      (fun _ _ => False) := by
  have hinv : Inv (s.heap.release s.ctx.mdlBuf) { s.ctx with mdlBuf := none, request := none } :=
    hi.releaseBuf.congr rfl rfl rfl rfl rfl rfl
  refine From.bind (Q := fun r t => Inv t.heap t.ctx ∧ t.ctx.hdr = s.ctx.hdr ∧ (r = .STATUS_SUCCESS → Allocated s t n))
    (From.get_bind (From.modify_bind (From.modify_bind ?_))) fun r t ht => ?_
  · refine ((prepareIsoc_spec hinv hn).and (prepareIsoc_link hinv hn)).mono (fun r t ht => ?_) fun _ _ h => h.1
    obtain ⟨⟨hstep, hflag, hready⟩, hlink⟩ := ht
    refine ⟨hstep.inv, hstep.keeps.hdr, fun hr => ⟨⟨hstep.inv, hstep.buf, hflag, hready hr⟩, ?_⟩⟩
    by_cases hzero : n = 0
    · have hkept : keptLink s n = none := if_neg fun hc => hc.1 hzero
      exact (if_neg (by rw [hflag]; simp [hzero])).trans hkept.symm
    · have hset : t.ctx.isIsoc = true := by
        rw [hflag]
        simpa using hzero
      rw [isocLink, if_pos hset]
      refine (hlink hr hzero).trans ?_
      -- The MDL of the transfer buffer that is freed first is not the one of the descriptors.
      have hsame : s.ctx.mdlIsoc.bind (s.heap.release s.ctx.mdlBuf).mdl = s.ctx.mdlIsoc.bind s.heap.mdl := by
        cases hp : s.ctx.mdlIsoc with
        | none => rfl
        | some p =>
            obtain ⟨m, hm, hb, _⟩ := hi.isoc p hp
            rw [Option.bind_some, Option.bind_some, hm]
            cases hbuf : s.ctx.mdlBuf with
            | none => exact hm
            | some q =>
                obtain ⟨k, hk, hbk⟩ := hi.buf q hbuf
                refine (Heap.set_of_ne (ne_of_buffer hm hk ?_) _).trans hm
                rw [hb]
                exact hbk.ne.2.2.symm
      unfold keptLink retains oldLink
      rw [hsame]
  · obtain ⟨hinv, hhdr, hready⟩ := ht
    refine From.modify_bind (From.pure _ ⟨hinv.congr rfl rfl rfl rfl rfl rfl, hhdr, fun hr => ?_⟩)
    obtain ⟨⟨hi', hbuf, hflag, hisoc⟩, hlink⟩ := hready hr
    exact ⟨⟨hi'.congr rfl rfl rfl rfl rfl rfl, hbuf, hflag, hisoc⟩, hlink⟩

end Alloc

end Usbip.Send

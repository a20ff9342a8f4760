import Usbip.Library.Hoare
import Usbip.WskContext

namespace Usbip.Wsk

open Usbip.Library.Chain
open Usbip.Library.Hoare

-- What `mdl_buf` describes: the transfer buffer, what follows its first MDL, or a payload that nobody wants.
def Buffer.ofMdlBuf (buffer : Buffer) : Prop := buffer = .transferBuffer ∨ buffer = .headMapping ∨ buffer = .payload

theorem Buffer.ofMdlBuf.ne {buffer : Buffer} (h : buffer.ofMdlBuf) :
    buffer ≠ .header ∧ buffer ≠ .bufTail ∧ buffer ≠ .isoc := by
  rcases h with rfl | rfl | rfl <;> simp

section Places

variable {place place' : Nat → Place} {i : Nat} {bytes memory : List Byte}

theorem storeAt_congr (h : ∀ j, i ≤ j → j < i + bytes.length → place j = place' j) :
    storeAt place i bytes memory = storeAt place' i bytes memory := by
  induction bytes generalizing i memory with
  | nil => rfl
  | cons byte bytes ih =>
      rw [List.length_cons] at h
      rw [storeAt, storeAt, h i (Nat.le_refl i) (by omega)]
      exact ih fun j hj hlt => h j (by omega) (by omega)

-- Bytes that are written to consecutive offsets take the place of those that were there.
theorem storeAt_own (h : i ≤ memory.length) :
    storeAt .own i bytes memory = memory.take i ++ bytes ++ memory.drop (i + bytes.length) := by
  induction bytes generalizing i memory with
  | nil => simp [storeAt]
  | cons byte bytes ih =>
      have hsplit : memory.take i ++ byte :: memory.drop (i + 1) = (memory.take i ++ [byte]) ++ memory.drop (i + 1) := by
        simp
      have hlen : (memory.take i ++ [byte]).length = i + 1 := by
        rw [List.length_append, List.length_take_of_le h, List.length_singleton]
      have hroom : i + 1 ≤ ((memory.take i ++ [byte]) ++ memory.drop (i + 1)).length := by
        rw [List.length_append, hlen]
        exact Nat.le_add_right _ _
      change storeAt .own (i + 1) bytes (memory.take i ++ byte :: memory.drop (i + 1)) = _
      rw [hsplit, ih hroom, List.take_left' hlen, ← List.drop_drop, List.drop_left' hlen, List.drop_drop,
        List.length_cons, Nat.add_assoc i, Nat.add_comm 1, List.append_assoc, List.append_assoc, List.append_assoc]
      rfl

end Places

-- The MDLs of a context are there and describe their own buffers. The link of the tail survives
-- from message to message: it is null or leads to the MDL of the descriptors, which may have been
-- freed since then; that one may have been linked to itself.
structure Inv (heap : Heap) (ctx : WskContext) : Prop where
  below : ∀ p, heap.fresh ≤ p → heap.mdl p = none
  hdr : ∃ m, heap.mdl ctx.mdlHdr = some m ∧ m.buffer = .header ∧ m.byteCount = Header.size
  buf : ∀ p, ctx.mdlBuf = some p →
    ∃ m, heap.mdl p = some m ∧ m.buffer.ofMdlBuf
  tail : ∀ p, ctx.mdlBufTail = some p →
    ∃ m, heap.mdl p = some m ∧ m.buffer = .bufTail ∧
      ∀ q, m.next = some q → q < heap.fresh ∧ (ctx.mdlIsoc = some q ∨ heap.mdl q = none)
  isoc : ∀ p, ctx.mdlIsoc = some p →
    ∃ m, heap.mdl p = some m ∧ m.buffer = .isoc ∧
      m.byteCount ≤ sizeofIsoPacketDescriptor * ctx.isocAllocCnt ∧ (m.next = none ∨ m.next = some p)
  count : ctx.isocAllocCnt ≤ 1024
  array : (ctx.isoc.getD []).length = sizeofIsoPacketDescriptor * ctx.isocAllocCnt

section Heap

variable {heap : Heap} {ctx : WskContext} {p q : Nat} {m : MDL}

@[simp] theorem Heap.set_self (mdl : Option MDL) : (heap.set p mdl).mdl p = mdl := if_pos rfl

theorem Heap.set_of_ne (h : q ≠ p) (mdl : Option MDL) : (heap.set p mdl).mdl q = heap.mdl q := if_neg h

@[simp] theorem Heap.set_fresh (mdl : Option MDL) : (heap.set p mdl).fresh = heap.fresh := rfl

@[simp] theorem Heap.alloc_fresh : (heap.alloc m).fresh = heap.fresh + 1 := rfl

@[simp] theorem Heap.alloc_self : (heap.alloc m).mdl heap.fresh = some m := Heap.set_self _

theorem Heap.next_eq (h : heap.mdl p = some m) : heap.next p = some m.next := by
  rw [Heap.next, h, Option.map_some]

theorem Inv.lt (hi : Inv heap ctx) (hp : heap.mdl p = some m) : p < heap.fresh := by
  by_contra hge
  rw [hi.below p (by omega)] at hp
  cases hp

theorem Inv.alloc_of_live (hi : Inv heap ctx) {n : MDL} (hp : heap.mdl p = some n) :
    (heap.alloc m).mdl p = some n := by
  have hlt := hi.lt hp
  rw [← hp]
  exact Heap.set_of_ne (by omega) _

-- An MDL is not another one if they describe different buffers.
theorem ne_of_buffer {n : MDL} (hp : heap.mdl p = some m) (hq : heap.mdl q = some n) (h : m.buffer ≠ n.buffer) :
    p ≠ q := by
  rintro rfl
  rw [hp] at hq
  cases hq
  exact h rfl

theorem Inv.alloc (hi : Inv heap ctx) (m : MDL) : Inv (heap.alloc m) ctx := by
  refine ⟨fun p hp => ?_, ?_, fun p hp => ?_, fun p hp => ?_, fun p hp => ?_, hi.count, hi.array⟩
  · rw [Heap.alloc_fresh] at hp
    have hne : p ≠ heap.fresh := by omega
    exact (Heap.set_of_ne hne _).trans (hi.below p (by omega))
  · obtain ⟨n, hn, hrest⟩ := hi.hdr
    exact ⟨n, hi.alloc_of_live hn, hrest⟩
  · obtain ⟨n, hn, hrest⟩ := hi.buf p hp
    exact ⟨n, hi.alloc_of_live hn, hrest⟩
  · obtain ⟨n, hn, hb, hnext⟩ := hi.tail p hp
    refine ⟨n, hi.alloc_of_live hn, hb, fun q hq => ?_⟩
    obtain ⟨hlt, hlink⟩ := hnext q hq
    have hne : q ≠ heap.fresh := by omega
    exact ⟨by rw [Heap.alloc_fresh]; omega, hlink.imp id fun h => (Heap.set_of_ne hne _).trans h⟩
  · obtain ⟨n, hn, hrest⟩ := hi.isoc p hp
    exact ⟨n, hi.alloc_of_live hn, hrest⟩

-- Only links of the tail and of the descriptors are told apart.
theorem Inv.setNext (hi : Inv heap ctx) (hm : heap.mdl p = some m) {next : Option Nat}
    (htail : m.buffer = .bufTail → ∀ q, next = some q → q < heap.fresh ∧ (ctx.mdlIsoc = some q ∨ heap.mdl q = none))
    (hisoc : m.buffer = .isoc → next = none ∨ next = some p) :
    Inv (heap.set p (some { m with next := next })) ctx := by
  -- The MDL at an address stays as it is, but for its link if it is the one.
  have hlive : ∀ q n, heap.mdl q = some n → ∃ n', (heap.set p (some { m with next := next })).mdl q = some n' ∧
      n'.buffer = n.buffer ∧ n'.byteCount = n.byteCount ∧ (q = p ∧ n = m ∧ n'.next = next ∨ n'.next = n.next) := by
    intro q n hn
    by_cases hqp : q = p
    · subst hqp
      rw [hm] at hn
      cases hn
      exact ⟨_, Heap.set_self _, rfl, rfl, .inl ⟨rfl, rfl, rfl⟩⟩
    · exact ⟨n, (Heap.set_of_ne hqp _).trans hn, rfl, rfl, .inr rfl⟩
  have hdead : ∀ q, heap.mdl q = none → (heap.set p (some { m with next := next })).mdl q = none := by
    intro q hq
    by_cases hqp : q = p
    · rw [hqp, hm] at hq
      cases hq
    · exact (Heap.set_of_ne hqp _).trans hq
  refine ⟨fun q hq => hdead q (hi.below q hq), ?_, fun q hq => ?_, fun q hq => ?_, fun q hq => ?_, hi.count,
    hi.array⟩
  · obtain ⟨n, hn, hb, hc⟩ := hi.hdr
    obtain ⟨n', hn', hb', hc', _⟩ := hlive _ n hn
    exact ⟨n', hn', hb'.trans hb, hc'.trans hc⟩
  · obtain ⟨n, hn, hb⟩ := hi.buf q hq
    obtain ⟨n', hn', hb', _⟩ := hlive _ n hn
    exact ⟨n', hn', by rw [hb']; exact hb⟩
  · obtain ⟨n, hn, hb, hnext⟩ := hi.tail q hq
    obtain ⟨n', hn', hb', _, hlink⟩ := hlive _ n hn
    refine ⟨n', hn', hb'.trans hb, fun r hr => ?_⟩
    obtain ⟨-, rfl, hlink⟩ | hlink := hlink
    · rw [hlink] at hr
      exact (htail hb r hr).imp id fun h => h.imp id (hdead r)
    · rw [hlink] at hr
      exact (hnext r hr).imp id fun h => h.imp id (hdead r)
  · obtain ⟨n, hn, hb, hc, hnext⟩ := hi.isoc q hq
    obtain ⟨n', hn', hb', hc', hlink⟩ := hlive _ n hn
    refine ⟨n', hn', hb'.trans hb, hc' ▸ hc, ?_⟩
    obtain ⟨rfl, rfl, hlink⟩ | hlink := hlink
    · rw [hlink]
      exact hisoc hb
    · rw [hlink]
      exact hnext

theorem Inv.free (hi : Inv heap ctx) (hhdr : p ≠ ctx.mdlHdr) (hbuf : ctx.mdlBuf ≠ some p)
    (htail : ctx.mdlBufTail ≠ some p) (hisoc : ctx.mdlIsoc ≠ some p) : Inv (heap.set p none) ctx := by
  have hdead : ∀ q, heap.mdl q = none → (heap.set p none).mdl q = none := by
    intro q hq
    by_cases hqp : q = p
    · subst hqp
      exact Heap.set_self _
    · exact (Heap.set_of_ne hqp _).trans hq
  refine ⟨fun q hq => hdead q (hi.below q hq), ?_, fun q hq => ?_, fun q hq => ?_, fun q hq => ?_, hi.count,
    hi.array⟩
  · obtain ⟨n, hn, hrest⟩ := hi.hdr
    exact ⟨n, (Heap.set_of_ne hhdr.symm _).trans hn, hrest⟩
  · obtain ⟨n, hn, hrest⟩ := hi.buf q hq
    exact ⟨n, (Heap.set_of_ne (by rintro rfl; exact hbuf hq) _).trans hn, hrest⟩
  · obtain ⟨n, hn, hb, hnext⟩ := hi.tail q hq
    refine ⟨n, (Heap.set_of_ne (by rintro rfl; exact htail hq) _).trans hn, hb, fun r hr => ?_⟩
    exact (hnext r hr).imp id fun h => h.imp id (hdead r)
  · obtain ⟨n, hn, hrest⟩ := hi.isoc q hq
    exact ⟨n, (Heap.set_of_ne (by rintro rfl; exact hisoc hq) _).trans hn, hrest⟩

-- What the fields that own no MDL and no array hold does not matter.
theorem Inv.congr (hi : Inv heap ctx) {ctx' : WskContext} (hhdr : ctx'.mdlHdr = ctx.mdlHdr)
    (hbuf : ctx'.mdlBuf = ctx.mdlBuf) (htail : ctx'.mdlBufTail = ctx.mdlBufTail)
    (hisoc : ctx'.mdlIsoc = ctx.mdlIsoc) (hcount : ctx'.isocAllocCnt = ctx.isocAllocCnt)
    (harray : (ctx'.isoc.getD []).length = (ctx.isoc.getD []).length) : Inv heap ctx' := by
  obtain ⟨h1, h2, h3, h4, h5, h6, h7⟩ := hi
  refine ⟨h1, ?_, ?_, ?_, ?_, ?_, ?_⟩ <;> simp only [hhdr, hbuf, htail, hisoc, hcount, harray] <;> assumption

-- The three owners of MDLs that change; each time an MDL is freed its owner lets go of it.
theorem Inv.releaseBuf (hi : Inv heap ctx) : Inv (heap.release ctx.mdlBuf) { ctx with mdlBuf := none } := by
  have hdrop : Inv heap { ctx with mdlBuf := none } :=
    ⟨hi.below, hi.hdr, fun _ h => (nomatch h), hi.tail, hi.isoc, hi.count, hi.array⟩
  cases hp : ctx.mdlBuf with
  | none => exact hdrop
  | some p =>
      obtain ⟨m, hm, hb⟩ := hi.buf p hp
      obtain ⟨n, hn, hbn, _⟩ := hi.hdr
      refine hdrop.free ?_ (by simp) ?_ ?_
      · exact ne_of_buffer hm hn (by rw [hbn]; exact hb.ne.1)
      · intro ht
        obtain ⟨n, hn, hbn, _⟩ := hi.tail p ht
        exact ne_of_buffer hm hn (by rw [hbn]; exact hb.ne.2.1) rfl
      · intro ht
        obtain ⟨n, hn, hbn, _⟩ := hi.isoc p ht
        exact ne_of_buffer hm hn (by rw [hbn]; exact hb.ne.2.2) rfl

theorem Inv.releaseTail (hi : Inv heap ctx) :
    Inv (heap.release ctx.mdlBufTail) { ctx with mdlBufTail := none } := by
  have hdrop : Inv heap { ctx with mdlBufTail := none } :=
    ⟨hi.below, hi.hdr, hi.buf, fun _ h => (nomatch h), hi.isoc, hi.count, hi.array⟩
  cases hp : ctx.mdlBufTail with
  | none => exact hdrop
  | some p =>
      obtain ⟨m, hm, hb, _⟩ := hi.tail p hp
      obtain ⟨n, hn, hbn, _⟩ := hi.hdr
      refine hdrop.free ?_ ?_ (by simp) ?_
      · exact ne_of_buffer hm hn (by simp [hb, hbn])
      · intro ht
        obtain ⟨n, hn, hbn⟩ := hi.buf p ht
        exact ne_of_buffer hm hn (by rw [hb]; exact hbn.ne.2.1.symm) rfl
      · intro ht
        obtain ⟨n, hn, hbn, _⟩ := hi.isoc p ht
        exact ne_of_buffer hm hn (by simp [hb, hbn]) rfl

-- The link of the tail, if it led to the MDL of the descriptors, then leads nowhere.
theorem Inv.releaseIsoc (hi : Inv heap ctx) : Inv (heap.release ctx.mdlIsoc) { ctx with mdlIsoc := none } := by
  cases hp : ctx.mdlIsoc with
  | none =>
      refine ⟨hi.below, hi.hdr, hi.buf, fun p h => ?_, fun _ h => (nomatch h), hi.count, hi.array⟩
      obtain ⟨m, hm, hb, hnext⟩ := hi.tail p h
      refine ⟨m, hm, hb, fun q hq => (hnext q hq).imp id fun h => .inr ?_⟩
      exact h.resolve_left (by simp [hp])
  | some i =>
      obtain ⟨m, hm, hb, _⟩ := hi.isoc i hp
      obtain ⟨n, hn, hbn, hcn⟩ := hi.hdr
      refine ⟨fun q hq => ?_, ⟨n, ?_, hbn, hcn⟩, fun q hq => ?_, fun q hq => ?_, fun _ h => (nomatch h), hi.count,
        hi.array⟩
      · have hlt := hi.lt hm
        have hne : q ≠ i := by
          rintro rfl
          simp only [Heap.release, Heap.set_fresh] at hq
          omega
        exact (Heap.set_of_ne hne _).trans (hi.below q hq)
      · exact (Heap.set_of_ne (ne_of_buffer hn hm (by simp [hb, hbn])) _).trans hn
      · obtain ⟨n, hn, hbn⟩ := hi.buf q hq
        have hne := ne_of_buffer hn hm (by rw [hb]; exact hbn.ne.2.2)
        exact ⟨n, (Heap.set_of_ne hne _).trans hn, hbn⟩
      · obtain ⟨n, hn, hbn, hnext⟩ := hi.tail q hq
        refine ⟨n, (Heap.set_of_ne (ne_of_buffer hn hm (by simp [hb, hbn])) _).trans hn, hbn, fun r hr => ?_⟩
        obtain ⟨hlt, hlink⟩ := hnext r hr
        refine ⟨hlt, .inr ?_⟩
        by_cases hri : r = i
        · subst hri
          exact Heap.set_self _
        · refine (Heap.set_of_ne hri _).trans (hlink.resolve_left fun h => hri ?_)
          rw [hp] at h
          exact (Option.some_inj.mp h).symm

theorem Inv.ownBuf (hi : Inv heap ctx) (hm : heap.mdl p = some m)
    (hb : m.buffer.ofMdlBuf) : Inv heap { ctx with mdlBuf := some p } :=
  ⟨hi.below, hi.hdr, fun _ hq => Option.some_inj.mp hq ▸ ⟨m, hm, hb⟩, hi.tail, hi.isoc, hi.count, hi.array⟩

theorem Inv.ownTail (hi : Inv heap ctx) (hm : heap.mdl p = some m) (hb : m.buffer = .bufTail)
    (hnext : m.next = none) : Inv heap { ctx with mdlBufTail := some p } := by
  refine ⟨hi.below, hi.hdr, hi.buf, fun _ hq => ?_, hi.isoc, hi.count, hi.array⟩
  rw [← Option.some_inj.mp hq]
  exact ⟨m, hm, hb, fun r hr => by rw [hnext] at hr; cases hr⟩

theorem Inv.ownIsoc (hi : Inv heap ctx) (hnone : ctx.mdlIsoc = none) (hm : heap.mdl p = some m)
    (hb : m.buffer = .isoc) (hc : m.byteCount ≤ sizeofIsoPacketDescriptor * ctx.isocAllocCnt)
    (hnext : m.next = none) : Inv heap { ctx with mdlIsoc := some p } := by
  refine ⟨hi.below, hi.hdr, hi.buf, fun q hq => ?_, fun q hq => ?_, hi.count, hi.array⟩
  · obtain ⟨n, hn, hbn, hlink⟩ := hi.tail q hq
    refine ⟨n, hn, hbn, fun r hr => (hlink r hr).imp id fun h => .inr (h.resolve_left ?_)⟩
    simp [hnone]
  · rw [← Option.some_inj.mp hq]
    exact ⟨m, hm, hb, hc, .inl hnext⟩

-- An array for more packets; the MDL of the old one has been freed.
theorem Inv.grow (hi : Inv heap ctx) (hnone : ctx.mdlIsoc = none) {n : Nat} (hn : n ≤ 1024) {isoc : List Byte}
    (hlen : isoc.length = sizeofIsoPacketDescriptor * n) :
    Inv heap { ctx with isoc := some isoc, isocAllocCnt := n } := by
  refine ⟨hi.below, hi.hdr, hi.buf, hi.tail, fun _ hq => ?_, hn, hlen⟩
  rw [hnone] at hq
  cases hq

end Heap

-- Only the context and its MDLs change, and of the context not the header and the request.
structure Keeps (st t : State) : Prop where
  rest : t = { st with heap := t.heap, ctx := t.ctx }
  hdr : t.ctx.hdr = st.ctx.hdr
  request : t.ctx.request = st.ctx.request

theorem Keeps.refl (st : State) : Keeps st st := ⟨rfl, rfl, rfl⟩

theorem Keeps.trans {st t u : State} (h : Keeps st t) (h' : Keeps t u) : Keeps st u := by
  refine ⟨?_, h'.hdr.trans h.hdr, h'.request.trans h.request⟩
  rw [h'.rest, h.rest]

theorem Keeps.stream {st t : State} (h : Keeps st t) : t.stream = st.stream := by rw [h.rest]

theorem Keeps.round {st t : State} (h : Keeps st t) : t.round = st.round := by rw [h.rest]

-- The MDLs that describe other buffers than the given one stay as they are.
def Spares (buffer : Buffer) (heap heap' : Heap) : Prop :=
  ∀ q m, heap.mdl q = some m → m.buffer ≠ buffer → heap'.mdl q = some m

theorem Spares.refl (buffer : Buffer) (heap : Heap) : Spares buffer heap heap := fun _ _ h _ => h

theorem Spares.trans {buffer : Buffer} {h h' h'' : Heap} (hs : Spares buffer h h') (hs' : Spares buffer h' h'') :
    Spares buffer h h'' :=
  fun q m hq hb => hs' q m (hs q m hq hb) hb

theorem Heap.spares_release {heap : Heap} {owner : Option Nat} {buffer : Buffer}
    (h : ∀ p, owner = some p → ∃ m, heap.mdl p = some m ∧ m.buffer = buffer) :
    Spares buffer heap (heap.release owner) := by
  intro q m hq hb
  cases owner with
  | none => exact hq
  | some p =>
      obtain ⟨n, hn, hbn⟩ := h p rfl
      exact (Heap.set_of_ne (ne_of_buffer hq hn (by rw [hbn]; exact hb)) _).trans hq

section Replace

variable {heap : Heap} {ctx : WskContext} {owner : Option Nat} {buffer : Buffer}

-- A new MDL takes the place of the one that its owner had.
theorem Inv.spares_replace (hi : Inv heap ctx)
    (hold : ∀ p, owner = some p → ∃ m, heap.mdl p = some m ∧ m.buffer = buffer) (m : MDL) :
    Spares buffer heap ((heap.alloc m).release owner) := by
  refine Spares.trans (fun _ _ hq _ => hi.alloc_of_live hq) (Heap.spares_release fun p hp => ?_)
  obtain ⟨n, hn, hb⟩ := hold p hp
  exact ⟨n, hi.alloc_of_live hn, hb⟩

theorem Inv.replace_self (hi : Inv heap ctx)
    (hold : ∀ p, owner = some p → ∃ m, heap.mdl p = some m ∧ m.buffer = buffer) (m : MDL) :
    ((heap.alloc m).release owner).mdl heap.fresh = some m := by
  cases owner with
  | none => exact Heap.alloc_self
  | some p =>
      obtain ⟨n, hn, _⟩ := hold p rfl
      have hlt := hi.lt hn
      exact (Heap.set_of_ne (by omega) _).trans Heap.alloc_self

end Replace

-- The MDL of the descriptors is linked to nothing, not even to itself.
def Clean (heap : Heap) (ctx : WskContext) : Prop :=
  ∀ p m, ctx.mdlIsoc = some p → heap.mdl p = some m → m.next = none

-- What `prepare_isoc` and its parts leave alone.
structure IsocStep (st t : State) : Prop where
  inv : Inv t.heap t.ctx
  keeps : Keeps st t
  spares : Spares .isoc st.heap t.heap
  buf : t.ctx.mdlBuf = st.ctx.mdlBuf
  tail : t.ctx.mdlBufTail = st.ctx.mdlBufTail
  clean : Clean st.heap st.ctx → Clean t.heap t.ctx

theorem IsocStep.trans {st t u : State} (h : IsocStep st t) (h' : IsocStep t u) : IsocStep st u :=
  ⟨h'.inv, h.keeps.trans h'.keeps, h.spares.trans h'.spares, h'.buf.trans h.buf, h'.tail.trans h.tail,
    fun hc => h'.clean (h.clean hc)⟩

section Specs

variable {st : State} {env : Env}

theorem growIsoc_spec (hi : Inv st.heap st.ctx) {n : Nat} (hn : n ≤ 1024) :
    From st (growIsoc env n (sizeofIsoPacketDescriptor * n))
      (fun r t => IsocStep st t ∧ t.ctx.isIsoc = st.ctx.isIsoc ∧ (r = .STATUS_SUCCESS → n ≤ t.ctx.isocAllocCnt))
      (fun _ _ => False) := by
  have hrefl : IsocStep st st := ⟨hi, .refl st, .refl _ _, rfl, rfl, id⟩
  refine From.get_bind (From.ite (fun hgrow => From.ite (fun _ => ?_) fun _ => ?_) fun hfit => ?_)
  · exact From.pure _ ⟨hrefl, rfl, fun h => nomatch h⟩
  · refine From.modify_bind (From.get_bind (From.modify_bind (From.modify_bind (From.pure _ ?_))))
    have hlen : (List.replicate (sizeofIsoPacketDescriptor * n) (0 : Byte)).length = _ := List.length_replicate
    refine ⟨⟨hi.releaseIsoc.grow rfl hn hlen, ⟨rfl, rfl, rfl⟩, Heap.spares_release fun p hp => ?_, rfl, rfl,
      fun _ p m hp => nomatch hp⟩, rfl,
      fun _ => Nat.le_refl n⟩
    obtain ⟨m, hm, hb, _⟩ := hi.isoc p hp
    exact ⟨m, hm, hb⟩
  · exact From.pure _ ⟨hrefl, rfl, fun _ => by omega⟩

theorem mdlSize_spec {owner : Option Nat} (h : ∀ p, owner = some p → ∃ m, st.heap.mdl p = some m) :
    From st (mdlSize owner)
      (fun k t => t = st ∧ (owner = none ∧ k = 0 ∨ ∃ p m, owner = some p ∧ st.heap.mdl p = some m ∧ m.byteCount = k))
      (fun _ _ => False) := by
  cases owner with
  | none => exact From.pure _ ⟨rfl, .inl ⟨rfl, rfl⟩⟩
  | some p =>
      obtain ⟨m, hm⟩ := h p rfl
      refine From.bind (Q := fun n t => t = st ∧ n = m) (From.get_bind ?_) ?_
      · rw [hm]
        exact From.pure _ ⟨rfl, rfl⟩
      · rintro n t ⟨rfl, rfl⟩
        exact From.pure _ ⟨rfl, .inr ⟨p, n, rfl, hm, rfl⟩⟩

theorem allocMdl_spec {available : Bool} {buffer : Buffer} {length : Nat} :
    From st (allocMdl available buffer length)
      (fun r t => r = none ∧ t = st ∨ r = some st.heap.fresh ∧
        t = { st with heap := st.heap.alloc { byteCount := length, buffer := buffer } })
      (fun _ _ => False) := by
  cases available with
  | false => exact From.pure _ (.inl ⟨rfl, rfl⟩)
  | true => exact From.get_bind (From.modify_bind (From.pure _ (.inr ⟨rfl, rfl⟩)))

theorem assignMdlIsoc_spec (hi : Inv st.heap st.ctx) {available : Bool} {n : Nat}
    (hn : sizeofIsoPacketDescriptor * n ≤ sizeofIsoPacketDescriptor * st.ctx.isocAllocCnt) :
    From st (assignMdlIsoc available (sizeofIsoPacketDescriptor * n))
      (fun r t => IsocStep st t ∧ t.ctx.isIsoc = st.ctx.isIsoc ∧ (r = .STATUS_SUCCESS →
        ∃ p m, t.ctx.mdlIsoc = some p ∧ t.heap.mdl p = some m ∧ m.byteCount = sizeofIsoPacketDescriptor * n ∧
          st.ctx.isocAllocCnt = t.ctx.isocAllocCnt))
      (fun _ _ => False) := by
  have hold : ∀ p, st.ctx.mdlIsoc = some p → ∃ m, st.heap.mdl p = some m ∧ m.buffer = .isoc := by
    intro p hp
    obtain ⟨m, hm, hb, _⟩ := hi.isoc p hp
    exact ⟨m, hm, hb⟩
  refine allocMdl_spec.bind fun mdl t ht => ?_
  refine From.get_bind (From.modify_bind (From.modify_bind (From.pure _ ?_)))
  obtain ⟨rfl, rfl⟩ | ⟨rfl, rfl⟩ := ht
  · exact ⟨⟨hi.releaseIsoc, ⟨rfl, rfl, rfl⟩, Heap.spares_release hold, rfl, rfl, fun _ p m hp => nomatch hp⟩, rfl,
      fun h => nomatch h⟩
  · have hnew := hi.replace_self hold { byteCount := sizeofIsoPacketDescriptor * n, buffer := .isoc }
    refine ⟨⟨(hi.alloc _).releaseIsoc.ownIsoc rfl hnew rfl hn rfl, ⟨rfl, rfl, rfl⟩, hi.spares_replace hold _, rfl, rfl,
      fun _ p m hp hm => ?_⟩, rfl, fun _ => ⟨_, _, rfl, hnew, rfl, rfl⟩⟩
    cases hp
    rw [hnew] at hm
    cases hm
    rfl

theorem prepareIsoc_spec (hi : Inv st.heap st.ctx) {n : Nat} (hn : n ≤ 1024) :
    From st (prepareIsoc env n)
      (fun r t => IsocStep st t ∧ t.ctx.isIsoc = (n != 0) ∧ (r = .STATUS_SUCCESS → n ≠ 0 →
        ∃ p m, t.ctx.mdlIsoc = some p ∧ t.heap.mdl p = some m ∧ m.byteCount = sizeofIsoPacketDescriptor * n ∧
          n ≤ t.ctx.isocAllocCnt))
      (fun _ _ => False) := by
  refine From.modify_bind ?_
  have hfirst : IsocStep st { st with ctx := { st.ctx with isIsoc := n != 0 } } :=
    ⟨hi.congr rfl rfl rfl rfl rfl rfl, ⟨rfl, rfl, rfl⟩, .refl _ _, rfl, rfl, id⟩
  refine From.ite (fun hzero => From.pure _ ⟨hfirst, rfl, fun _ h => absurd hzero h⟩) fun _ => ?_
  have hlen : sizeofIsoPacketDescriptor * n % 2 ^ 32 = sizeofIsoPacketDescriptor * n := by
    simp only [sizeofIsoPacketDescriptor]
    omega
  rw [hlen]
  refine (growIsoc_spec hfirst.inv hn).bind fun err t ht => ?_
  obtain ⟨hgrow, hisoc, hcnt⟩ := ht
  have hstep := hfirst.trans hgrow
  refine From.ite (fun herr => From.pure _ ⟨hstep, hisoc, fun h => absurd h herr⟩) fun herr => From.get_bind ?_
  have hcnt := hcnt (not_not.mp herr)
  refine (mdlSize_spec fun p hp => ?_).bind fun k u hu => ?_
  · obtain ⟨m, hm, _⟩ := hgrow.inv.isoc p hp
    exact ⟨m, hm⟩
  · obtain ⟨rfl, hsize⟩ := hu
    refine From.ite (fun hk => From.pure _ ⟨hstep, hisoc, fun _ hne => ?_⟩) fun _ => ?_
    · obtain ⟨_, hzero⟩ | ⟨p, m, hp, hm, hc⟩ := hsize
      · simp only [sizeofIsoPacketDescriptor] at hk
        omega
      · exact ⟨p, m, hp, hm, hc.trans hk, hcnt⟩
    · refine (assignMdlIsoc_spec hgrow.inv (Nat.mul_le_mul_left _ hcnt)).mono (fun r v hv => ?_) fun _ _ h => h
      obtain ⟨hassign, hisoc', hready⟩ := hv
      refine ⟨hstep.trans hassign, hisoc'.trans hisoc, fun hr _ => ?_⟩
      obtain ⟨p, m, hp, hm, hc, hcnt'⟩ := hready hr
      exact ⟨p, m, hp, hm, hc, hcnt' ▸ hcnt⟩

-- What is done to the tail; the MDL that is there afterwards is new or has been kept as it was.
structure TailStep (st t : State) : Prop where
  inv : Inv t.heap t.ctx
  keeps : Keeps st t
  spares : Spares .bufTail st.heap t.heap
  ctx : t.ctx = { st.ctx with bufTail := t.ctx.bufTail, mdlBufTail := t.ctx.mdlBufTail }

theorem TailStep.trans {st t u : State} (h : TailStep st t) (h' : TailStep t u) : TailStep st u := by
  refine ⟨h'.inv, h.keeps.trans h'.keeps, h.spares.trans h'.spares, ?_⟩
  rw [h'.ctx, h.ctx]

theorem allocBufTail_spec (hi : Inv st.heap st.ctx) {length : Nat} :
    From st (allocBufTail env length)
      (fun _ t => TailStep st t ∧ t.heap = st.heap ∧ t.ctx.mdlBufTail = st.ctx.mdlBufTail) (fun _ _ => False) := by
  have hrefl : TailStep st st := ⟨hi, .refl st, .refl _ _, rfl⟩
  refine From.ite (fun _ => From.pure _ ⟨hrefl, rfl, rfl⟩) fun _ => From.get_bind ?_
  refine From.ite (fun _ => From.pure _ ⟨hrefl, rfl, rfl⟩) fun _ => ?_
  refine From.ite (fun _ => From.pure _ ⟨hrefl, rfl, rfl⟩) fun _ => From.modify_bind (From.pure _ ?_)
  exact ⟨⟨hi.congr rfl rfl rfl rfl rfl rfl, ⟨rfl, rfl, rfl⟩, .refl _ _, rfl⟩, rfl, rfl⟩

theorem assignMdlBufTail_spec (hi : Inv st.heap st.ctx) {available : Bool} {length : Nat} :
    From st (assignMdlBufTail available length)
      (fun r t => TailStep st t ∧ (r = .STATUS_SUCCESS →
        ∃ p m, t.ctx.mdlBufTail = some p ∧ t.heap.mdl p = some m ∧ m.byteCount = length ∧ m.next = none))
      (fun _ _ => False) := by
  have hold : ∀ p, st.ctx.mdlBufTail = some p → ∃ m, st.heap.mdl p = some m ∧ m.buffer = .bufTail := by
    intro p hp
    obtain ⟨m, hm, hb, _⟩ := hi.tail p hp
    exact ⟨m, hm, hb⟩
  refine allocMdl_spec.bind fun mdl t ht => ?_
  refine From.get_bind (From.modify_bind (From.modify_bind (From.pure _ ?_)))
  obtain ⟨rfl, rfl⟩ | ⟨rfl, rfl⟩ := ht
  · exact ⟨⟨hi.releaseTail, ⟨rfl, rfl, rfl⟩, Heap.spares_release hold, rfl⟩, fun h => nomatch h⟩
  · have hnew := hi.replace_self hold { byteCount := length, buffer := .bufTail }
    exact ⟨⟨(hi.alloc _).releaseTail.ownTail hnew rfl rfl, ⟨rfl, rfl, rfl⟩, hi.spares_replace hold _, rfl⟩,
      fun _ => ⟨_, _, rfl, hnew, rfl, rfl⟩⟩

theorem allocMdlBufTail_spec (hi : Inv st.heap st.ctx) {length : Nat} (hpos : 0 < length) :
    From st (allocMdlBufTail env length)
      (fun r t => TailStep st t ∧ (r = .STATUS_SUCCESS →
        ∃ p m, t.ctx.mdlBufTail = some p ∧ t.heap.mdl p = some m ∧ m.byteCount = length ∧
          (m.next = none ∨ st.ctx.mdlBufTail = some p ∧ st.heap.mdl p = some m)))
      (fun _ _ => False) := by
  refine (allocBufTail_spec hi).bind fun err t ht => ?_
  obtain ⟨hstep, hheap, htail⟩ := ht
  refine From.ite (fun herr => From.pure _ ⟨hstep, fun h => absurd h herr⟩) fun _ => From.get_bind ?_
  refine (mdlSize_spec fun p hp => ?_).bind fun k u hu => ?_
  · obtain ⟨m, hm, _⟩ := hstep.inv.tail p hp
    exact ⟨m, hm⟩
  · obtain ⟨rfl, hsize⟩ := hu
    refine From.ite (fun hk => From.pure _ ⟨hstep, fun _ => ?_⟩) fun _ => ?_
    · obtain ⟨_, hzero⟩ | ⟨p, m, hp, hm, hc⟩ := hsize
      · omega
      · exact ⟨p, m, hp, hm, hc.trans hk, .inr ⟨htail ▸ hp, hheap ▸ hm⟩⟩
    · refine (assignMdlBufTail_spec hstep.inv).mono (fun r v hv => ?_) fun _ _ h => h
      obtain ⟨hassign, hready⟩ := hv
      refine ⟨hstep.trans hassign, fun hr => ?_⟩
      obtain ⟨p, m, hp, hm, hc, hnext⟩ := hready hr
      exact ⟨p, m, hp, hm, hc, .inl hnext⟩

-- What is done to `mdl_buf`; every other MDL stays as it is.
structure BufStep (st t : State) : Prop where
  inv : Inv t.heap t.ctx
  keeps : Keeps st t
  live : ∀ q m, st.heap.mdl q = some m → t.heap.mdl q = some m
  ctx : t.ctx = { st.ctx with mdlBuf := t.ctx.mdlBuf }

-- What uses a context for a message leaves the array of descriptors and the field of its MDL alone.
structure KeepsArray (st t : State) : Prop where
  inv : Inv t.heap t.ctx
  count : t.ctx.isocAllocCnt = st.ctx.isocAllocCnt
  mdlIsoc : t.ctx.mdlIsoc = st.ctx.mdlIsoc

theorem KeepsArray.trans {st t u : State} (h : KeepsArray st t) (h' : KeepsArray t u) : KeepsArray st u :=
  ⟨h'.inv, h'.count.trans h.count, h'.mdlIsoc.trans h.mdlIsoc⟩

theorem TailStep.keepsArray {st t : State} (h : TailStep st t) : KeepsArray st t := ⟨h.inv, by rw [h.ctx], by rw [h.ctx]⟩

theorem BufStep.keepsArray {st t : State} (h : BufStep st t) : KeepsArray st t := ⟨h.inv, by rw [h.ctx], by rw [h.ctx]⟩

theorem assignMdlBuf_spec (hi : Inv st.heap st.ctx) (hnone : st.ctx.mdlBuf = none) {available : Bool} {buffer : Buffer}
    {length : Nat} (hb : buffer.ofMdlBuf) :
    From st (assignMdlBuf available buffer length)
      (fun r t => BufStep st t ∧ (r = .STATUS_SUCCESS →
        t.ctx.mdlBuf = some st.heap.fresh ∧
          t.heap.mdl st.heap.fresh = some { byteCount := length, buffer := buffer }))
      (fun _ _ => False) := by
  refine allocMdl_spec.bind fun mdl t ht => ?_
  refine From.modify_bind (From.pure _ ?_)
  obtain ⟨rfl, rfl⟩ | ⟨rfl, rfl⟩ := ht
  · exact ⟨⟨hi.congr rfl hnone.symm rfl rfl rfl rfl, ⟨rfl, rfl, rfl⟩, fun _ _ h => h, rfl⟩, fun h => nomatch h⟩
  · exact ⟨⟨(hi.alloc _).ownBuf Heap.alloc_self hb, ⟨rfl, rfl, rfl⟩, fun _ _ h => hi.alloc_of_live h, rfl⟩,
      fun _ => ⟨rfl, Heap.alloc_self⟩⟩

-- What the MDL that is made of a transfer buffer describes, and how much of the asked size it covers.
def mappedBuffer (urb : Urb) : Buffer :=
  match urb.transferBufferMdl with
  | _ :: _ :: _ => .headMapping
  | _ => .transferBuffer

theorem mappedBuffer_cases (urb : Urb) : mappedBuffer urb = .transferBuffer ∨ mappedBuffer urb = .headMapping := by
  unfold mappedBuffer
  split
  · exact .inr rfl
  · exact .inl rfl

theorem mappedBuffer_ofMdlBuf (urb : Urb) : (mappedBuffer urb).ofMdlBuf := (mappedBuffer_cases urb).imp id .inl

@[simp] theorem mappedBuffer_ne (urb : Urb) :
    mappedBuffer urb ≠ .bufTail ∧ mappedBuffer urb ≠ .isoc ∧ Buffer.bufTail ≠ mappedBuffer urb ∧
      Buffer.isoc ≠ mappedBuffer urb := by
  have hne := (mappedBuffer_ofMdlBuf urb).ne
  exact ⟨hne.2.1, hne.2.2, hne.2.1.symm, hne.2.2.symm⟩

-- Where the bytes lie that the MDL describes.
def place (urb : Urb) (i : Nat) : Place :=
  match urb.transferBufferMdl with
  | _ :: _ :: _ => urb.mapping i
  | _ => .own i

-- The mapping of the first MDL of a chain leads on to the next bytes of the chain.
def LeadsOn (urb : Urb) (n : Nat) : Prop :=
  ∀ head next rest, urb.transferBufferMdl = head :: next :: rest → ∀ i, head.toNat ≤ i → i < n → urb.mapping i = .own i

theorem leadsOn_iff {urb : Urb} {n : Nat} : LeadsOn urb n ↔ ∀ i < n, place urb i = .own i := by
  unfold LeadsOn place
  match hmdl : urb.transferBufferMdl with
  | [] => simp
  | [head] => simp
  | head :: next :: rest =>
      constructor
      · intro h i hi
        by_cases hhead : i < head.toNat
        · simp [Urb.mapping, hmdl, hhead]
        · exact h head next rest rfl i (Nat.le_of_not_lt hhead) hi
      · rintro h _ _ _ ⟨⟩ i _ hi
        exact h i hi

instance (urb : Urb) (n : Nat) : Decidable (LeadsOn urb n) := decidable_of_iff _ leadsOn_iff.symm

-- Bytes that are written where the MDL describes them.
def store (urb : Urb) (bytes : List Byte) : List Byte := storeAt (place urb) 0 bytes urb.memory

@[simp] theorem store_nil (urb : Urb) : store urb [] = urb.memory := rfl

theorem store_own {urb : Urb} {bytes : List Byte} (h : LeadsOn urb bytes.length) :
    store urb bytes = bytes ++ urb.memory.drop bytes.length := by
  have hown := leadsOn_iff.mp h
  have hsame : storeAt (place urb) 0 bytes urb.memory = storeAt .own 0 bytes urb.memory :=
    storeAt_congr fun j _ hj => hown j (by omega)
  rw [store, hsame, storeAt_own (Nat.zero_le _)]
  simp

def bufLength (urb : Urb) (mdlSize : Nat) : Nat :=
  match urb.transferBufferMdl with
  | [head] => min head.toNat mdlSize
  | _ => mdlSize

theorem mapTransferBuffer_spec (hi : Inv st.heap st.ctx) (hnone : st.ctx.mdlBuf = none) {urb : Urb} {mdlSize : Nat}
    {operation : LockOperation} :
    From st (mapTransferBuffer env mdlSize operation urb)
      (fun r t => BufStep st t ∧ (r = .STATUS_SUCCESS →
        (operation = .IoReadAccess → bufLength urb mdlSize = mdlSize) ∧
        ∃ p m, t.ctx.mdlBuf = some p ∧ t.heap.mdl p = some m ∧ m.buffer = mappedBuffer urb ∧ m.next = none ∧
          m.byteCount = bufLength urb mdlSize ∧ st.heap.mdl p = none))
      (fun _ _ => False) := by
  have hrefl : BufStep st st := ⟨hi, .refl st, fun _ _ h => h, rfl⟩
  unfold mapTransferBuffer bufLength mappedBuffer
  split
  case h_1 head hmdl =>
    refine From.ite (fun _ => From.pure _ ⟨hrefl, fun h => nomatch h⟩) fun hshort => ?_
    refine (assignMdlBuf_spec hi hnone (.inl rfl)).mono (fun r t ht => ⟨ht.1, fun hr => ?_⟩) fun _ _ h => h
    obtain ⟨hbuf, hm⟩ := ht.2 hr
    rw [hmdl]
    refine ⟨fun hread => ?_, _, _, hbuf, hm, rfl, rfl, rfl, hi.below _ (Nat.le_refl _)⟩
    exact Nat.min_eq_right (Nat.le_of_not_lt fun hlt => hshort ⟨hlt, hread⟩)
  case h_2 head next rest hmdl =>
    refine From.ite (fun _ => From.pure _ ⟨hrefl, fun h => nomatch h⟩) fun _ => ?_
    refine From.ite (fun _ => From.pure _ ⟨hrefl, fun h => nomatch h⟩) fun _ => ?_
    refine (assignMdlBuf_spec hi hnone (.inr (.inl rfl))).mono (fun r t ht => ⟨ht.1, fun hr => ?_⟩) fun _ _ h => h
    obtain ⟨hbuf, hm⟩ := ht.2 hr
    rw [hmdl]
    exact ⟨fun _ => rfl, _, _, hbuf, hm, rfl, rfl, rfl, hi.below _ (Nat.le_refl _)⟩
  case h_3 hmdl =>
    refine From.ite (fun _ => From.pure _ ⟨hrefl, fun h => nomatch h⟩) fun _ => ?_
    refine (assignMdlBuf_spec hi hnone (.inl rfl)).bind fun r t ht => From.ite (fun hlock => ?_) fun hlock => ?_
    · obtain ⟨hbuf, hm⟩ := ht.2 hlock.1
      refine From.get_bind (From.modify_bind (From.modify_bind (From.pure _ ⟨⟨ht.1.inv.releaseBuf, ?_, ?_, ?_⟩, ?_⟩)))
      · have hk := ht.1.keeps
        refine ⟨?_, hk.hdr, hk.request⟩
        conv_lhs => rw [hk.rest]
      · intro q m hq
        have hne : q ≠ st.heap.fresh := by
          have := hi.lt hq
          omega
        rw [hbuf]
        exact (Heap.set_of_ne hne _).trans (ht.1.live q m hq)
      · rw [ht.1.ctx]
      · exact fun h => nomatch h
    · refine From.pure _ ⟨ht.1, fun hr => ?_⟩
      obtain ⟨hbuf, hm⟩ := ht.2 hr
      rw [hmdl]
      exact ⟨fun _ => rfl, _, _, hbuf, hm, rfl, rfl, rfl, hi.below _ (Nat.le_refl _)⟩

theorem makeTransferBufferMdl_spec (hi : Inv st.heap st.ctx) (hnone : st.ctx.mdlBuf = none) {urb : Urb} {a : Nat}
    (ha : a < 2 ^ 31) :
    From st (makeTransferBufferMdl env a .IoWriteAccess urb)
      (fun r t => BufStep st t ∧ (r = .STATUS_SUCCESS → a = 0 ∧ t = st ∨ 0 < a ∧
        ∃ p m, t.ctx.mdlBuf = some p ∧ t.heap.mdl p = some m ∧ m.buffer = mappedBuffer urb ∧ m.next = none ∧
          m.byteCount = bufLength urb a ∧ st.heap.mdl p = none))
      (fun _ _ => False) := by
  have hrefl : BufStep st st := ⟨hi, .refl st, fun _ _ h => h, rfl⟩
  refine From.ite (fun _ => From.pure _ ⟨hrefl, fun h => nomatch h⟩) fun _ => ?_
  have hne : a ≠ URB_BUF_LEN := by
    unfold URB_BUF_LEN
    omega
  rw [if_neg hne]
  refine From.ite (fun hzero => From.pure _ ⟨hrefl, fun _ => .inl ⟨hzero, rfl⟩⟩) fun hpos => ?_
  exact (mapTransferBuffer_spec hi hnone).mono (fun r t ht => ⟨ht.1, fun hr => .inr ⟨by omega, (ht.2 hr).2⟩⟩)
    fun _ _ h => h

end Specs

end Usbip.Wsk

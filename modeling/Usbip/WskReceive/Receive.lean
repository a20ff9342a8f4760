import Usbip.Proto.Theorems
import Usbip.WskReceive.Theorems

namespace Usbip.Wsk

open Usbip.Library.Chain
open Usbip.Library.Hoare
open Usbip.Library.Words

-- How bytes are spread over the buffers of a chain.
def pieces : List (Buffer × Nat) → List Byte → List (Buffer × List Byte)
  | _, [] => []
  | [], _ => []
  | (buffer, n) :: rest, b :: bytes => (buffer, (b :: bytes).take n) :: pieces rest ((b :: bytes).drop n)

@[simp] theorem pieces_nil (bytes : List Byte) : pieces [] bytes = [] := by
  cases bytes <;> rfl

@[simp] theorem pieces_nothing (segments : List (Buffer × Nat)) : pieces segments [] = [] := by
  cases segments <;> rfl

-- How many bytes the buffers of a chain hold.
def total (segments : List (Buffer × Nat)) : Nat := (segments.map Prod.snd).sum

@[simp] theorem total_cons (segment : Buffer × Nat) (rest : List (Buffer × Nat)) :
    total (segment :: rest) = segment.2 + total rest := List.sum_cons

@[simp] theorem total_append (front back : List (Buffer × Nat)) :
    total (front ++ back) = total front + total back := by
  rw [total, List.map_append, List.sum_append, total, total]

theorem pieces_flatten {segments : List (Buffer × Nat)} {bytes : List Byte} (h : bytes.length ≤ total segments) :
    (pieces segments bytes).flatMap Prod.snd = bytes := by
  induction segments generalizing bytes with
  | nil =>
      cases bytes with
      | nil => rfl
      | cons b bytes => simp [total] at h
  | cons segment rest ih =>
      cases bytes with
      | nil => rfl
      | cons b bytes =>
          obtain ⟨buffer, n⟩ := segment
          rw [pieces, List.flatMap_cons, ih]
          · exact List.take_append_drop n (b :: bytes)
          · rw [total_cons] at h
            rw [List.length_drop]
            omega

theorem pieces_append (front back : List (Buffer × Nat)) (bytes : List Byte) :
    pieces (front ++ back) bytes = pieces front bytes ++ pieces back (bytes.drop (total front)) := by
  induction front generalizing bytes with
  | nil => simp [total]
  | cons segment rest ih =>
      cases bytes with
      | nil => simp [pieces]
      | cons b bytes =>
          obtain ⟨buffer, n⟩ := segment
          rw [List.cons_append, pieces, ih, pieces, total_cons, List.drop_drop, List.cons_append]

-- What one piece does to the context.
def deliverTo (ctx : WskContext) (piece : Buffer × List Byte) : WskContext :=
  match piece with
  | (.header, bytes) => { ctx with hdr := Header.ofBytes bytes }
  | (.transferBuffer, bytes) =>
    { ctx with
      request := ctx.request.map fun req =>
        { req with urb := req.urb.map fun urb => { urb with memory := bytes ++ urb.memory.drop bytes.length } } }
  | (.headMapping, bytes) =>
    { ctx with
      request := ctx.request.map fun req =>
        { req with urb := req.urb.map fun urb => { urb with memory := storeAt urb.mapping 0 bytes urb.memory } } }
  | (.isoc, bytes) => { ctx with isoc := ctx.isoc.map fun isoc => bytes ++ isoc.drop bytes.length }
  | (.bufTail, _) => ctx
  | (.payload, _) => ctx

def arrived (s : State) (received : List (Buffer × List Byte)) : State :=
  { s with
    ctx := received.foldl deliverTo s.ctx
    round := { s.round with writes := s.round.writes ++ received } }

theorem arrived_header (s : State) (bytes : List Byte) :
    (arrived s [(.header, bytes)]).ctx.hdr = Header.ofBytes bytes := rfl

-- The array of descriptors has room for what is received.
def Fits (ctx : WskContext) (segment : Buffer × Nat) : Prop :=
  segment.1 = .isoc → ∃ isoc, ctx.isoc = some isoc ∧ segment.2 ≤ isoc.length

theorem Fits.deliverTo {ctx : WskContext} {segment : Buffer × Nat} (h : Fits ctx segment)
    {piece : Buffer × List Byte} (hpiece : Fits ctx (piece.1, piece.2.length)) :
    Fits (deliverTo ctx piece) segment := by
  intro hb
  obtain ⟨isoc, hisoc, hlen⟩ := h hb
  obtain ⟨buffer, bytes⟩ := piece
  cases buffer with
  | isoc =>
      obtain ⟨isoc', hisoc', hlen'⟩ := hpiece rfl
      rw [hisoc] at hisoc'
      cases hisoc'
      refine ⟨bytes ++ isoc.drop bytes.length, by simp [Wsk.deliverTo, hisoc], ?_⟩
      simp only [List.length_append, List.length_drop]
      omega
  | header => exact ⟨isoc, hisoc, hlen⟩
  | transferBuffer => exact ⟨isoc, hisoc, hlen⟩
  | headMapping => exact ⟨isoc, hisoc, hlen⟩
  | bufTail => exact ⟨isoc, hisoc, hlen⟩
  | payload => exact ⟨isoc, hisoc, hlen⟩

theorem pieces_fits {ctx : WskContext} {segments : List (Buffer × Nat)} (h : ∀ segment ∈ segments, Fits ctx segment)
    (bytes : List Byte) : ∀ piece ∈ pieces segments bytes, Fits ctx (piece.1, piece.2.length) := by
  induction segments generalizing bytes with
  | nil => simp
  | cons segment rest ih =>
      cases bytes with
      | nil => simp [pieces]
      | cons b bytes =>
          obtain ⟨buffer, n⟩ := segment
          intro piece hmem
          rw [pieces] at hmem
          obtain rfl | hmem := List.mem_cons.mp hmem
          · intro hb
            obtain ⟨isoc, hisoc, hlen⟩ := h _ List.mem_cons_self hb
            exact ⟨isoc, hisoc, Nat.le_trans (List.length_take_le _ _) hlen⟩
          · exact ih (fun segment hs => h segment (List.mem_cons_of_mem _ hs)) _ piece hmem

-- Received bytes do not change which MDLs and how much memory a context has.
structure SameMemory (ctx ctx' : WskContext) : Prop where
  rest : ctx' = { ctx with request := ctx'.request, hdr := ctx'.hdr, isoc := ctx'.isoc }
  array : (ctx'.isoc.getD []).length = (ctx.isoc.getD []).length

theorem SameMemory.deliverTo {ctx : WskContext} {piece : Buffer × List Byte}
    (h : Fits ctx (piece.1, piece.2.length)) : SameMemory ctx (deliverTo ctx piece) := by
  obtain ⟨buffer, bytes⟩ := piece
  cases buffer with
  | isoc =>
      obtain ⟨isoc, hisoc, hlen⟩ := h rfl
      have hlen : bytes.length ≤ isoc.length := hlen
      refine ⟨rfl, ?_⟩
      simp only [Wsk.deliverTo, hisoc, Option.map_some, Option.getD_some, List.length_append, List.length_drop]
      omega
  | header => exact ⟨rfl, rfl⟩
  | transferBuffer => exact ⟨rfl, rfl⟩
  | headMapping => exact ⟨rfl, rfl⟩
  | bufTail => exact ⟨rfl, rfl⟩
  | payload => exact ⟨rfl, rfl⟩

theorem SameMemory.received {ctx : WskContext} {received : List (Buffer × List Byte)}
    (h : ∀ piece ∈ received, Fits ctx (piece.1, piece.2.length)) :
    SameMemory ctx (received.foldl Wsk.deliverTo ctx) := by
  induction received generalizing ctx with
  | nil => exact ⟨rfl, rfl⟩
  | cons piece rest ih =>
      have hpiece := h piece List.mem_cons_self
      have hfirst := SameMemory.deliverTo hpiece
      have hrest : SameMemory (Wsk.deliverTo ctx piece) (rest.foldl Wsk.deliverTo (Wsk.deliverTo ctx piece)) :=
        ih fun p hp => (h p (List.mem_cons_of_mem _ hp)).deliverTo hpiece
      refine ⟨?_, hrest.array.trans hfirst.array⟩
      rw [List.foldl_cons, hrest.rest, hfirst.rest]

theorem SameMemory.inv {heap : Heap} {ctx ctx' : WskContext} (h : SameMemory ctx ctx') (hi : Inv heap ctx) :
    Inv heap ctx' := by
  refine hi.congr ?_ ?_ ?_ ?_ ?_ h.array
  all_goals rw [h.rest]

section Specs

variable {s : State} {env : Env}

theorem deliver_spec {buffer : Buffer} {bytes : List Byte} (h : Fits s.ctx (buffer, bytes.length)) :
    From s (deliver buffer bytes) (fun _ t => t = arrived s [(buffer, bytes)]) (fun _ _ => False) := by
  refine From.modify_bind ?_
  cases buffer with
  | header => exact From.update rfl
  | transferBuffer => exact From.update rfl
  | headMapping => exact From.update rfl
  | isoc =>
      obtain ⟨isoc, hisoc, hlen⟩ := h rfl
      refine From.get_bind ?_
      dsimp only
      rw [hisoc]
      refine From.ite (fun _ => From.update ?_) fun hshort => absurd hlen hshort
      simp [arrived, deliverTo, hisoc]
  | bufTail => exact From.pure _ rfl
  | payload => exact From.pure _ rfl

theorem scatter_spec {nodes : List Nat} {head last : Option Nat} {bytes : List Byte} {fuel : Nat}
    (hlinked : Linked s.heap.next head nodes last) (htotal : bytes.length ≤ total (segments s.heap nodes))
    (hfuel : bytes = [] ∨ nodes.length ≤ fuel) (hfits : ∀ segment ∈ segments s.heap nodes, Fits s.ctx segment) :
    From s (scatter fuel head bytes) (fun _ t => t = arrived s (pieces (segments s.heap nodes) bytes))
      (fun _ _ => False) := by
  induction nodes generalizing s head bytes fuel with
  | nil =>
      obtain rfl : bytes = [] := List.eq_nil_of_length_eq_zero (by simpa [segments, total] using htotal)
      rw [scatter]
      exact From.pure _ (by simp [segments, arrived])
  | cons p rest ih =>
      cases bytes with
      | nil =>
          rw [scatter]
          exact From.pure _ (by simp [arrived])
      | cons b bytes =>
          have hfuel := hfuel.resolve_left (List.cons_ne_nil b bytes)
          obtain ⟨fuel, rfl⟩ : ∃ k, fuel = k + 1 := ⟨fuel - 1, by simp at hfuel; omega⟩
          obtain ⟨rfl, q, hq, hrest⟩ := hlinked
          obtain ⟨m, hm, rfl⟩ := Option.map_eq_some_iff.mp hq
          have hsegments : segments s.heap (p :: rest) = (m.buffer, m.byteCount) :: segments s.heap rest := by
            simp [segments, hm]
          rw [hsegments] at htotal hfits ⊢
          rw [total_cons] at htotal
          have hfit : Fits s.ctx (m.buffer, ((b :: bytes).take m.byteCount).length) := by
            intro hb
            obtain ⟨isoc, hisoc, hlen⟩ := hfits _ List.mem_cons_self hb
            exact ⟨isoc, hisoc, Nat.le_trans (List.length_take_le _ _) hlen⟩
          refine From.bind (Q := fun n t => t = s ∧ n = m) (From.get_bind ?_) fun n t ht => ?_
          · rw [hm]
            exact From.pure _ ⟨rfl, rfl⟩
          obtain ⟨rfl, rfl⟩ := ht
          refine (deliver_spec hfit).bind fun _ u hu => ?_
          subst hu
          refine (ih (s := arrived t [(n.buffer, (b :: bytes).take n.byteCount)]) hrest ?_
            (.inr (by simpa using hfuel)) fun segment hmem => ?_).mono (fun _ v hv => ?_) fun _ _ h => h
          · change ((b :: bytes).drop n.byteCount).length ≤ total (segments t.heap rest)
            rw [List.length_drop]
            omega
          · exact (hfits segment (List.mem_cons_of_mem _ hmem)).deliverTo hfit
          · rw [hv]
            simp [arrived, pieces]

-- The bytes go to the MDLs of the message, also when the chain does not end with them.
theorem receive_spec {status : NTSTATUS} {nodes : List Nat} {head last : Option Nat} {length : Nat}
    (hlinked : Linked s.heap.next head nodes last) (htotal : length ≤ total (segments s.heap nodes))
    (hfew : nodes.length ≤ 3) (hfresh : 0 < s.heap.fresh)
    (hfits : ∀ segment ∈ segments s.heap nodes, Fits s.ctx segment) :
    From s (receive status head length)
      (fun r t => status.isSuccess = false ∧ r ≠ .STATUS_SUCCESS ∧ t = s ∨
        status.isSuccess = true ∧ (r = .STATUS_SUCCESS ↔ length ≤ s.stream.length) ∧
          t = arrived { s with stream := s.stream.drop length }
            (pieces (segments s.heap nodes) (s.stream.take length)))
      (fun _ _ => False) := by
  refine From.ite (fun hfail => From.pure _ (.inl ⟨hfail, ?_, rfl⟩)) fun hgood => ?_
  · rintro rfl
    cases hfail
  refine From.get_bind (From.modify_bind ?_)
  have hfuel : s.stream.take length = [] ∨
      nodes.length ≤ ((s.stream.take length).length + 1) * (s.heap.fresh + 1) := by
    cases hbytes : s.stream.take length with
    | nil => exact .inl rfl
    | cons b bytes =>
        have hmany : 2 * 2 ≤ ((b :: bytes).length + 1) * (s.heap.fresh + 1) :=
          Nat.mul_le_mul (by simp) (by omega)
        exact .inr (by omega)
  refine (scatter_spec (s := { s with stream := s.stream.drop length }) hlinked ?_ hfuel hfits).bind fun _ t ht =>
    From.pure _ (.inr ⟨by simpa using hgood, ?_, ht⟩)
  · exact Nat.le_trans (List.length_take_le _ _) htotal
  · rw [List.length_take]
    split
    · exact iff_of_true rfl (by omega)
    · exact iff_of_false (by split <;> simp) (by omega)

-- The header at the start of a stream, in the byte order of the host, if the round gets past it.
def nextHeader (env : Env) (stream : List Byte) : Option Header :=
  if env.receiveHeader.isSuccess = true ∧ Header.size ≤ stream.length then
    validateHeader (Header.ofBytes (stream.take Header.size))
  else none

-- What `validate_header` lets through.
structure ValidHeader (hdr : Header) : Prop where
  command : hdr.command = RET_SUBMIT ∨ hdr.command = RET_UNLINK
  packets : hdr.command = RET_SUBMIT → 0 ≤ hdr.numberOfPackets ∧ hdr.numberOfPackets ≤ maxIsoPackets
  direction : hdr.direction = extractDir hdr.seqnum

theorem validateHeader_valid {raw hdr : Header} (h : validateHeader raw = some hdr) : ValidHeader hdr := by
  simp only [validateHeader] at h
  split at h
  · rename_i hcommand
    split at h
    · split at h
      · cases h
        exact ⟨.inl hcommand, fun _ => by simp [Header.numberOfPackets, signed, maxIsoPackets], rfl⟩
      · cases h
    · split at h
      · rename_i hpackets
        split at h
        · cases h
          exact ⟨.inl hcommand, fun _ => of_decide_eq_true hpackets, rfl⟩
        · cases h
      · cases h
  · split at h
    · rename_i hcommand
      split at h
      · cases h
        refine ⟨.inr hcommand, fun hsubmit => ?_, rfl⟩
        rw [show RET_UNLINK = 4 from rfl] at hcommand
        simp [hcommand, RET_SUBMIT] at hsubmit
      · cases h
    · cases h

theorem nextHeader_valid {stream : List Byte} {hdr : Header} (h : nextHeader env stream = some hdr) :
    ValidHeader hdr := by
  unfold nextHeader at h
  split at h
  · exact validateHeader_valid h
  · cases h

-- What `recv_usbip_header` does to a context; the tail and the descriptors stay as they are.
structure HeaderStep (s t : State) : Prop where
  inv : Inv t.heap t.ctx
  ctx : t.ctx = { s.ctx with mdlBuf := none, hdr := t.ctx.hdr }
  round : t.round = { s.round with writes := t.round.writes }
  kept : ∀ q m, s.heap.mdl q = some m → m.buffer = .bufTail ∨ m.buffer = .isoc → t.heap.mdl q = some m

-- Bytes that arrive in the header change nothing else.
theorem HeaderStep.congr {t u : State} (h : HeaderStep s t) (hheap : u.heap = t.heap)
    (hctx : u.ctx = { t.ctx with hdr := u.ctx.hdr }) (hround : u.round = { t.round with writes := u.round.writes }) :
    HeaderStep s u := by
  refine ⟨?_, ?_, ?_, fun q m hq hb => by rw [hheap]; exact h.kept q m hq hb⟩
  · rw [hheap, hctx]
    exact h.inv.congr rfl rfl rfl rfl rfl rfl
  · rw [hctx, h.ctx]
  · rw [hround, h.round]

-- The header has an MDL of its own, which is linked to nothing when the round begins.
theorem resetHeader_spec (hi : Inv s.heap s.ctx) :
    From s resetHeader
      (fun _ t => HeaderStep s t ∧ t.stream = s.stream ∧ t.round = s.round ∧
        Chained t.heap.next (some t.ctx.mdlHdr) [t.ctx.mdlHdr] ∧
        segments t.heap [t.ctx.mdlHdr] = [(.header, Header.size)])
      (fun _ _ => False) := by
  refine From.get_bind (From.modify_bind (From.modify_bind (From.get_bind ?_)))
  have hreleased := hi.releaseBuf
  obtain ⟨m, hm, hb, hc⟩ := hreleased.hdr
  refine (setNext_spec hm none).mono (fun _ t ht => ?_) fun _ _ h => h
  subst ht
  refine ⟨⟨hreleased.setNext hm (by simp [hb]) (by simp [hb]), rfl, rfl, fun q n hq hn => ?_⟩, rfl, rfl, ?_, ?_⟩
  · have hkept : (s.heap.release s.ctx.mdlBuf).mdl q = some n := by
      cases hbuf : s.ctx.mdlBuf with
      | none => exact hq
      | some p =>
          obtain ⟨k, hk, hbk⟩ := hi.buf p hbuf
          refine (Heap.set_of_ne (ne_of_buffer hq hk ?_) _).trans hq
          rcases hn with hn | hn
          · rw [hn]
            exact hbk.ne.2.1.symm
          · rw [hn]
            exact hbk.ne.2.2.symm
    refine (Heap.set_of_ne (ne_of_buffer hkept hm ?_) _).trans hkept
    rcases hn with hn | hn <;> simp [hn, hb]
  · simp [Chained, Linked, Heap.next_eq (Heap.set_self _)]
  · simp [segments, hb, hc]

theorem pieces_one {buffer : Buffer} {n : Nat} {bytes : List Byte} (hne : bytes ≠ []) :
    pieces [(buffer, n)] bytes = [(buffer, bytes.take n)] := by
  cases bytes with
  | nil => exact absurd rfl hne
  | cons b bytes => rw [pieces, pieces_nil]

theorem pieces_single {buffer : Buffer} {n : Nat} {bytes : List Byte} (hne : bytes ≠ []) (hle : bytes.length ≤ n) :
    pieces [(buffer, n)] bytes = [(buffer, bytes)] := by
  rw [pieces_one hne, List.take_of_length_le hle]

theorem recvUsbipHeader_spec (hi : Inv s.heap s.ctx) :
    From s (recvUsbipHeader env)
      (fun r t => HeaderStep s t ∧ (r = .STATUS_SUCCESS ↔ nextHeader env s.stream ≠ none) ∧
        ∀ hdr, nextHeader env s.stream = some hdr → t.ctx.hdr = hdr ∧ t.stream = s.stream.drop Header.size ∧
          t.round.writes = s.round.writes ++ [(.header, s.stream.take Header.size)])
      (fun _ _ => False) := by
  refine (resetHeader_spec hi).bind fun _ t ht => From.get_bind ?_
  obtain ⟨hstep, hstream, hround, hchain, hsegments⟩ := ht
  obtain ⟨_, hlive, _⟩ := hstep.inv.hdr
  have hfresh := hstep.inv.lt hlive
  refine (receive_spec hchain (by rw [hsegments]; simp [total]) (by simp) (by omega) ?_).bind fun err u hu => ?_
  · rw [hsegments]
    intro segment hmem
    rw [List.mem_singleton.mp hmem]
    intro h
    cases h
  rw [hsegments, hstream] at hu
  have hnone : err ≠ .STATUS_SUCCESS → nextHeader env s.stream = none := by
    intro herr
    refine if_neg fun h => ?_
    obtain ⟨hfail, _⟩ | ⟨_, hiff, _⟩ := hu
    · simp [hfail] at h
    · exact herr (hiff.mpr h.2)
  have hstep' : HeaderStep s u := by
    obtain ⟨_, _, rfl⟩ | ⟨_, _, rfl⟩ := hu
    · exact hstep
    · refine hstep.congr rfl ?_ rfl
      obtain hnil | hne := eq_or_ne (s.stream.take Header.size) []
      · rw [hnil]
        rfl
      · rw [pieces_single hne (List.length_take_le _ _)]
        rfl
  refine From.ite (fun herr => From.pure _ ⟨hstep', ?_, ?_⟩) fun herr => From.get_bind ?_
  · exact iff_of_false herr (by simp [hnone herr])
  · intro hdr hhdr
    rw [hnone herr] at hhdr
    cases hhdr
  -- The whole header has arrived.
  have herr := not_not.mp herr
  obtain ⟨_, hfail, _⟩ | ⟨hgood, hiff, rfl⟩ := hu
  · exact absurd herr hfail
  have hlen := hiff.mp herr
  have hne : s.stream.take Header.size ≠ [] := by
    refine List.ne_nil_of_length_pos ?_
    rw [List.length_take]
    unfold Header.size at *
    omega
  rw [pieces_single hne (List.length_take_le _ _)] at hstep' ⊢
  have hnext : nextHeader env s.stream = validateHeader (Header.ofBytes (s.stream.take Header.size)) :=
    if_pos ⟨hgood, hlen⟩
  rw [hnext, arrived_header]
  cases hvalid : validateHeader (Header.ofBytes (s.stream.take Header.size)) with
  | none => exact From.pure _ ⟨hstep', by simp, by simp⟩
  | some hdr =>
      refine From.modify_bind (From.pure _ ⟨hstep'.congr rfl rfl rfl, by simp, fun hdr' h => ?_⟩)
      cases h
      exact ⟨rfl, rfl, by simp [arrived, hround]⟩

-- What handling a reply does: the request and the bytes of the descriptors change, and it is
-- noted what the descriptors were used for.
structure Handles (s t : State) (uses : List IsocUse) : Prop where
  heap : t.heap = s.heap
  stream : t.stream = s.stream
  ctx : t.ctx = { s.ctx with request := t.ctx.request, isoc := t.ctx.isoc }
  array : (t.ctx.isoc.getD []).length = (s.ctx.isoc.getD []).length
  request : t.ctx.request.isSome = s.ctx.request.isSome
  round : t.round = { s.round with uses := s.round.uses ++ uses }

theorem Handles.refl (s : State) : Handles s s [] := ⟨rfl, rfl, rfl, rfl, rfl, by rw [List.append_nil]⟩

theorem Handles.trans {t u : State} {uses uses' : List IsocUse} (h : Handles s t uses) (h' : Handles t u uses') :
    Handles s u (uses ++ uses') := by
  refine ⟨h'.heap.trans h.heap, h'.stream.trans h.stream, ?_, h'.array.trans h.array, h'.request.trans h.request, ?_⟩
  · rw [h'.ctx, h.ctx]
  · rw [h'.round, h.round, List.append_assoc]

def withUrb (s : State) (f : Urb → Urb) : State :=
  { s with ctx := { s.ctx with request := s.ctx.request.map fun req => { req with urb := req.urb.map f } } }

theorem handles_withUrb (s : State) (f : Urb → Urb) : Handles s (withUrb s f) [] :=
  ⟨rfl, rfl, rfl, rfl, by simp [withUrb], by rw [List.append_nil]; rfl⟩

theorem setUrb_bind {α : Type} {f : Urb → Urb} {next : Unit → M α} {Q : α → State → Prop} {E : Fault → State → Prop}
    (h : From (withUrb s f) (next ()) Q E) : From s (setUrb f >>= next) Q E :=
  From.modify_bind h

def useOf (s : State) (cnt : Nat) : IsocUse :=
  { cnt := cnt, isoc := s.ctx.isoc, prepared := s.round.prepared, writes := s.round.writes }

theorem swapIsoc_spec {cnt : Nat} :
    From s (swapIsoc cnt) (fun _ t => Handles s t [useOf s cnt])
      (fun e t => e = .outOfBounds ∧ t.round = { s.round with uses := s.round.uses ++ [useOf s cnt] }) := by
  refine From.get_bind (From.modify_bind ?_)
  dsimp only
  cases hisoc : s.ctx.isoc with
  | none =>
      refine From.ite (fun _ => From.pure _ ⟨rfl, rfl, rfl, rfl, rfl, ?_⟩) fun _ => From.throw _ ⟨rfl, ?_⟩
      · simp [useOf, hisoc]
      · simp [useOf, hisoc]
  | some isoc =>
      refine From.ite (fun _ => From.modify_bind (From.pure _ ⟨rfl, rfl, rfl, ?_, rfl, ?_⟩)) fun _ =>
        From.throw _ ⟨rfl, ?_⟩
      · simp [hisoc, byteswapIsoc_length]
      · simp [useOf, hisoc]
      · simp [useOf, hisoc]

-- The descriptors are used for as many packets as the URB of the request has.
def usesOf (s : State) (urb : Urb) : List IsocUse :=
  if isIsoch urb = true ∧ s.ctx.hdr.numberOfPackets = urb.numberOfPackets.toNat then
    [useOf s s.ctx.hdr.numberOfPackets.toNat]
  else []

theorem setIsochHeader_numberOfPackets (hdr : Header) (urb : Urb) :
    (setIsochHeader hdr urb).numberOfPackets = urb.numberOfPackets := by
  unfold setIsochHeader
  dsimp only
  split_ifs <;> rfl

theorem isochTransfer_spec {sys : Services} {urb : Urb} (hisoch : isIsoch urb = true) :
    From s (isochTransfer sys urb) (fun _ t => Handles s t (usesOf s urb))
      (fun e t => e = .outOfBounds ∧ t.round = { s.round with uses := s.round.uses ++ usesOf s urb }) := by
  refine From.get_bind (From.modify_bind ?_)
  have hset := handles_withUrb s fun _ => setIsochHeader s.ctx.hdr urb
  dsimp only
  rw [setIsochHeader_numberOfPackets]
  refine From.ite (fun hcnt => ?_) fun hcnt => ?_
  · have huses : usesOf s urb = [useOf s s.ctx.hdr.numberOfPackets.toNat] := if_pos ⟨hisoch, hcnt⟩
    rw [huses]
    refine From.bind swapIsoc_spec fun isoc t ht => From.ite (fun _ => From.pure _ (hset.trans ht)) fun _ => ?_
    split
    · exact From.modify_bind (From.pure _ ((hset.trans ht).trans (handles_withUrb t _)))
    · exact From.throw _ ⟨rfl, ht.round⟩
  · have huses : usesOf s urb = [] := if_neg fun h => hcnt h.2
    rw [huses]
    exact From.pure _ hset

theorem postControlTransfer_spec {sys : Services} {urb : Urb} :
    From s (postControlTransfer sys urb)
      (fun _ t => Handles s t [] ∧ ∃ f : List Byte → List Byte,
        t.ctx.request = (withUrb s fun urb => { urb with memory := f urb.memory }).ctx.request)
      (fun e t => e = .outOfBounds ∧ t.round = s.round) := by
  have hsame : ∃ f : List Byte → List Byte,
      s.ctx.request = (withUrb s fun urb => { urb with memory := f urb.memory }).ctx.request :=
    ⟨id, by simp [withUrb]⟩
  refine From.ite (fun _ => From.pure _ ⟨.refl s, hsame⟩) fun _ => ?_
  refine From.ite (fun _ => From.throw _ ⟨rfl, rfl⟩) fun _ => ?_
  refine From.ite (fun _ => From.get_bind ?_) fun _ => From.get_bind (From.ite (fun _ => ?_) fun _ => ?_)
  · split
    · rename_i patched _
      exact From.update ⟨handles_withUrb s _, fun memory => patched ++ memory.drop _, rfl⟩
    · exact From.throw _ ⟨rfl, rfl⟩
  · refine From.modify_bind (From.update ⟨?_, fun memory => memory.set 16 _, rfl⟩)
    obtain ⟨h1, h2, h3, h4, h5, h6⟩ := handles_withUrb s _
    exact ⟨h1, h2, h3, h4, h5, h6⟩
  · exact From.pure _ ⟨.refl s, hsame⟩

theorem completedLength_of_check {transferBufferLength : UInt32} {actualLength : Int}
    (h : check transferBufferLength actualLength = .STATUS_SUCCESS) :
    (completedLength transferBufferLength actualLength).1 = ofSigned actualLength := by
  unfold completedLength
  split
  · assumption
  · exact if_pos h

-- What is left of a URB that is not isochronous. The bytes of a control transfer may be patched.
structure Transferred (sys : Services) (s t : State) (urb left : Urb) : Prop where
  request : t.ctx.request = some { urb := some left }
  same : left = { urb with
    status := left.status, transferBufferLength := left.transferBufferLength, memory := left.memory }
  memory : urb.function ≠ .controlTransfer → left.memory = urb.memory
  failed : sys.retrieveBuffer { urb with status := left.status } ≠ .STATUS_SUCCESS →
    left.transferBufferLength = urb.transferBufferLength
  length : sys.retrieveBuffer { urb with status := left.status } = .STATUS_SUCCESS →
    check urb.transferBufferLength s.ctx.hdr.actualLength = .STATUS_SUCCESS →
    left.transferBufferLength = ofSigned s.ctx.hdr.actualLength

theorem setCompletedLength_spec {sys : Services} {urb urb' : Urb} {st : NTSTATUS}
    (hreq : s.ctx.request = some { urb := some urb })
    (hsame : urb' = { urb with transferBufferLength := urb'.transferBufferLength }) :
    From s (setCompletedLength sys urb' st)
      (fun _ t => Handles s t [] ∧ ∃ memory, t.ctx.request = some { urb := some { urb' with memory := memory } } ∧
        (urb.function ≠ .controlTransfer → memory = urb.memory))
      (fun e t => e = .outOfBounds ∧ t.round = s.round) := by
  refine setUrb_bind ?_
  have hset := handles_withUrb s fun urb => { urb with transferBufferLength := urb'.transferBufferLength }
  have hleft : (withUrb s fun urb => { urb with transferBufferLength := urb'.transferBufferLength }).ctx.request =
      some { urb := some urb' } := by
    rw [hsame]
    simp [withUrb, hreq]
  have hmemory : urb'.memory = urb.memory := by rw [hsame]
  generalize withUrb s _ = u at hset hleft ⊢
  refine From.ite (fun _ => ?_) fun _ => From.pure _ ⟨hset, urb'.memory, hleft, fun _ => hmemory⟩
  refine From.bind (Q := fun _ t => Handles s t [] ∧ ∃ memory,
    t.ctx.request = some { urb := some { urb' with memory := memory } } ∧
      (urb.function ≠ .controlTransfer → memory = urb.memory)) ?_ fun _ t ht => From.pure _ ht
  refine From.ite (fun hcontrol => ?_) fun _ => From.pure _ ⟨hset, urb'.memory, hleft, fun _ => hmemory⟩
  refine postControlTransfer_spec.mono (fun _ t ht => ?_) fun _ t ht => ⟨ht.1, ?_⟩
  · obtain ⟨hpost, f, hf⟩ := ht
    refine ⟨hset.trans hpost, f urb'.memory, ?_, fun h => ?_⟩
    · rw [hf]
      simp [withUrb, hleft]
    · rw [hsame] at hcontrol
      exact absurd hcontrol h
  · rw [ht.2, hset.round, List.append_nil]

theorem retSubmitUrb_spec {sys : Services} {urb : Urb} (hreq : s.ctx.request = some { urb := some urb }) :
    From s (retSubmitUrb sys urb)
      (fun _ t => Handles s t (usesOf s urb) ∧ (isIsoch urb = false → ∃ left, Transferred sys s t urb left))
      (fun e t => e = .outOfBounds ∧ t.round = { s.round with uses := s.round.uses ++ usesOf s urb }) := by
  refine From.get_bind (setUrb_bind ?_)
  generalize (if s.ctx.hdr.status ≠ 0 then toWindowsStatus s.ctx.hdr.status else .SUCCESS) = status
  have hset := handles_withUrb s fun _ => { urb with status := status }
  have hleft : (withUrb s fun _ => { urb with status := status }).ctx.request =
      some { urb := some { urb with status := status } } := by simp [withUrb, hreq]
  have huses : usesOf (withUrb s fun _ => { urb with status := status }) { urb with status := status } =
      usesOf s urb := rfl
  generalize withUrb s _ = u at hset hleft huses ⊢
  refine From.ite (fun hisoch => ?_) fun hisoch => ?_
  · refine (isochTransfer_spec hisoch).mono (fun _ t ht => ⟨?_, fun h => ?_⟩) fun _ t ht => ⟨ht.1, ?_⟩
    · exact huses ▸ hset.trans ht
    · have hsame : isIsoch { urb with status := status } = isIsoch urb := rfl
      rw [hsame, h] at hisoch
      cases hisoch
    · rw [ht.2, huses, hset.round, List.append_nil]
  · have hno : usesOf s urb = [] := if_neg fun h => hisoch h.1
    rw [hno]
    have hfail : sys.retrieveBuffer { urb with status := status } ≠ .STATUS_SUCCESS →
        ∃ left, Transferred sys s u urb left := by
      intro herr
      exact ⟨_, hleft, rfl, fun _ => rfl, fun _ => rfl, fun h => absurd h herr⟩
    refine From.ite (fun herr => From.pure _ ⟨hset, fun _ => hfail (by rw [herr]; simp)⟩) fun _ => ?_
    refine From.ite (fun herr => From.pure _ ⟨hset, fun _ => hfail herr⟩) fun herr => ?_
    refine (setCompletedLength_spec hleft rfl).mono (fun _ t ht => ⟨hset.trans ht.1, fun _ => ?_⟩) fun _ t ht =>
      ⟨ht.1, ?_⟩
    · obtain ⟨_, memory, hrest, hmemory⟩ := ht
      exact ⟨_, hrest, rfl, hmemory, fun h => absurd h herr, fun _ => completedLength_of_check⟩
    · rw [ht.2, hset.round]

theorem retSubmit_spec {sys : Services} {req : UdeRequest} (hreq : s.ctx.request = some req) :
    From s (retSubmit sys)
      (fun _ t => Handles s t ((req.urb.map (usesOf s)).getD []) ∧
        ∀ urb, req.urb = some urb → isIsoch urb = false → ∃ left, Transferred sys s t urb left)
      (fun e t => e = .outOfBounds ∧
        t.round = { s.round with uses := s.round.uses ++ (req.urb.map (usesOf s)).getD [] }) := by
  refine From.get_bind ?_
  dsimp only
  rw [hreq]
  obtain ⟨_ | urb⟩ := req
  · exact From.pure _ ⟨.refl s, fun _ h => nomatch h⟩
  · refine (retSubmitUrb_spec hreq).mono (fun _ t ht => ⟨ht.1, fun urb' h => ?_⟩) fun _ _ h => h
    cases h
    exact ht.2

end Specs

end Usbip.Wsk

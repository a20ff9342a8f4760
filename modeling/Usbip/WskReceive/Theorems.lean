import Usbip.WskContext.Theorems
import Usbip.WskReceive

namespace Usbip.Wsk

open Usbip.Library.Chain
open Usbip.Library.Hoare
open Usbip.Library.Words

section Specs

variable {st : State} {env : Env}

theorem setNext_spec {p : Nat} {m : MDL} (hm : st.heap.mdl p = some m) (next : Option Nat) :
    From st (setNext (some p) next)
      (fun _ t => t = { st with heap := st.heap.set p (some { m with next := next }) }) (fun _ _ => False) := by
  refine From.bind (Q := fun n t => t = st ∧ n = m) (From.get_bind ?_) ?_
  · rw [hm]
    exact From.pure _ ⟨rfl, rfl⟩
  · rintro n t ⟨rfl, rfl⟩
    exact From.update rfl

-- `mdl_buf` for `a` bytes, with the tail chained to it if it is shorter. The MDL of
-- the tail has a null link unless it has been kept from an earlier message.
def BufChain (st t : State) (urb : Urb) (a : Nat) (hasTail : Bool) : Prop :=
  a = 0 ∧ hasTail = false ∧ t.ctx.mdlBuf = none ∨
  0 < a ∧ ∃ b mb, t.ctx.mdlBuf = some b ∧ t.heap.mdl b = some mb ∧ mb.buffer = mappedBuffer urb ∧
    mb.byteCount = bufLength urb a ∧
    (hasTail = false ∧ a ≤ bufLength urb a ∧ mb.next = none ∨
     hasTail = true ∧ bufLength urb a < a ∧
      ∃ p mt, t.ctx.mdlBufTail = some p ∧ t.heap.mdl p = some mt ∧ mt.byteCount = a - bufLength urb a ∧
        mb.next = some p ∧ (mt.next = none ∨ st.ctx.mdlBufTail = some p ∧ st.heap.mdl p = some mt))

structure ChainStep (st t : State) : Prop where
  inv : Inv t.heap t.ctx
  keeps : Keeps st t
  spares : Spares .bufTail st.heap t.heap
  ctx : t.ctx =
    { st.ctx with mdlBuf := t.ctx.mdlBuf, bufTail := t.ctx.bufTail, mdlBufTail := t.ctx.mdlBufTail }

theorem makeBufChain_spec (hi : Inv st.heap st.ctx) (hnone : st.ctx.mdlBuf = none) {urb : Urb} {a : Nat}
    (ha : a < 2 ^ 31) :
    From st (makeBufChain env a urb)
      (fun r t => ChainStep st t ∧ (r.1 = .STATUS_SUCCESS → BufChain st t urb a r.2)) (fun _ _ => False) := by
  refine (makeTransferBufferMdl_spec hi hnone ha).bind fun err t ht => ?_
  obtain ⟨hbuf, hmade⟩ := ht
  have hstep : ChainStep st t := ⟨hbuf.inv, hbuf.keeps, fun q m hq _ => hbuf.live q m hq, by rw [hbuf.ctx]⟩
  refine From.ite (fun herr => From.pure _ ⟨hstep, fun h => absurd h herr⟩) fun herr => From.get_bind ?_
  refine (mdlSize_spec fun p hp => ?_).bind fun len u hu => ?_
  · obtain ⟨m, hm, _⟩ := hbuf.inv.buf p hp
    exact ⟨m, hm⟩
  obtain ⟨rfl, hlen⟩ := hu
  obtain ⟨rfl, rfl⟩ | ⟨hpos, b, mb, hb, hmb, hbuffer, hnext, hcount, hnew⟩ := hmade (not_not.mp herr)
  · refine From.ite (fun _ => From.pure _ ⟨hstep, fun _ => .inl ⟨rfl, rfl, hnone⟩⟩) fun hle => absurd (Nat.zero_le _) hle
  · obtain rfl : len = bufLength urb a := by
      obtain ⟨hnull, _⟩ | ⟨p, m, hp, hm, hc⟩ := hlen
      · rw [hb] at hnull
        cases hnull
      · rw [hb] at hp
        cases hp
        rw [hmb] at hm
        cases hm
        exact hc.symm.trans hcount
    refine From.ite (fun hle => From.pure _ ⟨hstep, fun _ => ?_⟩) fun hgap => ?_
    · exact .inr ⟨hpos, b, mb, hb, hmb, hbuffer, hcount, .inl ⟨rfl, hle, hnext⟩⟩
    refine (allocMdlBufTail_spec hbuf.inv (by omega)).bind fun err' v hv => ?_
    obtain ⟨htail, hready⟩ := hv
    have hstep' : ChainStep st v := by
      refine ⟨htail.inv, hstep.keeps.trans htail.keeps, hstep.spares.trans htail.spares, ?_⟩
      rw [htail.ctx, hstep.ctx]
    refine From.ite (fun herr' => From.pure _ ⟨hstep', fun h => absurd h herr'⟩) fun herr' => From.get_bind ?_
    obtain ⟨p, mt, hp, hmt, hct, hkept⟩ := hready (not_not.mp herr')
    have hmb' : v.heap.mdl b = some mb := htail.spares b mb hmb (by simp [hbuffer])
    have hb' : v.ctx.mdlBuf = some b := by
      rw [htail.ctx]
      exact hb
    dsimp only
    rw [hb', hp]
    refine (setNext_spec hmb' (some p)).bind fun _ w hw => From.pure _ ?_
    subst hw
    have hpb : p ≠ b := by
      obtain ⟨n, hn, hbn, _⟩ := htail.inv.tail p hp
      exact ne_of_buffer hn hmb' (by simp [hbn, hbuffer])
    refine ⟨⟨?_, ?_, ?_, ?_⟩, fun _ => .inr ⟨hpos, b, _, hb', Heap.set_self _, hbuffer, hcount, .inr ⟨rfl, by omega, p,
      mt, hp, (Heap.set_of_ne hpb _).trans hmt, hct, rfl, ?_⟩⟩⟩
    · exact htail.inv.setNext hmb' (fun h => by simp [hbuffer] at h) (fun h => by simp [hbuffer] at h)
    · have hk := hstep'.keeps
      exact ⟨by rw [hk.rest], hk.hdr, hk.request⟩
    · intro q m hq hbq
      have hne : q ≠ b := by
        rintro rfl
        rw [hnew] at hq
        cases hq
      exact (Heap.set_of_ne hne _).trans (hstep'.spares q m hq hbq)
    · exact hstep'.ctx
    · obtain hnull | ⟨hold, hmold⟩ := hkept
      · exact .inl hnull
      · refine .inr ⟨?_, ?_⟩
        · rw [hbuf.ctx] at hold
          exact hold
        · rw [hbuf.ctx] at hold
          obtain ⟨n, hn, _⟩ := hi.tail p hold
          rw [hbuf.live p n hn] at hmold
          rw [hn, hmold]

-- The MDLs of the current message, in the order of the payload.
def owners (ctx : WskContext) (hasTail : Bool) : List Nat :=
  ctx.mdlBuf.toList ++ (if hasTail then ctx.mdlBufTail.toList else []) ++
    (if ctx.isIsoc then ctx.mdlIsoc.toList else [])

-- No link is left from an earlier message.
def Unlinked (s : State) (hasTail : Bool) : Prop :=
  Clean s.heap s.ctx ∧ (hasTail = true → ∀ p m, s.ctx.mdlBufTail = some p → s.heap.mdl p = some m → m.next = none)

-- Only the MDL of the descriptors counts.
theorem Clean.congr {heap heap' : Heap} {ctx : WskContext} {i : Nat} {m : MDL} (h : Clean heap ctx)
    (hisoc : ctx.mdlIsoc = some i) (hm : heap.mdl i = some m) (hm' : heap'.mdl i = some m) : Clean heap' ctx := by
  intro q n hq hn
  rw [hisoc] at hq
  cases hq
  rw [hm'] at hn
  cases hn
  exact h i m hisoc hm

-- The chain leads through the MDLs of the message; what follows them is left over.
structure MdlChain (s u : State) (head : Option Nat) (hasTail : Bool) : Prop where
  rest : u = { s with heap := u.heap }
  inv : Inv u.heap s.ctx
  same : ∀ q m, s.heap.mdl q = some m →
    ∃ m', u.heap.mdl q = some m' ∧ m'.buffer = m.buffer ∧ m'.byteCount = m.byteCount
  chain : ∃ last, Linked u.heap.next head (owners s.ctx hasTail) last ∧
    (Unlinked s hasTail → last = none ∧ Clean u.heap s.ctx)

theorem same_set {heap : Heap} {p : Nat} {m : MDL} (hm : heap.mdl p = some m) (next : Option Nat) (q : Nat) (n : MDL)
    (hn : heap.mdl q = some n) : ∃ n', (heap.set p (some { m with next := next })).mdl q = some n' ∧
      n'.buffer = n.buffer ∧ n'.byteCount = n.byteCount := by
  by_cases hqp : q = p
  · subst hqp
    rw [hm] at hn
    cases hn
    exact ⟨_, Heap.set_self _, rfl, rfl⟩
  · exact ⟨n, (Heap.set_of_ne hqp _).trans hn, rfl, rfl⟩

theorem tail_spec {p last : Nat} (h : lastFrom st.heap.next (st.heap.fresh + 1) p = some last)
    {E : Fault → State → Prop} : From st (tail p) (fun r t => last = r ∧ t = st) E := by
  refine From.get_bind ?_
  dsimp only
  rw [h]
  exact From.pure _ ⟨rfl, rfl⟩

theorem tail_fault {p : Nat} (h : lastFrom st.heap.next (st.heap.fresh + 1) p = none) {E : Fault → State → Prop}
    (hE : E .endlessWalk st) : From st (tail p) (fun _ _ => False) E := by
  refine From.get_bind ?_
  dsimp only
  rw [h]
  exact From.throw _ hE

-- The walk over the transfer buffer and its tail. It does not end in two cases: the tail
-- was left linked to a freed MDL, or to the MDL of the descriptors when that is linked to itself.
theorem lastFrom_bufChain {s : State} {urb : Urb} {a : Nat} {hasTail : Bool} (hi : Inv s.heap s.ctx)
    (hchain : BufChain st s urb a hasTail) {b : Nat} (hb : s.ctx.mdlBuf = some b) {i : Nat} {mi : MDL}
    (hisoc : s.ctx.mdlIsoc = some i) (hmi : s.heap.mdl i = some mi) :
    (∃ mb, hasTail = false ∧ s.heap.mdl b = some mb ∧ mb.buffer = mappedBuffer urb ∧
      lastFrom s.heap.next (s.heap.fresh + 1) b = some b) ∨
    (hasTail = true ∧ ∃ mb p mt, s.heap.mdl b = some mb ∧ mb.buffer = mappedBuffer urb ∧ mb.next = some p ∧
      s.ctx.mdlBufTail = some p ∧ s.heap.mdl p = some mt ∧ mt.buffer = .bufTail ∧
      (mt.next = none ∧ lastFrom s.heap.next (s.heap.fresh + 1) b = some p ∨
       mt.next = some i ∧ mi.next = none ∧ lastFrom s.heap.next (s.heap.fresh + 1) b = some i ∨
       mt.next ≠ none ∧ lastFrom s.heap.next (s.heap.fresh + 1) b = none)) := by
  obtain ⟨_, _, hnone⟩ | ⟨_, b', mb, hb', hmb, hbuffer, _, hlink⟩ := hchain
  · rw [hb] at hnone
    cases hnone
  rw [hb] at hb'
  cases hb'
  have hfresh := hi.lt hmb
  have hnext := Heap.next_eq hmb
  obtain ⟨hno, _, hnull⟩ | ⟨htail, _, p, mt, hp, hmt, _, hlink, _⟩ := hlink
  · refine .inl ⟨mb, hno, hmb, hbuffer, ?_⟩
    rw [lastFrom, hnext, hnull]
  · obtain ⟨mt', hmt', hbt, htarget⟩ := hi.tail p hp
    rw [hmt] at hmt'
    cases hmt'
    have hpnext := Heap.next_eq hmt
    have hpb := ne_of_buffer hmb hmt (by simp [hbuffer, hbt])
    have hplt := hi.lt hmt
    refine .inr ⟨htail, mb, p, mt, hmb, hbuffer, hlink, hp, hmt, hbt, ?_⟩
    -- Two links are followed, or three.
    obtain ⟨k, hk⟩ : ∃ k, s.heap.fresh + 1 = k + 3 := ⟨s.heap.fresh - 2, by omega⟩
    have hwalk : lastFrom s.heap.next (s.heap.fresh + 1) b = lastFrom s.heap.next (k + 2) p := by
      rw [hk, lastFrom, hnext, hlink]
    rw [hwalk]
    cases hq : mt.next with
    | none =>
        refine .inl ⟨rfl, ?_⟩
        rw [lastFrom, hpnext, hq]
    | some q =>
        have hstep : lastFrom s.heap.next (k + 2) p = lastFrom s.heap.next (k + 1) q := by
          rw [lastFrom, hpnext, hq]
        rw [hstep]
        obtain ⟨_, hisoc' | hdead⟩ := htarget q hq
        · rw [hisoc] at hisoc'
          cases hisoc'
          obtain ⟨mi', hmi', _, _, hself⟩ := hi.isoc i hisoc
          rw [hmi] at hmi'
          cases hmi'
          have hinext := Heap.next_eq hmi
          obtain hnull | hself := hself
          · refine .inr (.inl ⟨rfl, hnull, ?_⟩)
            rw [lastFrom, hinext, hnull]
          · refine .inr (.inr ⟨by simp, lastFrom_loop ?_ _⟩)
            rw [hinext, hself]
        · refine .inr (.inr ⟨by simp, ?_⟩)
          rw [lastFrom, Heap.next, hdead]
          rfl

theorem makeMdlChain_spec {s : State} {urb : Urb} {a : Nat} {hasTail : Bool} (hi : Inv s.heap s.ctx)
    (hchain : BufChain st s urb a hasTail)
    (hready : s.ctx.isIsoc = true → ∃ i mi, s.ctx.mdlIsoc = some i ∧ s.heap.mdl i = some mi) :
    From s makeMdlChain (fun head u => MdlChain s u head hasTail)
      (fun e u => e = .endlessWalk ∧ u = s ∧ ¬ Unlinked s hasTail) := by
  refine From.get_bind ?_
  dsimp only
  cases hflag : s.ctx.isIsoc with
  | false =>
      refine From.pure s.ctx.mdlBuf ⟨rfl, hi, fun q m hm => ⟨m, hm, rfl, rfl⟩, ?_⟩
      obtain ⟨_, rfl, hnone⟩ | ⟨_, b, mb, hb, hmb, _, _, hlink⟩ := hchain
      · exact ⟨none, by simp [owners, hflag, hnone, Linked], fun h => ⟨rfl, h.1⟩⟩
      · obtain ⟨rfl, _, hnull⟩ | ⟨rfl, _, p, mt, hp, hmt, _, hlink, _⟩ := hlink
        · refine ⟨none, ?_, fun h => ⟨rfl, h.1⟩⟩
          simp [owners, hflag, hb, Linked, Heap.next_eq hmb, hnull]
        · refine ⟨mt.next, ?_, fun h => ⟨h.2 rfl p mt hp hmt, h.1⟩⟩
          simp [owners, hflag, hb, hp, Linked, Heap.next_eq hmb, Heap.next_eq hmt, hlink]
  | true =>
      obtain ⟨i, mi, hisoc, hmi⟩ := hready hflag
      cases hbuf : s.ctx.mdlBuf with
      | none =>
          refine From.pure s.ctx.mdlIsoc ⟨rfl, hi, fun q m hm => ⟨m, hm, rfl, rfl⟩, mi.next, ?_, fun h =>
            ⟨h.1 i mi hisoc hmi, h.1⟩⟩
          obtain ⟨_, rfl, _⟩ | ⟨_, b, _, hb, _⟩ := hchain
          · simp [owners, hflag, hbuf, hisoc, Linked, Heap.next_eq hmi]
          · rw [hbuf] at hb
            cases hb
      | some b =>
          obtain ⟨mi', hmi', hbi, _⟩ := hi.isoc i hisoc
          rw [hmi] at hmi'
          cases hmi'
          have hlt := hi.lt hmi
          obtain ⟨mb, rfl, hmb, hbb, hlast⟩ | ⟨rfl, mb, p, mt, hmb, hbb, hlink, hp, hmt, hbt, hlast⟩ :=
            lastFrom_bufChain hi hchain hbuf hisoc hmi
          · have hib := ne_of_buffer hmi hmb (by simp [hbi, hbb])
            have hmi' := (Heap.set_of_ne hib (some { mb with next := some i })).trans hmi
            refine (tail_spec hlast).bind fun _ t ht => ?_
            obtain ⟨rfl, rfl⟩ := ht
            refine (setNext_spec hmb _).safe.bind fun _ u hu => From.pure _ ?_
            subst hu
            rw [hisoc]
            refine ⟨rfl, hi.setNext hmb (by simp [hbb]) (by simp [hbb]), same_set hmb _, mi.next, ?_, fun h => ?_⟩
            · simp [owners, hflag, hbuf, hisoc, Linked, Heap.next_eq (Heap.set_self _), Heap.next_eq hmi']
            · exact ⟨h.1 i mi hisoc hmi, h.1.congr hisoc hmi hmi'⟩
          · have hbp := ne_of_buffer hmb hmt (by simp [hbb, hbt])
            have hbi' := ne_of_buffer hmb hmi (by simp [hbb, hbi])
            have hip := ne_of_buffer hmi hmt (by simp [hbi, hbt])
            obtain ⟨hnull, hlast⟩ | ⟨hself, hnull, hlast⟩ | ⟨hstale, hlast⟩ := hlast
            · have hmb' := (Heap.set_of_ne hbp (some { mt with next := some i })).trans hmb
              have hmi' := (Heap.set_of_ne hip (some { mt with next := some i })).trans hmi
              refine (tail_spec hlast).bind fun _ t ht => ?_
              obtain ⟨rfl, rfl⟩ := ht
              refine (setNext_spec hmt _).safe.bind fun _ u hu => From.pure _ ?_
              subst hu
              rw [hisoc]
              refine ⟨rfl, hi.setNext hmt (fun _ q hq => ?_) (by simp [hbt]), same_set hmt _, mi.next, ?_, fun h => ?_⟩
              · cases hq
                exact ⟨hlt, .inl hisoc⟩
              · simp [owners, hflag, hbuf, hp, hisoc, Linked, Heap.next_eq hmb', hlink,
                  Heap.next_eq (Heap.set_self _), Heap.next_eq hmi']
              · exact ⟨h.1 i mi hisoc hmi, h.1.congr hisoc hmi hmi'⟩
            · have hmb' := (Heap.set_of_ne hbi' (some { mi with next := some i })).trans hmb
              have hmt' := (Heap.set_of_ne hip.symm (some { mi with next := some i })).trans hmt
              refine (tail_spec hlast).bind fun _ t ht => ?_
              obtain ⟨rfl, rfl⟩ := ht
              refine (setNext_spec hmi _).safe.bind fun _ u hu => From.pure _ ?_
              subst hu
              rw [hisoc]
              refine ⟨rfl, hi.setNext hmi (by simp [hbi]) (fun _ => .inr rfl), same_set hmi _, some i, ?_, fun h => ?_⟩
              · simp [owners, hflag, hbuf, hp, hisoc, Linked, Heap.next_eq hmb', hlink, Heap.next_eq hmt', hself,
                  Heap.next_eq (Heap.set_self _)]
              · have := h.2 rfl p mt hp hmt
                rw [hself] at this
                cases this
            · refine From.bind (Q := fun _ _ => False) (tail_fault hlast ⟨rfl, rfl, fun h => hstale ?_⟩)
                fun _ _ h => h.elim
              exact h.2 rfl p mt hp hmt

theorem getUrb_spec :
    From st getUrb (fun urb t => t = st ∧ st.ctx.request = some { urb := some urb })
      (fun e t => e = .noUrb ∧ t = st) := by
  refine From.get_bind ?_
  cases hreq : st.ctx.request with
  | none => exact From.throw _ ⟨rfl, rfl⟩
  | some req =>
      obtain ⟨_ | urb⟩ := req
      · exact From.throw _ ⟨rfl, rfl⟩
      · exact From.pure _ ⟨rfl, rfl⟩

-- What is left of the request after `prepare_wsk_mdl` has looked at the lengths.
def lengthened (isIsoc : Bool) (urb : Urb) (actualLength : Int) : Urb :=
  if isIsoc then urb else { urb with transferBufferLength := (assignLength urb.transferBufferLength actualLength).1 }

@[simp] theorem lengthened_mdl (isIsoc : Bool) (urb : Urb) (actualLength : Int) :
    (lengthened isIsoc urb actualLength).transferBufferMdl = urb.transferBufferMdl := by
  cases isIsoc <;> rfl

-- Only the request of the context changes.
def OnlyRequest (st t : State) : Prop := t = { st with ctx := { st.ctx with request := t.ctx.request } }

theorem checkLength_spec {urb : Urb} (hreq : st.ctx.request = some { urb := some urb }) :
    From st (checkLength urb.transferBufferLength)
      (fun r t => OnlyRequest st t ∧
        t.ctx.request = some { urb := some (lengthened st.ctx.isIsoc urb st.ctx.hdr.actualLength) } ∧
        (r = true → check urb.transferBufferLength st.ctx.hdr.actualLength = .STATUS_SUCCESS ∧
          (st.ctx.isIsoc = false → st.ctx.hdr.direction ≠ directionOut ∧ st.ctx.hdr.actualLength ≠ 0)))
      (fun _ _ => False) := by
  refine From.get_bind ?_
  dsimp only
  cases hflag : st.ctx.isIsoc with
  | true => exact From.pure _ ⟨rfl, hreq, fun hr => ⟨(of_decide_eq_true hr).1, fun h => nomatch h⟩⟩
  | false =>
      refine From.modify_bind (From.pure _ ⟨rfl, ?_, fun hr => ?_⟩)
      · simp only [hreq]
        rfl
      · obtain ⟨hcheck, hdir, hlen⟩ := of_decide_eq_true hr
        have hcheck' : check urb.transferBufferLength st.ctx.hdr.actualLength = .STATUS_SUCCESS := hcheck
        refine ⟨hcheck', fun _ => ⟨hdir, fun hzero => hlen ?_⟩⟩
        simp only [assignLength]
        rw [if_pos hcheck', hzero]
        rfl

-- The retained tail, if the message is about to use it again, is not linked to anything.
def FreshTail (heap : Heap) (ctx : WskContext) (urb : Urb) (a : Nat) : Prop :=
  ∀ p m, ctx.mdlBufTail = some p → heap.mdl p = some m → bufLength urb a < a →
    m.byteCount = a - bufLength urb a → m.next = none

theorem freshTail_iff (heap : Heap) (ctx : WskContext) (urb : Urb) (a : Nat) :
    FreshTail heap ctx urb a ↔ (ctx.mdlBufTail.bind heap.mdl).all (fun m =>
      decide (bufLength urb a < a → m.byteCount = a - bufLength urb a → m.next = none)) = true := by
  unfold FreshTail
  cases hp : ctx.mdlBufTail with
  | none => simp
  | some p =>
      constructor
      · intro h
        cases hm : heap.mdl p with
        | none => simp [hm]
        | some m =>
            rw [Option.bind_some, hm, Option.all_some]
            exact decide_eq_true (h p m rfl hm)
      · intro h q m hq hm
        cases hq
        rw [Option.bind_some, hm, Option.all_some] at h
        exact of_decide_eq_true h

instance (heap : Heap) (ctx : WskContext) (urb : Urb) (a : Nat) : Decidable (FreshTail heap ctx urb a) :=
  decidable_of_iff' _ (freshTail_iff heap ctx urb a)

-- The bytes of the transfer buffer in the payload of the reply.
def bufBytes (hdr : Header) : Nat := if hdr.direction = directionOut then 0 else hdr.actualLength.toNat

-- Which buffer each MDL of a chain describes and how many bytes of it.
def segments (heap : Heap) (nodes : List Nat) : List (Buffer × Nat) :=
  nodes.filterMap fun p => (heap.mdl p).map fun m => (m.buffer, m.byteCount)

-- The layout of a payload: the transfer buffer, what does not fit there, the descriptors.
def bufSegments (urb : Urb) (a : Nat) : List (Buffer × Nat) :=
  if a = 0 then []
  else if bufLength urb a < a then [(mappedBuffer urb, bufLength urb a), (.bufTail, a - bufLength urb a)]
  else [(mappedBuffer urb, a)]

def isocSegments (n : Nat) : List (Buffer × Nat) :=
  if n = 0 then [] else [(.isoc, sizeofIsoPacketDescriptor * n)]

theorem bufLength_le (urb : Urb) (a : Nat) : bufLength urb a ≤ a := by
  unfold bufLength
  split
  · exact Nat.min_le_right _ _
  · exact Nat.le_refl _

theorem segments_append (heap : Heap) (front back : List Nat) :
    segments heap (front ++ back) = segments heap front ++ segments heap back :=
  List.filterMap_append

theorem segments_same {heap heap' : Heap} {nodes : List Nat} (hlive : ∀ q ∈ nodes, ∃ m, heap.mdl q = some m)
    (hsame : ∀ q m, heap.mdl q = some m →
      ∃ m', heap'.mdl q = some m' ∧ m'.buffer = m.buffer ∧ m'.byteCount = m.byteCount) :
    segments heap' nodes = segments heap nodes := by
  refine List.filterMap_congr fun q hq => ?_
  obtain ⟨m, hm⟩ := hlive q hq
  obtain ⟨m', hm', hb, hc⟩ := hsame q m hm
  rw [hm, hm', Option.map_some, Option.map_some, hb, hc]

theorem segments_bufChain {s : State} {urb : Urb} {a : Nat} {hasTail : Bool} (hi : Inv s.heap s.ctx)
    (h : BufChain st s urb a hasTail) :
    segments s.heap (s.ctx.mdlBuf.toList ++ if hasTail then s.ctx.mdlBufTail.toList else []) = bufSegments urb a := by
  have hle := bufLength_le urb a
  unfold bufSegments
  obtain ⟨rfl, rfl, hnone⟩ | ⟨hpos, b, mb, hb, hmb, hbuffer, hcount, hlink⟩ := h
  · simp [hnone, segments]
  · have hne : a ≠ 0 := by omega
    obtain ⟨rfl, hfull, _⟩ | ⟨rfl, hgap, p, mt, hp, hmt, hct, _⟩ := hlink
    · have hfull : bufLength urb a = a := by omega
      simp [hb, segments, hmb, hbuffer, hcount, hfull, hne]
    · obtain ⟨mt', hmt', hbt, _⟩ := hi.tail p hp
      rw [hmt] at hmt'
      cases hmt'
      simp [hb, hp, segments, hmb, hmt, hbuffer, hcount, hbt, hct, hne, hgap]

theorem segments_isoc {heap : Heap} {ctx : WskContext} {n : Nat}
    (hready : n ≠ 0 → ∃ p m, ctx.mdlIsoc = some p ∧ heap.mdl p = some m ∧ m.buffer = .isoc ∧
      m.byteCount = sizeofIsoPacketDescriptor * n) (hflag : ctx.isIsoc = (n != 0)) :
    segments heap (if ctx.isIsoc then ctx.mdlIsoc.toList else []) = isocSegments n := by
  by_cases hn : n = 0
  · simp [hflag, hn, segments, isocSegments]
  · obtain ⟨p, m, hp, hm, hb, hc⟩ := hready hn
    simp [hflag, hn, hp, hm, hb, hc, segments, isocSegments]

-- What `prepare_wsk_mdl` has done for a message of `n` packets when it hands out a chain.
structure Prepared (st t : State) (head : Option Nat) (hasTail : Bool) (n : Nat) (urb : Urb) : Prop where
  inv : Inv t.heap t.ctx
  stream : t.stream = st.stream
  round : t.round = { st.round with prepared := some n }
  hdr : t.ctx.hdr = st.ctx.hdr
  request : st.ctx.request = some { urb := some urb }
  left : t.ctx.request = some { urb := some (lengthened (n != 0) urb st.ctx.hdr.actualLength) }
  checked : check urb.transferBufferLength st.ctx.hdr.actualLength = .STATUS_SUCCESS
  isIsoc : t.ctx.isIsoc = (n != 0)
  payload : n = 0 → st.ctx.hdr.direction ≠ directionOut ∧ st.ctx.hdr.actualLength ≠ 0
  alloc : n ≤ t.ctx.isocAllocCnt
  segments : segments t.heap (owners t.ctx hasTail) = bufSegments urb (bufBytes st.ctx.hdr) ++ isocSegments n
  chain : ∃ last, Linked t.heap.next head (owners t.ctx hasTail) last ∧
    (Clean st.heap st.ctx → FreshTail st.heap st.ctx urb (bufBytes st.ctx.hdr) → last = none ∧ Clean t.heap t.ctx)

-- When it does not, or when it does not return at all.
structure Unprepared (st t : State) : Prop where
  inv : Inv t.heap t.ctx
  stream : t.stream = st.stream
  round : t.round = { st.round with prepared := t.round.prepared }
  clean : Clean st.heap st.ctx → Clean t.heap t.ctx
  request : t.ctx.request.isSome = st.ctx.request.isSome

theorem owners_live {s : State} {hasTail : Bool} (hi : Inv s.heap s.ctx) :
    ∀ q ∈ owners s.ctx hasTail, ∃ m, s.heap.mdl q = some m := by
  intro q hq
  simp only [owners, List.mem_append, Option.mem_toList] at hq
  obtain (hq | hq) | hq := hq
  · obtain ⟨m, hm, _⟩ := hi.buf q hq
    exact ⟨m, hm⟩
  · split at hq
    · obtain ⟨m, hm, _⟩ := hi.tail q (Option.mem_toList.mp hq)
      exact ⟨m, hm⟩
    · cases hq
  · split at hq
    · obtain ⟨m, hm, _⟩ := hi.isoc q (Option.mem_toList.mp hq)
      exact ⟨m, hm⟩
    · cases hq

theorem ChainStep.clean {t : State} (h : ChainStep st t) (hi : Inv st.heap st.ctx) (hc : Clean st.heap st.ctx) :
    Clean t.heap t.ctx := by
  intro p m hp hm
  rw [h.ctx] at hp
  obtain ⟨n, hn, hb, _⟩ := hi.isoc p hp
  have hsame := h.spares p n hn (by simp [hb])
  rw [hm] at hsame
  cases hsame
  exact hc p m hp hn

-- A tail that was kept is the one that was there before.
theorem BufChain.unlinked {t : State} {urb : Urb} {a : Nat} {hasTail : Bool} (h : BufChain st t urb a hasTail)
    (hc : Clean t.heap t.ctx) (hfresh : FreshTail st.heap st.ctx urb a) : Unlinked t hasTail := by
  refine ⟨hc, fun htail p m hp hm => ?_⟩
  obtain ⟨_, hno, _⟩ | ⟨_, _, _, _, _, _, _, hlink⟩ := h
  · simp [htail] at hno
  · obtain ⟨hno, _⟩ | ⟨_, hgap, p', mt, hp', hmt, hct, _, hkept⟩ := hlink
    · simp [htail] at hno
    · rw [hp] at hp'
      cases hp'
      rw [hm] at hmt
      cases hmt
      obtain hnull | ⟨hold, hmold⟩ := hkept
      · exact hnull
      · exact hfresh p m hold hmold hgap hct

theorem makeChain_spec {urb : Urb} {n : Nat} (hi : Inv st.heap st.ctx) (hnone : st.ctx.mdlBuf = none)
    (hreq : st.ctx.request = some { urb := some urb }) (hflag : st.ctx.isIsoc = (n != 0))
    (hready : n ≠ 0 → ∃ p m, st.ctx.mdlIsoc = some p ∧ st.heap.mdl p = some m ∧
      m.byteCount = sizeofIsoPacketDescriptor * n) :
    From st (makeChain env)
      (fun r t => Keeps st t ∧ Inv t.heap t.ctx ∧ t.ctx.isIsoc = st.ctx.isIsoc ∧
        t.ctx.isocAllocCnt = st.ctx.isocAllocCnt ∧
        (r.1 ≠ .STATUS_SUCCESS → Clean st.heap st.ctx → Clean t.heap t.ctx) ∧
        (r.1 = .STATUS_SUCCESS →
          segments t.heap (owners t.ctx r.2.2) = bufSegments urb (bufBytes st.ctx.hdr) ++ isocSegments n ∧
          ∃ last, Linked t.heap.next r.2.1 (owners t.ctx r.2.2) last ∧
            (Clean st.heap st.ctx → FreshTail st.heap st.ctx urb (bufBytes st.ctx.hdr) →
              last = none ∧ Clean t.heap t.ctx)))
      (fun e t => e = .endlessWalk ∧ Keeps st t ∧ Inv t.heap t.ctx ∧
        ¬ (Clean st.heap st.ctx ∧ FreshTail st.heap st.ctx urb (bufBytes st.ctx.hdr))) := by
  -- The transfer buffer and the tail first.
  refine From.bind (Q := fun r t => ChainStep st t ∧
    (r.1 = .STATUS_SUCCESS → BufChain st t urb (bufBytes st.ctx.hdr) r.2)) ?_ fun r t ht => ?_
  · refine From.get_bind (From.ite (fun hout => ?_) fun hin => ?_)
    · refine From.pure _ ⟨⟨hi, .refl st, .refl _ _, rfl⟩, fun _ => .inl ⟨if_pos hout, rfl, hnone⟩⟩
    · refine From.bind (Q := fun u t => t = st ∧ u = urb) ?_ fun u t ht => ?_
      · rw [getUrb]
        refine From.get_bind ?_
        rw [hreq]
        exact From.pure _ ⟨rfl, rfl⟩
      · obtain ⟨rfl, rfl⟩ := ht
        have hlt := signed_lt t.ctx.hdr.u1
        have hbytes : bufBytes t.ctx.hdr = t.ctx.hdr.actualLength.toNat := if_neg hin
        rw [hbytes]
        refine (makeBufChain_spec hi hnone ?_).safe
        unfold Header.actualLength
        omega
  obtain ⟨hstep, hbuf⟩ := ht
  obtain ⟨err, hasTail⟩ := r
  have hclean : Clean st.heap st.ctx → Clean t.heap t.ctx := hstep.clean hi
  have hisIsoc : t.ctx.isIsoc = st.ctx.isIsoc := by rw [hstep.ctx]
  have halloc : t.ctx.isocAllocCnt = st.ctx.isocAllocCnt := by rw [hstep.ctx]
  refine From.ite (fun herr => From.pure _ ?_) fun herr => ?_
  · exact ⟨hstep.keeps, hstep.inv, hisIsoc, halloc, fun _ => hclean, fun h => absurd h herr⟩
  have hbuf := hbuf (not_not.mp herr)
  have hready' : n ≠ 0 → ∃ p m, t.ctx.mdlIsoc = some p ∧ t.heap.mdl p = some m ∧ m.buffer = .isoc ∧
      m.byteCount = sizeofIsoPacketDescriptor * n := by
    intro hne
    obtain ⟨p, m, hp, hm, hc⟩ := hready hne
    obtain ⟨m', hm', hb, _⟩ := hi.isoc p hp
    rw [hm] at hm'
    cases hm'
    exact ⟨p, m, by rw [hstep.ctx]; exact hp, hstep.spares p m hm (by simp [hb]), hb, hc⟩
  have hunlinked : Clean st.heap st.ctx → FreshTail st.heap st.ctx urb (bufBytes st.ctx.hdr) →
      Unlinked t hasTail := fun hc hfresh => hbuf.unlinked (hclean hc) hfresh
  have hne : t.ctx.isIsoc = true → n ≠ 0 := fun h => by simpa [hisIsoc, hflag] using h
  refine From.bind ((makeMdlChain_spec hstep.inv hbuf fun h => ?_).mono (fun _ _ h => h) fun e u hu => ?_)
    fun head u hu => From.pure _ ?_
  · obtain ⟨p, m, hp, hm, _⟩ := hready' (hne h)
    exact ⟨p, m, hp, hm⟩
  · obtain ⟨rfl, rfl, hlinked⟩ := hu
    exact ⟨rfl, hstep.keeps, hstep.inv, fun h => hlinked (hunlinked h.1 h.2)⟩
  · have hctx : u.ctx = t.ctx := by rw [hu.rest]
    have hkeeps : Keeps t u := ⟨by rw [hu.rest], by rw [hctx], by rw [hctx]⟩
    have hsegments : segments u.heap (owners t.ctx hasTail) =
        bufSegments urb (bufBytes st.ctx.hdr) ++ isocSegments n := by
      rw [segments_same (owners_live hstep.inv) hu.same, owners, segments_append, segments_bufChain hstep.inv hbuf,
        segments_isoc hready' (hisIsoc.trans hflag)]
    obtain ⟨last, hlinked, hend⟩ := hu.chain
    rw [hctx]
    exact ⟨hstep.keeps.trans hkeeps, hu.inv, hisIsoc, halloc, fun h => absurd rfl h, fun _ => ⟨hsegments, last, hlinked,
      fun hc hf => hend (hunlinked hc hf)⟩⟩

theorem bufLength_lengthened (isIsoc : Bool) (urb : Urb) (actualLength : Int) (a : Nat) :
    bufLength (lengthened isIsoc urb actualLength) a = bufLength urb a := by
  rw [bufLength, lengthened_mdl, bufLength]

theorem mappedBuffer_lengthened (isIsoc : Bool) (urb : Urb) (actualLength : Int) :
    mappedBuffer (lengthened isIsoc urb actualLength) = mappedBuffer urb := by
  rw [mappedBuffer, lengthened_mdl, mappedBuffer]

theorem bufSegments_lengthened (isIsoc : Bool) (urb : Urb) (actualLength : Int) (a : Nat) :
    bufSegments (lengthened isIsoc urb actualLength) a = bufSegments urb a := by
  rw [bufSegments, bufLength_lengthened, mappedBuffer_lengthened, bufSegments]

-- The tail is as it was when the descriptors have been prepared.
theorem IsocStep.freshTail {t : State} {urb : Urb} {a : Nat} (h : IsocStep st t) (hi : Inv st.heap st.ctx)
    (hf : FreshTail st.heap st.ctx urb a) : FreshTail t.heap t.ctx urb a := by
  intro p m hp hm
  rw [h.tail] at hp
  obtain ⟨m', hm', hb, _⟩ := hi.tail p hp
  have hsame := h.spares p m' hm' (by simp [hb])
  rw [hm] at hsame
  cases hsame
  exact hf p m hp hm'

-- The state after the tests of `prepare_wsk_mdl`, before the chain is made.
structure Ready (st u : State) (n : Nat) (urb : Urb) : Prop where
  inv : Inv u.heap u.ctx
  stream : u.stream = st.stream
  round : u.round = { st.round with prepared := some n }
  hdr : u.ctx.hdr = st.ctx.hdr
  request : st.ctx.request = some { urb := some urb }
  left : u.ctx.request = some { urb := some (lengthened (n != 0) urb st.ctx.hdr.actualLength) }
  checked : check urb.transferBufferLength st.ctx.hdr.actualLength = .STATUS_SUCCESS
  isIsoc : u.ctx.isIsoc = (n != 0)
  payload : n = 0 → st.ctx.hdr.direction ≠ directionOut ∧ st.ctx.hdr.actualLength ≠ 0
  buf : u.ctx.mdlBuf = none
  isoc : n ≠ 0 → ∃ p m, u.ctx.mdlIsoc = some p ∧ u.heap.mdl p = some m ∧
    m.byteCount = sizeofIsoPacketDescriptor * n ∧ n ≤ u.ctx.isocAllocCnt
  clean : Clean st.heap st.ctx → Clean u.heap u.ctx
  tail : ∀ a, FreshTail st.heap st.ctx urb a →
    FreshTail u.heap u.ctx (lengthened (n != 0) urb st.ctx.hdr.actualLength) a

theorem Ready.makeChain {u : State} {n : Nat} {urb : Urb} (h : Ready st u n urb) :
    From u (makeChain env)
      (fun r t => (r.1 = .STATUS_SUCCESS → Prepared st t r.2.1 r.2.2 n urb) ∧
        (r.1 ≠ .STATUS_SUCCESS → Unprepared st t))
      (fun e t => t.round = { st.round with prepared := some n } ∧ e = .endlessWalk ∧
        ¬ (Clean st.heap st.ctx ∧ FreshTail st.heap st.ctx urb (bufBytes st.ctx.hdr))) := by
  have hisSome : u.ctx.request.isSome = st.ctx.request.isSome := by
    rw [h.left, h.request]
    rfl
  have hready : n ≠ 0 → ∃ p m, u.ctx.mdlIsoc = some p ∧ u.heap.mdl p = some m ∧
      m.byteCount = sizeofIsoPacketDescriptor * n := by
    intro hn
    obtain ⟨p, m, hp, hm, hc, _⟩ := h.isoc hn
    exact ⟨p, m, hp, hm, hc⟩
  have halloc : n ≤ u.ctx.isocAllocCnt := by
    by_cases hn : n = 0
    · omega
    · obtain ⟨_, _, _, _, _, hle⟩ := h.isoc hn
      exact hle
  refine (makeChain_spec h.inv h.buf h.left h.isIsoc hready).mono (fun r t ht => ?_) fun e t ht => ?_
  · obtain ⟨hk, hinv, hflag, hcnt, hfail, hmade⟩ := ht
    have hround := hk.round.trans h.round
    rw [h.hdr, bufSegments_lengthened] at hmade
    refine ⟨fun hr => ?_, fun hr => ?_⟩
    · obtain ⟨hsegments, last, hlinked, hend⟩ := hmade hr
      exact ⟨hinv, hk.stream.trans h.stream, hround, hk.hdr.trans h.hdr, h.request, hk.request.trans h.left, h.checked,
        hflag.trans h.isIsoc, h.payload, hcnt ▸ halloc, hsegments, last, hlinked,
        fun hc hf => hend (h.clean hc) (h.tail _ hf)⟩
    · exact ⟨hinv, hk.stream.trans h.stream, by rw [hround], fun hc => hfail hr (h.clean hc),
        by rw [hk.request, hisSome]⟩
  · obtain ⟨he, hk, _, hlinked⟩ := ht
    rw [h.hdr] at hlinked
    exact ⟨hk.round.trans h.round, he, fun hf => hlinked ⟨h.clean hf.1, h.tail _ hf.2⟩⟩

theorem prepareWskMdl_spec {sys : Services} {n : Nat} (hi : Inv st.heap st.ctx) (hnone : st.ctx.mdlBuf = none)
    (hpackets : st.ctx.hdr.numberOfPackets.toNat = n) (hn : n ≤ 1024) :
    From st (prepareWskMdl sys env)
      (fun r t => (r.1 = .STATUS_SUCCESS → ∃ urb, Prepared st t r.2.1 r.2.2 n urb) ∧
        (r.1 ≠ .STATUS_SUCCESS → Unprepared st t))
      (fun e t => t.round = { st.round with prepared := some n } ∧
        (e = .noUrb ∨ e = .endlessWalk ∧ ¬ (Clean st.heap st.ctx ∧
          ∀ urb, st.ctx.request = some { urb := some urb } →
            FreshTail st.heap st.ctx urb (bufBytes st.ctx.hdr)))) := by
  refine From.get_bind ?_
  dsimp only
  rw [hpackets]
  refine (prepareIsoc_spec hi hn).safe.bind fun err t ht => ?_
  obtain ⟨hstep, hflag, hready⟩ := ht
  have hk := hstep.keeps
  refine From.ite (fun herr => From.pure _ ⟨fun h => absurd h herr, fun _ => ?_⟩) fun herr => From.modify_bind ?_
  · exact ⟨hstep.inv, hk.stream, by rw [hk.round], hstep.clean, by rw [hk.request]⟩
  -- What has been asked for is known from here on.
  have hround : ({ t with round := { t.round with prepared := some n } } : State).round =
      { st.round with prepared := some n } := by rw [hk.round]
  refine (getUrb_spec.mono (fun _ _ h => h) fun e u hu => ?_).bind fun urb u hu => ?_
  · obtain ⟨rfl, rfl⟩ := hu
    exact ⟨hround, .inl rfl⟩
  obtain ⟨rfl, hreq⟩ := hu
  have hunprepared : Unprepared st { t with round := { t.round with prepared := some n } } :=
    ⟨hstep.inv, hk.stream, hround, hstep.clean, by simp [hk.request]⟩
  refine From.ite (fun hbuffer => From.pure _ ⟨fun h => absurd h hbuffer, fun _ => hunprepared⟩) fun _ => ?_
  refine (checkLength_spec hreq).safe.bind fun passed u hu => ?_
  obtain ⟨honly, hleft, hpassed⟩ := hu
  have hinv : Inv u.heap u.ctx := by
    rw [honly]
    exact hstep.inv.congr rfl rfl rfl rfl rfl rfl
  have hclean : Clean st.heap st.ctx → Clean u.heap u.ctx := by
    rw [honly]
    exact hstep.clean
  have hround' : u.round = { st.round with prepared := some n } := by rw [honly, hk.round]
  have hstream : u.stream = st.stream := by rw [honly, hk.stream]
  rw [show t.ctx.request = st.ctx.request from hk.request] at hreq
  rw [show t.ctx.hdr = st.ctx.hdr from hk.hdr, show t.ctx.isIsoc = _ from hflag] at hleft
  refine From.ite (fun _ => From.pure _ ⟨fun h => (nomatch h), fun _ => ?_⟩) fun hgood => ?_
  · exact ⟨hinv, hstream, by rw [hround'], hclean, by rw [hleft, hreq]; rfl⟩
  obtain ⟨hcheck, hpayload⟩ := hpassed (by simpa using hgood)
  have hall : Ready st u n urb := by
    refine ⟨hinv, hstream, hround', by rw [honly, hk.hdr], hreq, hleft, hk.hdr ▸ hcheck, by rw [honly, hflag],
      fun hzero => ?_, by rw [honly, hstep.buf, hnone], ?_, hclean, fun a hf p m hp hm => ?_⟩
    · rw [← hk.hdr]
      exact hpayload (by simp [hflag, hzero])
    · rw [honly]
      exact hready (not_not.mp herr)
    · rw [bufLength_lengthened]
      rw [honly] at hp hm
      exact hstep.freshTail hi hf p m hp hm
  refine hall.makeChain.mono (fun r v hv => ⟨fun hr => ⟨urb, hv.1 hr⟩, hv.2⟩) fun e v hv => ?_
  obtain ⟨hround, he, hlinked⟩ := hv
  exact ⟨hround, .inr ⟨he, fun h => hlinked ⟨h.1, h.2 urb hreq⟩⟩⟩

end Specs

end Usbip.Wsk

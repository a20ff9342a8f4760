import Usbip.Send.Theorems
import Usbip.WskContext.Arrays

namespace Usbip.Wsk.Arrays

open Usbip.Library.Arena
open Usbip.Library.Hoare
open Usbip.Library.Runs
open Usbip.Library.Simulation

section Simulation

variable {α : Type} {st : State} {env : Env}

def Refines (x : M α) (y : Wsk.M α) (st : State) : Prop := Simulates State.wsk Fault.known x y st

theorem onWsk_refines (x : Wsk.M α) (st : State) : Refines (onWsk x) x st := by
  have hput : ∀ st wsk, State.wsk (State.put st wsk) = wsk := fun _ _ => rfl
  have hwrap : ∀ fault, Fault.known (.wsk fault) = some fault := fun _ => rfl
  exact Simulates.lift hput hwrap x

theorem Refines.freeBlock_bind {p : Option Nat} {f : Unit → M α} {y : Wsk.M α}
    (h : ∀ blocks, Refines (f ()) y { st with blocks := blocks }) : Refines (freeBlock p >>= f) y st := by
  rw [freeBlock, bind_assoc]
  refine Simulates.skip_get ?_
  cases st.blocks.free p with
  | none => exact Simulates.throw_unknown rfl
  | some blocks => exact Simulates.skip_set rfl (h blocks)

theorem growIsoc_refines (n isocLen : Nat) : Refines (growIsoc env n isocLen) (Wsk.growIsoc env n isocLen) st := by
  refine Simulates.get_bind (Simulates.ite (fun _ => Simulates.ite (fun _ => .pure _) fun _ => ?_) fun _ => .pure _)
  refine Simulates.skip_get (Simulates.skip_set rfl (Refines.freeBlock_bind fun blocks => ?_))
  refine Simulates.skip_get (Simulates.skip_set rfl ((onWsk_refines _ _).bind fun _ t => ?_))
  exact Simulates.get_bind ((onWsk_refines _ _).bind fun _ _ => (onWsk_refines _ _).bind fun _ _ => .pure _)

theorem assignMdlIsoc_refines (available : Bool) (isocLen : Nat) :
    Refines (assignMdlIsoc available isocLen) (Wsk.assignMdlIsoc available isocLen) st := by
  simp only [assignMdlIsoc, allocIsocMdl, bind_assoc, pure_bind]
  refine (onWsk_refines _ _).bind fun mdl t => ?_
  refine Simulates.skip_get (Simulates.skip_set rfl (Simulates.get_bind ?_))
  exact (onWsk_refines _ _).bind fun _ _ => (onWsk_refines _ _).bind fun _ _ => .pure _

-- What is known of the MDLs and the other fields is known here too.
theorem prepareIsoc_refines (n : Nat) : Refines (prepareIsoc env n) (Wsk.prepareIsoc env n) st := by
  refine (onWsk_refines _ _).bind fun _ t => Simulates.ite (fun _ => .pure _) fun _ => ?_
  refine Simulates.bind (growIsoc_refines _ _) fun err u => Simulates.ite (fun _ => .pure _) fun _ => ?_
  refine Simulates.get_bind ((onWsk_refines _ _).bind fun k v => Simulates.ite (fun _ => .pure _) fun _ => ?_)
  exact assignMdlIsoc_refines _ _

theorem reuse_refines (n : Nat) : Refines (reuse env n) (Wsk.reuse env n) st :=
  Simulates.get_bind ((onWsk_refines _ _).bind fun _ _ => (onWsk_refines _ _).bind fun _ _ => prepareIsoc_refines n)

end Simulation

-- The MDL of the descriptors describes the array that the context has, and there is no other array.
structure Consistent (st : State) : Prop where
  wsk : Inv st.wsk.heap st.wsk.ctx
  owns : Owns st.blocks st.isoc (sizeofIsoPacketDescriptor * st.wsk.ctx.isocAllocCnt)
  null : st.isoc = none → st.wsk.ctx.isocAllocCnt = 0
  described : ∀ p, st.wsk.ctx.mdlIsoc = some p → st.isoc ≠ none ∧ st.start p = st.isoc

-- No pointer of the context leads to memory that has been freed.
structure NoDangling (st : State) : Prop where
  hdr : ∃ m, st.wsk.heap.mdl st.wsk.ctx.mdlHdr = some m
  buf : ∀ p, st.wsk.ctx.mdlBuf = some p → ∃ m, st.wsk.heap.mdl p = some m
  tail : ∀ p, st.wsk.ctx.mdlBufTail = some p → ∃ m, st.wsk.heap.mdl p = some m
  isocMdl : ∀ p, st.wsk.ctx.mdlIsoc = some p → ∃ m, st.wsk.heap.mdl p = some m
  isoc : ∀ a, st.isoc = some a → ∃ size, st.blocks.size a = some size
  described : ∀ p, st.wsk.ctx.mdlIsoc = some p → ∃ a size, st.start p = some a ∧ st.blocks.size a = some size

theorem Consistent.noDangling {st : State} (h : Consistent st) : NoDangling st := by
  refine ⟨?_, fun p hp => ?_, fun p hp => ?_, fun p hp => ?_, fun a ha => ⟨_, h.owns.live a ha⟩, fun p hp => ?_⟩
  · obtain ⟨m, hm, _⟩ := h.wsk.hdr
    exact ⟨m, hm⟩
  · obtain ⟨m, hm, _⟩ := h.wsk.buf p hp
    exact ⟨m, hm⟩
  · obtain ⟨m, hm, _⟩ := h.wsk.tail p hp
    exact ⟨m, hm⟩
  · obtain ⟨m, hm, _⟩ := h.wsk.isoc p hp
    exact ⟨m, hm⟩
  · obtain ⟨hne, hstart⟩ := h.described p hp
    obtain ⟨a, ha⟩ := Option.ne_none_iff_exists'.mp hne
    exact ⟨a, _, hstart.trans ha, h.owns.live a ha⟩

-- The array and its MDL fit `n` packets.
structure Ready (st : State) (n : Nat) : Prop where
  capacity : n ≤ st.wsk.ctx.isocAllocCnt
  described : ∃ a size p m, st.isoc = some a ∧ st.blocks.size a = some size ∧ sizeofIsoPacketDescriptor * n ≤ size ∧
    st.wsk.ctx.mdlIsoc = some p ∧ st.wsk.heap.mdl p = some m ∧ m.buffer = .isoc ∧
    m.byteCount = sizeofIsoPacketDescriptor * n ∧ st.start p = some a

theorem Consistent.ready {st : State} (h : Consistent st) {n p : Nat} {m : MDL} (hcnt : n ≤ st.wsk.ctx.isocAllocCnt)
    (hp : st.wsk.ctx.mdlIsoc = some p) (hm : st.wsk.heap.mdl p = some m)
    (hsize : m.byteCount = sizeofIsoPacketDescriptor * n) : Ready st n := by
  obtain ⟨hne, hstart⟩ := h.described p hp
  obtain ⟨a, ha⟩ := Option.ne_none_iff_exists'.mp hne
  obtain ⟨k, hk, hb, _⟩ := h.wsk.isoc p hp
  rw [hm] at hk
  cases hk
  exact ⟨hcnt, a, _, p, m, ha, h.owns.live a ha, Nat.mul_le_mul_left _ hcnt, hp, hm, hb, hsize, hstart.trans ha⟩

section Specs

variable {α β : Type} {st : State} (env : Env) {n : Nat}

theorem onWsk_spec {x : Wsk.M α} {Q : α → Wsk.State → Prop} (h : From st.wsk x Q fun _ _ => False) :
    From st (onWsk x) (fun a t => Q a t.wsk ∧ t = st.put t.wsk) fun _ _ => False := by
  rintro s rfl
  have hx := h _ rfl
  unfold onWsk lift
  cases hr : x s.wsk with
  | ok a t =>
      rw [hr] at hx
      exact ⟨hx, rfl⟩
  | error e t =>
      rw [hr] at hx
      exact hx

theorem onWsk_modify_bind {g : Wsk.State → Wsk.State} {f : Unit → M β} {Q : β → State → Prop}
    (h : From (st.put (g st.wsk)) (f ()) Q fun _ _ => False) :
    From st (onWsk (modify g) >>= f) Q fun _ _ => False := by
  rintro s rfl
  exact h _ rfl

theorem set_bind {t : State} {f : Unit → M β} {Q : β → State → Prop} (h : From t (f ()) Q fun _ _ => False) :
    From st (set t >>= f) Q fun _ _ => False := by
  rintro s rfl
  exact h _ rfl

theorem freeBlock_bind {p : Option Nat} {blocks : Blocks} {f : Unit → M β} {Q : β → State → Prop}
    (hfree : st.blocks.free p = some blocks) (h : From { st with blocks := blocks } (f ()) Q fun _ _ => False) :
    From st (freeBlock p >>= f) Q fun _ _ => False := by
  rw [freeBlock, bind_assoc]
  refine From.get_bind ?_
  rw [hfree]
  exact set_bind h

-- The old array goes, and with it the MDL that described it.
theorem growIsoc_spec (h : Consistent st) (hn : n ≤ 1024) :
    From st (growIsoc env n (sizeofIsoPacketDescriptor * n))
      (fun r t => Consistent t ∧ (r = .STATUS_SUCCESS → n ≤ t.wsk.ctx.isocAllocCnt)) fun _ _ => False := by
  refine From.get_bind (From.ite (fun _ => From.ite (fun _ => ?_) fun _ => ?_) fun hfit => ?_)
  · exact From.pure _ ⟨h, fun hr => nomatch hr⟩
  · obtain ⟨blocks, hfree, howns⟩ := h.owns.replace (sizeofIsoPacketDescriptor * n)
    refine From.get_bind (set_bind (freeBlock_bind hfree (From.get_bind (set_bind ?_))))
    refine onWsk_modify_bind (From.get_bind (onWsk_modify_bind (onWsk_modify_bind (From.pure _ ?_))))
    have hlen : (List.replicate (sizeofIsoPacketDescriptor * n) (0 : Byte)).length = _ := List.length_replicate
    exact ⟨⟨h.wsk.releaseIsoc.grow rfl hn hlen, howns, fun hnull => (nomatch hnull), fun _ hp => nomatch hp⟩,
      fun _ => Nat.le_refl n⟩
  · exact From.pure _ ⟨h, fun _ => by omega⟩

theorem assignMdlIsoc_spec (h : Consistent st) {available : Bool} (hpos : 0 < n)
    (hcnt : n ≤ st.wsk.ctx.isocAllocCnt) :
    From st (assignMdlIsoc available (sizeofIsoPacketDescriptor * n))
      (fun r t => Consistent t ∧ (r = .STATUS_SUCCESS → Ready t n)) fun _ _ => False := by
  have hne : st.isoc ≠ none := fun hnull => by
    have hzero := h.null hnull
    omega
  have hold : ∀ p, st.wsk.ctx.mdlIsoc = some p → ∃ m, st.wsk.heap.mdl p = some m ∧ m.buffer = .isoc := by
    intro p hp
    obtain ⟨m, hm, hb, _⟩ := h.wsk.isoc p hp
    exact ⟨m, hm, hb⟩
  simp only [assignMdlIsoc, allocIsocMdl, bind_assoc, pure_bind]
  refine (onWsk_spec allocMdl_spec).bind fun mdl t ht => ?_
  obtain ⟨halloc, hput⟩ := ht
  refine From.get_bind (set_bind (From.get_bind (onWsk_modify_bind (onWsk_modify_bind (From.pure _ ?_)))))
  obtain ⟨rfl, hsame⟩ | ⟨rfl, hnew⟩ := halloc
  · rw [hput, hsame]
    exact ⟨⟨h.wsk.releaseIsoc, h.owns, h.null, fun _ hp => nomatch hp⟩, fun hr => nomatch hr⟩
  · rw [hput, hnew]
    have hself := h.wsk.replace_self hold { byteCount := sizeofIsoPacketDescriptor * n, buffer := .isoc }
    suffices hconsistent : Consistent _ from ⟨hconsistent, fun _ => hconsistent.ready hcnt rfl hself rfl⟩
    exact ⟨(h.wsk.alloc _).releaseIsoc.ownIsoc rfl hself rfl (Nat.mul_le_mul_left _ hcnt) rfl, h.owns, h.null,
      fun p hp => ⟨hne, if_pos hp⟩⟩

theorem prepareIsoc_spec (h : Consistent st) (hn : n ≤ 1024) :
    From st (prepareIsoc env n)
      (fun r t => Consistent t ∧ (r = .STATUS_SUCCESS → 0 < n → Ready t n)) fun _ _ => False := by
  refine onWsk_modify_bind ?_
  have hfirst : Consistent (st.put { st.wsk with ctx := { st.wsk.ctx with isIsoc := n != 0 } }) :=
    ⟨h.wsk.congr rfl rfl rfl rfl rfl rfl, h.owns, h.null, h.described⟩
  refine From.ite (fun hzero => From.pure _ ⟨hfirst, fun _ hpos => by omega⟩) fun hne => ?_
  have hlen : sizeofIsoPacketDescriptor * n % 2 ^ 32 = sizeofIsoPacketDescriptor * n := by
    simp only [sizeofIsoPacketDescriptor]
    omega
  rw [hlen]
  refine (growIsoc_spec env hfirst hn).bind fun err t ht => ?_
  obtain ⟨hgrow, hcnt⟩ := ht
  refine From.ite (fun herr => From.pure _ ⟨hgrow, fun hr => absurd hr herr⟩) fun herr => From.get_bind ?_
  have hcnt := hcnt (not_not.mp herr)
  have hlive : ∀ p, t.wsk.ctx.mdlIsoc = some p → ∃ m, t.wsk.heap.mdl p = some m := hgrow.noDangling.isocMdl
  refine (onWsk_spec (mdlSize_spec hlive)).bind fun k u hu => ?_
  obtain ⟨⟨hsame, hsize⟩, hput⟩ := hu
  obtain rfl : u = t := by rw [hput, hsame, State.put]
  refine From.ite (fun hk => From.pure _ ⟨hgrow, fun _ _ => ?_⟩) fun _ =>
    (assignMdlIsoc_spec hgrow (Nat.pos_of_ne_zero hne) hcnt).mono (fun r v hv => ⟨hv.1, fun hr _ => hv.2 hr⟩)
      fun _ _ hf => hf
  obtain ⟨_, hzero⟩ | ⟨p, m, hp, hm, hc⟩ := hsize
  · simp only [sizeofIsoPacketDescriptor] at hk
    omega
  · exact hgrow.ready hcnt hp hm (hc.trans hk)

theorem reuse_spec (h : Consistent st) (hn : n ≤ 1024) :
    From st (reuse env n)
      (fun r t => Consistent t ∧ (r = .STATUS_SUCCESS → 0 < n → Ready t n)) fun _ _ => False := by
  refine From.get_bind (onWsk_modify_bind (onWsk_modify_bind (prepareIsoc_spec env ?_ hn)))
  exact ⟨h.wsk.releaseBuf.congr rfl rfl rfl rfl rfl rfl, h.owns, h.null, h.described⟩

theorem numberOfPackets_spec (h : Ready st n) :
    From st numberOfPackets (fun k t => k = n ∧ t = st) fun _ _ => False := by
  obtain ⟨_, _, _, p, m, _, _, _, hp, hm, _, hsize, _⟩ := h
  refine From.get_bind ((onWsk_spec (mdlSize_spec fun q hq => ⟨m, ?_⟩)).bind fun k t ht => From.pure _ ?_)
  · rw [hp] at hq
    cases hq
    exact hm
  · obtain ⟨⟨hsame, hk⟩, hput⟩ := ht
    rw [hsame] at hput
    refine ⟨?_, hput⟩
    obtain ⟨hnone, _⟩ | ⟨q, m', hq, hm', hc⟩ := hk
    · rw [hp] at hnone
      cases hnone
    · rw [hp] at hq
      cases hq
      rw [hm] at hm'
      cases hm'
      rw [← hc, hsize, Nat.mul_div_cancel_left n (by decide)]

-- Nothing is freed twice and no array is left behind.
theorem freeFunctionEx_spec (h : Consistent st) :
    From st freeFunctionEx
      (fun _ t => t.isoc = none ∧ (∀ a, t.blocks.size a = none) ∧ t.wsk.ctx.mdlIsoc = none ∧ t.wsk.ctx.mdlBuf = none ∧
        t.wsk.ctx.mdlBufTail = none) fun _ _ => False := by
  obtain ⟨blocks, hfree, howns⟩ := h.owns.free 0
  refine From.get_bind (onWsk_modify_bind (From.get_bind (onWsk_modify_bind (From.get_bind (onWsk_modify_bind
    (From.get_bind (onWsk_modify_bind (onWsk_modify_bind (From.get_bind (freeBlock_bind hfree
      (From.get_bind ?_)))))))))))
  rintro s rfl
  refine ⟨rfl, fun a => ?_, rfl, rfl, rfl⟩
  cases ha : blocks.size a with
  | none => rfl
  | some size => exact absurd (howns.only a size ha) (by simp)

-- What is left of a context that cannot be prepared is freed.
theorem allocWskContext_spec (h : Consistent st) (hn : n ≤ 1024) :
    From st (allocWskContext env n)
      (fun r t => (r = true → Consistent t ∧ (0 < n → Ready t n)) ∧ (r = false → ∀ a, t.blocks.size a = none))
      fun _ _ => False := by
  refine (reuse_spec env h hn).bind fun err t ht => From.ite (fun _ => ?_) fun herr => From.pure _ ?_
  · refine (freeFunctionEx_spec ht.1).bind fun _ u hu => From.pure _ ⟨fun hr => (nomatch hr), fun _ => hu.2.1⟩
  · exact ⟨fun _ => ⟨ht.1, ht.2 (not_not.mp herr)⟩, fun hr => nomatch hr⟩

end Specs

section Runs

variable {st : State}

-- What may be done, to which context.
structure Legal (st : State) (action : Action) : Prop where
  packets : action.numberOfPackets ≤ 1024
  used : ∀ wsk, action = .use wsk → KeepsArray st.wsk wsk

theorem legal_use {wsk : Wsk.State} (h : KeepsArray st.wsk wsk) : Legal st (.use wsk) :=
  ⟨Nat.zero_le _, fun _ heq => by
    cases heq
    exact h⟩

-- A send and the reading of a payload use a context so.
theorem send_legal {env : Send.SendEnv} {dev : Send.DeviceCtx} {transferBuffer : Option Urb} {n : Nat}
    (hf : Send.Filled st.wsk n) :
    From st.wsk (Send.send env dev transferBuffer) (fun _ wsk => Legal st (.use wsk)) fun _ _ => False :=
  (Send.send_spec hf).mono (fun _ _ h => legal_use h.1) fun _ _ h => h

theorem allocMdlBufTail_legal {env : Env} {length : Nat} (h : Consistent st) (hpos : 0 < length) :
    From st.wsk (allocMdlBufTail env length) (fun _ wsk => Legal st (.use wsk)) fun _ _ => False :=
  (Wsk.allocMdlBufTail_spec h.wsk hpos).mono (fun _ _ ht => legal_use ht.1.keepsArray) fun _ _ hf => hf

theorem consistent_newContext : Consistent newContext where
  wsk := by
    refine ⟨fun p hp => ?_, ⟨_, rfl, rfl, rfl⟩, fun _ h => (nomatch h), fun _ h => (nomatch h), fun _ h => (nomatch h),
      by decide, rfl⟩
    have hne : p ≠ 0 := by
      rintro rfl
      exact absurd hp (by decide)
    exact if_neg hne
  owns := .empty _
  null _ := rfl
  described _ h := nomatch h

theorem step_consistent {t : State} {action : Action} (h : Consistent st) (hlegal : Legal st action)
    (hstep : step st action = some t) : Consistent t := by
  cases action with
  | prepare env n =>
      have hspec := prepareIsoc_spec env h hlegal.packets
      rw [step] at hstep
      split at hstep
      · next r u hok =>
          obtain rfl := Option.some.inj hstep
          exact (hspec.ok hok).1
      · cases hstep
  | alloc env n =>
      have hspec := allocWskContext_spec env h hlegal.packets
      rw [step] at hstep
      split at hstep
      · next u hok =>
          obtain rfl := Option.some.inj hstep
          exact ((hspec.ok hok).1 rfl).1
      · cases hstep
      · cases hstep
  | use wsk =>
      obtain rfl := Option.some.inj hstep
      obtain ⟨hinv, hcount, hmdl⟩ := hlegal.used wsk rfl
      refine ⟨hinv, ?_, ?_, ?_⟩
      · change Owns st.blocks st.isoc (sizeofIsoPacketDescriptor * wsk.ctx.isocAllocCnt)
        rw [hcount]
        exact h.owns
      · exact fun hnull => hcount.trans (h.null hnull)
      · exact fun p hp => h.described p (hmdl ▸ hp)

theorem reachable_consistent (h : machine.Reachable Legal st) : Consistent st :=
  h.invariant (fun _ hinit => hinit ▸ consistent_newContext) fun _ _ _ hs hlegal hstep =>
    step_consistent hs hlegal hstep

-- A computation that cannot fail has a result.
theorem exists_ok {α : Type} {x : M α} {Q : α → State → Prop} (h : From st x Q fun _ _ => False) :
    ∃ r t, x st = .ok r t ∧ Q r t := by
  cases hx : x st with
  | ok r t => exact ⟨r, t, rfl, h.ok hx⟩
  | error e t => exact (h.error hx).elim

-- In any run, whatever is allocated and whatever is not.
theorem prepareIsoc_consistent (h : machine.Reachable Legal st) (env : Env) {n : Nat} (hn : n ≤ 1024) :
    ∃ r t, prepareIsoc env n st = .ok r t ∧ NoDangling t ∧
      (r = .STATUS_SUCCESS → 0 < n → Ready t n ∧ numberOfPackets t = .ok n t) := by
  obtain ⟨r, t, hok, hconsistent, hready⟩ := exists_ok (prepareIsoc_spec env (reachable_consistent h) hn)
  refine ⟨r, t, hok, hconsistent.noDangling, fun hr hpos => ⟨hready hr hpos, ?_⟩⟩
  obtain ⟨_, _, hnumber, rfl, rfl⟩ := exists_ok (numberOfPackets_spec (hready hr hpos))
  exact hnumber

-- A context whose first MDL could not be allocated is prepared for fewer packets.
theorem prepareIsoc_consistent_again :
    ∃ st, step newContext (.prepare { isocMdl := false } 3) = some st ∧
      ∃ r t, prepareIsoc {} 2 st = .ok r t ∧ NoDangling t ∧
        (r = .STATUS_SUCCESS → 0 < 2 → Ready t 2 ∧ numberOfPackets t = .ok 2 t) := by
  have hlegal : Legal newContext (.prepare { isocMdl := false } 3) := ⟨by decide, fun _ h => nomatch h⟩
  exact ⟨_, rfl, prepareIsoc_consistent (.step (.init rfl) hlegal rfl) {} (by decide)⟩

end Runs

end Usbip.Wsk.Arrays

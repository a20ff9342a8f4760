import Mathlib.Data.List.Perm.Subperm
import Usbip.WskReceive.Rounds

namespace Usbip.Wsk

open Usbip.Library.Chain
open Usbip.Library.Hoare
open Usbip.Library.Runs
open Usbip.Library.Words

section Reuse

variable {st : State} {env : Env}

theorem reuse_spec (hi : Inv st.heap st.ctx) {n : Nat} (hn : n ≤ 1024) :
    From st (reuse env n)
      (fun _ t => Inv t.heap t.ctx ∧ (Clean st.heap st.ctx → Clean t.heap t.ctx)) (fun _ _ => False) := by
  refine From.get_bind (From.modify_bind (From.modify_bind ?_))
  have hinv : Inv (st.heap.release st.ctx.mdlBuf) { st.ctx with mdlBuf := none, request := none } :=
    hi.releaseBuf.congr rfl rfl rfl rfl rfl rfl
  refine (prepareIsoc_spec hinv hn).mono (fun _ t ht => ⟨ht.1.inv, fun hc => ht.1.clean fun p m hp hm => ?_⟩)
    fun _ _ h => h
  -- The MDL that is released describes a payload, not descriptors.
  obtain ⟨k, hk, hb, _⟩ := hi.isoc p hp
  have hkept : (st.heap.release st.ctx.mdlBuf).mdl p = some k := by
    cases hbuf : st.ctx.mdlBuf with
    | none => exact hk
    | some q =>
        obtain ⟨j, hj, hbj⟩ := hi.buf q hbuf
        refine (Heap.set_of_ne (ne_of_buffer hk hj ?_) _).trans hk
        rw [hb]
        exact hbj.ne.2.2.symm
  rw [hkept] at hm
  cases hm
  exact hc p m hp hk

end Reuse

section Runs

variable {sys : Services}

theorem init_inv {st : State} (h : (machine sys).init st) : Inv st.heap st.ctx ∧ Clean st.heap st.ctx := by
  obtain ⟨dev, stream, rfl⟩ := h
  refine ⟨⟨fun p hp => ?_, ⟨_, rfl, rfl, rfl⟩, fun _ hp => (nomatch hp), fun _ hp => (nomatch hp),
    fun _ hp => (nomatch hp), Nat.zero_le _, rfl⟩, fun _ _ hp => nomatch hp⟩
  have hp : 1 ≤ p := hp
  exact if_neg (by omega)

-- The rounds whose tail is not linked to anything when it is used again.
def Relinks (st : State) : Action → Prop
  | .round env => TailUnlinked env st
  | .reuse _ _ _ _ => True

instance (st : State) : (a : Action) → Decidable (Relinks st a)
  | .round env => inferInstanceAs (Decidable (TailUnlinked env st))
  | .reuse _ _ _ _ => .isTrue trivial

theorem step_inv {st t : State} {a : Action} (hi : Inv st.heap st.ctx) (h : step sys st a = some t) :
    Inv t.heap t.ctx ∧ (Clean st.heap st.ctx → Relinks st a → Clean t.heap t.ctx) := by
  cases a with
  | round env =>
      simp only [step] at h
      split at h
      · split at h
        · rename_i running u hrun
          cases h
          obtain ⟨hinv, hclean, _⟩ := (recvRound_spec hi).ok hrun
          exact ⟨hinv, hclean⟩
        · cases h
      · cases h
  | reuse env n dev stream =>
      simp only [step] at h
      split at h
      · cases h
      · rename_i hn
        split at h
        · rename_i u hrun
          cases h
          unfold maxIsoPackets at hn
          have hi' : Inv ({ st with dev := dev, stream := stream, round := {} } : State).heap
              ({ st with dev := dev, stream := stream, round := {} } : State).ctx := hi
          obtain ⟨hinv, hclean⟩ := (reuse_spec hi' (by omega)).ok hrun
          exact ⟨hinv, fun hc _ => hclean hc⟩
        · cases h

theorem reachable_inv {ok : State → Action → Prop} {st : State} (h : (machine sys).Reachable ok st) :
    Inv st.heap st.ctx :=
  h.invariant (fun _ hs => (init_inv hs).1) fun _ _ _ hi _ hs => (step_inv hi hs).1

theorem reachable_clean {st : State} (h : (machine sys).Reachable Relinks st) : Clean st.heap st.ctx :=
  h.invariant_under (fun _ hs => reachable_inv hs) (fun _ hs => (init_inv hs).2)
    fun _ _ _ hi hc hok hs => (step_inv hi hs).2 hc hok

-- The chain that is given to WskReceive: it ends, all its MDLs are there and are those of the
-- message, and they hold as many bytes as are asked for.
structure WellFormed (handed : Handed) : Prop where
  chain : Chained handed.heap.next handed.mdl (owners handed.ctx handed.hasTail)
  nodup : (owners handed.ctx handed.hasTail).Nodup
  live : ∀ p ∈ owners handed.ctx handed.hasTail, ∃ m, handed.heap.mdl p = some m
  size : total (segments handed.heap (owners handed.ctx handed.hasTail)) = handed.length
  tail : ∀ p, handed.mdl = some p →
    lastFrom handed.heap.next (handed.heap.fresh + 1) p = (owners handed.ctx handed.hasTail).getLast?

theorem prepared_wellFormed {s v : State} {head : Option Nat} {hasTail : Bool} {urb : Urb}
    (h : Prepared s v head hasTail s.ctx.hdr.numberOfPackets.toNat urb) (hf : Fresh s)
    (hlen : getPayloadSize s.ctx.hdr = total (payloadSegments urb s.ctx.hdr)) :
    WellFormed
      { heap := v.heap, ctx := v.ctx, hasTail := hasTail, mdl := head, length := getPayloadSize s.ctx.hdr } := by
  obtain ⟨last, hlinked, hend⟩ := h.chain
  obtain ⟨rfl, _⟩ := hend hf.1 (hf.2 urb h.request)
  have hchain : Chained v.heap.next head (owners v.ctx hasTail) := hlinked
  have hlive : ∀ q ∈ owners v.ctx hasTail, ∃ m, v.heap.mdl q = some m := owners_live h.inv
  refine ⟨hchain, hchain.nodup, hlive, ?_, fun p hp => ?_⟩
  · exact (congrArg total h.segments).trans hlen.symm
  · have hsub : owners v.ctx hasTail ⊆ List.range v.heap.fresh := by
      intro q hq
      obtain ⟨m, hm⟩ := hlive q hq
      exact List.mem_range.mpr (h.inv.lt hm)
    have hfew := (List.subperm_of_subset hchain.nodup hsub).length_le
    rw [List.length_range] at hfew
    have hp : head = some p := hp
    rw [hp] at hchain
    exact lastFrom_eq hchain (Nat.le_succ_of_le hfew)

def after {α : Type} : EStateM.Result Fault State α → State
  | .ok _ t => t
  | .error _ t => t

-- In runs in which every tail that is used again has a null link, the chains of all messages are
-- well-formed, and no walk meets a freed MDL or goes on forever.
theorem recvRound_wellFormed_chain {st : State} (hr : (machine sys).Reachable Relinks st) {env : Env}
    (hrelinks : Relinks st (.round env)) :
    (∀ handed, (after (recvRound sys env st)).round.handed = some handed → WellFormed handed) ∧
      ∀ e t, recvRound sys env st = .error e t → e ≠ .freedMdl ∧ e ≠ .endlessWalk := by
  have hi := reachable_inv hr
  have hc := reachable_clean hr
  -- A chain that was handed over is the one that was prepared for the reply.
  have hhanded : ∀ u hdr t, Started env st u hdr → Observed (withRequest env u) t →
      ∀ handed, t.round.handed = some handed → WellFormed handed := by
    intro u hdr t hstart hobserved handed heq
    have hnone : (withRequest env u).round.handed = none := by
      rw [withRequest, hstart.step.round]
    obtain hsame | ⟨v, head, hasTail, urb, hprep, hnew⟩ := hobserved.handed
    · rw [hsame, hnone] at heq
      cases heq
    · rw [hnew] at heq
      cases heq
      have hvalid : ValidHeader (withRequest env u).ctx.hdr := hstart.hdr ▸ nextHeader_valid hstart.next
      have hreq : (withRequest env u).ctx.request ≠ none := by simp [hprep.request]
      have hsubmit := withRequest_submit hreq
      exact prepared_wellFormed hprep (hstart.fresh hi hc hrelinks) (prepared_length hprep hvalid hsubmit)
  cases hrun : recvRound sys env st with
  | ok go t =>
      refine ⟨?_, fun _ _ h => nomatch h⟩
      obtain ⟨_, _, ⟨_, _, _, hnone⟩ | ⟨u, hdr, hstart, hobserved, _⟩⟩ := (recvRound_spec hi).ok hrun
      · intro handed heq
        rw [after, hnone] at heq
        cases heq
      · exact hhanded u hdr t hstart hobserved
  | error e t =>
      obtain ⟨u, hdr, hstart, hobserved, he⟩ := (recvRound_spec hi).error hrun
      refine ⟨hhanded u hdr t hstart hobserved, fun e' t' h => ?_⟩
      cases h
      obtain rfl | rfl | ⟨rfl, hnot⟩ := he
      · exact ⟨nofun, nofun⟩
      · exact ⟨nofun, nofun⟩
      · exact absurd ⟨hc, hrelinks⟩ hnot

end Runs

-- An isochronous reply whose transfer buffer needs a tail of four bytes.
def sampleReply : List Byte :=
  replyBytes (sampleHeader 8 1) ([1, 2, 3, 4, 5, 6, 7, 8] ++ [0, 0, 0, 0, 0, 0, 0, 8, 0, 0, 0, 8, 0, 0, 0, 0])

-- A second reply with a shorter tail gets a new MDL for it.
theorem recvRound_wellFormed_chain_new_tail :
    ∃ st handed, (after (recvRound sampleServices sampleEnv st)).round.handed = some handed ∧ handed.length = 22 ∧
      WellFormed handed := by
  have hrun : ((machine sampleServices).run Relinks
      (sampleContext (sampleReply ++ replyBytes (sampleHeader 6 1) (List.replicate 22 0))) [.round sampleEnv]).any
        (fun st => decide (Relinks st (.round sampleEnv)) &&
          (after (recvRound sampleServices sampleEnv st)).round.handed.any
            fun handed => handed.length == 22) = true := by
    decide +kernel
  obtain ⟨st, hr, hsecond⟩ := (sampleContext_reachable _ _).exists_run hrun
  obtain ⟨hrelinks, hsome⟩ := Bool.and_eq_true_iff.mp hsecond
  obtain ⟨handed, hhanded, hlen⟩ := (Option.any_eq_true _ _).mp hsome
  have hchain := (recvRound_wellFormed_chain hr (of_decide_eq_true hrelinks)).1 handed hhanded
  exact ⟨st, handed, hhanded, by simpa using hlen, hchain⟩

-- The chain of a second one with the same tail: its transfer buffer, the tail and the descriptors, linked to themselves.
def sampleLoop (handed : Handed) : Bool :=
  decide (handed.mdl = some 4 ∧ handed.heap.next 4 = some (some 3) ∧ handed.heap.next 3 = some (some 1) ∧
    handed.heap.next 1 = some (some 1))

theorem recvRound_cyclic_chain :
    ∃ st handed, (machine sampleServices).Reachable (fun _ _ => True) st ∧
      (after (recvRound sampleServices sampleEnv st)).round.handed = some handed ∧
      ∀ nodes, ¬ Chained handed.heap.next handed.mdl nodes := by
  have hrun : ((machine sampleServices).run (fun _ _ => True) (sampleContext (sampleReply ++ sampleReply))
      [.round sampleEnv]).any (fun st =>
        (after (recvRound sampleServices sampleEnv st)).round.handed.any sampleLoop) = true := by
    decide +kernel
  obtain ⟨st, hr, hloop⟩ := (sampleContext_reachable _ _).exists_run hrun
  obtain ⟨handed, hhanded, hlinks⟩ := (Option.any_eq_true _ _).mp hloop
  obtain ⟨hmdl, h4, h3, h1⟩ := of_decide_eq_true hlinks
  refine ⟨st, handed, hr, hhanded, fun nodes => ?_⟩
  rw [hmdl]
  exact not_chained_of_loop (show Linked _ (some 4) [4, 3] (some 1) from ⟨rfl, _, h4, rfl, _, h3, rfl⟩) h1

end Usbip.Wsk

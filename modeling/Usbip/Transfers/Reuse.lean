import Usbip.Transfers.Frame

namespace Usbip.Device

open Usbip.Library.Pool
open Usbip.Library.Runs

-- The transfer whose `send_complete` takes the step, if it is one of its steps.
def Action.ofSendComplete : Action → Option Seqnum
  | .sendComplete _ s _ => some s
  | .unlink (.sendComplete s) _ _ => some s
  | .sendUnlink (.sendComplete s) _ _ => some s
  | .complete (.sendComplete s) _ => some s
  | _ => none

-- The step took the entry out of the list, marked it or completed its request.
def Touched (st st' : State) (r : Handle) : Prop :=
  (r ∈ st.dev.entries ∧ r ∉ st'.dev.entries) ∨
    (st'.dev.request r).cancelable ≠ (st.dev.request r).cancelable ∨
    (st'.dev.request r).cancellation ≠ (st.dev.request r).cancellation ∨
    (st'.dev.request r).completed ≠ (st.dev.request r).completed

def OwnTransferOnly (st : State) (a : Action) (st' : State) : Prop :=
  ∀ s, a.ofSendComplete = some s → ∀ r, Touched st st' r → (st.dev.request r).seqnum = s

-- `send_complete` of transfer `s` has this request to complete.
def Task.HeldBySendComplete (s : Seqnum) (r : Handle) (t : Task) : Prop :=
  t = .unlink (.sendComplete s) r ∨ (∃ n, t = .sendUnlink (.sendComplete s) r n) ∨
    t = .complete (.sendComplete s) r

theorem Task.HeldBySendComplete.owns {s : Seqnum} {r : Handle} {t : Task} (h : t.HeldBySendComplete s r) :
    t.owns r = true := by
  rcases h with rfl | ⟨n, rfl⟩ | rfl <;> simp [Task.owns]

def HoldsOwn (st : State) : Prop :=
  ∀ s r, ∀ t ∈ st.tasks, t.HeldBySendComplete s r → (st.dev.request r).seqnum = s

-- What `send_complete` takes over is the entry of its own transfer.
theorem Inv.takes_own {st : State} (hi : Inv st) {r : Handle} {s : Seqnum} {success : Bool}
    (ht : .sent r s ∈ st.tasks) (hsame : SameTransfer st (.sendComplete r s success))
    (hnew : spawned st (.sendComplete r s success) ≠ []) : (st.dev.request r).seqnum = s := by
  cases success with
  | true =>
      rcases markRequestCancelable_cases st.dev s with ⟨he, _⟩ | ⟨h, _, _, _, he⟩ | ⟨h, hm, hs, _, _⟩
      · simp [spawned, he] at hnew
      · simp [spawned, he] at hnew
      · obtain ⟨rfl, _⟩ := hi.own_entry ht hm hs
        exact hs
  | false =>
      by_cases hm : r ∈ st.dev.entries
      · exact hsame hm
      · simp [spawned, hm] at hnew

theorem HoldsOwn.step {st st' : State} {a : Action} (hi : Inv st) (ho : HoldsOwn st)
    (hsame : SameTransfer st a) (hstep : Device.step st a = some st') : HoldsOwn st' := by
  intro s r t ht hheld
  rcases step_tasks hstep ht with hnew | hold
  · cases step_cases hstep with
    | sendComplete h n success hmem =>
        have hseq := hi.takes_own hmem hsame (List.ne_nil_of_mem hnew)
        obtain ⟨rfl, rfl⟩ : h = r ∧ n = s := by
          cases success <;> simp only [spawned] at hnew <;> split_ifs at hnew <;>
            simp_all [Task.HeldBySendComplete]
        rw [(step_sameDelivery hstep (by simp) h).seqnum, hseq]
    | unlink thread h skip hmem =>
        obtain ⟨rfl, rfl⟩ : thread = .sendComplete s ∧ h = r := by
          cases skip <;> simp_all [spawned, Task.HeldBySendComplete]
        rw [hi.owned_seqnum hstep hmem (by simp [Task.owns])]
        exact ho s h _ hmem (.inl rfl)
    | sendUnlink thread h n hmem =>
        obtain ⟨rfl, rfl⟩ : thread = .sendComplete s ∧ h = r := by
          simp_all [spawned, Task.HeldBySendComplete]
        rw [hi.owned_seqnum hstep hmem (by simp [Task.owns])]
        exact ho s h _ hmem (.inr (.inl ⟨n, rfl⟩))
    | draw | submit | cancelRequest | endpointPurge => simp_all [spawned, Task.HeldBySendComplete]
    | wskSend h n _ =>
        rw [spawned, List.mem_singleton] at hnew
        split_ifs at hnew <;> simp_all [Task.HeldBySendComplete]
    | drop | close => simp [spawned] at hnew
    | receive n _ =>
        rw [spawned, Option.mem_toList, Option.map_eq_some_iff] at hnew
        obtain ⟨x, _, rfl⟩ := hnew
        simp [Task.HeldBySendComplete] at hheld
    | purgeNext e _ =>
        rw [spawned, Option.mem_toList, Option.map_eq_some_iff] at hnew
        obtain ⟨x, _, rfl⟩ := hnew
        simp [Task.HeldBySendComplete] at hheld
    | cancel h _ =>
        simp only [spawned] at hnew
        split_ifs at hnew <;> simp_all [Task.HeldBySendComplete]
    | complete thread h _ => cases thread <;> simp_all [spawned, Thread.resume, Task.HeldBySendComplete]
  · rw [hi.owned_seqnum hstep hold hheld.owns]
    exact ho s r t hold hheld

theorem reachable_holdsOwn {st : State} (h : machine.Reachable KeepsApart st) : HoldsOwn st := by
  refine h.invariant_under (I := Inv) (fun _ => reachable_inv) ?_ fun s a t hi ho hok hstep =>
    ho.step hi hok.1 hstep
  rintro s ⟨counter, rfl⟩ n r t ht
  simp at ht

theorem not_touched_of_dev_eq {st st' : State} (h : st'.dev = st.dev) (r : Handle) : ¬Touched st st' r := by
  simp [Touched, h]

-- Only the request that was set can be marked or completed by the step.
theorem touched_of_set {st st' : State} {r h : Handle} {req : Request} (hdev : st'.dev = st.dev.set r req)
    (ht : Touched st st' h) : h = r := by
  by_contra hne
  rw [Touched, hdev, RequestList.set_request_ne _ _ hne] at ht
  simp at ht

theorem touched_of_erase {st st' : State} {r h : Handle}
    (hdev : st'.dev = { st.dev with entries := st.dev.entries.erase r }) (ht : Touched st st' h) :
    h = r ∧ r ∈ st.dev.entries := by
  rw [Touched, hdev] at ht
  simp only [ne_eq, not_true_eq_false, or_false] at ht
  have heq : h = r := by
    by_contra hne
    exact ht.2 ((List.mem_erase_of_ne hne).mpr ht.1)
  exact ⟨heq, heq ▸ ht.1⟩

theorem ownTransferOnly_sendSucceeded {st : State} {r : Handle} {s : Seqnum} :
    OwnTransferOnly st (.sendComplete r s true) (sendCompleted st r s true) := by
  intro n hn h htouch
  obtain rfl : s = n := by simpa [Action.ofSendComplete] using hn
  simp only [sendCompleted, if_true] at htouch
  rcases markRequestCancelable_cases st.dev s with ⟨he, _⟩ | ⟨x, _, hs, _, he⟩ | ⟨x, _, hs, _, he⟩
  · exact absurd htouch (not_touched_of_dev_eq (by rw [he]) h)
  · rw [touched_of_set (by rw [he]) htouch]
    exact hs
  · rw [(touched_of_erase (by rw [he]) htouch).1]
    exact hs

theorem ownTransferOnly_sendFailed_iff {st : State} {r : Handle} {s : Seqnum} (hnodup : st.dev.entries.Nodup) :
    OwnTransferOnly st (.sendComplete r s false) (sendCompleted st r s false) ↔
      SameTransfer st (.sendComplete r s false) := by
  have hdev : (sendCompleted st r s false).dev = { st.dev with entries := st.dev.entries.erase r } := by
    simp [sendCompleted, removeRequest_request]
  constructor
  · intro hown hm
    refine hown s rfl r (.inl ⟨hm, ?_⟩)
    rw [hdev]
    exact hnodup.not_mem_erase
  · intro hsame n hn h htouch
    obtain rfl : s = n := by simpa [Action.ofSendComplete] using hn
    obtain ⟨rfl, hm⟩ := touched_of_erase hdev htouch
    exact hsame hm

-- In every run whose transfers have numbers of their own and whose failing send completions do not
-- meet a recycled handle, `send_complete` keeps to its own transfer; a step that does not meet the
-- latter breaks it.
theorem sendComplete_ownTransfer_iff (st : State) (h : machine.Reachable KeepsApart st) (a : Action)
    (st' : State) (hstep : machine.step st a = some st') :
    OwnTransferOnly st a st' ↔ SameTransfer st a := by
  have hi := reachable_inv h
  have hown := reachable_holdsOwn h
  have hno : a.ofSendComplete = none → OwnTransferOnly st a st' := by
    intro hnone s hs
    rw [hnone] at hs
    cases hs
  cases step_cases hstep with
  | sendComplete r s success _ =>
      cases success with
      | true => exact iff_of_true ownTransferOnly_sendSucceeded trivial
      | false => exact ownTransferOnly_sendFailed_iff hi.nodup
  | unlink thread r skip _ =>
      have hdev := unlinking_dev st thread r skip
      exact iff_of_true (fun s _ h htouch => absurd htouch (not_touched_of_dev_eq hdev h)) trivial
  | sendUnlink thread r n _ =>
      exact iff_of_true (fun s _ h htouch => absurd htouch (not_touched_of_dev_eq rfl h)) trivial
  | complete thread r ht =>
      refine iff_of_true (fun s hs h htouch => ?_) trivial
      obtain rfl := touched_of_set rfl htouch
      cases thread <;> simp only [Action.ofSendComplete, Option.some_inj, reduceCtorEq] at hs
      subst hs
      exact hown _ h _ ht (.inr (.inr rfl))
  | draw => exact iff_of_true (hno rfl) trivial
  | drop => exact iff_of_true (hno rfl) trivial
  | submit => exact iff_of_true (hno rfl) trivial
  | wskSend => exact iff_of_true (hno rfl) trivial
  | receive => exact iff_of_true (hno rfl) trivial
  | cancel => exact iff_of_true (hno rfl) trivial
  | cancelRequest => exact iff_of_true (hno rfl) trivial
  | endpointPurge => exact iff_of_true (hno rfl) trivial
  | purgeNext => exact iff_of_true (hno rfl) trivial
  | close => exact iff_of_true (hno rfl) trivial

-- Request 7 is purged while its send is still with WSK, comes back for a second transfer, and
-- then the connection dies.
def recycledSchedule : List Action :=
  [.draw false, .submit 7 1 2, .wskSend 7 2, .endpointPurge 1, .purgeNext 1, .unlink (.endpointPurge 1) 7 false,
    .sendUnlink (.endpointPurge 1) 7 2, .complete (.endpointPurge 1) 7, .purgeNext 1,
    .draw false, .submit 7 1 6, .wskSend 7 6]

theorem recycled_state :
    ∃ st, machine.run KeepsApart {} recycledSchedule = some st ∧ st.dev.entries = [7] ∧
      (st.dev.request 7).seqnum = 6 ∧ .sent 7 2 ∈ st.tasks ∧ .sent 7 6 ∈ st.tasks := by
  have hrun : (machine.run KeepsApart {} recycledSchedule).map
      (fun st => (st.dev.entries, (st.dev.request 7).seqnum, st.tasks)) =
        some ([7], 6, [.sent 7 6, .sent 7 2]) := by decide +kernel
  obtain ⟨st, hst, he⟩ := Option.map_eq_some_iff.mp hrun
  simp only [Prod.mk.injEq] at he
  exact ⟨st, hst, he.1, he.2.1, by simp [he.2.2], by simp [he.2.2]⟩

theorem reachable_start {ok : State → Action → Prop} : machine.Reachable ok {} :=
  .init ⟨0, rfl⟩

theorem sendComplete_recycled_handle :
    ¬∀ st, machine.Reachable FreshSeqnum st → ∀ a st', machine.step st a = some st' →
      OwnTransferOnly st a st' := by
  intro hall
  obtain ⟨st, hrun, hent, hseq, hsent, _⟩ := recycled_state
  have hreach := (reachable_start.run hrun).mono fun _ _ hok => hok.2
  have hstep : machine.step st (.sendComplete 7 2 false) = some (sendCompleted st 7 2 false) := if_pos hsent
  have hown := hall st hreach _ _ hstep
  have hsame := (ownTransferOnly_sendFailed_iff (by simp [hent])).mp hown
  have : (st.dev.request 7).seqnum = 2 := hsame (by simp [hent])
  rw [hseq] at this
  exact absurd this (by decide)

-- The send completion of the second transfer keeps to that transfer.
theorem sendComplete_ownTransfer_iff_recycled :
    ∃ st st', machine.Reachable KeepsApart st ∧
      machine.step st (.sendComplete 7 6 true) = some st' ∧ (st.dev.request 7).seqnum = 6 ∧
      (OwnTransferOnly st (.sendComplete 7 6 true) st' ↔ SameTransfer st (.sendComplete 7 6 true)) := by
  obtain ⟨st, hrun, _, hseq, _, hsent⟩ := recycled_state
  have hreach := reachable_start.run hrun
  have hstep : machine.step st (.sendComplete 7 6 true) = some (sendCompleted st 7 6 true) := if_pos hsent
  exact ⟨st, _, hreach, hstep, hseq, sendComplete_ownTransfer_iff st hreach _ _ hstep⟩

end Usbip.Device

import Usbip.Transfers.Window

namespace Usbip.Device

open Usbip.Library.Pool
open Usbip.Library.Runs
open Usbip.Device.Seqnums (NUMBERS following toNat_succ shift_eq_zero extractNum_nextSeqnum nextSeqnum_of_handedOut)

-- Every submission brings a request that the driver has not seen before.
def NotReused (st : State) : Action → Prop
  | .submit r _ _ => (st.dev.request r).deliveries = 0
  | _ => True

instance (st : State) (a : Action) : Decidable (NotReused st a) :=
  match a with
  | .submit r _ _ => inferInstanceAs (Decidable ((st.dev.request r).deliveries = 0))
  | .draw _ | .drop _ | .sendComplete .. | .wskSend .. | .receive _ | .cancel _ | .cancelRequest _
  | .endpointPurge _ | .purgeNext _ | .unlink .. | .sendUnlink .. | .complete .. | .close => isTrue trivial

-- A context is about the one transfer its request was delivered for.
def Matched (st : State) : Prop :=
  ∀ r s, ∀ t ∈ st.tasks, t.IsContext r s → (st.dev.request r).deliveries ≠ 0 ∧ (st.dev.request r).seqnum = s

theorem Matched.step {st st' : State} {a : Action} (hm : Matched st) (hnew : NotReused st a)
    (hstep : step st a = some st') : Matched st' := by
  intro r s t ht hc
  rcases step_context hstep ht hc with ⟨u, hu, hcu⟩ | ⟨e, rfl⟩
  · have hold := hm r s u hu hcu
    rcases step_delivery hstep with ⟨h, e, n, rfl, _, _, rfl⟩ | ⟨_, hsame⟩
    · have hne : r ≠ h := fun heq => hold.1 (heq ▸ hnew)
      rw [submitted_request_ne hne]
      exact hold
    · rw [(hsame r).seqnum, (hsame r).deliveries]
      exact hold
  · cases step_cases hstep with
    | submit => exact submitted_request

theorem Matched.sameTransfer {st st' : State} {a : Action} (hm : Matched st)
    (hstep : Device.step st a = some st') : SameTransfer st a := by
  cases step_cases hstep with
  | sendComplete r s success ht =>
      cases success with
      | true => trivial
      | false => exact fun _ => (hm r s _ ht (.inr (.inl rfl))).2
  | draw => trivial
  | drop => trivial
  | submit => trivial
  | wskSend => trivial
  | receive => trivial
  | cancel => trivial
  | cancelRequest => trivial
  | endpointPurge => trivial
  | purgeNext => trivial
  | unlink => trivial
  | sendUnlink => trivial
  | complete => trivial
  | close => trivial

-- The runs in which neither a request nor a number comes again while it could be mixed up.
def NothingReused (st : State) (a : Action) : Prop := NotReused st a ∧ FreshSeqnum st a

instance (st : State) (a : Action) : Decidable (NothingReused st a) :=
  inferInstanceAs (Decidable (_ ∧ _))

theorem reachable_nothingReused {st : State} (h : machine.Reachable NothingReused st) : Inv st ∧ Matched st := by
  refine h.invariant (I := fun st => Inv st ∧ Matched st) ?_ ?_
  · intro s hs
    refine ⟨inv_init hs, ?_⟩
    obtain ⟨counter, rfl⟩ := hs
    intro r s t ht
    simp at ht
  · intro s a t hs hok hstep
    exact ⟨hs.1.step ⟨hs.2.sameTransfer hstep, hok.2⟩ hstep, hs.2.step hok.1 hstep⟩

-- The steps that the owner of a request has left, up to its completion.
def Task.finish : Task → List Action
  | .cancelRequest r => [.cancelRequest r, .unlink .cancelRequest r true, .complete .cancelRequest r]
  | .unlink thread r => [.unlink thread r true, .complete thread r]
  | .sendUnlink thread r s => [.sendUnlink thread r s, .complete thread r]
  | .complete thread r => [.complete thread r]
  | _ => []

def Completes (st : State) (t : Task) (r : Handle) : Prop :=
  ∃ st', machine.run (fun _ _ => True) st t.finish = some st' ∧
    (st'.dev.request r).completed = (st.dev.request r).completed + 1

theorem completes_complete {st : State} {thread : Thread} {r : Handle} (ht : .complete thread r ∈ st.tasks) :
    Completes st (.complete thread r) r := by
  refine ⟨completedBy st thread r, ?_, by simp [completedBy]⟩
  simp [Task.finish, Machine.run, machine, step, ht]

-- The first step hands the request on; the rest is the finish of the next task.
theorem Completes.of_step {st next : State} {a : Action} {t u : Task} {r : Handle}
    (hstep : Device.step st a = some next) (hfinish : t.finish = a :: u.finish)
    (hsame : (next.dev.request r).completed = (st.dev.request r).completed) (h : Completes next u r) :
    Completes st t r := by
  obtain ⟨last, hrun, hdone⟩ := h
  refine ⟨last, ?_, by rw [hdone, hsame]⟩
  rw [hfinish, Machine.run, if_pos trivial, show machine.step st a = some next from hstep]
  exact hrun

-- Whatever the other threads did so far, an owner needs nobody to complete its request.
theorem owner_completes {st : State} {t : Task} {r : Handle} (ht : t ∈ st.tasks) (ho : t.owns r = true) :
    Completes st t r := by
  have hunlink : ∀ {st : State} {thread : Thread}, .unlink thread r ∈ st.tasks →
      Completes st (.unlink thread r) r := by
    intro st thread hx
    have hstep : step st (.unlink thread r true) = some _ := if_pos hx
    exact Completes.of_step hstep rfl rfl (completes_complete (mem_advance_of_next List.mem_cons_self))
  cases t with
  | complete thread h =>
      obtain rfl : h = r := by simpa [Task.owns] using ho
      exact completes_complete ht
  | sendUnlink thread h s =>
      obtain rfl : h = r := by simpa [Task.owns] using ho
      have hstep : step st (.sendUnlink thread h s) = some _ := if_pos ht
      exact Completes.of_step hstep rfl rfl (completes_complete (mem_advance_of_next List.mem_cons_self))
  | unlink thread h =>
      obtain rfl : h = r := by simpa [Task.owns] using ho
      exact hunlink ht
  | cancelRequest h =>
      obtain rfl : h = r := by simpa [Task.owns] using ho
      have hstep : step st (.cancelRequest h) = some (cancelled st h) := if_pos ht
      refine Completes.of_step hstep rfl ?_ (hunlink (mem_advance_of_next List.mem_cons_self))
      rw [cancelled, removeRequest_request]
  | drawn | sendSubmit | sent | refused | endpointPurge => simp [Task.owns] at ho

-- No request is completed twice, a completed one is not in the list, and one not yet completed is in
-- the list or has exactly one owner, which completes it.
def OwnedOnce (st : State) (r : Handle) : Prop :=
  (st.dev.request r).completed ≤ 1 ∧
    ((st.dev.request r).completed = 1 → r ∉ st.dev.entries) ∧
    ((st.dev.request r).completed = 0 → r ∈ st.dev.entries ∨
      (r ∉ st.dev.entries ∧ st.tasks.countP (Task.owns r) = 1 ∧
        ∀ t ∈ st.tasks, t.owns r = true → Completes st t r))

theorem request_owned_once (st : State) (h : machine.Reachable NothingReused st) (r : Handle)
    (hpending : (st.dev.request r).deliveries ≠ 0) : OwnedOnce st r := by
  obtain ⟨hi, _⟩ := reachable_nothingReused h
  refine ⟨hi.once r, fun hdone hm => ?_, fun hopen => ?_⟩
  · have := (hi.listed r hm).2
    omega
  · by_cases hm : r ∈ st.dev.entries
    · exact .inl hm
    · refine .inr ⟨hm, ?_, fun t ht ho => owner_completes ht ho⟩
      have howned := hi.owned r
      rw [State.owed, if_neg hm, if_pos ⟨hpending, hopen⟩] at howned
      exact howned

-- The upper driver cancels while a purge takes the request: the callback is left as its owner.
def racingSchedule : List Action :=
  [.draw true, .submit 7 1 3, .wskSend 7 3, .sendComplete 7 3 true, .cancel 7, .endpointPurge 1, .purgeNext 1]

theorem request_owned_once_racing :
    ∃ st, machine.Reachable NothingReused st ∧ (st.dev.request 7).deliveries ≠ 0 ∧
      7 ∉ st.dev.entries ∧ st.tasks = [.cancelRequest 7] ∧ OwnedOnce st 7 := by
  have hst : (machine.run NothingReused {} racingSchedule).map
      (fun st => (st.dev.entries, st.tasks, (st.dev.request 7).deliveries)) = some ([], [.cancelRequest 7], 1) := by
    decide +kernel
  obtain ⟨st, hrun, hst⟩ := Option.map_eq_some_iff.mp hst
  simp only [Prod.mk.injEq] at hst
  obtain ⟨hent, htasks, hdel⟩ := hst
  have hreach : machine.Reachable NothingReused st := Machine.Reachable.run (.init ⟨0, rfl⟩) hrun
  have hpending : (st.dev.request 7).deliveries ≠ 0 := by omega
  exact ⟨st, hreach, hpending, by simp [hent], htasks, request_owned_once st hreach 7 hpending⟩

-- The window keeps the numbers apart.
theorem reachable_nothingReused_of_window {s : State × Draws}
    (h : (machine.recorded {} fun st a draws => draws.record st a).Reachable
      (fun s a => NotReused s.1 a ∧ InWindow s) s) : machine.Reachable NothingReused s.1 :=
  reachable_fresh (fun _ hst => (reachable_nothingReused hst).1) h

-- A request waits for its reply while others come and go, until its number is drawn again.
structure Waiting (n : Nat) (st : State) : Prop where
  counter : st.seqnum.toNat = n
  entries : st.dev.entries = [0]
  tasks : st.tasks = []
  closing : st.closing = false
  waits : st.dev.request 0 =
    { endpoint := 1, seqnum := 2, cancelable := true, cancellation := .armed, deliveries := 1 }
  unused : ∀ h, n ≤ h → st.dev.request h = {}

section Wrap

variable {n : Nat} {st : State}

def transferSchedule (r : Handle) (s : Seqnum) : List Action :=
  [.draw false, .submit r 2 s, .wskSend r s, .sendComplete r s true, .receive s, .complete .recvLoop r]

theorem Waiting.transfer (h : Waiting n st) (hpos : 0 < n) {s : Seqnum} (hs : s ≠ 2)
    (hnext : (nextSeqnum st.seqnum false).2 = s) (hcount : (nextSeqnum st.seqnum false).1.toNat = n + 1) :
    ∃ st', machine.run NotReused st (transferSchedule n s) = some st' ∧ Waiting (n + 1) st' := by
  obtain ⟨-, hentries, htasks, hclosing, hwaits, hunused⟩ := h
  obtain ⟨counter, ⟨entries, request⟩, tasks, wire, closing⟩ := st
  dsimp only at *
  subst hentries htasks hclosing
  have hn := hunused n (Nat.le_refl n)
  have hne : ¬0 = n := by omega
  refine ⟨_, by
    simp [Machine.run, transferSchedule, NotReused, machine, step, drew, hnext, hn, Request.isFree, submitted,
      appendRequest, RequestList.set, advance, Request.deliver, sendCompleted, markRequestCancelable, markCancelable,
      hwaits, hs.symm, hne, received, removeRequest, removeLoop, RequestSearch.matches, hs, completedBy,
      Thread.resume, Task.isReceiving, unmark]
    rfl, ?_⟩
  constructor
  case counter => exact hcount
  case entries => rfl
  case tasks => rfl
  case closing => rfl
  case waits => simp [hne, hwaits]
  case unused =>
    intro h hh
    have hh : n ≤ h ∧ h ≠ n := by omega
    simp [hh.2, hunused h hh.1]

theorem exists_waiting (hpos : 0 < n) (hn : n ≤ NUMBERS) : ∃ st, machine.Reachable NotReused st ∧ Waiting n st := by
  induction n, hpos using Nat.le_induction with
  | base =>
      have hrun : ∃ st, machine.run NotReused {}
          [.draw false, .submit 0 1 2, .wskSend 0 2, .sendComplete 0 2 true] = some st ∧ Waiting 1 st := by
        refine ⟨_, rfl, rfl, rfl, rfl, rfl, rfl, fun h hh => ?_⟩
        have hh : ¬h = 0 := by omega
        exact (if_neg hh).trans ((if_neg hh).trans (if_neg hh))
      obtain ⟨st, hst, hwaiting⟩ := hrun
      exact ⟨st, Machine.Reachable.run (.init ⟨0, rfl⟩) hst, hwaiting⟩
  | succ n hpos ih =>
      obtain ⟨st, hreach, hwaiting⟩ := ih (Nat.le_of_succ_le hn)
      have hcounter := hwaiting.counter
      unfold NUMBERS at hn
      have hfollowing : following st.seqnum = n + 1 := by
        unfold following
        rw [hcounter, Nat.mod_eq_of_lt (by omega), if_neg (by omega)]
      have hnumber := extractNum_nextSeqnum st.seqnum false
      rw [hfollowing] at hnumber
      obtain ⟨st', hrun, hnext⟩ := hwaiting.transfer hpos (s := (nextSeqnum st.seqnum false).2)
        (by
          intro heq
          rw [heq, show (extractNum 2).toNat = 1 from rfl] at hnumber
          omega)
        rfl
        (by
          have hskip : (st.seqnum + 1) <<< 1 ≠ 0 := by
            rw [ne_eq, shift_eq_zero, toNat_succ, hcounter]
            omega
          rw [nextSeqnum_of_handedOut _ _ hskip, toNat_succ, hcounter, Nat.mod_eq_of_lt (by omega)])
      exact ⟨st', hreach.run hrun, hnext⟩

-- The send completion of the newer transfer meets the older one while it is being cancelled.
def mixedUpSchedule (r : Handle) : List Action :=
  [.draw false, .submit r 1 2, .wskSend r 2, .cancel 0, .sendComplete r 2 true, .unlink (.sendComplete 2) r false,
    .sendUnlink (.sendComplete 2) r 2, .complete (.sendComplete 2) r]

theorem Waiting.mixedUp (h : Waiting n st) (hpos : 0 < n) (hnext : (nextSeqnum st.seqnum false).2 = 2) :
    ∃ st', machine.run NotReused st (mixedUpSchedule n) = some st' ∧
      (st'.dev.request n).completed = 1 ∧ (st'.dev.request n).deliveries ≠ 0 ∧ n ∈ st'.dev.entries := by
  obtain ⟨-, hentries, htasks, hclosing, hwaits, hunused⟩ := h
  obtain ⟨counter, ⟨entries, request⟩, tasks, wire, closing⟩ := st
  dsimp only at *
  subst hentries htasks hclosing
  have hn := hunused n (Nat.le_refl n)
  have hne : ¬0 = n := by omega
  refine ⟨_, by
    simp [Machine.run, mixedUpSchedule, NotReused, machine, step, drew, hnext, hn, Request.isFree, submitted,
      appendRequest, RequestList.set, advance, Request.deliver, cancelledByUpper, sendCompleted,
      markRequestCancelable, markCancelable, hwaits, hne, hpos.ne', unlinking, completedBy, Thread.resume]
    rfl, ?_⟩
  simp

end Wrap

theorem request_completed_in_list :
    ¬∀ st, machine.Reachable NotReused st → ∀ r, (st.dev.request r).deliveries ≠ 0 → OwnedOnce st r := by
  intro hall
  obtain ⟨st, hreach, hwaiting⟩ := exists_waiting (n := NUMBERS) (by decide) (Nat.le_refl _)
  have hcounter : st.seqnum = 0x7FFFFFFF := UInt32.toNat_inj.mp hwaiting.counter
  obtain ⟨st', hrun, hdone, hpending, hmem⟩ := hwaiting.mixedUp (by decide) (by rw [hcounter]; decide)
  exact (hall st' (hreach.run hrun) NUMBERS hpending).2.1 hdone hmem

end Usbip.Device

import Usbip.Transfers.Frame

namespace Usbip.Device

open Usbip.Library.Pool
open Usbip.Library.Runs

-- Every CMD_UNLINK has a CMD_SUBMIT of its own before it. Numbers come round again, hence the counts.
def InOrder (wire : List Command) : Prop :=
  ∀ before s after, wire = before ++ .unlink s :: after →
    before.count (.unlink s) < before.count (.submit s)

theorem InOrder.append {wire : List Command} (h : InOrder wire) (c : Command)
    (hc : ∀ s, c = .unlink s → wire.count (.unlink s) < wire.count (.submit s)) : InOrder (wire ++ [c]) := by
  intro before s after he
  rcases List.eq_nil_or_concat after with rfl | ⟨init, last, rfl⟩
  · obtain ⟨rfl, hlast⟩ := List.append_inj' he rfl
    exact hc s (by simpa using hlast)
  · rw [List.concat_eq_append, ← List.cons_append, ← List.append_assoc] at he
    exact h before s init (List.append_inj' he rfl).1

theorem count_append_submit (wire : List Command) (n s : Seqnum) :
    (wire ++ [Command.submit n]).count (.unlink s) = wire.count (.unlink s) ∧
      (wire ++ [Command.submit n]).count (.submit s) = wire.count (.submit s) + if n = s then 1 else 0 := by
  by_cases h : n = s <;> simp [List.count_append, h]

theorem count_append_unlink (wire : List Command) (n s : Seqnum) :
    (wire ++ [Command.unlink n]).count (.submit s) = wire.count (.submit s) ∧
      (wire ++ [Command.unlink n]).count (.unlink s) = wire.count (.unlink s) + if n = s then 1 else 0 := by
  by_cases h : n = s <;> simp [List.count_append, h]

theorem InOrder.nil : InOrder [] := by
  intro before s after he
  simp at he

-- The request that the step takes out of the list on behalf of a purge or of a reply.
def takes (st : State) : Action → Option Handle
  | .receive s => (removeRequest st.dev (.seqnum s) true).2
  | .purgeNext e => (removeRequest st.dev (.endpoint e) true).2
  | _ => none

def Task.isUnsent (r : Handle) : Task → Bool
  | .sendSubmit h _ => h == r
  | _ => false

-- Replies and purges take only requests whose WskSend has been called.
def TakesSent (st : State) (a : Action) : Prop :=
  KeepsApart st a ∧ ∀ r ∈ (takes st a).toList, st.tasks.any (Task.isUnsent r) = false

instance (st : State) (a : Action) : Decidable (TakesSent st a) :=
  inferInstanceAs (Decidable (_ ∧ _))

-- An unlink of the transfer may still follow its CMD_SUBMIT.
def Owes (st : State) (s : Seqnum) : Prop :=
  ∃ r, (st.dev.request r).Outstanding ∧ (st.dev.request r).seqnum = s ∧ .sendSubmit r s ∉ st.tasks ∧
    ∀ thread, .complete thread r ∉ st.tasks

structure WireInv (st : State) : Prop where
  unsent : ∀ r s, .sendSubmit r s ∈ st.tasks → r ∈ st.dev.entries ∧ (st.dev.request r).seqnum = s
  number : ∀ thread r s, .sendUnlink thread r s ∈ st.tasks → (st.dev.request r).seqnum = s
  unique : ∀ r h, (st.dev.request r).Outstanding → (st.dev.request h).Outstanding →
    (st.dev.request r).seqnum = (st.dev.request h).seqnum → r = h
  order : InOrder st.wire
  count : st.closing = false → ∀ s, st.wire.count (.unlink s) ≤ st.wire.count (.submit s) ∧
    (Owes st s → st.wire.count (.unlink s) < st.wire.count (.submit s))

section Step

variable {st st' : State} {a : Action}

-- What a step can take out of the list.
theorem Inv.step_removes (hi : Inv st) (hsame : SameTransfer st a) (hstep : Device.step st a = some st')
    {r : Handle} (hm : r ∈ st.dev.entries) (hout : r ∉ st'.dev.entries) :
    takes st a = some r ∨ Withheld (st.dev.request r) ∨
      ∃ s success, a = .sendComplete r s success ∧ .sent r s ∈ st.tasks ∧ (st.dev.request r).seqnum = s := by
  have herase : ∀ h, r ∉ st.dev.entries.erase h → r = h := by
    intro h hx
    by_contra hne
    exact hx ((List.mem_erase_of_ne hne).mpr hm)
  cases step_cases hstep with
  | draw dirIn =>
      exact absurd hm hout
  | drop s _ =>
      exact absurd hm hout
  | submit h e s _ _ =>
      exact absurd (List.mem_append_left _ hm) hout
  | wskSend h s _ =>
      split_ifs at hout <;> exact absurd hm hout
  | sendComplete h s success ht =>
      refine .inr (.inr ⟨s, success, ?_⟩)
      cases success with
      | true =>
          simp only [sendCompleted, if_true] at hout
          rcases markRequestCancelable_cases st.dev s with ⟨he, _⟩ | ⟨x, _, _, _, he⟩ | ⟨x, hx, hs, _, he⟩
          · rw [he] at hout
            exact absurd hm hout
          · rw [he] at hout
            exact absurd hm hout
          · rw [he] at hout
            obtain rfl := herase x hout
            obtain ⟨rfl, _⟩ := hi.own_entry ht hx hs
            exact ⟨rfl, ht, hs⟩
      | false =>
          simp only [sendCompleted, removeRequest_request, Bool.false_eq_true, if_false] at hout
          obtain rfl := herase h hout
          exact ⟨rfl, ht, hsame hm⟩
  | receive s _ =>
      exact ((removeRequest_removal st.dev (.seqnum s) true hi.nodup).gone r hm hout).imp id
        (fun h => .inl h.2.1)
  | cancel h _ =>
      simp only [Device.cancelledByUpper] at hout
      cases hc : (st.dev.request h).cancellation <;> rw [hc] at hout <;> exact absurd hm hout
  | cancelRequest h ht =>
      simp only [Device.cancelled, removeRequest_request] at hout
      obtain rfl := herase h hout
      have hfired := hi.fired r ht
      exact .inr (.inl ⟨(hi.flag r hm).mpr (.inr hfired), hfired⟩)
  | endpointPurge e =>
      exact absurd hm hout
  | purgeNext e _ =>
      exact ((removeRequest_removal st.dev (.endpoint e) true hi.nodup).gone r hm hout).imp id
        (fun h => .inl h.2.1)
  | unlink thread h skip _ =>
      cases skip <;> exact absurd hm hout
  | sendUnlink thread h s _ =>
      exact absurd hm hout
  | complete thread h _ =>
      exact absurd hm hout
  | close =>
      exact absurd hm hout

-- A request waiting for its WskSend stays in the list.
theorem WireInv.stays (hw : WireInv st) (hi : Inv st) (hok : TakesSent st a)
    (hstep : Device.step st a = some st') {r : Handle} {s : Seqnum} (ht : .sendSubmit r s ∈ st.tasks) :
    r ∈ st'.dev.entries := by
  obtain ⟨hm, hs⟩ := hw.unsent r s ht
  by_contra hout
  rcases hi.step_removes hok.1.1 hstep hm hout with htake | hheld | ⟨n, success, _, hsent, hn⟩
  · have := hok.2 r (by simp [htake])
    rw [List.any_eq_false] at this
    exact absurd (this _ ht) (by simp [Task.isUnsent])
  · have := (hi.context r s _ ht (.inl rfl) r hm hs).2
    rw [hheld.1] at this
    cases this
  · obtain rfl : s = n := hs.symm.trans hn
    have hleft : .sendSubmit r s ∈ advance st.tasks (.sent r s) [] := mem_advance_of_ne (by simp) ht
    exact hi.no_context_left hsent (by simp) hleft (.inl rfl)

theorem WireInv.unsent_step (hw : WireInv st) (hi : Inv st) (hok : TakesSent st a)
    (hstep : Device.step st a = some st') (r : Handle) (s : Seqnum) (ht : .sendSubmit r s ∈ st'.tasks) :
    r ∈ st'.dev.entries ∧ (st'.dev.request r).seqnum = s := by
  rcases step_delivery hstep with ⟨h, e, n, rfl, hfree, _, rfl⟩ | ⟨hnot, hsame⟩
  · rcases mem_advance ht with hnew | hold
    · cases List.mem_singleton.mp hnew
      exact ⟨List.mem_append_right _ List.mem_cons_self, submitted_request.2⟩
    · obtain ⟨hm, hs⟩ := hw.unsent r s hold
      have hne : r ≠ h := fun he => (hi.free hfree).2.1 (he ▸ hm)
      exact ⟨List.mem_append_left _ hm, by rw [submitted_request_ne hne, hs]⟩
  · have hold : .sendSubmit r s ∈ st.tasks := by
      refine (step_tasks hstep ht).resolve_left fun hnew => ?_
      cases a with
      | submit h e n => exact hnot h e n rfl
      | sendComplete h n success => cases success <;> simp only [spawned] at hnew <;> split_ifs at hnew <;> simp_all
      | receive n => simp [spawned] at hnew
      | purgeNext e => simp [spawned] at hnew
      | cancel h => simp only [spawned] at hnew; split_ifs at hnew <;> simp_all
      | wskSend h n => simp only [spawned] at hnew; split_ifs at hnew <;> simp_all
      | unlink thread h skip => cases skip <;> simp [spawned] at hnew
      | complete thread h => cases thread <;> simp [spawned, Thread.resume] at hnew
      | draw | drop | cancelRequest | endpointPurge | sendUnlink | close => simp [spawned] at hnew
    refine ⟨hw.stays hi hok hstep hold, ?_⟩
    rw [(hsame r).seqnum]
    exact (hw.unsent r s hold).2

theorem WireInv.number_step (hw : WireInv st) (hi : Inv st) (hstep : Device.step st a = some st')
    (thread : Thread) (r : Handle) (s : Seqnum) (ht : .sendUnlink thread r s ∈ st'.tasks) :
    (st'.dev.request r).seqnum = s := by
  rcases step_tasks hstep ht with hnew | hold
  · cases step_cases hstep with
    | unlink h x skip _ =>
        cases skip with
        | true => simp [spawned] at hnew
        | false =>
            obtain ⟨_, rfl, rfl⟩ : thread = h ∧ r = x ∧ s = (st.dev.request x).seqnum := by
              simpa [spawned] using hnew
            rfl
    | sendComplete h n success _ => cases success <;> simp only [spawned] at hnew <;> split_ifs at hnew <;> simp_all
    | receive n _ => simp [spawned] at hnew
    | purgeNext e _ => simp [spawned] at hnew
    | cancel h _ => simp only [spawned] at hnew; split_ifs at hnew <;> simp_all
    | wskSend h n _ => simp only [spawned] at hnew; split_ifs at hnew <;> simp_all
    | complete thread h _ => cases thread <;> simp [spawned, Thread.resume] at hnew
    | draw | drop | submit | cancelRequest | endpointPurge | sendUnlink | close => simp [spawned] at hnew
  · rw [hi.owned_seqnum hstep hold (by simp [Task.owns])]
    exact hw.number thread r s hold

theorem WireInv.unique_step (hw : WireInv st) (hi : Inv st) (hstep : Device.step st a = some st')
    (r h : Handle) (hr : (st'.dev.request r).Outstanding) (hh : (st'.dev.request h).Outstanding)
    (he : (st'.dev.request r).seqnum = (st'.dev.request h).seqnum) : r = h := by
  rcases step_delivery hstep with ⟨x, e, n, rfl, _, hdrawn, rfl⟩ | ⟨_, hsame⟩
  · by_cases hrx : r = x <;> by_cases hhx : h = x
    · rw [hrx, hhx]
    · rw [hrx, submitted_request.2, submitted_request_ne hhx] at he
      rw [submitted_request_ne hhx] at hh
      exact absurd he.symm (hi.drawn n hdrawn h hh)
    · rw [hhx, submitted_request.2, submitted_request_ne hrx] at he
      rw [submitted_request_ne hrx] at hr
      exact absurd he (hi.drawn n hdrawn r hr)
    · rw [submitted_request_ne hrx, submitted_request_ne hhx] at he
      rw [submitted_request_ne hrx] at hr
      rw [submitted_request_ne hhx] at hh
      exact hw.unique r h hr hh he
  · rw [(hsame r).seqnum, (hsame h).seqnum] at he
    exact hw.unique r h ((hsame r).outstanding hr) ((hsame h).outstanding hh) he

-- No step but the call of WskSend makes a transfer owe an unlink.
theorem owes_step (hstep : Device.step st a = some st')
    {s : Seqnum} (hsend : ∀ r, a ≠ .wskSend r s) (ho : Owes st' s) : Owes st s := by
  obtain ⟨r, hout, hs, hunsent, hopen⟩ := ho
  rcases step_delivery hstep with ⟨x, e, n, rfl, _, _, rfl⟩ | ⟨_, hsame⟩
  · have hne : r ≠ x := by
      rintro rfl
      rw [submitted_request.2] at hs
      exact hunsent (hs ▸ mem_advance_of_next List.mem_cons_self)
    rw [submitted_request_ne hne] at hout hs
    exact ⟨r, hout, hs, fun hx => hunsent (mem_advance_of_ne (by simp) hx),
      fun thread hx => hopen thread (mem_advance_of_ne (by simp) hx)⟩
  · refine ⟨r, (hsame r).outstanding hout, by rw [← (hsame r).seqnum, hs], fun hx => ?_, fun thread hx => ?_⟩
    · refine hunsent (step_persists hstep hx fun hc => ?_)
      cases a <;> simp only [Action.consumes, Option.some_inj, reduceCtorEq, Task.sendSubmit.injEq] at hc
      exact hsend _ (by rw [hc.2])
    · refine hopen thread (step_persists hstep hx fun hc => ?_)
      -- the request would be completed by now
      cases a <;> simp only [Action.consumes, Option.some_inj, reduceCtorEq, Task.complete.injEq] at hc
      obtain ⟨rfl, rfl⟩ := hc
      cases step_cases hstep with
      | complete => simp [completedBy, Request.Outstanding] at hout

-- The wire changes by the two sends, as long as the socket lets them through.
theorem step_wire (hstep : Device.step st a = some st') :
    (st'.wire = st.wire ∧ (st'.closing = false → st.closing = false ∧ ∀ r s, a ≠ .wskSend r s)) ∨
    (∃ r s, a = .wskSend r s ∧ st.closing = false ∧ st'.wire = st.wire ++ [.submit s]) ∨
    (∃ thread r s, a = .sendUnlink thread r s ∧ .sendUnlink thread r s ∈ st.tasks ∧ st.closing = false ∧
      st'.wire = st.wire ++ [.unlink s] ∧ st'.dev = st.dev ∧ .complete thread r ∈ st'.tasks) := by
  cases step_cases hstep with
  | wskSend r s _ =>
      cases hc : st.closing with
      | true => exact .inl ⟨rfl, fun h => absurd hc (by simp_all)⟩
      | false => exact .inr (.inl ⟨r, s, rfl, rfl, rfl⟩)
  | sendUnlink thread r s ht =>
      cases hc : st.closing with
      | true => exact .inl ⟨rfl, fun h => absurd hc (by simp_all)⟩
      | false =>
          exact .inr (.inr ⟨thread, r, s, rfl, ht, rfl, rfl, rfl, mem_advance_of_next List.mem_cons_self⟩)
  | sendComplete r s success _ =>
      cases success <;> exact .inl ⟨rfl, fun h => ⟨h, by simp⟩⟩
  | cancel r _ =>
      simp only [cancelledByUpper]
      cases (st.dev.request r).cancellation <;> exact .inl ⟨rfl, fun h => ⟨h, by simp⟩⟩
  | draw dirIn =>
      exact .inl ⟨rfl, fun h => ⟨h, by simp⟩⟩
  | drop s _ =>
      exact .inl ⟨rfl, fun h => ⟨h, by simp⟩⟩
  | submit r e s _ _ =>
      exact .inl ⟨rfl, fun h => ⟨h, by simp⟩⟩
  | receive s _ =>
      exact .inl ⟨rfl, fun h => ⟨h, by simp⟩⟩
  | cancelRequest r _ =>
      exact .inl ⟨rfl, fun h => ⟨h, by simp⟩⟩
  | purgeNext e _ =>
      exact .inl ⟨rfl, fun h => ⟨h, by simp⟩⟩
  | unlink thread r skip _ =>
      cases skip <;> exact .inl ⟨rfl, fun h => ⟨h, by simp⟩⟩
  | complete thread r _ =>
      exact .inl ⟨rfl, fun h => ⟨h, by simp⟩⟩
  | endpointPurge e =>
      exact .inl ⟨rfl, fun h => ⟨h, by simp⟩⟩
  | close =>
      exact .inl ⟨rfl, fun h => by simp at h⟩

-- The thread that is about to send an unlink is the only one that could.
theorem WireInv.owes_unlink (hw : WireInv st) (hi : Inv st) {thread : Thread} {r : Handle} {s : Seqnum}
    (ht : .sendUnlink thread r s ∈ st.tasks) : Owes st s := by
  have hm : r ∉ st.dev.entries := hi.held r _ ht (by simp [Task.holds])
  have hout : (st.dev.request r).Outstanding := hi.outstanding_of_owner ht (by simp [Task.owns])
  refine ⟨r, hout, hw.number thread r s ht, fun hx => hm (hw.unsent r s hx).1, fun other hx => ?_⟩
  have hone := hi.owned r
  rw [State.owed, if_neg hm, if_pos hout, owners] at hone
  have hcount := countP_advance (Task.owns r) ht []
  rw [hone, if_pos (by simp [Task.owns])] at hcount
  have hzero : (advance st.tasks (.sendUnlink thread r s) []).countP (Task.owns r) = 0 := by
    simpa using hcount
  have hleft : .complete other r ∈ advance st.tasks (.sendUnlink thread r s) [] :=
    mem_advance_of_ne (by simp) hx
  exact absurd (List.countP_eq_zero.mp hzero _ hleft) (by simp [Task.owns])

theorem WireInv.count_step (hw : WireInv st) (hi : Inv st) (hstep : Device.step st a = some st')
    (hclosing : st'.closing = false) (s : Seqnum) :
    st'.wire.count (.unlink s) ≤ st'.wire.count (.submit s) ∧
      (Owes st' s → st'.wire.count (.unlink s) < st'.wire.count (.submit s)) := by
  rcases step_wire hstep with ⟨hwire, hsend⟩ | ⟨r, n, rfl, hc, hwire⟩ | ⟨thread, r, n, rfl, ht, hc, hwire, hdev, hdone⟩
  · obtain ⟨hc, hsend⟩ := hsend hclosing
    obtain ⟨hle, hlt⟩ := hw.count hc s
    rw [hwire]
    exact ⟨hle, fun ho => hlt (owes_step hstep (fun r => hsend r s) ho)⟩
  · obtain ⟨hle, hlt⟩ := hw.count hc s
    obtain ⟨hunlink, hsubmit⟩ := count_append_submit st.wire n s
    rw [hwire, hunlink, hsubmit]
    by_cases hn : n = s
    · rw [if_pos hn]
      omega
    · rw [if_neg hn]
      exact ⟨hle, fun ho => hlt (owes_step hstep (by simp [hn]) ho)⟩
  · obtain ⟨hle, hlt⟩ := hw.count hc s
    obtain ⟨hsubmit, hunlink⟩ := count_append_unlink st.wire n s
    rw [hwire, hunlink, hsubmit]
    by_cases hn : n = s
    · subst hn
      rw [if_pos rfl]
      refine ⟨hlt (hw.owes_unlink hi ht), ?_⟩
      rintro ⟨h, hout, hs, _, hopen⟩
      rw [hdev] at hout hs
      have hr : (st.dev.request r).Outstanding := hi.outstanding_of_owner ht (by simp [Task.owns])
      obtain rfl := hw.unique h r hout hr (hs.trans (hw.number thread r n ht).symm)
      exact absurd hdone (hopen thread)
    · rw [if_neg hn]
      exact ⟨hle, fun ho => hlt (owes_step hstep (by simp) ho)⟩

theorem WireInv.order_step (hw : WireInv st) (hi : Inv st) (hstep : Device.step st a = some st') :
    InOrder st'.wire := by
  rcases step_wire hstep with ⟨hwire, _⟩ | ⟨r, n, rfl, _, hwire⟩ | ⟨thread, r, n, _, ht, hc, hwire, _, _⟩
  · rw [hwire]
    exact hw.order
  · rw [hwire]
    exact hw.order.append _ (by simp)
  · rw [hwire]
    refine hw.order.append _ fun s hs => ?_
    obtain rfl : n = s := by simpa using hs
    exact (hw.count hc n).2 (hw.owes_unlink hi ht)

theorem WireInv.step (hw : WireInv st) (hi : Inv st) (hok : TakesSent st a)
    (hstep : Device.step st a = some st') : WireInv st' where
  unsent := hw.unsent_step hi hok hstep
  number := hw.number_step hi hstep
  unique := hw.unique_step hi hstep
  order := hw.order_step hi hstep
  count := hw.count_step hi hstep

end Step

theorem wireInv_init {st : State} (h : machine.init st) : WireInv st := by
  obtain ⟨counter, rfl⟩ := h
  constructor
  · simp
  · simp
  · simp [Request.Outstanding]
  · exact InOrder.nil
  · simp [Owes, Request.Outstanding]

theorem reachable_wireInv {st : State} (h : machine.Reachable TakesSent st) : WireInv st := by
  have hI : ∀ s, machine.Reachable TakesSent s → Inv s :=
    fun s hs => reachable_inv (hs.mono fun _ _ hok => hok.1)
  exact h.invariant_under hI (fun _ => wireInv_init) fun _ _ _ hi hw hok hstep => hw.step hi hok hstep

-- The wire is in order, and a WskSend still to be called is for a transfer not yet completed.
def WireOrdered (st : State) : Prop :=
  InOrder st.wire ∧ ∀ r s, .sendSubmit r s ∈ st.tasks →
    (st.dev.request r).seqnum = s ∧ (st.dev.request r).completed = 0

theorem submit_before_unlink (st : State) (h : machine.Reachable TakesSent st) : WireOrdered st := by
  have hi := reachable_inv (h.mono fun _ _ hok => hok.1)
  have hw := reachable_wireInv h
  refine ⟨hw.order, fun r s ht => ?_⟩
  obtain ⟨hm, hs⟩ := hw.unsent r s ht
  exact ⟨hs, (hi.listed r hm).2⟩

-- A transfer is submitted and purged in good order, and the next one waits for its WskSend.
def orderedSchedule : List Action :=
  [.draw false, .submit 7 1 2, .wskSend 7 2, .endpointPurge 1, .purgeNext 1, .unlink (.endpointPurge 1) 7 false,
    .sendUnlink (.endpointPurge 1) 7 2, .complete (.endpointPurge 1) 7, .draw true, .submit 8 2 7]

theorem submit_before_unlink_ordered :
    ∃ st, machine.Reachable TakesSent st ∧ st.wire = [.submit 2, .unlink 2] ∧
      .sendSubmit 8 7 ∈ st.tasks ∧ WireOrdered st := by
  have hrun : (machine.run TakesSent {} orderedSchedule).map (fun st => (st.wire, st.tasks)) =
      some ([.submit 2, .unlink 2], [.sendSubmit 8 7, .endpointPurge 1, .sent 7 2]) := by decide +kernel
  obtain ⟨st, hst, he⟩ := Option.map_eq_some_iff.mp hrun
  simp only [Prod.mk.injEq] at he
  have hreach : machine.Reachable TakesSent st := Machine.Reachable.run (.init ⟨0, rfl⟩) hst
  exact ⟨st, hreach, he.1, by simp [he.2], submit_before_unlink st hreach⟩

-- A purge takes the request between `append_request` and its WskSend.
def purgedUnsentSchedule : List Action :=
  [.draw false, .submit 7 1 2, .endpointPurge 1, .purgeNext 1, .unlink (.endpointPurge 1) 7 false,
    .sendUnlink (.endpointPurge 1) 7 2, .complete (.endpointPurge 1) 7, .wskSend 7 2]

theorem unlink_before_submit :
    ¬∀ st, machine.Reachable (fun _ _ => True) st → WireOrdered st := by
  intro hall
  have hrun : (machine.run (fun _ _ => True) {} purgedUnsentSchedule).map State.wire =
      some [.unlink 2, .submit 2] := by decide +kernel
  obtain ⟨st, hst, he⟩ := Option.map_eq_some_iff.mp hrun
  have hreach : machine.Reachable (fun _ _ => True) st := Machine.Reachable.run (.init ⟨0, rfl⟩) hst
  have horder := (hall st hreach).1 [] 2 [.submit 2] (by rw [he]; rfl)
  simp at horder

end Usbip.Device

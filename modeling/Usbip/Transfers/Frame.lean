import Usbip.Transfers.Invariant

namespace Usbip.Device

open Usbip.Library.Pool

-- The part of a request that only a submission sets.
structure Request.SameDelivery (req old : Request) : Prop where
  seqnum : req.seqnum = old.seqnum
  endpoint : req.endpoint = old.endpoint
  deliveries : req.deliveries = old.deliveries
  completed : old.completed ≤ req.completed

theorem Request.SameDelivery.refl (req : Request) : req.SameDelivery req :=
  ⟨rfl, rfl, rfl, Nat.le_refl _⟩

theorem Request.SameDelivery.outstanding {req old : Request} (h : req.SameDelivery old)
    (ho : req.Outstanding) : old.Outstanding := by
  have hle := h.completed
  refine ⟨h.deliveries ▸ ho.1, ?_⟩
  have := ho.2
  omega

theorem RequestList.set_sameDelivery (dev : RequestList) {r : Handle} {req : Request}
    (hreq : req.SameDelivery (dev.request r)) (h : Handle) :
    ((dev.set r req).request h).SameDelivery (dev.request h) := by
  by_cases hh : h = r
  · subst hh
    rw [RequestList.set_request_self]
    exact hreq
  · rw [RequestList.set_request_ne _ _ hh]
    exact .refl _

theorem removeRequest_sameDelivery (dev : RequestList) (crit : RequestSearch) (unmarks : Bool) (h : Handle) :
    ((removeRequest dev crit unmarks).1.request h).SameDelivery (dev.request h) := by
  unfold removeRequest
  cases removeLoop dev.request crit unmarks dev.entries with
  | mk left picked =>
      cases picked with
      | none => exact .refl _
      | some r =>
          cases unmarks with
          | false => exact .refl _
          | true =>
              refine RequestList.set_sameDelivery { dev with entries := left } ?_ h
              unfold unmark
              split_ifs <;> exact ⟨rfl, rfl, rfl, Nat.le_refl _⟩

theorem step_sameDelivery {st st' : State} {a : Action} (hstep : step st a = some st')
    (hnot : ∀ r e s, a ≠ .submit r e s) (h : Handle) :
    (st'.dev.request h).SameDelivery (st.dev.request h) := by
  cases step_cases hstep with
  | draw dirIn =>
      exact .refl _
  | drop s _ =>
      exact .refl _
  | submit r e s => exact absurd rfl (hnot r e s)
  | wskSend r s _ =>
      split_ifs <;> exact .refl _
  | sendComplete r s success _ =>
      cases success with
      | false => exact removeRequest_sameDelivery st.dev (.request r) false h
      | true =>
          simp only [sendCompleted, if_true]
          rcases markRequestCancelable_cases st.dev s with ⟨he, _⟩ | ⟨x, _, _, _, he⟩ | ⟨x, _, _, _, he⟩
          · rw [he]
            exact .refl _
          · rw [he]
            exact RequestList.set_sameDelivery st.dev (by exact ⟨rfl, rfl, rfl, Nat.le_refl _⟩) h
          · rw [he]
            exact .refl _
  | receive s _ =>
      exact removeRequest_sameDelivery st.dev (.seqnum s) true h
  | cancel r _ =>
      simp only [cancelledByUpper]
      cases (st.dev.request r).cancellation with
      | idle => exact RequestList.set_sameDelivery st.dev (by exact ⟨rfl, rfl, rfl, Nat.le_refl _⟩) h
      | armed => exact RequestList.set_sameDelivery st.dev (by exact ⟨rfl, rfl, rfl, Nat.le_refl _⟩) h
      | cancelled => exact .refl _
      | fired => exact .refl _
  | cancelRequest r _ =>
      exact removeRequest_sameDelivery st.dev (.request r) false h
  | endpointPurge e =>
      exact .refl _
  | purgeNext e _ =>
      exact removeRequest_sameDelivery st.dev (.endpoint e) true h
  | unlink thread r skip _ =>
      cases skip <;> exact .refl _
  | sendUnlink thread r s _ =>
      exact .refl _
  | complete thread r _ =>
      exact RequestList.set_sameDelivery st.dev (by exact ⟨rfl, rfl, rfl, Nat.le_succ _⟩) h
  | close =>
      exact .refl _

-- A submission delivers its request; every other step leaves the deliveries as they are.
theorem step_delivery {st st' : State} {a : Action} (hstep : step st a = some st') :
    (∃ r e s, a = .submit r e s ∧ (st.dev.request r).isFree = true ∧ .drawn s ∈ st.tasks ∧
      st' = submitted st r e s) ∨
    ((∀ r e s, a ≠ .submit r e s) ∧ ∀ h, (st'.dev.request h).SameDelivery (st.dev.request h)) := by
  by_cases hsub : ∃ r e s, a = .submit r e s
  · obtain ⟨r, e, s, rfl⟩ := hsub
    cases step_cases hstep with
    | submit _ _ _ hfree hdrawn => exact .inl ⟨r, e, s, rfl, hfree, hdrawn, rfl⟩
  · have hnot : ∀ r e s, a ≠ .submit r e s := fun r e s he => hsub ⟨r, e, s, he⟩
    exact .inr ⟨hnot, step_sameDelivery hstep hnot⟩

theorem submitted_request {st : State} {r : Handle} {e : Endpoint} {s : Seqnum} :
    ((submitted st r e s).dev.request r).deliveries ≠ 0 ∧ ((submitted st r e s).dev.request r).seqnum = s := by
  simp [submitted, appendRequest, Request.deliver]

theorem submitted_request_ne {st : State} {r h : Handle} {e : Endpoint} {s : Seqnum} (hne : h ≠ r) :
    (submitted st r e s).dev.request h = st.dev.request h := by
  simp [submitted, appendRequest, RequestList.set, hne]

-- The tasks a step brings into the pool.
def spawned (st : State) : Action → List Task
  | .draw dirIn => [.drawn (nextSeqnum st.seqnum dirIn).2]
  | .drop _ => []
  | .submit r _ s => [.sendSubmit r s]
  | .wskSend r s => [if st.closing then .refused r s else .sent r s]
  | .sendComplete r s true =>
    if (markRequestCancelable st.dev s).1 = .STATUS_SUCCESS then [] else [.unlink (.sendComplete s) r]
  | .sendComplete r s false => if r ∈ st.dev.entries then [.complete (.sendComplete s) r] else []
  | .receive s => ((removeRequest st.dev (.seqnum s) true).2.map (Task.complete .recvLoop)).toList
  | .cancel r => if (st.dev.request r).cancellation = .armed then [.cancelRequest r] else []
  | .cancelRequest r => [.unlink .cancelRequest r]
  | .endpointPurge e => [.endpointPurge e]
  | .purgeNext e =>
    ((removeRequest st.dev (.endpoint e) true).2.map (Task.unlink (.endpointPurge e))).toList
  | .unlink thread r skip =>
    [if skip then .complete thread r else .sendUnlink thread r (st.dev.request r).seqnum]
  | .sendUnlink thread r _ => [.complete thread r]
  | .complete thread _ => thread.resume
  | .close => []

theorem step_tasks {st st' : State} {a : Action} (hstep : step st a = some st') {t : Task}
    (ht : t ∈ st'.tasks) : t ∈ spawned st a ∨ t ∈ st.tasks := by
  cases step_cases hstep with
  | draw dirIn =>
      exact (List.mem_cons.mp ht).imp List.mem_singleton.mpr id
  | drop s _ =>
      exact mem_advance ht
  | submit r e s _ _ =>
      exact mem_advance ht
  | wskSend r s _ =>
      cases hclosing : st.closing <;> simp only [hclosing] at ht <;> simp only [spawned, hclosing] <;>
        exact mem_advance ht
  | sendComplete r s success _ =>
      cases success with
      | true => exact mem_advance ht
      | false =>
          simp only [sendCompleted, removeRequest_request] at ht
          refine (mem_advance ht).imp (fun h => ?_) id
          by_cases hr : r ∈ st.dev.entries
          · simpa [spawned, hr] using h
          · simp [hr] at h
  | receive s _ =>
      exact List.mem_append.mp ht
  | cancel r _ =>
      simp only [cancelledByUpper] at ht
      cases hc : (st.dev.request r).cancellation <;> simp_all [spawned]
  | cancelRequest r _ =>
      exact mem_advance ht
  | endpointPurge e =>
      exact (List.mem_cons.mp ht).imp List.mem_singleton.mpr id
  | purgeNext e _ =>
      exact mem_advance ht
  | unlink thread r skip _ =>
      cases skip <;> exact mem_advance ht
  | sendUnlink thread r s _ =>
      exact mem_advance ht
  | complete thread r _ =>
      exact mem_advance ht
  | close =>
      exact .inr ht

-- A context stems from its submission.
theorem step_context {st st' : State} {a : Action} (hstep : step st a = some st') {r : Handle} {s : Seqnum}
    {t : Task} (ht : t ∈ st'.tasks) (hc : t.IsContext r s) :
    (∃ u ∈ st.tasks, u.IsContext r s) ∨
      ∃ e, a = .submit r e s := by
  rcases step_tasks hstep ht with hnew | hold
  · cases step_cases hstep with
    | draw dirIn => simp_all [spawned, Task.IsContext]
    | drop n _ => simp [spawned] at hnew
    | submit h e n _ _ =>
        rw [spawned, List.mem_singleton] at hnew
        rcases hc with rfl | rfl | rfl <;> cases hnew
        exact .inr ⟨e, rfl⟩
    | wskSend h n hmem =>
        rw [spawned, List.mem_singleton] at hnew
        rw [hnew] at hc
        obtain ⟨rfl, rfl⟩ : h = r ∧ n = s := by
          split_ifs at hc <;> simpa [Task.IsContext] using hc
        exact .inl ⟨_, hmem, .inl rfl⟩
    | sendComplete h n success _ =>
        cases success <;> simp only [spawned] at hnew <;> split_ifs at hnew <;>
          simp_all [Task.IsContext]
    | receive n _ =>
        rw [spawned, Option.mem_toList, Option.map_eq_some_iff] at hnew
        obtain ⟨x, _, rfl⟩ := hnew
        simp [Task.IsContext] at hc
    | purgeNext e _ =>
        rw [spawned, Option.mem_toList, Option.map_eq_some_iff] at hnew
        obtain ⟨x, _, rfl⟩ := hnew
        simp [Task.IsContext] at hc
    | cancel h _ => simp only [spawned] at hnew; split_ifs at hnew <;> simp_all [Task.IsContext]
    | cancelRequest h _ => simp_all [spawned, Task.IsContext]
    | endpointPurge e => simp_all [spawned, Task.IsContext]
    | unlink thread h skip _ => cases skip <;> simp_all [spawned, Task.IsContext]
    | sendUnlink thread h n _ => simp_all [spawned, Task.IsContext]
    | close => simp [spawned] at hnew
    | complete thread h _ => cases thread <;> simp_all [spawned, Thread.resume, Task.IsContext]
  · exact .inl ⟨t, hold, hc⟩

-- The task that takes the step.
def Action.consumes : Action → Option Task
  | .drop s | .submit _ _ s => some (.drawn s)
  | .wskSend r s => some (.sendSubmit r s)
  | .sendComplete r s _ => some (.sent r s)
  | .cancelRequest r => some (.cancelRequest r)
  | .purgeNext e => some (.endpointPurge e)
  | .unlink thread r _ => some (.unlink thread r)
  | .sendUnlink thread r s => some (.sendUnlink thread r s)
  | .complete thread r => some (.complete thread r)
  | .draw _ | .receive _ | .cancel _ | .endpointPurge _ | .close => none

theorem step_persists {st st' : State} {a : Action} (hstep : step st a = some st') {t : Task}
    (ht : t ∈ st.tasks) (hother : a.consumes ≠ some t) : t ∈ st'.tasks := by
  have hne : ∀ {u : Task}, a.consumes = some u → t ≠ u := fun hu he => hother (he ▸ hu)
  cases step_cases hstep with
  | draw dirIn =>
      exact List.mem_cons_of_mem _ ht
  | drop s _ =>
      exact mem_advance_of_ne (hne rfl) ht
  | submit r e s _ _ =>
      exact mem_advance_of_ne (hne rfl) ht
  | wskSend r s _ =>
      split_ifs <;> exact mem_advance_of_ne (hne rfl) ht
  | sendComplete r s success _ =>
      cases success <;> exact mem_advance_of_ne (hne rfl) ht
  | receive s _ =>
      exact List.mem_append_right _ ht
  | cancel r _ =>
      simp only [cancelledByUpper]
      cases (st.dev.request r).cancellation with
      | armed => exact List.mem_cons_of_mem _ ht
      | idle => exact ht
      | cancelled => exact ht
      | fired => exact ht
  | cancelRequest r _ =>
      exact mem_advance_of_ne (hne rfl) ht
  | endpointPurge e =>
      exact List.mem_cons_of_mem _ ht
  | purgeNext e _ =>
      exact mem_advance_of_ne (hne rfl) ht
  | unlink thread r skip _ =>
      cases skip <;> exact mem_advance_of_ne (hne rfl) ht
  | sendUnlink thread r s _ =>
      exact mem_advance_of_ne (hne rfl) ht
  | complete thread r _ =>
      exact mem_advance_of_ne (hne rfl) ht
  | close =>
      exact ht

-- An owned request keeps its sequence number: it is not handed out again before it is completed.
theorem Inv.owned_seqnum {st st' : State} {a : Action} (hi : Inv st) (hstep : Device.step st a = some st')
    {t : Task} {r : Handle} (ht : t ∈ st.tasks) (ho : t.owns r = true) :
    (st'.dev.request r).seqnum = (st.dev.request r).seqnum := by
  rcases step_delivery hstep with ⟨h, e, d, rfl, hfree, _, rfl⟩ | ⟨_, hsame⟩
  · have hne : r ≠ h := by
      rintro rfl
      exact (hi.free hfree).1 (hi.outstanding_of_owner ht ho)
    rw [submitted_request_ne hne]
  · exact (hsame r).seqnum

end Usbip.Device

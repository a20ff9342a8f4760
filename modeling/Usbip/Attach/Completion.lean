import Usbip.Attach.Theorems

namespace Usbip.Attach

open Usbip.Library.Runs

-- `complete` has called WdfRequestComplete, or `device_control` has.
def Control.isLate : Control → Bool
  | .answered _ | .reattaching | .deleting | .finished => true
  | _ => false

-- How often the request has been completed, by the place where the attach goes on.
def Answers (s : State) : Prop :=
  match s.request.control with
  | .dispatched => ∃ removing, s = { removing := removing }
  | .dropped => s.request.completed = [] ∧ s.request.pending = true
  | .armed => s.request.completed = [] ∧ s.request.pending = true ∧ s.workitem.isSome
  | .queued st =>
    s.request.completed = [] ∧ s.request.pending = true ∧ s.workitem.isSome ∧
      (st = none → s.request.ai = [] → s.addrinfo ≠ [])
  | _ => s.request.completed.length = 1

-- The steps that bring the request nearer to its completion.
def Action.goesOn : Action → Prop
  | .dispatch .. | .irpComplete .. | .complete _ => True
  | _ => False

-- Name resolution comes first, then one connection after the other down the list of addresses.
def State.rank (s : State) : Nat × Nat :=
  match s.request.control with
  | .dispatched => (2, 0)
  | .armed => if s.request.ai = [] then (1, 1) else (0, 2 * s.request.ai.length + 1)
  | .queued _ => if s.request.ai = [] then (1, 0) else (0, 2 * s.request.ai.length)
  | _ => (0, 0)

def Below : Nat × Nat → Nat × Nat → Prop := Prod.Lex (· < ·) (· < ·)

theorem below_wf : WellFounded Below := (Prod.lex Nat.lt_wfRel Nat.lt_wfRel).wf

-- The WSK provider is there when the request comes.
def HasProvider (_ : State) : Action → Prop
  | .dispatch env _ => env.provider = true
  | _ => True

instance : ∀ (s : State) (a : Action), Decidable (HasProvider s a)
  | _, .dispatch env _ => inferInstanceAs (Decidable (env.provider = true))
  | _, .irpComplete .. | _, .complete _ | _, .afterAnswer _ | _, .startAttachAttempts | _, .deleteWorkitem _
  | _, .queryRemove | _, .detach .. | _, .detachStep _ | _, .deleteDevice _ => isTrue trivial

section Step

variable {s t : State} {a : Action}

theorem Answers.of_late (h : s.request.control.isLate = true) :
    Answers s ↔ s.request.completed.length = 1 := by
  unfold Answers
  cases hc : s.request.control <;> simp_all [Control.isLate]

theorem Answers.completed_of_not_late (hi : Answers s) (h : s.request.control.isLate = false) :
    s.request.completed = [] := by
  unfold Answers at hi
  cases hc : s.request.control with
  | dispatched =>
      rw [hc] at hi
      obtain ⟨removing, rfl⟩ := hi
      rfl
  | dropped | armed | queued st =>
      rw [hc] at hi
      exact hi.1
  | answered st | reattaching | deleting | finished =>
      rw [hc] at h
      cases h

-- Either a step of `complete` after its answer, or a step that does not concern the request.
theorem other_step (ha : ¬a.goesOn) (hs : step s a = some t) :
    (t.request = s.request ∧ t.workitem = s.workitem ∧ (s.request.control = .dispatched → Answers s → Answers t)) ∨
      (s.request.control.isLate = true ∧ t.request.control.isLate = true ∧
        t.request.completed = s.request.completed) := by
  cases step_cases hs with
  | dispatch | irpComplete | complete => exact absurd trivial ha
  | afterAnswer hc =>
      refine .inr ⟨by simp [hc, Control.isLate], ?_, ?_⟩
      all_goals
        unfold afterAnswer State.useExt
        split
        · rfl
        · dsimp only
          try split
          all_goals rfl
  | startAttachAttempts hc => exact .inr ⟨by simp [hc, Control.isLate], rfl, rfl⟩
  | deleteWorkitem hc => exact .inr ⟨by simp [hc, Control.isLate], rfl, rfl⟩
  | queryRemove =>
      refine .inl ⟨rfl, rfl, fun hc hi => ?_⟩
      unfold Answers at hi ⊢
      rw [hc] at hi
      obtain ⟨removing, rfl⟩ := hi
      exact ⟨true, rfl⟩
  | unplugged hcompleted => exact .inl ⟨rfl, rfl, fun _ hi => hi⟩
  | @detach env _ hcompleted =>
      have honly := disconnect_deviceOnly env s
      refine .inl ⟨honly.request, honly.workitem, fun hc hi => ?_⟩
      exact absurd (hi.completed_of_not_late (by rw [hc]; rfl)) hcompleted
  | @detachStep env task htask =>
      have honly := detachStage_deviceOnly env s task
      refine .inl ⟨honly.request, honly.workitem, fun hc hi => ?_⟩
      unfold Answers at hi
      rw [hc] at hi
      obtain ⟨removing, rfl⟩ := hi
      cases htask
  | @deleteDevice env hcompleted =>
      have honly := deleteDevice_deviceOnly env s
      refine .inl ⟨honly.request, honly.workitem, fun hc hi => ?_⟩
      exact absurd (hi.completed_of_not_late (by rw [hc]; rfl)) hcompleted

theorem irpComplete_request (st : Outcome) (first : Address) (rest : List Address) (s : State) :
    (irpComplete st first rest s).request = { s.request with control := .queued st } := by
  unfold irpComplete
  dsimp only
  split <;> rfl

theorem irpComplete_workitem {st : Outcome} {first : Address} {rest : List Address} (hwork : s.workitem.isSome) :
    (irpComplete st first rest s).workitem.isSome ∧
      (st = none → s.request.ai = [] → (irpComplete st first rest s).addrinfo ≠ []) := by
  obtain ⟨ctx, hctx⟩ := Option.isSome_iff_exists.mp hwork
  unfold irpComplete
  dsimp only
  split
  case isTrue => simp [State.addrinfo, State.mapWorkitem, hctx]
  case isFalse h => exact ⟨hwork, fun hst hai => absurd ⟨hai, by rw [hst]; rfl⟩ h⟩

theorem answer_completed (h : s.request.completed = []) (r : NTSTATUS) :
    Answers (s.answer r) ∧ (s.answer r).request.completed ≠ [] := by
  have hr : (s.answer r).request.completed = [r] := congrArg (· ++ [r]) h
  refine ⟨congrArg List.length hr, ?_⟩
  rw [hr]
  exact List.cons_ne_nil r []

-- Name resolution or the next connection is over, and the request either waits again or is completed.
theorem own_step (hi : Answers s) (ha : a.goesOn) (hs : step s a = some t) :
    Answers t ∧ s.request.completed = [] ∧
      (t.request.completed ≠ [] ∨ (t.request.control = .dropped ∧ ¬HasProvider s a) ∨
        (t.request.control ≠ .dropped ∧ Below t.rank s.rank)) := by
  cases step_cases hs with
  | @dispatch env once hc =>
      unfold Answers at hi
      rw [hc] at hi
      obtain ⟨removing, rfl⟩ := hi
      generalize hd : dispatch env once { removing := removing } = t
      have hspec := dispatch_spec env once (s := { removing := removing }) rfl rfl
      rw [hd] at hspec
      cases hspec with
      | refused r => exact ⟨rfl, rfl, .inl (List.cons_ne_nil _ _)⟩
      | undone r => exact ⟨rfl, rfl, .inl (List.cons_ne_nil _ _)⟩
      | started =>
          cases hprov : env.provider with
          | true => exact ⟨⟨rfl, rfl, rfl⟩, rfl, .inr (.inr ⟨Control.noConfusion, .left _ _ (by decide)⟩)⟩
          | false => exact ⟨⟨rfl, rfl⟩, rfl, .inr (.inl ⟨rfl, by simp [HasProvider, hprov]⟩)⟩
  | @irpComplete st first rest hc =>
      unfold Answers at hi
      rw [hc] at hi
      obtain ⟨hcompleted, hpending, hwork⟩ := hi
      have hrequest := irpComplete_request st first rest s
      refine ⟨?_, hcompleted, .inr (.inr ⟨?_, ?_⟩)⟩
      · unfold Answers
        rw [hrequest]
        exact ⟨hcompleted, hpending, irpComplete_workitem hwork⟩
      · rw [hrequest]
        exact Control.noConfusion
      · unfold State.rank
        rw [hrequest, hc]
        dsimp only
        split
        · exact .right _ (by decide)
        · exact .right _ (by omega)
  | @complete env st hc =>
      unfold Answers at hi
      rw [hc] at hi
      obtain ⟨hcompleted, hpending, hwork, haddrs⟩ := hi
      generalize hd : complete env st s = t
      have hspec := complete_spec env st s
      rw [hd] at hspec
      cases hspec with
      | failed r hf =>
          rename_i f
          have hr := answer_completed (s := s.mapExt f) hcompleted r
          exact ⟨hr.1, hcompleted, .inl hr.2⟩
      | connecting hnext =>
          refine ⟨⟨hcompleted, hpending, hwork⟩, hcompleted, .inr (.inr ⟨Control.noConfusion, ?_⟩)⟩
          unfold State.rank
          rw [hc]
          dsimp only
          obtain ⟨hai, hst, rfl⟩ | ⟨a, hai, hne⟩ := hnext
          · rw [if_pos hai, if_neg (haddrs hst hai)]
            exact .left _ _ (by decide)
          · rw [hai, if_neg hne, if_neg (List.cons_ne_nil _ _)]
            exact .right _ (by simp; omega)
      | refused r hai hu =>
          have hr := answer_completed (by rw [hu.request]; exact hcompleted) r
          exact ⟨hr.1, hcompleted, .inl hr.2⟩
      | connected hai =>
          have hr := answer_completed (s := (s.handedOver env.port).deviceStateChanged .plugged) hcompleted
            .STATUS_SUCCESS
          exact ⟨hr.1, hcompleted, .inl hr.2⟩
  | afterAnswer | startAttachAttempts | deleteWorkitem | queryRemove | unplugged | detach | detachStep
  | deleteDevice => cases ha

-- Whatever else is going on, what concerns the request stays.
theorem Answers.of_other (hi : Answers s) (ha : ¬a.goesOn) (hs : step s a = some t) :
    Answers t ∧ t.request.completed = s.request.completed ∧ (t.request.completed ≠ [] ∨ t.rank = s.rank) := by
  obtain ⟨hrequest, hwork, hfresh⟩ | ⟨hs', ht', hcompleted⟩ := other_step ha hs
  · have hrank : t.rank = s.rank := by
      unfold State.rank
      rw [hrequest]
    refine ⟨?_, congrArg Request.completed hrequest, .inr hrank⟩
    cases hc : s.request.control with
    | dispatched => exact hfresh hc hi
    | dropped | armed | queued | answered | reattaching | deleting | finished =>
        unfold Answers State.addrinfo at hi ⊢
        rw [hrequest, hwork]
        rw [hc] at hi ⊢
        exact hi
  · have hlen := (Answers.of_late hs').mp hi
    refine ⟨(Answers.of_late ht').mpr (hcompleted ▸ hlen), hcompleted, .inl ?_⟩
    rw [hcompleted]
    exact List.ne_nil_of_length_eq_add_one hlen

theorem completed_stays (hi : Answers s) (hs : step s a = some t) (hc : s.request.completed ≠ []) :
    t.request.completed ≠ [] := by
  by_cases ha : a.goesOn
  · exact absurd (own_step hi ha hs).2.1 hc
  · rwa [(hi.of_other ha hs).2.1]

theorem Answers.step (hi : Answers s) (hs : step s a = some t) : Answers t := by
  by_cases ha : a.goesOn
  · exact (own_step hi ha hs).1
  · exact (hi.of_other ha hs).1

end Step

section Runs

variable {ok : State → Action → Prop} {s : State}

theorem reachable_answers (h : machine.Reachable ok s) : Answers s := by
  refine h.invariant (fun s hs => ?_) fun _ _ _ hi _ hs => hi.step hs
  obtain ⟨removing, rfl⟩ := hs
  exact ⟨removing, rfl⟩

theorem reachable_not_dropped (h : machine.Reachable HasProvider s) : s.request.control ≠ .dropped := by
  refine h.invariant_under (J := fun s => s.request.control ≠ .dropped) (fun _ h => reachable_answers h)
    (fun s hs => ?_) fun s a t hi hnot hok hs => ?_
  · obtain ⟨removing, rfl⟩ := hs
    exact Control.noConfusion
  · by_cases ha : a.goesOn
    · obtain ⟨ht, _, hcompleted | ⟨_, hprov⟩ | ⟨hnot, _⟩⟩ := own_step hi ha hs
      · intro hc
        exact hcompleted (ht.completed_of_not_late (by rw [hc]; rfl))
      · exact absurd hok hprov
      · exact hnot
    · obtain ⟨hrequest, _⟩ | ⟨_, hlate, _⟩ := other_step ha hs
      · rwa [hrequest]
      · intro hc
        rw [hc] at hlate
        cases hlate

-- As long as the request is not completed, somebody is going to go on with it.
theorem goesOn_possible (h : machine.Reachable HasProvider s) (hc : s.request.completed = []) :
    ∃ a t, a.goesOn ∧ HasProvider s a ∧ machine.step s a = some t := by
  have hi := reachable_answers h
  have hnot := reachable_not_dropped h
  cases hcontrol : s.request.control with
  | dispatched =>
      exact ⟨.dispatch {} false, dispatch {} false s, trivial, rfl, by simp [machine, step, hcontrol]⟩
  | dropped => exact absurd hcontrol hnot
  | armed =>
      exact ⟨.irpComplete none 0 [], irpComplete none 0 [] s, trivial, trivial, by simp [machine, step, hcontrol]⟩
  | queued st => exact ⟨.complete {}, complete {} st s, trivial, trivial, by simp [machine, step, hcontrol]⟩
  | answered | reattaching | deleting | finished =>
      have hlen := (Answers.of_late (by rw [hcontrol]; rfl)).mp hi
      rw [hc] at hlen
      cases hlen

-- A request is completed at most once; a pending one is under way until then, and every run in which the
-- IRP, the work item and the queue are served brings it to its completion.
theorem request_completed_once (h : machine.Reachable HasProvider s) :
    s.request.completed.length ≤ 1 ∧
      (s.request.pending = true → s.request.completed = [] →
        s.request.control = .armed ∨ ∃ st, s.request.control = .queued st) ∧
      ∀ (state : Nat → State) (act : Nat → Action), state 0 = s → machine.IsRun HasProvider state act →
        machine.IsFair HasProvider Action.goesOn state act →
        ∃ n, ∀ k, n ≤ k → (state k).request.completed.length = 1 := by
  have hlen : ∀ u, machine.Reachable HasProvider u → u.request.completed.length ≤ 1 := by
    intro u hu
    cases hlate : u.request.control.isLate with
    | false => simp [(reachable_answers hu).completed_of_not_late hlate]
    | true => exact ((Answers.of_late hlate).mp (reachable_answers hu)).le
  refine ⟨hlen s h, fun hpending hc => ?_, fun state act h0 hrun hfair => ?_⟩
  · have hi := reachable_answers h
    have hnot := reachable_not_dropped h
    cases hcontrol : s.request.control with
    | dispatched =>
        unfold Answers at hi
        rw [hcontrol] at hi
        obtain ⟨removing, rfl⟩ := hi
        cases hpending
    | dropped => exact absurd hcontrol hnot
    | armed => exact .inl rfl
    | queued st => exact .inr ⟨st, rfl⟩
    | answered | reattaching | deleting | finished =>
        have hone := (Answers.of_late (by rw [hcontrol]; rfl)).mp hi
        rw [hc] at hone
        cases hone
  · have hreach : ∀ n, machine.Reachable HasProvider (state n) := hrun.reachable (h0 ▸ h)
    obtain ⟨n, hn⟩ : ∃ n, (state n).request.completed ≠ [] := by
      refine hrun.eventually (P := fun u => u.request.completed ≠ []) (hreach 0) hfair below_wf
        (fun u hu hP => goesOn_possible hu (not_not.mp hP)) (fun u a v hu hok ha hs => ?_)
        fun u a v hu hok ha hs => ((reachable_answers hu).of_other ha hs).2.2
      obtain hP | ⟨_, hprov⟩ | ⟨_, hbelow⟩ := (own_step (reachable_answers hu) ha hs).2.2
      · exact .inl hP
      · exact absurd hok hprov
      · exact .inr hbelow
    refine ⟨n, fun k hk => ?_⟩
    have hk' : (state k).request.completed ≠ [] := by
      induction k, hk using Nat.le_induction with
      | base => exact hn
      | succ k hk ih => exact completed_stays (reachable_answers (hreach k)) (hrun.step k) ih
    exact Nat.le_antisymm (hlen _ (hreach k)) (List.length_pos_iff.mpr hk')

end Runs

-- The first address does not answer, the second one does; the devices of the controller take all ports.
def portFullSchedule : List Action :=
  [.dispatch {} false, .irpComplete none 0 [1], .complete {},
    .irpComplete (some ⟨.STATUS_UNSUCCESSFUL, by decide, by decide⟩) 0 [], .complete {}, .irpComplete none 0 [],
    .complete { port := 0 }]

theorem request_completed_once_portFull :
    ∃ s, machine.Reachable HasProvider s ∧ s.request.completed = [.USBIP_ERROR_PORTFULL] ∧
      s.request.completed.length ≤ 1 ∧
      (s.request.pending = true → s.request.completed = [] →
        s.request.control = .armed ∨ ∃ st, s.request.control = .queued st) ∧
      ∀ (state : Nat → State) (act : Nat → Action), state 0 = s → machine.IsRun HasProvider state act →
        machine.IsFair HasProvider Action.goesOn state act →
        ∃ n, ∀ k, n ≤ k → (state k).request.completed.length = 1 := by
  have hrun : (machine.run HasProvider newRequest portFullSchedule).any
      (fun s => s.request.completed == [.USBIP_ERROR_PORTFULL]) = true := by
    decide +kernel
  obtain ⟨s, hs, hcompleted⟩ := (newRequest_reachable _).exists_run hrun
  exact ⟨s, hs, eq_of_beq hcompleted, request_completed_once hs⟩

def isDropped (s : State) : Bool :=
  match s.request.control with
  | .dropped => s.request.pending && s.request.completed.isEmpty
  | _ => false

-- Without a provider nobody is given the IRP, and the request stays pending.
theorem request_dropped :
    ¬ ∀ s, machine.Reachable (fun _ _ => True) s → s.request.pending = true → s.request.completed = [] →
      s.request.control = .armed ∨ ∃ st, s.request.control = .queued st := by
  intro h
  have hrun : (machine.run (fun _ _ => True) newRequest [.dispatch { provider := false } false]).any isDropped =
      true := by
    decide +kernel
  obtain ⟨s, hs, hdropped⟩ := (newRequest_reachable _).exists_run hrun
  unfold isDropped at hdropped
  split at hdropped
  case h_1 hcontrol =>
    obtain ⟨hpending, hcompleted⟩ := Bool.and_eq_true_iff.mp hdropped
    obtain harmed | ⟨st, hqueued⟩ := h s hs hpending (List.isEmpty_iff.mp hcompleted)
    · rw [hcontrol] at harmed
      cases harmed
    · rw [hcontrol] at hqueued
      cases hqueued
  case h_2 => cases hdropped

end Usbip.Attach

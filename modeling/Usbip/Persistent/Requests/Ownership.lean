import Usbip.Persistent.Requests.Theorems

namespace Usbip.Persistent.Requests

open Function
open Usbip.Library.Pool
open Usbip.Library.Runs

-- A request that start_attach_attempts has not left to a send or to the timer yet.
def Task.fresh : Task → Option Request
  | .adding r _ | .created r _ => some r
  | _ => none

theorem owns_of_fresh {task : Task} {r : Request} (h : task.fresh = some r) : task.owns r = true := by
  cases task <;> cases h <;> exact owns_iff.mpr rfl

structure Pacing (st : State) : Prop where
  valid : Valid st.vhci
  paced : ∀ r < st.next, Paced st.vhci (st.ctx r)
  fresh : ∀ task ∈ st.tasks, ∀ r, task.fresh = some r → (st.ctx r).retryCnt = 0

variable {st st' t : State} {env : Env} {task : Task} {next : List Task} {r : Request}

-- What a task that is about a request leaves of its context.
structure PacedStep (st : State) (task : Task) (st' : State) (next : List Task) : Prop where
  paced : ∀ r < st'.next, Paced st.vhci (st'.ctx r)
  fresh : ∀ x ∈ next, ∀ r, x.fresh = some r → (st'.ctx r).retryCnt = 0

theorem PacedStep.of_same (hp : Pacing st) (hnext : ∀ x ∈ next, x.fresh = none) {reattachReq : List Request}
    {deletions : Request → Nat} :
    PacedStep st task { st with reattachReq := reattachReq, deletions := deletions } next where
  paced := hp.paced
  fresh x hx r hr := by
    rw [hnext x hx] at hr
    cases hr

-- The context of one request changes.
theorem PacedStep.of_update (hp : Pacing st) (hnext : ∀ x ∈ next, x.fresh = none) {ctx : AttachCtx}
    (hctx : Paced st.vhci ctx) : PacedStep st task { st with ctx := update st.ctx r ctx } next where
  paced q hq := by
    by_cases heq : q = r
    · subst heq
      simpa using hctx
    · simpa [update_of_ne heq] using hp.paced q hq
  fresh x hx q hq := by
    rw [hnext x hx] at hq
    cases hq

theorem fresh_sendPluginHardware (env : Env) (sender : Owner) (r : Request) :
    ∀ x ∈ sendPluginHardware env sender r, x.fresh = none := by
  unfold sendPluginHardware
  split <;> simp [Task.fresh]

theorem Pacing.of_run (hp : Pacing st) (hi : Inv st) (htask : task ∈ st.tasks)
    (h : run st env task = some (st', next)) : PacedStep st task st' next := by
  cases task with
  | counting hash delayed =>
      simp only [run] at h
      split at h <;> cases h <;> exact .of_same hp (by simp [Task.fresh])
  | creating hash delayed =>
      simp only [run] at h
      split at h <;> cases h
      · have hnew := paced_startAttachAttempts hp.valid false
        refine ⟨fun r hr => ?_, ?_⟩
        · by_cases heq : r = st.next
          · subst heq
            simpa [createRequest] using hnew
          · have hlt : r < st.next := Nat.lt_of_le_of_ne (Nat.le_of_lt_succ hr) heq
            simpa [createRequest, update_of_ne heq] using hp.paced r hlt
        · simp [Task.fresh, createRequest, startAttachAttempts]
      · exact .of_same hp (by simp)
  | adding r delayed =>
      simp only [run] at h
      split at h <;> cases h
      · have hcnt := hp.fresh _ htask r rfl
        exact ⟨hp.paced, by simp [Task.fresh, hcnt]⟩
      · exact .of_same hp (by simp [Task.fresh])
  | created r delayed =>
      simp only [run] at h
      have hcnt := hp.fresh _ htask r rfl
      have hpaced := hp.paced r (hi.of_owns htask (owns_iff.mpr rfl)).2
      split at h <;> cases h
      · exact .of_update hp (by simp [Task.fresh]) ⟨hpaced.min, hpaced.max, by simp [hcnt]⟩
      · exact .of_same hp (fresh_sendPluginHardware env .creator r)
  | completing r =>
      simp only [run] at h
      have hpaced := hp.paced r (hi.of_owns htask (owns_iff.mpr rfl)).2
      obtain hnone | ⟨-, hnext, hsome⟩ :=
        onPluginHardware_spec hp.valid hpaced { env.completion with removing := st.removing }
      · rw [hnone] at h
        cases h
        exact .of_same hp (by simp [Task.fresh])
      · rw [hsome] at h
        cases h
        exact .of_update hp (by simp [Task.fresh]) hnext
  | expired r | stopping hash =>
      simp only [run] at h
      split at h <;> cases h <;> exact .of_same hp (by simp [Task.fresh])
  | sending r =>
      cases h
      exact .of_same hp (fresh_sendPluginHardware env .timerCallback r)
  | sent r | armed r | leaving owner r | released r | canceling hash r =>
      cases h
      exact .of_same hp (by simp [Task.fresh])

theorem Pacing.go (hp : Pacing st) (hi : Inv st) (htask : task ∈ st.tasks)
    (h : run st env task = some (st', next)) : Pacing { st' with tasks := advance st.tasks task next } := by
  have hm := moved_of_run h
  obtain ⟨hpaced, hfresh⟩ := hp.of_run hi htask h
  refine ⟨hm.vhci ▸ hp.valid, hm.vhci ▸ hpaced, fun x hx r hr => ?_⟩
  obtain hnew | hold := List.mem_append.mp hx
  · exact hfresh x hnew r hr
  · have howns := owns_of_fresh hr
    have hother : task.owns r = false := by
      by_contra hself
      rw [Bool.not_eq_false] at hself
      rw [hi.others htask hself hold] at howns
      cases howns
    have hmem := List.mem_of_mem_erase hold
    rw [hm.ctx r hother (hi.of_owns hmem howns).2]
    exact hp.fresh x hmem r hr

theorem Pacing.call (hp : Pacing st) (removing : Bool) (htask : task.fresh = none) :
    Pacing { st with removing := removing, tasks := task :: st.tasks } := by
  refine ⟨hp.valid, hp.paced, fun x hx r hr => ?_⟩
  obtain rfl | hx := List.mem_cons.mp hx
  · rw [htask] at hr
    cases hr
  · exact hp.fresh x hx r hr

theorem Pacing.step {a : Action} (hi : Inv st) (hp : Pacing st) (h : Requests.step st a = some t) : Pacing t := by
  obtain rfl | ⟨removing, task, hbegins, rfl⟩ | ⟨task, env, st', next, -, htask, hrun, rfl⟩ := step_cases h
  · exact hp
  · exact hp.call removing (by cases task <;> first | rfl | cases hbegins)
  · exact hp.go hi htask hrun

theorem Pacing.init (h : machine.init st) : Pacing st := by
  obtain ⟨params, vhci, ports, ctx, hconstants, -, rfl⟩ := h
  obtain ⟨vhci', hinit, hvalid⟩ := initConstants_spec params
  obtain rfl : vhci = vhci' := Except.ok.inj (hconstants.symm.trans hinit)
  exact ⟨hvalid, fun r hr => absurd hr (Nat.not_lt_zero r), by simp⟩

theorem reachable_pacing {ok : State → Action → Prop} (h : machine.Reachable ok st) : Pacing st :=
  h.invariant_under (fun _ => reachable_inv) (fun _ => Pacing.init) fun _ _ _ hi hp _ hs => hp.step hi hs

-- How far a request is from its next completion.
def Task.phase : Task → Nat
  | .adding .. => 7
  | .created .. => 6
  | .armed _ => 5
  | .expired _ => 4
  | .sending _ => 3
  | .sent _ => 2
  | .completing _ => 1
  | _ => 0

def Task.weight (r : Request) (task : Task) : Nat := if task.owns r then task.phase else 0

def attemptsLeft (vhci : Constants) (ctx : AttachCtx) : Nat := 5 * (vhci.reattachMaxAttempts + 1 - ctx.retryCnt)

def State.rank (r : Request) (st : State) : Nat :=
  attemptsLeft st.vhci (st.ctx r) + (st.tasks.map (Task.weight r)).sum

theorem weight_eq_zero (h : ∀ x ∈ next, x.owns r = false) : (next.map (Task.weight r)).sum = 0 := by
  refine List.sum_eq_zero fun n hn => ?_
  obtain ⟨x, hx, rfl⟩ := List.mem_map.mp hn
  simp [Task.weight, h x hx]

-- The steps of other tasks leave a request that is there where it is.
theorem Moved.other (hm : Moved st task st' next) (hr : r < st.next) (ho : task.owns r = false) :
    st'.deletions r = st.deletions r ∧ st'.ctx r = st.ctx r ∧ (next.map (Task.weight r)).sum = 0 := by
  have hbalance := hm.balance r
  have hmono := hm.deletions r
  rw [creations_of_lt hr, creations_of_lt (hr.trans_le hm.grows), ho] at hbalance
  simp only [Bool.false_eq_true, if_false] at hbalance
  have hzero : next.countP (Task.owns r) = 0 := by omega
  refine ⟨by omega, hm.ctx r ho hr, weight_eq_zero fun x hx => ?_⟩
  exact Bool.eq_false_iff.mpr (List.countP_eq_zero.mp hzero x hx)

theorem weight_sendPluginHardware (env : Env) (sender : Owner) (r : Request) :
    ((sendPluginHardware env sender r).map (Task.weight r)).sum ≤ 2 := by
  unfold sendPluginHardware
  split <;> simp [Task.weight, owns_eq, Task.request, Task.ownership, Task.phase]

-- The step of its own task deletes a request or brings it nearer to the end of its attempts.
theorem descends_of_run (hp : Pacing st) (hr : r < st.next) (h : run st env task = some (st', next))
    (ho : task.request = some r) : st'.deletions r = st.deletions r + 1 ∨
      attemptsLeft st.vhci (st'.ctx r) + (next.map (Task.weight r)).sum <
        attemptsLeft st.vhci (st.ctx r) + Task.weight r task := by
  have hself : Task.weight r task = task.phase := if_pos (owns_iff.mpr ho)
  rw [hself]
  cases task with
  | counting | creating | released | stopping | canceling => cases ho
  | adding q delayed =>
      obtain rfl := Option.some.inj ho
      simp only [run] at h
      split at h <;> cases h <;> right <;> simp [Task.weight, owns_eq, Task.request, Task.ownership, Task.phase]
  | created q delayed =>
      obtain rfl := Option.some.inj ho
      simp only [run] at h
      split at h <;> cases h
      · right
        simp [Task.weight, owns_eq, Task.request, Task.ownership, Task.phase, attemptsLeft]
        omega
      · have hsent := weight_sendPluginHardware env .creator q
        right
        simp only [Task.phase]
        omega
  | sent q | armed q =>
      obtain rfl := Option.some.inj ho
      cases h
      right
      simp [Task.weight, owns_eq, Task.request, Task.ownership, Task.phase]
  | completing q =>
      obtain rfl := Option.some.inj ho
      simp only [run] at h
      obtain hnone | ⟨hleft, -, hsome⟩ :=
        onPluginHardware_spec hp.valid (hp.paced q hr) { env.completion with removing := st.removing }
      · rw [hnone] at h
        cases h
        right
        simp [Task.weight, owns_eq, Task.request, Task.ownership, Task.phase]
      · rw [hsome] at h
        cases h
        right
        simp [Task.weight, owns_eq, Task.request, Task.ownership, Task.phase, attemptsLeft, AttachCtx.next]
        omega
  | expired q =>
      obtain rfl := Option.some.inj ho
      simp only [run] at h
      split at h <;> cases h <;> right <;> simp [Task.weight, owns_eq, Task.request, Task.ownership, Task.phase]
  | sending q =>
      obtain rfl := Option.some.inj ho
      cases h
      have hsent := weight_sendPluginHardware env .timerCallback q
      right
      simp only [Task.phase]
      omega
  | leaving owner q =>
      obtain rfl := Option.some.inj ho
      cases h
      left
      simp [deleteRequest]

-- A step of who owns the request.
def Action.goesOn (r : Request) : Action → Prop
  | .go task _ => task.request = some r
  | _ => False

theorem rank_go (htask : task ∈ st.tasks) (r : Request) (next : List Task) :
    ((advance st.tasks task next).map (Task.weight r)).sum + Task.weight r task =
      (next.map (Task.weight r)).sum + (st.tasks.map (Task.weight r)).sum :=
  sum_advance (Task.weight r) htask next

theorem own_step {a : Action} (hp : Pacing st) (hr : r < st.next) (h : step st a = some t) (hown : a.goesOn r) :
    t.deletions r = st.deletions r + 1 ∨ t.rank r < st.rank r := by
  cases a with
  | startAttachAttempts | stopAttachAttempts | queryRemove => cases hown
  | go task env =>
      obtain ⟨htask, h⟩ := Option.ite_none_right_eq_some.mp h
      obtain ⟨⟨st', next⟩, hrun, rfl⟩ := Option.map_eq_some_iff.mp h
      refine (descends_of_run hp hr hrun hown).imp id fun hlt => ?_
      have hsum := rank_go htask r next
      change attemptsLeft st'.vhci (st'.ctx r) + _ < _
      rw [(moved_of_run hrun).vhci]
      simp only [State.rank]
      omega

theorem other_step {a : Action} (hr : r < st.next) (h : step st a = some t) (hown : ¬a.goesOn r) :
    t.deletions r = st.deletions r ∧ t.rank r = st.rank r := by
  obtain rfl | ⟨removing, task, hbegins, rfl⟩ | ⟨task, env, st', next, rfl, htask, hrun, rfl⟩ := step_cases h
  · exact ⟨rfl, rfl⟩
  · have hweight : Task.weight r task = 0 := by
      rw [Task.weight, owns_eq, request_of_begins hbegins]
      rfl
    exact ⟨rfl, by simp [State.rank, hweight]⟩
  · have ho : task.owns r = false := Bool.eq_false_iff.mpr fun howns => hown (owns_iff.mp howns)
    have hm := moved_of_run hrun
    obtain ⟨hdeletions, hctx, hnext⟩ := hm.other hr ho
    have hsum := rank_go htask r next
    have hweight : Task.weight r task = 0 := by simp [Task.weight, ho]
    refine ⟨hdeletions, ?_⟩
    change attemptsLeft st'.vhci (st'.ctx r) + _ = _
    rw [hm.vhci, hctx]
    simp only [State.rank]
    omega

theorem next_le_of_step {a : Action} (h : step st a = some t) : st.next ≤ t.next := by
  obtain rfl | ⟨removing, task, hbegins, rfl⟩ | ⟨task, env, st', next, rfl, htask, hrun, rfl⟩ := step_cases h
  · exact le_refl _
  · exact le_refl _
  · exact (moved_of_run hrun).grows

theorem deletions_le_of_step {a : Action} (h : step st a = some t) (r : Request) : st.deletions r ≤ t.deletions r := by
  obtain rfl | ⟨removing, task, hbegins, rfl⟩ | ⟨task, env, st', next, rfl, htask, hrun, rfl⟩ := step_cases h
  · exact le_refl _
  · exact le_refl _
  · exact (moved_of_run hrun).deletions r

-- No task gets stuck on its request.
theorem run_possible (hp : Pacing st) (hr : r < st.next) (ho : task.request = some r) :
    ∃ st' next, run st {} task = some (st', next) := by
  cases task with
  | counting | creating | released | stopping | canceling => cases ho
  | adding q delayed => exact ⟨_, _, rfl⟩
  | created q delayed => cases delayed <;> exact ⟨_, _, rfl⟩
  | sent q | armed q | sending q | leaving owner q => exact ⟨_, _, rfl⟩
  | completing q =>
      obtain rfl := Option.some.inj ho
      simp only [run]
      obtain hnone | ⟨-, -, hsome⟩ := onPluginHardware_spec hp.valid (hp.paced q hr)
        { ({} : Env).completion with removing := st.removing }
      · rw [hnone]
        exact ⟨_, _, rfl⟩
      · rw [hsome]
        exact ⟨_, _, rfl⟩
  | expired q =>
      simp only [run]
      split <;> exact ⟨_, _, rfl⟩

theorem goesOn_possible (hi : Inv st) (hp : Pacing st) (hr : r < st.next) (hlive : st.deletions r = 0) :
    ∃ a t, a.goesOn r ∧ step st a = some t := by
  have hbalance := hi.balance r
  rw [creations_of_lt hr] at hbalance
  have hpos : 0 < st.tasks.countP (Task.owns r) := by omega
  obtain ⟨task, htask, howns⟩ := List.countP_pos_iff.mp hpos
  have ho := owns_iff.mp howns
  obtain ⟨st', next, hrun⟩ := run_possible hp hr ho
  exact ⟨.go task {}, { st' with tasks := advance st.tasks task next }, ho, by simp [step, htask, hrun]⟩

abbrev Any (_ : State) (_ : Action) : Prop := True

-- The runs from where a request has been created.
def createdMachine (r : Request) : Machine State Action where
  init u := machine.Reachable Any u ∧ r < u.next
  step := step

theorem reachable_created {u : State} (h : (createdMachine r).Reachable Any u) :
    machine.Reachable Any u ∧ r < u.next := by
  induction h with
  | init hu => exact hu
  | step _ hok hs ih => exact ⟨ih.1.step hok hs, ih.2.trans_le (next_le_of_step hs)⟩

-- The attempts of a request come to an end if its owners go on, and it is deleted then.
theorem attachRequest_deleted (h : machine.Reachable Any st) (hr : r < st.next) {state : Nat → State}
    {act : Nat → Action} (h0 : state 0 = st) (hrun : machine.IsRun Any state act)
    (hfair : machine.IsFair Any (Action.goesOn r) state act) : ∃ n, ∀ k, n ≤ k → (state k).deletions r = 1 := by
  have hrun' : (createdMachine r).IsRun Any state act := ⟨hrun.ok, hrun.step⟩
  have hinit : (createdMachine r).Reachable Any (state 0) := .init (h0 ▸ ⟨h, hr⟩)
  have hfair' : (createdMachine r).IsFair Any (Action.goesOn r) state act := hfair
  have hlive : ∀ u, (createdMachine r).Reachable Any u → ¬u.deletions r ≠ 0 →
      ∃ a v, a.goesOn r ∧ Any u a ∧ (createdMachine r).step u a = some v := by
    intro u hu hlive
    obtain ⟨hu, hlt⟩ := reachable_created hu
    obtain ⟨a, v, hown, hs⟩ := goesOn_possible (reachable_inv hu) (reachable_pacing hu) hlt (not_not.mp hlive)
    exact ⟨a, v, hown, trivial, hs⟩
  have hown : ∀ u a v, (createdMachine r).Reachable Any u → Any u a → a.goesOn r →
      (createdMachine r).step u a = some v → v.deletions r ≠ 0 ∨ v.rank r < u.rank r := by
    intro u a v hu _ ha hs
    obtain ⟨hu, hlt⟩ := reachable_created hu
    obtain hdeleted | hrank := own_step (reachable_pacing hu) hlt hs ha
    · rw [hdeleted]
      exact .inl (Nat.succ_ne_zero _)
    · exact .inr hrank
  have hother : ∀ u a v, (createdMachine r).Reachable Any u → Any u a → ¬a.goesOn r →
      (createdMachine r).step u a = some v → v.deletions r ≠ 0 ∨ v.rank r = u.rank r :=
    fun u a v hu _ ha hs => .inr (other_step (reachable_created hu).2 hs ha).2
  obtain ⟨n, hn⟩ : ∃ n, (state n).deletions r ≠ 0 :=
    hrun'.eventually hinit hfair' Nat.lt_wfRel.wf hlive hown hother
  have hstays : ∀ k, n ≤ k → (state k).deletions r ≠ 0 := by
    intro k hk
    induction k, hk using Nat.le_induction with
    | base => exact hn
    | succ k _ ih =>
        have hmono := deletions_le_of_step (hrun.step k) r
        omega
  refine ⟨n, fun k hk => ?_⟩
  have hbalance := (reachable_inv (hrun.reachable (h0 ▸ h) k)).balance r
  have hle := creations_le (state k) r
  have hpos := hstays k hk
  omega

-- Who holds a reference to a request apart from its owner: the collection, and calls of `stop_attach_attempts`.
def Task.holdsRef (r : Request) : Task → Bool
  | .canceling _ q => q == r
  | _ => false

def State.references (st : State) (r : Request) : Nat :=
  st.reattachReq.count r + st.tasks.countP (Task.holdsRef r)

theorem request_in_use {a : Action} (hi : Inv st) (h : step st a = some t) (hr : r ∈ st.uses a) :
    st.deletions r = 0 ∨ (∃ hash env, a = .go (.canceling hash r) env) ∧ 0 < st.references r := by
  cases a with
  | startAttachAttempts | stopAttachAttempts | queryRemove => cases hr
  | go task env =>
      obtain ⟨htask, h⟩ := Option.ite_none_right_eq_some.mp h
      cases task with
      | canceling hash q =>
          obtain rfl := List.mem_singleton.mp hr
          have hpos : 0 < st.tasks.countP (Task.holdsRef r) :=
            List.countP_pos_iff.mpr ⟨_, htask, by simp [Task.holdsRef]⟩
          exact .inr ⟨⟨hash, env, rfl⟩, Nat.lt_of_lt_of_le hpos (Nat.le_add_left _ _)⟩
      | stopping hash => exact .inl (hi.members r hr).1
      | counting | creating | released => cases hr
      | adding q | created q | sent q | completing q | armed q | expired q | sending q | leaving _ q =>
          obtain rfl := List.mem_singleton.mp hr
          exact .inl (hi.of_owns htask (owns_iff.mpr rfl)).1

-- A request has one owner until it is deleted, which happens in every run that goes on; members of the collection
-- are not deleted, and a request that is deleted is used by those only who cancel it with a reference of their own.
theorem attachRequest_ownership (h : machine.Reachable Any st) :
    (∀ r < st.next, (st.owners r).length + st.deletions r = 1) ∧
      (∀ r ∈ st.reattachReq, st.deletions r = 0 ∧ r < st.next) ∧
      (∀ a t r, machine.step st a = some t → r ∈ st.uses a →
        st.deletions r = 0 ∨ (∃ hash env, a = .go (.canceling hash r) env) ∧ 0 < st.references r) ∧
      ∀ r < st.next, ∀ (state : Nat → State) (act : Nat → Action), state 0 = st → machine.IsRun Any state act →
        machine.IsFair Any (Action.goesOn r) state act → ∃ n, ∀ k, n ≤ k → (state k).deletions r = 1 := by
  have hi := reachable_inv h
  refine ⟨fun r hr => ?_, hi.members, fun a t r hs hr => request_in_use hi hs hr,
    fun r hr state act h0 hrun hfair => attachRequest_deleted h hr h0 hrun hfair⟩
  rw [length_owners, hi.balance r, creations_of_lt hr]

-- A request is sent and taken by a call that cancels it; it comes back and is deleted before it is cancelled.
def lateCancelSchedule : List Action :=
  [.startAttachAttempts 7 false, .go (.counting 7 false) {}, .go (.creating 7 false) {}, .go (.adding 0 false) {},
    .go (.created 0 false) {}, .go (.released 0) {}, .stopAttachAttempts 7, .go (.stopping 7) {}, .go (.sent 0) {},
    .go (.completing 0) {}, .go (.leaving .completionRoutine 0) {}]

theorem attachRequest_canceledLate : ¬ ∀ st, machine.Reachable Any st → ∀ a t r, machine.step st a = some t →
    r ∈ st.uses a → st.deletions r = 0 := by
  intro h
  have hrun : (machine.run Any smallController lateCancelSchedule).any
      (fun st => st.deletions 0 == 1 && decide (.canceling 7 0 ∈ st.tasks)) = true := by
    decide +kernel
  obtain ⟨st, hst, hlate⟩ := (smallController_reachable _).exists_run hrun
  obtain ⟨hdeleted, htask⟩ := Bool.and_eq_true_iff.mp hlate
  have hs : machine.step st (.go (.canceling 7 0) {}) =
      some { st with tasks := advance st.tasks (.canceling 7 0) [.stopping 7] } := if_pos (of_decide_eq_true htask)
  have hzero := h st hst _ _ 0 hs (List.mem_singleton_self 0)
  rw [eq_of_beq hdeleted] at hzero
  cases hzero

theorem attachRequest_ownership_sent :
    ∃ st, machine.Reachable Any st ∧ st.owners 0 = [.send] ∧
      (∀ r < st.next, (st.owners r).length + st.deletions r = 1) ∧
      (∀ r ∈ st.reattachReq, st.deletions r = 0 ∧ r < st.next) ∧
      (∀ a t r, machine.step st a = some t → r ∈ st.uses a →
        st.deletions r = 0 ∨ (∃ hash env, a = .go (.canceling hash r) env) ∧ 0 < st.references r) ∧
      ∀ r < st.next, ∀ (state : Nat → State) (act : Nat → Action), state 0 = st → machine.IsRun Any state act →
        machine.IsFair Any (Action.goesOn r) state act → ∃ n, ∀ k, n ≤ k → (state k).deletions r = 1 := by
  have hrun : (machine.run Any smallController (lateCancelSchedule.take 6)).any
      (fun st => st.owners 0 == [.send]) = true := by
    decide +kernel
  obtain ⟨st, hst, howners⟩ := (smallController_reachable _).exists_run hrun
  exact ⟨st, hst, eq_of_beq howners, attachRequest_ownership hst⟩

end Usbip.Persistent.Requests

import Usbip.Persistent.Requests
import Usbip.Persistent.Schedule.Theorems

namespace Usbip.Persistent.Requests

open Function
open Usbip.Library.Pool
open Usbip.Library.Runs

def Task.owns (r : Request) (task : Task) : Bool := (task.ownerOf r).isSome

theorem length_owners (st : State) (r : Request) : (st.owners r).length = st.tasks.countP (Task.owns r) :=
  List.length_filterMap_eq_countP

def Task.request (task : Task) : Option Request := task.ownership.map Prod.snd

theorem owns_iff {r : Request} {task : Task} : task.owns r = true ↔ task.request = some r := by
  rw [Task.owns, Task.ownerOf, Task.request]
  cases task.ownership with
  | none => simp
  | some o =>
      obtain ⟨owner, q⟩ := o
      by_cases h : q = r <;> simp [h]

theorem owns_eq (r : Request) (task : Task) : task.owns r = (task.request == some r) := by
  rw [Bool.eq_iff_iff, owns_iff, beq_iff_eq]

theorem ne_of_not_owns {r q : Request} {task : Task} (h : task.owns q = false) (hr : task.request = some r) : q ≠ r := by
  rintro rfl
  rw [owns_iff.mpr hr] at h
  cases h

theorem countP_owns (r : Request) (tasks : List Task) :
    tasks.countP (Task.owns r) = (tasks.filterMap Task.request).count r := by
  rw [List.count_filterMap]
  exact List.countP_congr fun task _ => by rw [owns_eq]

theorem count_request (r : Request) (task : Task) : task.request.toList.count r = if task.owns r then 1 else 0 := by
  rw [owns_eq]
  cases task.request <;> simp [List.count_singleton]

-- How often a request was created.
def State.creations (st : State) (r : Request) : Nat := if r < st.next then 1 else 0

theorem deletions_deleteRequest {st : State} (r q : Request) : st.deletions q ≤ (deleteRequest st r).deletions q := by
  by_cases hq : q = r
  · subst hq
    simp [deleteRequest]
  · simp [deleteRequest, update_of_ne hq]

-- All that the step of a task does to the requests: who owns one is handed on, ends with its deletion and begins
-- with its creation; the collection loses members, or the request that the task is about becomes one.
structure Moved (st : State) (task : Task) (st' : State) (next : List Task) : Prop where
  vhci : st'.vhci = st.vhci
  devicesCnt : st'.devicesCnt = st.devicesCnt
  balance : ∀ r, next.countP (Task.owns r) + st'.deletions r + st.creations r =
    (if task.owns r then 1 else 0) + st.deletions r + st'.creations r
  grows : st.next ≤ st'.next
  deletions : ∀ r, st.deletions r ≤ st'.deletions r
  ctx : ∀ r, task.owns r = false → r < st.next → st'.ctx r = st.ctx r
  members : ∀ r ∈ st'.reattachReq, r ∈ st.reattachReq ∨ task.owns r = true
  kept : st.reattachReq.Nodup → ∀ r ∈ st'.reattachReq, st'.deletions r = st.deletions r
  nodup : st.reattachReq.Nodup → (∀ r delayed, task = .adding r delayed → r ∉ st.reattachReq) → st'.reattachReq.Nodup
  adding : ∀ r delayed, .adding r delayed ∈ next → r = st.next ∧ st'.reattachReq = st.reattachReq

variable {st st' t : State} {env : Env} {task : Task} {next : List Task}

-- A task that changes neither the requests nor the collection hands its request on.
theorem Moved.of_same (ctx : Request → AttachCtx) (hnext : next.filterMap Task.request = task.request.toList)
    (hadding : ∀ r delayed, .adding r delayed ∉ next) (hctx : ∀ r, task.owns r = false → ctx r = st.ctx r) :
    Moved st task { st with ctx := ctx } next where
  vhci := rfl
  devicesCnt := rfl
  balance r := by
    rw [countP_owns, hnext, count_request]
    rfl
  grows := le_refl _
  deletions _ := le_refl _
  ctx r ho _ := hctx r ho
  members _ hr := .inl hr
  kept _ _ _ := rfl
  nodup h _ := h
  adding r delayed h := absurd h (hadding r delayed)

theorem moved_sendPluginHardware {sender : Owner} {r : Request} (htask : task.request = some r) :
    Moved st task st (sendPluginHardware env sender r) := by
  have hnext : (sendPluginHardware env sender r).filterMap Task.request = [r] := by
    unfold sendPluginHardware
    split <;> rfl
  refine .of_same st.ctx (htask ▸ hnext) (fun q delayed => ?_) fun _ _ => rfl
  unfold sendPluginHardware
  split <;> simp

theorem Moved.of_erase {q : Request} (hnext : next.filterMap Task.request = task.request.toList)
    (hadding : ∀ r delayed, .adding r delayed ∉ next) :
    Moved st task { st with reattachReq := st.reattachReq.erase q } next where
  vhci := rfl
  devicesCnt := rfl
  balance r := by
    rw [countP_owns, hnext, count_request]
    rfl
  grows := le_refl _
  deletions _ := le_refl _
  ctx _ _ _ := rfl
  members _ hr := .inl (List.mem_of_mem_erase hr)
  kept _ _ _ := rfl
  nodup h _ := h.erase q
  adding r delayed h := absurd h (hadding r delayed)

theorem moved_createRequest {hash : UInt32} {delayed : Bool} :
    Moved st (.creating hash delayed) (createRequest st hash) [.adding st.next delayed] where
  vhci := rfl
  devicesCnt := rfl
  balance r := by
    by_cases hr : st.next = r
    · subst hr
      simp [createRequest, State.creations, owns_eq, Task.request, Task.ownership, Nat.add_comm]
    · have hiff : r < st.next + 1 ↔ r < st.next := Nat.lt_succ_iff_lt_or_eq.trans (or_iff_left (Ne.symm hr))
      simp [createRequest, State.creations, owns_eq, Task.request, Task.ownership, hr, hiff]
  grows := Nat.le_succ _
  deletions _ := le_refl _
  ctx r _ hr := update_of_ne (Nat.ne_of_lt hr) _ _
  members _ hr := .inl hr
  kept _ _ _ := rfl
  nodup h _ := h
  adding r delayed' hr := by
    simp at hr
    exact ⟨hr.1, rfl⟩

theorem moved_add {r : Request} {delayed : Bool} :
    Moved st (.adding r delayed) { st with reattachReq := st.reattachReq ++ [r] } [.created r delayed] where
  vhci := rfl
  devicesCnt := rfl
  balance q := by simp [State.creations, owns_eq, Task.request, Task.ownership]
  grows := le_refl _
  deletions _ := le_refl _
  ctx _ _ _ := rfl
  members q hq := by
    obtain hq | hq := List.mem_append.mp hq
    · exact .inl hq
    · obtain rfl := List.mem_singleton.mp hq
      exact .inr (owns_iff.mpr rfl)
  kept _ _ _ := rfl
  nodup hnodup hnew := by
    have hr := hnew r delayed rfl
    simp only [List.nodup_append, hnodup, true_and]
    exact ⟨List.pairwise_singleton _ _, fun q hq x hx heq => hr (List.mem_singleton.mp hx ▸ heq ▸ hq)⟩
  adding := by simp

theorem moved_deleteRequest {owner : Owner} {r : Request} : Moved st (.leaving owner r) (deleteRequest st r) [] where
  vhci := rfl
  devicesCnt := rfl
  balance q := by
    by_cases hq : r = q
    · subst hq
      simp [deleteRequest, State.creations, owns_eq, Task.request, Task.ownership, Nat.add_comm]
    · have hdeletions : (deleteRequest st r).deletions q = st.deletions q := update_of_ne (Ne.symm hq) _ _
      have howns : Task.owns q (.leaving owner r) = false := by simp [owns_eq, Task.request, Task.ownership, hq]
      rw [hdeletions, howns]
      rfl
  grows := le_refl _
  deletions := deletions_deleteRequest r
  ctx _ _ _ := rfl
  members _ hq := .inl (List.mem_of_mem_erase hq)
  kept hnodup q hq := by
    have hne : q ≠ r := (List.Nodup.mem_erase_iff hnodup).mp hq |>.1
    simp [deleteRequest, update_of_ne hne]
  nodup hnodup _ := hnodup.erase r
  adding := by simp

theorem moved_of_run (h : run st env task = some (st', next)) : Moved st task st' next := by
  cases task with
  | counting hash delayed =>
      simp only [run] at h
      split at h <;> cases h
      · exact .of_same st.ctx rfl (by simp) fun _ _ => rfl
      · exact .of_same st.ctx rfl (by simp) fun _ _ => rfl
  | creating hash delayed =>
      simp only [run] at h
      split at h <;> cases h
      · exact moved_createRequest
      · exact .of_same st.ctx rfl (by simp) fun _ _ => rfl
  | adding r delayed =>
      simp only [run] at h
      split at h <;> cases h
      · exact moved_add
      · exact .of_same st.ctx rfl (by simp) fun _ _ => rfl
  | created r delayed =>
      simp only [run] at h
      split at h <;> cases h
      · exact .of_same _ rfl (by simp) fun q ho => update_of_ne (ne_of_not_owns ho rfl) _ _
      · exact moved_sendPluginHardware rfl
  | sent r | armed r =>
      cases h
      exact .of_same st.ctx rfl (by simp) fun _ _ => rfl
  | completing r =>
      simp only [run] at h
      split at h <;> cases h
      · exact .of_same st.ctx rfl (by simp) fun _ _ => rfl
      · exact .of_same _ rfl (by simp) fun q ho => update_of_ne (ne_of_not_owns ho rfl) _ _
  | expired r =>
      simp only [run] at h
      split at h <;> cases h <;>
        exact .of_same st.ctx rfl (by simp) fun _ _ => rfl
  | sending r =>
      cases h
      exact moved_sendPluginHardware rfl
  | leaving owner r =>
      cases h
      exact moved_deleteRequest
  | released r =>
      cases h
      exact .of_same st.ctx rfl (by simp) fun _ _ => rfl
  | stopping hash =>
      simp only [run] at h
      split at h <;> cases h
      · exact .of_same st.ctx rfl (by simp) fun _ _ => rfl
      · exact .of_erase rfl (by simp)
  | canceling hash r =>
      cases h
      exact .of_same st.ctx rfl (by simp) fun _ _ => rfl

-- The tasks that calls begin with.
def Task.begins : Task → Bool
  | .counting .. | .stopping _ => true
  | _ => false

theorem step_cases {a : Action} (h : step st a = some t) :
    t = st ∨
    (∃ removing task, task.begins = true ∧ t = { st with removing := removing, tasks := task :: st.tasks }) ∨
    ∃ task env st' next, a = .go task env ∧ task ∈ st.tasks ∧ run st env task = some (st', next) ∧
      t = { st' with tasks := advance st.tasks task next } := by
  cases a with
  | startAttachAttempts hash delayed =>
      simp only [step] at h
      split at h <;> cases h
      · exact .inl rfl
      · exact .inr (.inl ⟨st.removing, .counting hash delayed, rfl, rfl⟩)
  | stopAttachAttempts hash =>
      cases h
      exact .inr (.inl ⟨st.removing, .stopping hash, rfl, rfl⟩)
  | queryRemove =>
      cases h
      exact .inr (.inl ⟨true, .stopping 0, rfl, rfl⟩)
  | go task env =>
      obtain ⟨htask, h⟩ := Option.ite_none_right_eq_some.mp h
      obtain ⟨⟨st', next⟩, hrun, rfl⟩ := Option.map_eq_some_iff.mp h
      exact .inr (.inr ⟨task, env, st', next, rfl, htask, hrun, rfl⟩)

theorem request_of_begins (h : task.begins = true) : task.request = none := by
  cases task <;> first | rfl | cases h

-- A request that was created has one owner until it is deleted; the members are not deleted.
structure Inv (st : State) : Prop where
  balance : ∀ r, st.tasks.countP (Task.owns r) + st.deletions r = st.creations r
  nodup : st.reattachReq.Nodup
  members : ∀ r ∈ st.reattachReq, st.deletions r = 0 ∧ r < st.next
  adding : ∀ r delayed, .adding r delayed ∈ st.tasks → r ∉ st.reattachReq

theorem creations_le (st : State) (r : Request) : st.creations r ≤ 1 := by
  unfold State.creations
  split <;> decide

theorem creations_of_lt {r : Request} (h : r < st.next) : st.creations r = 1 := if_pos h

theorem lt_of_creations {r : Request} (h : 0 < st.creations r) : r < st.next := by
  by_contra hr
  exact absurd h (by simp [State.creations, hr])

section Owner

variable (hi : Inv st) {r : Request}

include hi

theorem Inv.others {task' : Task} (h : task ∈ st.tasks) (ho : task.owns r = true) (h' : task' ∈ st.tasks.erase task) :
    task'.owns r = false := by
  have hle := creations_le st r
  have hbalance := hi.balance r
  exact not_of_mem_erase (by omega) h ho h'

-- What has an owner exists and is not deleted.
theorem Inv.of_owns (h : task ∈ st.tasks) (ho : task.owns r = true) : st.deletions r = 0 ∧ r < st.next := by
  have hpos : 0 < st.tasks.countP (Task.owns r) := List.countP_pos_iff.mpr ⟨task, h, ho⟩
  have hle := creations_le st r
  have hbalance := hi.balance r
  exact ⟨by omega, lt_of_creations (by omega)⟩

end Owner

theorem Inv.go (hi : Inv st) (htask : task ∈ st.tasks) (hm : Moved st task st' next) :
    Inv { st' with tasks := advance st.tasks task next } where
  balance r := by
    have hcount := countP_advance (Task.owns r) htask next
    have hbalance := hi.balance r
    have hmoved := hm.balance r
    change (advance st.tasks task next).countP (Task.owns r) + st'.deletions r = st'.creations r
    omega
  nodup := hm.nodup hi.nodup fun r delayed heq => hi.adding r delayed (heq ▸ htask)
  members r hr := by
    rw [hm.kept hi.nodup r hr]
    have hold : st.deletions r = 0 ∧ r < st.next := (hm.members r hr).elim (hi.members r) (hi.of_owns htask)
    exact ⟨hold.1, hold.2.trans_le hm.grows⟩
  adding r delayed hr := by
    intro hmem
    obtain hnew | hold := List.mem_append.mp hr
    · obtain ⟨rfl, heq⟩ := hm.adding r delayed hnew
      have hlt := (hi.members st.next (heq ▸ hmem)).2
      exact absurd hlt (lt_irrefl _)
    · obtain hmem | hself := hm.members r hmem
      · exact hi.adding r delayed (List.mem_of_mem_erase hold) hmem
      · have howns : (Task.adding r delayed).owns r = true := owns_iff.mpr rfl
        rw [hi.others htask hself hold] at howns
        cases howns

-- A call that begins has nothing yet.
theorem Inv.call (hi : Inv st) (removing : Bool) (htask : task.request = none) :
    Inv { st with removing := removing, tasks := task :: st.tasks } where
  balance r := by
    have hnot : task.owns r = false := by rw [owns_eq, htask]; rfl
    have hbalance := hi.balance r
    change (task :: st.tasks).countP (Task.owns r) + st.deletions r = st.creations r
    rwa [List.countP_cons_of_neg (by simp [hnot])]
  nodup := hi.nodup
  members := hi.members
  adding r delayed hr := by
    obtain rfl | hr := List.mem_cons.mp hr
    · cases htask
    · exact hi.adding r delayed hr

theorem Inv.step {a : Action} (hi : Inv st) (h : Requests.step st a = some t) : Inv t := by
  obtain rfl | ⟨removing, task, hbegins, rfl⟩ | ⟨task, env, st', next, -, htask, hrun, rfl⟩ := step_cases h
  · exact hi
  · exact hi.call removing (request_of_begins hbegins)
  · exact hi.go htask (moved_of_run hrun)

theorem Inv.init (h : machine.init st) : Inv st := by
  obtain ⟨params, vhci, ports, ctx, -, -, rfl⟩ := h
  exact ⟨fun r => rfl, List.nodup_nil, by simp, by simp⟩

theorem reachable_inv {ok : State → Action → Prop} (h : machine.Reachable ok st) : Inv st :=
  h.invariant (fun _ => Inv.init) fun _ _ _ hi _ hs => hi.step hs

section Room

-- Live requests are members, or they are not seen.
theorem live_le (st : State) :
    st.live + st.tasks.countP Task.isCreating ≤ st.reattachReq.length + st.unseen := by
  have hmembers : (List.range st.next).countP (fun r => decide (r ∈ st.reattachReq)) ≤ st.reattachReq.length := by
    rw [List.countP_eq_length_filter]
    have hsub : (List.range st.next).filter (fun r => decide (r ∈ st.reattachReq)) ⊆ st.reattachReq := by
      intro r hr
      simpa using (List.mem_filter.mp hr).2
    exact (List.subperm_of_subset (List.nodup_range.filter _) hsub).length_le
  have hsplit : ∀ l : List Request, l.countP (fun r => st.deletions r == 0) ≤
      l.countP (fun r => decide (r ∈ st.reattachReq)) +
        l.countP (fun r => st.deletions r == 0 && !decide (r ∈ st.reattachReq)) := by
    intro l
    induction l with
    | nil => exact Nat.zero_le _
    | cons r rest ih =>
        simp only [List.countP_cons]
        by_cases hmem : r ∈ st.reattachReq <;> by_cases hlive : st.deletions r = 0 <;> simp [hmem, hlive] <;> omega
  have hlive := hsplit (List.range st.next)
  simp only [State.live, State.unseen]
  omega

theorem live_mono (hnext : st'.next = st.next) (h : ∀ r, st.deletions r ≤ st'.deletions r) : st'.live ≤ st.live := by
  rw [State.live, State.live, hnext]
  refine List.countP_mono_left fun r _ hr => ?_
  have hle := h r
  have hzero := eq_of_beq hr
  exact beq_iff_eq.mpr (by omega)

theorem live_createRequest (hash : UInt32) : (createRequest st hash).live ≤ st.live + 1 := by
  simp only [State.live, createRequest, List.range_succ, List.countP_append, List.countP_singleton]
  split <;> omega

theorem live_deleteRequest (r : Request) : (deleteRequest st r).live ≤ st.live :=
  live_mono rfl (deletions_deleteRequest r)

theorem countP_sendPluginHardware (env : Env) (sender : Owner) (r : Request) :
    (sendPluginHardware env sender r).countP Task.isCreating = 0 := by
  unfold sendPluginHardware
  split <;> rfl

-- Only a look at the number of members makes room for a request.
theorem room_of_run (h : run st env task = some (st', next)) :
    (∃ hash delayed, task = .counting hash delayed ∧ st.reattachReq.length < st.limit ∧ st' = st ∧
      next = [.creating hash delayed]) ∨
    st'.live + next.countP Task.isCreating ≤ st.live + if task.isCreating then 1 else 0 := by
  cases task with
  | counting hash delayed =>
      simp only [run] at h
      split at h <;> cases h
      · exact .inr (le_refl _)
      · exact .inl ⟨hash, delayed, rfl, not_le.mp ‹_›, rfl, rfl⟩
  | creating hash delayed =>
      simp only [run] at h
      split at h <;> cases h
      · exact .inr (live_createRequest hash)
      · exact .inr (Nat.le_add_right _ _)
  | adding r delayed | expired r =>
      simp only [run] at h
      split at h <;> cases h <;> exact .inr (le_refl _)
  | created r delayed =>
      simp only [run] at h
      split at h <;> cases h
      · exact .inr (le_refl _)
      · rw [countP_sendPluginHardware]
        exact .inr (le_refl _)
  | completing r | stopping hash =>
      simp only [run] at h
      split at h <;> cases h <;> exact .inr (le_refl _)
  | sending r =>
      cases h
      rw [countP_sendPluginHardware]
      exact .inr (le_refl _)
  | leaving owner r =>
      cases h
      exact .inr (live_deleteRequest r)
  | sent r | armed r | released r | canceling hash r =>
      cases h
      exact .inr (le_refl _)

-- The requests, and those that are about to be created.
def State.claimed (st : State) : Nat := st.live + st.tasks.countP Task.isCreating

theorem claimed_step {a : Action} (hok : SeesAll st a) (hle : st.claimed ≤ st.limit) (h : step st a = some t) :
    t.claimed ≤ t.limit := by
  obtain rfl | ⟨removing, task, hbegins, rfl⟩ | ⟨task, env, st', next, rfl, htask, hrun, rfl⟩ := step_cases h
  · exact hle
  · have hnot : task.isCreating = false := by cases task <;> first | rfl | cases hbegins
    change st.live + (task :: st.tasks).countP Task.isCreating ≤ st.limit
    rwa [List.countP_cons_of_neg (by simp [hnot])]
  · have hlimit : st'.limit = st.limit := congrArg (4 * ·) (moved_of_run hrun).devicesCnt
    have hcount := countP_advance Task.isCreating htask next
    change st'.live + (advance st.tasks task next).countP Task.isCreating ≤ st'.limit
    rw [hlimit]
    obtain ⟨hash, delayed, rfl, hlt, rfl, rfl⟩ | hroom := room_of_run hrun
    · have hsees := hok rfl hlt
      have hlive := live_le st'
      change _ + 0 = 1 + _ at hcount
      omega
    · unfold State.claimed at hle
      omega

-- As long as those who look at the collection see all that is live, there is room for all requests.
theorem attachRequests_bounded (h : machine.Reachable SeesAll st) : st.live ≤ st.limit := by
  have hclaimed : st.claimed ≤ st.limit := by
    refine h.invariant (fun s hs => ?_) fun _ _ _ hle hok hs => claimed_step hok hle hs
    obtain ⟨params, vhci, ports, ctx, -, -, rfl⟩ := hs
    exact Nat.zero_le _
  exact (Nat.le_add_right _ _).trans hclaimed

end Room

section Schedules

-- A controller with a port of each kind, and nothing about attempts in the registry.
def smallController : State where
  vhci := { reattachMaxAttempts := 20, reattachFirstDelay := DEF_FIRST_DELAY, reattachMaxDelay := DEF_MAX_DELAY }
  devicesCnt := 2

theorem smallController_init : machine.init smallController :=
  ⟨none, smallController.vhci, some ⟨some 1, some 1⟩, { usb2Ports := 1, devices := [none, none] }, rfl, rfl, rfl⟩

theorem smallController_reachable (ok : State → Action → Prop) : machine.Reachable ok smallController :=
  .init smallController_init

-- A call with a long delay creates the given request and leaves it to the timer.
def delayedSchedule (r : Request) : List Action :=
  [.startAttachAttempts 7 true, .go (.counting 7 true) {}, .go (.creating 7 true) {}, .go (.adding r true) {},
    .go (.created r true) {}, .go (.released r) {}]

-- An attach that fails stops the attempts of its location and starts a new one. The timer of the one that is
-- stopped goes on.
def failedAttach (r : Request) : List Action :=
  [.stopAttachAttempts 7] ++ (if r = 0 then [] else [.go (.stopping 7) {}, .go (.canceling 7 (r - 1)) {}]) ++
    [.go (.stopping 7) {}] ++ delayedSchedule r

theorem attachRequests_piled : ¬ ∀ st, machine.Reachable (fun _ _ => True) st → st.live ≤ st.limit := by
  intro h
  have hrun : (machine.run (fun _ _ => True) smallController ((List.range 9).flatMap failedAttach)).any
      (fun st => decide (st.limit < st.live)) = true := by
    decide +kernel
  obtain ⟨st, hst, hexceeds⟩ := (smallController_reachable _).exists_run hrun
  exact absurd (h st hst) (not_le.mpr (of_decide_eq_true hexceeds))

theorem attachRequests_bounded_full :
    ∃ st, machine.Reachable SeesAll st ∧ st.live = 8 ∧ st.live ≤ st.limit := by
  have hrun : (machine.run SeesAll smallController ((List.range 8).flatMap delayedSchedule)).any
      (fun st => st.live == 8) = true := by
    decide +kernel
  obtain ⟨st, hst, hlive⟩ := (smallController_reachable _).exists_run hrun
  exact ⟨st, hst, eq_of_beq hlive, attachRequests_bounded hst⟩

end Schedules

end Usbip.Persistent.Requests

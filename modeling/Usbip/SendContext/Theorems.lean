import Usbip.SendContext

namespace Usbip.SendContext

open Usbip.Library.Pool
open Usbip.Library.Runs

-- The completions and the pointers that a context is held by.
def completions (st : State) (c : Nat) : Nat := st.tasks.countP (Task.completes c)

def holders (st : State) (c : Nat) : Nat := st.tasks.countP (Task.holds c)

-- Each context that was ever made is in one place. One that was released and not freed since has a
-- completion unless it was dropped.
structure Accounted (st : State) (c : Nat) : Prop where
  place : st.lookaside.count c + st.discarded.count c + st.dropped.count c + holders st c =
    if c < st.created then 1 else 0
  released : st.released.count c = completions st c + st.dropped.count c
  handedOut : st.handedOut.count c = st.freed.count c + st.dropped.count c + holders st c

theorem completions_le (st : State) (c : Nat) : completions st c ≤ holders st c := by
  apply List.countP_mono_left
  intro task _ h
  cases task <;> simp_all [Task.completes, Task.holds]

section Moves

variable {st : State} {task : Task} (h : task ∈ st.tasks) (next : List Task) (c : Nat)

include h

theorem completions_advance :
    (advance st.tasks task next).countP (Task.completes c) + (if task.completes c then 1 else 0) =
      next.countP (Task.completes c) + completions st c :=
  countP_advance _ h next

theorem holders_advance :
    (advance st.tasks task next).countP (Task.holds c) + (if task.holds c then 1 else 0) =
      next.countP (Task.holds c) + holders st c :=
  countP_advance _ h next

end Moves

variable {st t : State} {c : Nat}

-- When each step can be taken, and what it does then. A send that finds the socket closing drops its context.
inductive Steps (st : State) : Action → State → Prop
  | alloc (command : Command) (prepared : Bool) :
      Steps st (.alloc command none prepared)
        (prepareContext { st with created := st.created + 1 } command st.created prepared)
  | reuse (command : Command) (c : Nat) (prepared : Bool) : c ∈ st.lookaside →
      Steps st (.alloc command (some c) prepared)
        (prepareContext { st with lookaside := st.lookaside.erase c } command c prepared)
  | fail (c : Nat) (kept : Bool) : .prepare .submit c ∈ st.tasks →
      Steps st (.fail c kept) (SendContext.free { st with tasks := advance st.tasks (.prepare .submit c) [] } c kept)
  | release (command : Command) (c : Nat) : .prepare command c ∈ st.tasks →
      Steps st (.release command c)
        { st with tasks := advance st.tasks (.prepare command c) [.armed c], released := c :: st.released }
  | sent (c : Nat) (socket : Socket.State) : .armed c ∈ st.tasks →
      Steps st (.invoke c) { st with socket := socket, tasks := advance st.tasks (.armed c) [.pending c] }
  | refused (c : Nat) (socket : Socket.State) : .armed c ∈ st.tasks → accepts st.socket = false →
      Steps st (.invoke c)
        { st with socket := socket, tasks := advance st.tasks (.armed c) [], dropped := c :: st.dropped }
  | complete (c : Nat) : .pending c ∈ st.tasks →
      Steps st (.complete c) { st with tasks := advance st.tasks (.pending c) [.sendComplete c] }
  | free (c : Nat) (kept : Bool) : .sendComplete c ∈ st.tasks →
      Steps st (.free c kept)
        (SendContext.free { st with
          tasks := advance st.tasks (.sendComplete c) []
          released := st.released.erase c } c kept)
  | socket (a : Socket.Action) (socket : Socket.State) : Steps st (.socket a) { st with socket := socket }

theorem step_cases {a : Action} (h : step st a = some t) : Steps st a t := by
  cases a with
  | alloc command reused prepared =>
      cases reused with
      | none => exact Option.some.inj h ▸ .alloc command prepared
      | some c =>
          obtain ⟨hmem, h⟩ := Option.ite_none_right_eq_some.mp h
          exact Option.some.inj h ▸ .reuse command c prepared hmem
  | fail c kept =>
      obtain ⟨hmem, h⟩ := Option.ite_none_right_eq_some.mp h
      exact Option.some.inj h ▸ .fail c kept hmem
  | release command c =>
      obtain ⟨hmem, h⟩ := Option.ite_none_right_eq_some.mp h
      exact Option.some.inj h ▸ .release command c hmem
  | invoke c =>
      obtain ⟨hmem, h⟩ := Option.ite_none_right_eq_some.mp h
      obtain ⟨socket, _, rfl⟩ := Option.map_eq_some_iff.mp h
      split
      case isTrue => exact .sent c socket hmem
      case isFalse hclosing => exact .refused c socket hmem (by simpa using hclosing)
  | complete c =>
      obtain ⟨hmem, h⟩ := Option.ite_none_right_eq_some.mp h
      exact Option.some.inj h ▸ .complete c hmem
  | free c kept =>
      obtain ⟨hmem, h⟩ := Option.ite_none_right_eq_some.mp h
      exact Option.some.inj h ▸ .free c kept hmem
  | socket a =>
      obtain ⟨socket, _, rfl⟩ := Option.map_eq_some_iff.mp h
      exact .socket a socket

-- A context in no place at all is given to a command or, without its descriptors, freed.
theorem prepareContext_accounted {command : Command} {prepared : Bool}
    (hplace : ∀ e, st.lookaside.count e + st.discarded.count e + st.dropped.count e + holders st e +
      (if c = e then 1 else 0) = if e < st.created then 1 else 0)
    (hreleased : ∀ e, st.released.count e = completions st e + st.dropped.count e)
    (hhanded : ∀ e, st.handedOut.count e = st.freed.count e + st.dropped.count e + holders st e) (e : Nat) :
    Accounted (prepareContext st command c prepared) e := by
  have hp := hplace e
  have hr := hreleased e
  have hh := hhanded e
  cases prepared with
  | false =>
      refine ⟨?_, hr, hh⟩
      simp only [prepareContext, Bool.false_eq_true, if_false, List.count_cons, beq_iff_eq, holders] at *
      omega
  | true =>
      constructor <;>
        simp only [prepareContext, if_true, holders, completions, List.countP_cons, List.count_cons, Task.holds,
          Task.completes, beq_iff_eq, Bool.false_eq_true, if_false] at * <;>
        omega

-- What is freed was held by a pointer until then.
theorem free_accounted {kept : Bool}
    (hplace : ∀ e, st.lookaside.count e + st.discarded.count e + st.dropped.count e + holders st e +
      (if c = e then 1 else 0) = if e < st.created then 1 else 0)
    (hreleased : ∀ e, st.released.count e = completions st e + st.dropped.count e)
    (hhanded : ∀ e, st.handedOut.count e =
      st.freed.count e + st.dropped.count e + holders st e + if c = e then 1 else 0) (e : Nat) :
    Accounted (free st c kept) e := by
  have hp := hplace e
  have hr := hreleased e
  have hh := hhanded e
  cases kept <;> constructor <;>
    simp only [free, Bool.false_eq_true, if_false, if_true, List.count_cons, beq_iff_eq, holders, completions] at * <;>
    omega

theorem step_accounted (hi : ∀ c, Accounted st c) {a : Action} (h : step st a = some t) (e : Nat) :
    Accounted t e := by
  cases step_cases h with
  | alloc command prepared =>
      apply prepareContext_accounted
      · intro e
        have hp := (hi e).place
        simp only [holders] at *
        split_ifs at * <;> omega
      · exact fun e => (hi e).released
      · exact fun e => (hi e).handedOut
  | reuse command c prepared hmem =>
      have hpos := List.count_pos_iff.mpr hmem
      apply prepareContext_accounted
      · intro e
        have hp := (hi e).place
        simp only [List.count_erase, holders, beq_iff_eq] at *
        by_cases hce : c = e
        · subst hce
          simp only [if_true]
          omega
        · simp only [hce, if_false]
          omega
      · exact fun e => (hi e).released
      · exact fun e => (hi e).handedOut
  | fail c kept hmem =>
      apply free_accounted <;> intro e <;> obtain ⟨hp, hr, hh⟩ := hi e <;>
        have hc := completions_advance hmem [] e <;> have hd := holders_advance hmem [] e <;>
        simp only [Task.holds, Task.completes, List.countP_nil, beq_iff_eq, Bool.false_eq_true, if_false,
          holders, completions] at * <;>
        omega
  | release command c hmem =>
      obtain ⟨hp, hr, hh⟩ := hi e
      have hc := completions_advance hmem [.armed c] e
      have hd := holders_advance hmem [.armed c] e
      constructor <;>
        simp only [Task.holds, Task.completes, List.countP_singleton, List.count_cons, beq_iff_eq,
          Bool.false_eq_true, if_false, holders, completions] at * <;>
        omega
  | sent c socket hmem =>
      obtain ⟨hp, hr, hh⟩ := hi e
      have hc := completions_advance hmem [.pending c] e
      have hd := holders_advance hmem [.pending c] e
      constructor <;>
        simp only [Task.holds, Task.completes, List.countP_singleton, beq_iff_eq, holders, completions] at * <;>
        omega
  | refused c socket hmem _ =>
      obtain ⟨hp, hr, hh⟩ := hi e
      have hc := completions_advance hmem [] e
      have hd := holders_advance hmem [] e
      constructor <;>
        simp only [Task.holds, Task.completes, List.countP_nil, List.count_cons, beq_iff_eq, holders,
          completions] at * <;>
        omega
  | complete c hmem =>
      obtain ⟨hp, hr, hh⟩ := hi e
      have hc := completions_advance hmem [.sendComplete c] e
      have hd := holders_advance hmem [.sendComplete c] e
      constructor <;>
        simp only [Task.holds, Task.completes, List.countP_singleton, beq_iff_eq, holders, completions] at * <;>
        omega
  | free c kept hmem =>
      apply free_accounted <;> intro e <;> obtain ⟨hp, hr, hh⟩ := hi e <;>
        have hc := completions_advance hmem [] e <;> have hd := holders_advance hmem [] e <;>
        simp only [Task.holds, Task.completes, List.countP_nil, List.count_erase, beq_iff_eq, holders,
          completions] at * <;>
        omega
  | socket a socket => exact ⟨(hi e).place, (hi e).released, (hi e).handedOut⟩

theorem reachable_accounted {ok : State → Action → Prop} (h : machine.Reachable ok st) (c : Nat) :
    Accounted st c := by
  refine h.invariant (I := fun st => ∀ c, Accounted st c) ?_ (fun _ _ _ hi _ hs => step_accounted hi hs) c
  rintro _ rfl c
  constructor <;> simp [completions, holders]

-- A context leaves the released ones when its completion frees it, and in no other way.
theorem released_step {a : Action} (h : step st a = some t) (hc : c ∈ st.released) :
    c ∈ t.released ∨ ∃ kept, a = .free c kept := by
  cases step_cases h with
  | alloc command prepared | reuse command d prepared _ =>
      left
      cases prepared <;> exact hc
  | fail | sent | refused | complete | socket => exact .inl hc
  | release command d _ => exact .inl (List.mem_cons_of_mem _ hc)
  | free d kept _ =>
      by_cases hcd : c = d
      · exact .inr ⟨kept, by rw [hcd]⟩
      · exact .inl ((List.mem_erase_of_ne hcd).mpr hc)

-- The only step that drops a context is a send that is refused.
theorem dropped_step {a : Action} (h : step st a = some t) :
    t.dropped = st.dropped ∨ ∃ d, a = .invoke d ∧ accepts st.socket = false ∧ t.dropped = d :: st.dropped := by
  cases step_cases h with
  | alloc command prepared | reuse command d prepared _ =>
      left
      cases prepared <;> rfl
  | fail | release | sent | complete | free | socket => exact .inl rfl
  | refused d socket _ hclosing => exact .inr ⟨d, rfl, hclosing, rfl⟩

theorem dropped_run {ok : State → Action → Prop} [∀ s a, Decidable (ok s a)] {schedule : List Action}
    (h : machine.run ok st schedule = some t) (hc : c ∈ st.dropped) : c ∈ t.dropped := by
  refine Machine.run_preserves (P := fun st => c ∈ st.dropped) (fun s a next hs _ hstep => ?_) h hc
  obtain heq | ⟨d, _, _, heq⟩ := dropped_step hstep
  · rwa [heq]
  · rw [heq]
    exact List.mem_cons_of_mem _ hs

theorem dropped_eq_nil (h : machine.Reachable Accepts st) : st.dropped = [] := by
  refine h.invariant (I := fun st => st.dropped = []) (fun s hs => by rw [hs]) fun s a t hi hok hs => ?_
  obtain heq | ⟨d, rfl, hrefused, _⟩ := dropped_step hs
  · rw [heq, hi]
  · have haccepts : accepts s.socket = true := hok
    rw [hrefused] at haccepts
    cases haccepts

-- A dropped context stays released without a completion, whatever follows.
theorem dropped_orphaned (h : machine.Reachable (fun _ _ => True) st) (hc : c ∈ st.dropped) :
    c ∈ st.released ∧ completions st c = 0 ∧ c ∉ st.lookaside ∧ c ∉ st.discarded := by
  obtain ⟨hplace, hreleased, _⟩ := reachable_accounted h c
  have hpos := List.count_pos_iff.mpr hc
  have hle := completions_le st c
  refine ⟨List.count_pos_iff.mp ?_, ?_, ?_, ?_⟩
  · omega
  · split at hplace <;> omega
  · apply List.count_eq_zero.mp
    split at hplace <;> omega
  · apply List.count_eq_zero.mp
    split at hplace <;> omega

-- In runs in which every send reaches WskSend, a context that `send` has let go of belongs to one
-- completion, only this one frees it, and nothing is freed more often than it was handed out.
theorem send_context_owned (h : machine.Reachable Accepts st) (c : Nat) :
    st.released.count c = completions st c ∧
    completions st c ≤ 1 ∧
    (∀ a t, step st a = some t → c ∈ st.released → c ∈ t.released ∨ ∃ kept, a = .free c kept) ∧
    st.handedOut.count c = st.freed.count c + holders st c ∧
    holders st c ≤ 1 := by
  obtain ⟨hplace, hreleased, hhanded⟩ := reachable_accounted h c
  have hle := completions_le st c
  have hnone : st.dropped.count c = 0 := by rw [dropped_eq_nil h, List.count_nil]
  have hone : holders st c ≤ 1 := by split at hplace <;> omega
  exact ⟨by omega, by omega, fun _ _ hs => released_step hs, by omega, hone⟩

-- A submission and an unlink in flight, the second with the context of the first send.
def sampleSchedule : List Action :=
  [.alloc .submit none true, .release .submit 0, .invoke 0, .complete 0, .free 0 true,
    .alloc .unlink (some 0) true, .release .unlink 0, .invoke 0, .alloc .submit none true, .release .submit 1]

theorem send_context_owned_sample :
    ∃ st, machine.Reachable Accepts st ∧ st.released.count 0 = completions st 0 ∧ completions st 0 = 1 ∧
      st.handedOut.count 0 = 2 := by
  have hinit : machine.Reachable Accepts {} := .init rfl
  have hrun : (machine.run Accepts {} sampleSchedule).any
      (fun st => decide (completions st 0 = 1 ∧ st.handedOut.count 0 = 2)) = true := by decide +kernel
  obtain ⟨st, hr, hp⟩ := hinit.exists_run hrun
  obtain ⟨hone, htwo⟩ := of_decide_eq_true hp
  exact ⟨st, hr, (send_context_owned hr 0).1, hone, htwo⟩

-- The socket is closed after the context was released and before WskSend is called.
theorem send_context_orphaned :
    ∃ st, machine.Reachable (fun _ _ => True) st ∧
      ∀ schedule later, machine.run (fun _ _ => True) st schedule = some later →
        0 ∈ later.released ∧ completions later 0 = 0 ∧ 0 ∉ later.lookaside ∧ 0 ∉ later.discarded := by
  have hinit : machine.Reachable (fun _ _ => True) {} := .init rfl
  have hrun : (machine.run (fun _ _ => True) {}
      [.alloc .submit none true, .release .submit 0, .socket .close, .invoke 0]).any
        (fun st => decide (0 ∈ st.dropped)) = true := by decide +kernel
  obtain ⟨st, hr, hp⟩ := hinit.exists_run hrun
  refine ⟨st, hr, fun schedule later hrun => ?_⟩
  exact dropped_orphaned (hr.run hrun) (dropped_run hrun (of_decide_eq_true hp))

end Usbip.SendContext

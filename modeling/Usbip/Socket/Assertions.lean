import Usbip.Socket.Theorems

namespace Usbip.Socket

open Usbip.Library.Runs

-- No call of `invoke` is on its way out when `wait_invokers` reads the counter for its last assertion.
def NoLateInvoker (st : State) : Action → Prop
  | .check => .leaving ∉ st.tasks
  | _ => True

instance (st : State) : (a : Action) → Decidable (NoLateInvoker st a)
  | .check => inferInstanceAs (Decidable (.leaving ∉ st.tasks))
  | .increment | .returned | .decrement | .bitTest | .setEvent | .close | .wake | .bitSet => .isTrue trivial

section Assertions

variable {st t : State} {closing event : Bool}

-- The assertion on the value read when CLOSING is set.
theorem Inv.count_of_not_closing (hi : Inv st closing event) (h : st.invokeCnt &&& CLOSING = 0) :
    st.invokeCnt &&& COUNT_MASK = st.invokeCnt := by
  have hbound := hi.counts.bound
  have hevent := hi.counts.event_le
  rw [hi.word, pack_and_closing _ _ hbound] at h
  subst h
  obtain rfl : event = false := by cases event <;> simp_all
  rw [hi.word, pack_and_countMask _ _ hbound]

-- NT_VERIFY of `invoke`
theorem Inv.not_canClose_of_setEvent (hi : Inv st closing event) (ht : .setEvent ∈ st.tasks) :
    st.canClose = false := by
  have hpos := List.count_pos_iff.mpr ht
  have honce := hi.counts.once
  have hevent := event.toNat_le
  rw [← Bool.not_eq_true, hi.signalled]
  omega

-- The last assertion of `wait_invokers`. The calls that were inside when CLOSING was set have left by then.
theorem Inv.count_of_check (hi : Inv st closing event) (ht : .check ∈ st.tasks) :
    st.invokeCnt &&& COUNT_MASK = 0 ↔ .leaving ∉ st.tasks := by
  have hpos := List.count_pos_iff.mpr ht
  have hbound := hi.counts.bound
  have hidle := hi.counts.idle (by omega)
  rw [hi.word, pack_and_countMask _ _ hbound, pack_eq_zero _ _ hbound, ← List.count_eq_zero]
  simp [hidle]

theorem Inv.verified_setClosing (hi : Inv st closing event) : (Socket.setClosing st).verified = st.verified := by
  simp only [Socket.setClosing]
  split
  case isTrue => rfl
  case isFalse hopen =>
    have hcount := hi.count_of_not_closing (not_not.mp hopen)
    split
    · simp [hcount]
    · rfl

-- Of the three assertions only the last one of `wait_invokers` can fail.
theorem Inv.verified_step (hi : Inv st closing event) {a : Action} (hs : Socket.step st a = some t) :
    t.verified = true ↔ st.verified = true ∧ NoLateInvoker st a := by
  cases a with
  | close =>
      cases hs
      rw [hi.verified_setClosing]
      simp [NoLateInvoker]
  | setEvent =>
      obtain ⟨ht, hs⟩ := Option.ite_none_right_eq_some.mp hs
      cases hs
      simp [hi.not_canClose_of_setEvent ht, NoLateInvoker]
  | check =>
      obtain ⟨ht, hs⟩ := Option.ite_none_right_eq_some.mp hs
      cases hs
      simp [NoLateInvoker, hi.count_of_check ht]
  | increment | returned | decrement | bitTest | wake | bitSet =>
      obtain ⟨_, hs⟩ := Option.ite_none_right_eq_some.mp hs
      cases hs
      simp [NoLateInvoker]

end Assertions

-- Whatever the order of the steps: no assertion has failed if and only if no call was on its way out at the
-- last read of the counter.
theorem assertions_iff (schedule : List Action) (st : State)
    (hrun : machine.run (fun _ _ => True) {} schedule = some st) :
    st.verified = true ↔ machine.run NoLateInvoker {} schedule = some st := by
  have hstep : ∀ s a t, machine.Reachable (fun _ _ => True) s → machine.step s a = some t →
      (t.verified = true ↔ s.verified = true ∧ NoLateInvoker s a) := by
    intro s a t hs ht
    obtain ⟨closing, event, hi⟩ := reachable_inv hs
    exact hi.verified_step ht
  have hinit : machine.Reachable (fun _ _ => True) {} := .init rfl
  simpa using hinit.run_iff (P := fun st => st.verified = true) hstep hrun

-- A call comes while the close waits; it backs out before the counter is read.
def backedOutSchedule : List Action :=
  [.increment, .close, .returned, .decrement, .bitTest, .setEvent, .increment, .wake, .decrement, .check]

theorem assertions_iff_backedOut :
    ∃ st, machine.run (fun _ _ => True) {} backedOutSchedule = some st ∧ st.verified = true ∧
      machine.run NoLateInvoker {} backedOutSchedule = some st := by
  have hrun : (machine.run (fun _ _ => True) {} backedOutSchedule).map State.verified = some true := by
    decide +kernel
  obtain ⟨st, hst, hverified⟩ := Option.map_eq_some_iff.mp hrun
  exact ⟨st, hst, hverified, (assertions_iff backedOutSchedule st hst).mp hverified⟩

-- Nobody is inside when the socket is closed, then a call comes and is counted while the counter is read.
def lateSchedule : List Action := [.close, .bitSet, .increment, .check]

theorem late_invoker_counted :
    ¬∀ st, machine.run (fun _ _ => True) {} lateSchedule = some st → st.verified = true := by
  intro hall
  have hrun : (machine.run (fun _ _ => True) {} lateSchedule).map State.verified = some false := by
    decide +kernel
  obtain ⟨st, hst, hverified⟩ := Option.map_eq_some_iff.mp hrun
  rw [hall st hst] at hverified
  cases hverified

-- No call of `invoke` begins while a close is in `wait_invokers`.
def NoEntry (st : State) : Action → Prop
  | .increment => .waiting ∉ st.tasks ∧ .bitSet ∉ st.tasks ∧ .check ∉ st.tasks
  | _ => True

-- Nobody is inside any more when a close is let through, or when its event is about to be set.
structure Emptied (tasks : List Task) (sets : Nat) : Prop where
  through : 0 < tasks.count .bitSet + tasks.count .check → tasks.count .executing + tasks.count .leaving = 0
  signalled : 0 < tasks.count .waiting → 0 < sets + tasks.count .setEvent + tasks.count .bitTest →
    tasks.count .executing + tasks.count .leaving = 0

section NoEntry

variable {st t : State} {closing event : Bool}

-- A step that lets nobody in and neither brings a close nor brings one further.
theorem Emptied.moved {tasks after gone came : List Task} {sets sets' : Nat} (hem : Emptied tasks sets)
    (hm : Moves tasks after gone came)
    (hcounted : came.count .executing + came.count .leaving ≤ gone.count .executing + gone.count .leaving)
    (hthrough : came.count .bitSet + came.count .check ≤ gone.count .bitSet + gone.count .check)
    (hwaiting : came.count .waiting ≤ gone.count .waiting)
    (hsignals : sets' + came.count .setEvent + came.count .bitTest ≤
      sets + gone.count .setEvent + gone.count .bitTest) : Emptied after sets' := by
  obtain ⟨he, hl, hb, hs, hw, hbs, hck, hp⟩ := hm
  obtain ⟨hempty, hsignalled⟩ := hem
  constructor <;> omega

theorem emptied_increment (hok : NoEntry st .increment) (hs : step st .increment = some t) :
    Emptied t.tasks t.sets := by
  obtain ⟨hwaiting, hbitSet, hcheck⟩ := hok
  obtain ⟨_, hs⟩ := Option.ite_none_right_eq_some.mp hs
  cases hs
  rw [← List.count_eq_zero] at hwaiting hbitSet hcheck
  dsimp only
  split <;> constructor <;> simp [hwaiting, hbitSet, hcheck]

-- The call that takes the counter to CLOSING is the last one.
theorem Emptied.decrement (hem : Emptied st.tasks st.sets) (hi : Inv st closing event)
    (hs : step st .decrement = some t) : Emptied t.tasks t.sets := by
  obtain ⟨ht, hs⟩ := Option.ite_none_right_eq_some.mp hs
  cases hs
  have hlast := hi.decremented ht
  dsimp only
  split
  case isTrue heq =>
    obtain ⟨hone, _⟩ := hlast.mp heq
    have hcount := (moves_advance ht [.bitTest]).counted
    constructor <;> simp_all [Task.isCounted]
  case isFalse =>
    exact hem.moved (moves_advance ht []) (by decide) (by decide) (by decide) (by simp)

theorem Emptied.close (hem : Emptied st.tasks st.sets) (hi : Inv st closing event) :
    Emptied (setClosing st).tasks (setClosing st).sets := by
  have hbound := hi.counts.bound
  simp only [setClosing]
  split
  case isTrue => exact hem
  case isFalse hopen =>
    rw [not_not, hi.word, pack_and_closing _ _ hbound] at hopen
    subst hopen
    obtain ⟨_, hclosers, _, hevent, hbit, _, honce, _, _⟩ := hi.counts
    rw [Bool.toNat_false] at hclosers hevent hbit
    split
    case isTrue =>
      obtain ⟨_, _, hb, hs, _, hbs, hck, _⟩ := moves_cons st.tasks .waiting
      simp only [List.count_singleton, List.count_nil, beq_iff_eq, reduceCtorEq, if_false] at hb hs hbs hck
      constructor <;> dsimp only <;> omega
    case isFalse hzero =>
      rw [not_not, hi.word, pack_eq_zero _ _ hbound] at hzero
      obtain ⟨he, hl, _⟩ := moves_cons st.tasks .bitSet
      simp only [List.count_singleton, List.count_nil, beq_iff_eq, reduceCtorEq, if_false] at he hl
      constructor <;> dsimp only <;> omega

theorem Emptied.wake (hem : Emptied st.tasks st.sets) (hi : Inv st closing event)
    (hs : step st .wake = some t) : Emptied t.tasks t.sets := by
  obtain ⟨⟨ht, hclose⟩, hs⟩ := Option.ite_none_right_eq_some.mp hs
  cases hs
  have hpos := List.count_pos_iff.mpr ht
  have hempty := hem.signalled hpos (by have := hi.signalled.mp hclose; omega)
  have hcount := (moves_advance ht [.check]).counted
  simp only [List.countP_singleton, Task.isCounted, Bool.false_eq_true, if_false] at hcount
  constructor <;> dsimp only <;> omega

theorem Emptied.step (hem : Emptied st.tasks st.sets) (hi : Inv st closing event) {a : Action} (hok : NoEntry st a)
    (hs : Socket.step st a = some t) : Emptied t.tasks t.sets := by
  cases a with
  | increment => exact emptied_increment hok hs
  | returned =>
      obtain ⟨ht, hs⟩ := Option.ite_none_right_eq_some.mp hs
      cases hs
      exact hem.moved (moves_advance ht [.leaving]) (by decide) (by decide) (by decide) (by simp)
  | decrement => exact hem.decrement hi hs
  | bitTest =>
      obtain ⟨ht, hs⟩ := Option.ite_none_right_eq_some.mp hs
      cases hs
      dsimp only
      split
      · exact hem.moved (moves_advance ht [.setEvent]) (by decide) (by decide) (by decide) (by simp)
      · exact hem.moved (moves_advance ht []) (by decide) (by decide) (by decide) (by simp)
  | setEvent =>
      obtain ⟨ht, hs⟩ := Option.ite_none_right_eq_some.mp hs
      cases hs
      exact hem.moved (moves_advance ht []) (by decide) (by decide) (by decide) (by simp)
  | close =>
      cases hs
      exact hem.close hi
  | wake => exact hem.wake hi hs
  | bitSet =>
      obtain ⟨ht, hs⟩ := Option.ite_none_right_eq_some.mp hs
      cases hs
      exact hem.moved (moves_advance ht [.check]) (by decide) (by decide) (by decide) (by simp)
  | check =>
      obtain ⟨ht, hs⟩ := Option.ite_none_right_eq_some.mp hs
      cases hs
      exact hem.moved (moves_advance ht [.proceeds]) (by decide) (by decide) (by decide) (by simp)

theorem Emptied.noLateInvoker (hem : Emptied st.tasks st.sets) {a : Action} (hs : Socket.step st a = some t) :
    NoLateInvoker st a := by
  cases a with
  | check =>
      obtain ⟨ht, _⟩ := Option.ite_none_right_eq_some.mp hs
      have hpos := List.count_pos_iff.mpr ht
      have hempty := hem.through (by omega)
      exact List.count_eq_zero.mp (by omega)
  | increment => trivial
  | returned => trivial
  | decrement => trivial
  | bitTest => trivial
  | setEvent => trivial
  | close => trivial
  | wake => trivial
  | bitSet => trivial

end NoEntry

-- Only calls that come while `wait_invokers` is under way can break an assertion.
theorem verified_of_noEntry {st : State} (h : machine.Reachable NoEntry st) : st.verified = true := by
  have hall : Emptied st.tasks st.sets ∧ st.verified = true := by
    refine h.invariant_under (I := fun st => ∃ closing event, Inv st closing event)
      (J := fun st => Emptied st.tasks st.sets ∧ st.verified = true) (fun _ => reachable_inv) ?_ ?_
    · rintro _ rfl
      exact ⟨⟨by simp, by simp⟩, rfl⟩
    · rintro s a t ⟨closing, event, hi⟩ ⟨hem, hverified⟩ hok hs
      exact ⟨hem.step hi hok hs, (hi.verified_step hs).mpr ⟨hverified, hem.noLateInvoker hs⟩⟩
  exact hall.2

end Usbip.Socket

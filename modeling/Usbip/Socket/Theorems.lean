import Mathlib.Data.Nat.Bitwise
import Usbip.Socket

namespace Usbip.Socket

open Usbip.Library.Pool
open Usbip.Library.Runs

-- The word as a counter and two flags; below 2^61 the three do not get in each other's way.
def pack (count : Nat) (closing event : Bool) : UInt64 :=
  UInt64.ofNat (2 ^ 61 * (closing.toNat + 2 * event.toNat) + count)

section Pack

variable {count : Nat} (closing event : Bool)

theorem toNat_pack (h : count < 2 ^ 61) :
    (pack count closing event).toNat = 2 ^ 61 * (closing.toNat + 2 * event.toNat) + count := by
  have hc := closing.toNat_le
  have he := event.toNat_le
  rw [pack, UInt64.toNat_ofNat_of_lt']
  simp only [UInt64.size]
  omega

theorem pack_add_one (h : count + 1 < 2 ^ 61) :
    pack count closing event + 1 = pack (count + 1) closing event := by
  have hc := closing.toNat_le
  have he := event.toNat_le
  apply UInt64.toNat_inj.mp
  rw [UInt64.toNat_add, toNat_pack _ _ (by omega), toNat_pack _ _ h, UInt64.toNat_one]
  omega

theorem pack_sub_one (h : count + 1 < 2 ^ 61) :
    pack (count + 1) closing event - 1 = pack count closing event := by
  rw [← pack_add_one _ _ h, UInt64.add_sub_cancel]

theorem pack_and_closing (h : count < 2 ^ 61) :
    pack count closing event &&& CLOSING = 0 ↔ closing = false := by
  rw [← UInt64.toNat_inj, UInt64.toNat_and, toNat_pack _ _ h]
  change (2 ^ 61 * (closing.toNat + 2 * event.toNat) + count) &&& 2 ^ 61 = 0 ↔ _
  rw [Nat.and_two_pow, Nat.testBit_two_pow_mul_add _ h, if_neg (by omega)]
  cases closing <;> cases event <;> decide

theorem pack_and_eventSet (h : count < 2 ^ 61) :
    pack count closing event &&& EVENT_SET = 0 ↔ event = false := by
  rw [← UInt64.toNat_inj, UInt64.toNat_and, toNat_pack _ _ h]
  change (2 ^ 61 * (closing.toNat + 2 * event.toNat) + count) &&& 2 ^ 62 = 0 ↔ _
  rw [Nat.and_two_pow, Nat.testBit_two_pow_mul_add _ h, if_neg (by omega)]
  cases closing <;> cases event <;> decide

theorem pack_or_closing (h : count < 2 ^ 61) :
    pack count closing event ||| CLOSING = pack count true event := by
  apply UInt64.toNat_inj.mp
  rw [UInt64.toNat_or, toNat_pack _ _ h, toNat_pack _ _ h]
  change (2 ^ 61 * (closing.toNat + 2 * event.toNat) + count) ||| 2 ^ 61 * 1 = _
  rw [Nat.two_pow_add_eq_or_of_lt h, Nat.two_pow_add_eq_or_of_lt h, Nat.or_right_comm]
  congr 1
  cases closing <;> cases event <;> rfl

theorem pack_or_eventSet (h : count < 2 ^ 61) :
    pack count closing event ||| EVENT_SET = pack count closing true := by
  apply UInt64.toNat_inj.mp
  rw [UInt64.toNat_or, toNat_pack _ _ h, toNat_pack _ _ h]
  change (2 ^ 61 * (closing.toNat + 2 * event.toNat) + count) ||| 2 ^ 61 * 2 = _
  rw [Nat.two_pow_add_eq_or_of_lt h, Nat.two_pow_add_eq_or_of_lt h, Nat.or_right_comm]
  congr 1
  cases closing <;> cases event <;> rfl

theorem pack_and_countMask (h : count < 2 ^ 61) :
    pack count closing event &&& COUNT_MASK = pack count false false := by
  rw [← UInt64.toNat_inj, UInt64.toNat_and, toNat_pack _ _ h, toNat_pack _ _ h]
  change (2 ^ 61 * (closing.toNat + 2 * event.toNat) + count) &&& (2 ^ 61 - 1) = _
  rw [Nat.and_two_pow_sub_one_eq_mod, Nat.mul_add_mod, Nat.mod_eq_of_lt h]
  simp

theorem pack_eq_closing (h : count < 2 ^ 61) :
    pack count closing event = CLOSING ↔ count = 0 ∧ closing = true ∧ event = false := by
  rw [← UInt64.toNat_inj, toNat_pack _ _ h]
  change _ = 2 ^ 61 ↔ _
  cases closing <;> cases event <;> simp <;> omega

theorem pack_eq_zero (h : count < 2 ^ 61) :
    pack count closing event = 0 ↔ count = 0 ∧ closing = false ∧ event = false := by
  rw [← UInt64.toNat_inj, toNat_pack _ _ h]
  change _ = 0 ↔ _
  cases closing <;> cases event <;> simp

end Pack

-- What the flags mean for the calls under way, counted by where they stand.
structure Counts (tasks : List Task) (sets closing event : Nat) : Prop where
  bound : tasks.count .executing + tasks.count .leaving < 2 ^ 61
  closers : tasks.count .waiting + tasks.count .bitSet + tasks.count .check + tasks.count .proceeds = closing
  closing_le : closing ≤ 1
  event_le : event ≤ closing
  bitTest : 0 < tasks.count .bitTest → closing = 1
  idle : 0 < event + tasks.count .bitTest + tasks.count .bitSet + tasks.count .check + tasks.count .proceeds →
    tasks.count .executing = 0
  once : sets + tasks.count .setEvent ≤ event
  unset : 0 < tasks.count .waiting → event = 0 →
    0 < tasks.count .executing + tasks.count .leaving + tasks.count .bitTest
  set : 0 < tasks.count .waiting → event = 1 → sets + tasks.count .setEvent = 1

structure Inv (st : State) (closing event : Bool) : Prop where
  word : st.invokeCnt = pack (st.tasks.count .executing + st.tasks.count .leaving) closing event
  counts : Counts st.tasks st.sets closing.toNat event.toNat
  signalled : st.canClose = true ↔ 0 < st.sets

theorem inv_init : Inv {} false false := by
  refine ⟨rfl, ?_, by simp⟩
  constructor <;> simp

theorem countP_isCounted (tasks : List Task) :
    tasks.countP Task.isCounted = tasks.count .executing + tasks.count .leaving := by
  induction tasks with
  | nil => rfl
  | cons t rest ih =>
      cases t <;> simp [List.countP_cons, Task.isCounted, ih] <;> omega

-- How a step moves the eight counts.
structure Moves (tasks after gone came : List Task) : Prop where
  executing : after.count .executing + gone.count .executing = came.count .executing + tasks.count .executing
  leaving : after.count .leaving + gone.count .leaving = came.count .leaving + tasks.count .leaving
  bitTest : after.count .bitTest + gone.count .bitTest = came.count .bitTest + tasks.count .bitTest
  setEvent : after.count .setEvent + gone.count .setEvent = came.count .setEvent + tasks.count .setEvent
  waiting : after.count .waiting + gone.count .waiting = came.count .waiting + tasks.count .waiting
  bitSet : after.count .bitSet + gone.count .bitSet = came.count .bitSet + tasks.count .bitSet
  check : after.count .check + gone.count .check = came.count .check + tasks.count .check
  proceeds : after.count .proceeds + gone.count .proceeds = came.count .proceeds + tasks.count .proceeds

theorem moves_advance {tasks : List Task} {task : Task} (ht : task ∈ tasks) (next : List Task) :
    Moves tasks (advance tasks task next) [task] next := by
  have h : ∀ k, (advance tasks task next).count k + [task].count k = next.count k + tasks.count k := by
    intro k
    simpa [List.count_singleton] using count_advance ht next k
  exact ⟨h _, h _, h _, h _, h _, h _, h _, h _⟩

theorem moves_cons (tasks : List Task) (task : Task) : Moves tasks (task :: tasks) [] [task] := by
  have h : ∀ k, (task :: tasks).count k + [].count k = [task].count k + tasks.count k := by
    intro k
    rw [List.count_nil, Nat.add_zero, ← List.singleton_append, List.count_append]
  exact ⟨h _, h _, h _, h _, h _, h _, h _, h _⟩

theorem Moves.counted {tasks after gone came : List Task} (hm : Moves tasks after gone came) :
    after.count .executing + after.count .leaving + gone.countP Task.isCounted =
      came.countP Task.isCounted + (tasks.count .executing + tasks.count .leaving) := by
  have he := hm.executing
  have hl := hm.leaving
  rw [countP_isCounted, countP_isCounted]
  omega

section Word

variable {tasks after gone came : List Task} (closing event : Bool)

theorem Moves.pack_eq (hm : Moves tasks after gone came)
    (h : gone.countP Task.isCounted = came.countP Task.isCounted) :
    pack (tasks.count .executing + tasks.count .leaving) closing event =
      pack (after.count .executing + after.count .leaving) closing event := by
  have hcount := hm.counted
  congr 1
  omega

theorem Moves.pack_succ (hm : Moves tasks after gone came)
    (h : came.countP Task.isCounted = gone.countP Task.isCounted + 1) :
    pack (tasks.count .executing + tasks.count .leaving + 1) closing event =
      pack (after.count .executing + after.count .leaving) closing event := by
  have hcount := hm.counted
  congr 1
  omega

theorem Moves.pack_pred (hm : Moves tasks after gone came)
    (h : gone.countP Task.isCounted = came.countP Task.isCounted + 1) {n : Nat}
    (hn : tasks.count .executing + tasks.count .leaving = n + 1) :
    pack n closing event = pack (after.count .executing + after.count .leaving) closing event := by
  have hcount := hm.counted
  congr 1
  omega

end Word

section Counts

variable {tasks after : List Task} {sets closing event : Nat}

-- A call that enters while a close is under way only backs out.
theorem Counts.enter (hc : Counts tasks sets closing event)
    (hroom : tasks.count .executing + tasks.count .leaving + 1 < 2 ^ 61) {task : Task}
    (htask : task = if closing = 0 then .executing else .leaving) : Counts (task :: tasks) sets closing event := by
  obtain ⟨hbound, hclosers, hcle, hele, hbit, hidle, honce, hunset, hset⟩ := hc
  obtain ⟨he, hl, hb, hs, hw, hbs, hck, hp⟩ := moves_cons tasks task
  split at htask <;> subst htask
  all_goals
    simp only [List.count_singleton, List.count_nil, beq_iff_eq, reduceCtorEq, if_true, if_false]
      at he hl hb hs hw hbs hck hp
    constructor <;> omega

theorem Counts.returned (hc : Counts tasks sets closing event) (hm : Moves tasks after [.executing] [.leaving])
    (hpos : 0 < tasks.count .executing) : Counts after sets closing event := by
  obtain ⟨hbound, hclosers, hcle, hele, hbit, hidle, honce, hunset, hset⟩ := hc
  obtain ⟨he, hl, hb, hs, hw, hbs, hck, hp⟩ := hm
  simp only [List.count_singleton, beq_iff_eq, reduceCtorEq, if_true, if_false] at he hl hb hs hw hbs hck hp
  constructor <;> omega

-- The call that takes the counter to zero while a closer has not been let through goes on to the event.
theorem Counts.last (hc : Counts tasks sets closing event) (hm : Moves tasks after [.leaving] [.bitTest])
    (hlast : tasks.count .executing + tasks.count .leaving = 1) (hpos : 0 < tasks.count .leaving)
    (hclosing : closing = 1) : Counts after sets closing event := by
  obtain ⟨hbound, hclosers, hcle, hele, hbit, hidle, honce, hunset, hset⟩ := hc
  obtain ⟨he, hl, hb, hs, hw, hbs, hck, hp⟩ := hm
  simp only [List.count_singleton, beq_iff_eq, reduceCtorEq, if_true, if_false] at he hl hb hs hw hbs hck hp
  constructor <;> omega

theorem Counts.leave (hc : Counts tasks sets closing event) (hm : Moves tasks after [.leaving] [])
    (hrest : 1 < tasks.count .executing + tasks.count .leaving ∨ closing = 0 ∨ event = 1) :
    Counts after sets closing event := by
  obtain ⟨hbound, hclosers, hcle, hele, hbit, hidle, honce, hunset, hset⟩ := hc
  obtain ⟨he, hl, hb, hs, hw, hbs, hck, hp⟩ := hm
  simp only [List.count_singleton, List.count_nil, beq_iff_eq, reduceCtorEq, if_true, if_false]
    at he hl hb hs hw hbs hck hp
  constructor <;> omega

theorem Counts.bitTest_first (hc : Counts tasks sets closing 0) (hm : Moves tasks after [.bitTest] [.setEvent])
    (hpos : 0 < tasks.count .bitTest) : Counts after sets closing 1 := by
  obtain ⟨hbound, hclosers, hcle, hele, hbit, hidle, honce, hunset, hset⟩ := hc
  obtain ⟨he, hl, hb, hs, hw, hbs, hck, hp⟩ := hm
  simp only [List.count_singleton, beq_iff_eq, reduceCtorEq, if_true, if_false] at he hl hb hs hw hbs hck hp
  constructor <;> omega

theorem Counts.bitTest_again (hc : Counts tasks sets closing 1) (hm : Moves tasks after [.bitTest] []) :
    Counts after sets closing 1 := by
  obtain ⟨hbound, hclosers, hcle, hele, hbit, hidle, honce, hunset, hset⟩ := hc
  obtain ⟨he, hl, hb, hs, hw, hbs, hck, hp⟩ := hm
  simp only [List.count_singleton, List.count_nil, beq_iff_eq, reduceCtorEq, if_true, if_false]
    at he hl hb hs hw hbs hck hp
  constructor <;> omega

theorem Counts.setEvent (hc : Counts tasks sets closing event) (hm : Moves tasks after [.setEvent] [])
    (hpos : 0 < tasks.count .setEvent) : Counts after (sets + 1) closing event := by
  obtain ⟨hbound, hclosers, hcle, hele, hbit, hidle, honce, hunset, hset⟩ := hc
  obtain ⟨he, hl, hb, hs, hw, hbs, hck, hp⟩ := hm
  simp only [List.count_singleton, List.count_nil, beq_iff_eq, reduceCtorEq, if_true, if_false]
    at he hl hb hs hw hbs hck hp
  constructor <;> omega

theorem Counts.wait (hc : Counts tasks sets 0 event) (hpos : 0 < tasks.count .executing + tasks.count .leaving) :
    Counts (.waiting :: tasks) sets 1 event := by
  obtain ⟨hbound, hclosers, hcle, hele, hbit, hidle, honce, hunset, hset⟩ := hc
  obtain ⟨he, hl, hb, hs, hw, hbs, hck, hp⟩ := moves_cons tasks .waiting
  simp only [List.count_singleton, List.count_nil, beq_iff_eq, reduceCtorEq, if_true, if_false]
    at he hl hb hs hw hbs hck hp
  constructor <;> omega

theorem Counts.proceed (hc : Counts tasks sets 0 event) (hzero : tasks.count .executing + tasks.count .leaving = 0) :
    Counts (.bitSet :: tasks) sets 1 event := by
  obtain ⟨hbound, hclosers, hcle, hele, hbit, hidle, honce, hunset, hset⟩ := hc
  obtain ⟨he, hl, hb, hs, hw, hbs, hck, hp⟩ := moves_cons tasks .bitSet
  simp only [List.count_singleton, List.count_nil, beq_iff_eq, reduceCtorEq, if_true, if_false]
    at he hl hb hs hw hbs hck hp
  constructor <;> omega

theorem Counts.wake (hc : Counts tasks sets closing event) (hm : Moves tasks after [.waiting] [.check])
    (hset : 0 < sets) : Counts after sets closing event := by
  obtain ⟨hbound, hclosers, hcle, hele, hbit, hidle, honce, hunset, hset⟩ := hc
  obtain ⟨he, hl, hb, hs, hw, hbs, hck, hp⟩ := hm
  simp only [List.count_singleton, beq_iff_eq, reduceCtorEq, if_true, if_false] at he hl hb hs hw hbs hck hp
  constructor <;> omega

theorem Counts.bitSet (hc : Counts tasks sets closing event) (hm : Moves tasks after [.bitSet] [.check])
    (hpos : 0 < tasks.count .bitSet) : Counts after sets closing 1 := by
  obtain ⟨hbound, hclosers, hcle, hele, hbit, hidle, honce, hunset, hset⟩ := hc
  obtain ⟨he, hl, hb, hs, hw, hbs, hck, hp⟩ := hm
  simp only [List.count_singleton, beq_iff_eq, reduceCtorEq, if_true, if_false] at he hl hb hs hw hbs hck hp
  constructor <;> omega

theorem Counts.check (hc : Counts tasks sets closing event) (hm : Moves tasks after [.check] [.proceeds]) :
    Counts after sets closing event := by
  obtain ⟨hbound, hclosers, hcle, hele, hbit, hidle, honce, hunset, hset⟩ := hc
  obtain ⟨he, hl, hb, hs, hw, hbs, hck, hp⟩ := hm
  simp only [List.count_singleton, beq_iff_eq, reduceCtorEq, if_true, if_false] at he hl hb hs hw hbs hck hp
  constructor <;> omega

end Counts

section Step

variable {st t : State} {closing event : Bool}

theorem Inv.increment (hi : Inv st closing event) (hs : step st .increment = some t) : Inv t closing event := by
  simp only [step, State.inside, countP_isCounted] at hs
  obtain ⟨hroom, hs⟩ := Option.ite_none_right_eq_some.mp hs
  cases hs
  rw [hi.word, pack_add_one _ _ hroom]
  cases closing with
  | false =>
      rw [if_neg (not_not.mpr ((pack_and_closing false event hroom).mpr rfl))]
      exact ⟨(moves_cons _ _).pack_succ _ _ rfl, hi.counts.enter hroom rfl, hi.signalled⟩
  | true =>
      rw [if_pos fun h => nomatch (pack_and_closing true event hroom).mp h]
      exact ⟨(moves_cons _ _).pack_succ _ _ rfl, hi.counts.enter hroom rfl, hi.signalled⟩

theorem Inv.returned (hi : Inv st closing event) (hs : step st .returned = some t) : Inv t closing event := by
  obtain ⟨ht, hs⟩ := Option.ite_none_right_eq_some.mp hs
  cases hs
  have hm := moves_advance ht [.leaving]
  exact ⟨hi.word.trans (hm.pack_eq _ _ rfl), hi.counts.returned hm (List.count_pos_iff.mpr ht), hi.signalled⟩

-- The counter is zero and the event not set: what `invoke` asks of the value it decremented to.
theorem Inv.decremented (hi : Inv st closing event) (ht : .leaving ∈ st.tasks) :
    st.invokeCnt - 1 = CLOSING ↔
      st.tasks.count .executing + st.tasks.count .leaving = 1 ∧ closing = true ∧ event = false := by
  have hpos := List.count_pos_iff.mpr ht
  have hbound := hi.counts.bound
  obtain ⟨n, hn⟩ := Nat.exists_eq_add_of_lt (show 0 < st.tasks.count .executing + st.tasks.count .leaving by omega)
  rw [hi.word, hn, Nat.zero_add, pack_sub_one _ _ (by omega), pack_eq_closing _ _ (by omega)]
  simp

theorem Inv.decrement (hi : Inv st closing event) (hs : step st .decrement = some t) : Inv t closing event := by
  obtain ⟨ht, hs⟩ := Option.ite_none_right_eq_some.mp hs
  cases hs
  have hpos := List.count_pos_iff.mpr ht
  have hbound := hi.counts.bound
  have hdecremented := hi.decremented ht
  obtain ⟨n, hn⟩ : ∃ n, st.tasks.count .executing + st.tasks.count .leaving = n + 1 :=
    ⟨st.tasks.count .executing + st.tasks.count .leaving - 1, by omega⟩
  have hword : st.invokeCnt - 1 = pack n closing event := by
    rw [hi.word, hn, pack_sub_one _ _ (by omega)]
  split
  case isTrue heq =>
    obtain ⟨hone, rfl, rfl⟩ := hdecremented.mp heq
    have hm := moves_advance ht [.bitTest]
    exact ⟨hword.trans (hm.pack_pred _ _ rfl hn), hi.counts.last hm hone hpos rfl, hi.signalled⟩
  case isFalse hrest =>
    rw [hdecremented] at hrest
    have hm := moves_advance ht []
    refine ⟨hword.trans (hm.pack_pred _ _ rfl hn), hi.counts.leave hm ?_, hi.signalled⟩
    cases closing <;> cases event <;> simp_all
    omega

theorem Inv.bitTest (hi : Inv st closing event) (hs : step st .bitTest = some t) : Inv t closing true := by
  obtain ⟨ht, hs⟩ := Option.ite_none_right_eq_some.mp hs
  cases hs
  rw [hi.word, pack_or_eventSet _ _ hi.counts.bound]
  simp only [pack_and_eventSet closing event hi.counts.bound]
  cases event with
  | false =>
      have hm := moves_advance ht [.setEvent]
      exact ⟨hm.pack_eq _ _ rfl, hi.counts.bitTest_first hm (List.count_pos_iff.mpr ht), hi.signalled⟩
  | true =>
      have hm := moves_advance ht []
      exact ⟨hm.pack_eq _ _ rfl, hi.counts.bitTest_again hm, hi.signalled⟩

theorem Inv.setEvent (hi : Inv st closing event) (hs : step st .setEvent = some t) : Inv t closing event := by
  obtain ⟨ht, hs⟩ := Option.ite_none_right_eq_some.mp hs
  cases hs
  have hm := moves_advance ht []
  exact ⟨hi.word.trans (hm.pack_eq _ _ rfl), hi.counts.setEvent hm (List.count_pos_iff.mpr ht), by simp⟩

theorem Inv.wake (hi : Inv st closing event) (hs : step st .wake = some t) : Inv t closing event := by
  obtain ⟨ht, hs⟩ := Option.ite_none_right_eq_some.mp hs
  cases hs
  have hm := moves_advance ht.1 [.check]
  exact ⟨hi.word.trans (hm.pack_eq _ _ rfl), hi.counts.wake hm (hi.signalled.mp ht.2), hi.signalled⟩

theorem Inv.bitSet (hi : Inv st closing event) (hs : step st .bitSet = some t) : Inv t closing true := by
  obtain ⟨ht, hs⟩ := Option.ite_none_right_eq_some.mp hs
  cases hs
  have hm := moves_advance ht [.check]
  rw [hi.word, pack_or_eventSet _ _ hi.counts.bound]
  exact ⟨hm.pack_eq _ _ rfl, hi.counts.bitSet hm (List.count_pos_iff.mpr ht), hi.signalled⟩

theorem Inv.check (hi : Inv st closing event) (hs : step st .check = some t) : Inv t closing event := by
  obtain ⟨ht, hs⟩ := Option.ite_none_right_eq_some.mp hs
  cases hs
  have hm := moves_advance ht [.proceeds]
  exact ⟨hi.word.trans (hm.pack_eq _ _ rfl), hi.counts.check hm, hi.signalled⟩

-- Only the first close finds the flag clear, so the word is the counter alone there.
theorem Inv.setClosing (hi : Inv st closing event) : Inv (setClosing st) true event := by
  have hbound := hi.counts.bound
  have hword := hi.word
  have hevent := hi.counts.event_le
  unfold Socket.setClosing
  simp only [hword, ne_eq, pack_or_closing closing event hbound, pack_and_closing closing event hbound,
    pack_eq_zero closing event hbound]
  cases closing with
  | true => exact ⟨rfl, hi.counts, hi.signalled⟩
  | false =>
      obtain rfl : event = false := by cases event <;> simp_all
      simp only [not_true_eq_false, if_false, and_true]
      split
      case isTrue hpos =>
        exact ⟨(moves_cons _ _).pack_eq _ _ rfl, hi.counts.wait (by omega), hi.signalled⟩
      case isFalse hzero =>
        exact ⟨(moves_cons _ _).pack_eq _ _ rfl, hi.counts.proceed (by omega), hi.signalled⟩

theorem Inv.step {a : Action} (hi : Inv st closing event) (hs : step st a = some t) :
    ∃ closing' event', Inv t closing' event' := by
  cases a with
  | increment => exact ⟨_, _, hi.increment hs⟩
  | returned => exact ⟨_, _, hi.returned hs⟩
  | decrement => exact ⟨_, _, hi.decrement hs⟩
  | bitTest => exact ⟨_, _, hi.bitTest hs⟩
  | setEvent => exact ⟨_, _, hi.setEvent hs⟩
  | close =>
      cases hs
      exact ⟨_, _, hi.setClosing⟩
  | wake => exact ⟨_, _, hi.wake hs⟩
  | bitSet => exact ⟨_, _, hi.bitSet hs⟩
  | check => exact ⟨_, _, hi.check hs⟩

end Step

theorem reachable_inv {ok : State → Action → Prop} {st : State} (h : machine.Reachable ok st) :
    ∃ closing event, Inv st closing event := by
  refine h.invariant (I := fun st => ∃ closing event, Inv st closing event) ?_ ?_
  · rintro _ rfl
    exact ⟨false, false, inv_init⟩
  · rintro s a t ⟨closing, event, hi⟩ _ hs
    exact hi.step hs

theorem executing_of_proceeds {st : State} {closing event : Bool} (hi : Inv st closing event)
    (hp : .proceeds ∈ st.tasks) : .executing ∉ st.tasks := by
  have hpos := List.count_pos_iff.mpr hp
  have hidle := hi.counts.idle (by omega)
  exact List.count_eq_zero.mp hidle

-- A close that has been let through stays in the pool.
theorem proceeds_step {st t : State} {a : Action} (hp : .proceeds ∈ st.tasks) (hs : step st a = some t) :
    .proceeds ∈ t.tasks := by
  cases a with
  | close =>
      cases hs
      simp only [setClosing]
      split
      · exact hp
      · split <;> exact List.mem_cons_of_mem _ hp
  | increment | returned | decrement | bitTest | setEvent | wake | bitSet | check =>
      simp only [step] at hs
      split at hs
      · cases hs
        first
          | exact List.mem_cons_of_mem _ hp
          | exact mem_advance_of_ne (by simp) hp
      · cases hs

theorem proceeds_run {st later : State} {schedule : List Action} (hp : .proceeds ∈ st.tasks)
    (hr : machine.run (fun _ _ => True) st schedule = some later) : .proceeds ∈ later.tasks :=
  Machine.run_preserves (P := fun st => .proceeds ∈ st.tasks) (fun _ _ _ hp _ hs => proceeds_step hp hs) hr hp

-- Only KeSetEvent of a leaving call signals the event.
theorem sets_step {st t : State} {a : Action} (hs : step st a = some t) :
    t.sets = st.sets + [a].count .setEvent := by
  cases a with
  | close =>
      cases hs
      simp only [setClosing]
      split
      · rfl
      · split <;> rfl
  | increment | returned | decrement | bitTest | setEvent | wake | bitSet | check =>
      simp only [step] at hs
      split at hs
      · cases hs
        rfl
      · cases hs

theorem sets_run {st later : State} {schedule : List Action}
    (hr : machine.run (fun _ _ => True) st schedule = some later) :
    later.sets = st.sets + schedule.count .setEvent := by
  induction schedule generalizing st with
  | nil =>
      obtain rfl : st = later := by simpa [Machine.run] using hr
      rfl
  | cons a rest ih =>
      rw [Machine.run, if_pos trivial] at hr
      obtain ⟨next, hs, hrest⟩ := Option.bind_eq_some_iff.mp hr
      have hstep := sets_step hs
      have hrun := ih hrest
      rw [List.count_cons]
      rw [List.count_singleton] at hstep
      omega

-- With a closer waiting and nobody counted any more, the event has been set or
-- a call that took the counter to zero is on its way to set it.
theorem Inv.last_sets {st : State} {closing event : Bool} (hi : Inv st closing event)
    (hw : .waiting ∈ st.tasks) (hin : st.inside = 0) :
    st.canClose = true ∨ .setEvent ∈ st.tasks ∨ (.bitTest ∈ st.tasks ∧ st.invokeCnt &&& EVENT_SET = 0) := by
  have hpos := List.count_pos_iff.mpr hw
  have hbound := hi.counts.bound
  rw [State.inside, countP_isCounted] at hin
  cases event with
  | false =>
      have hbit := hi.counts.unset hpos rfl
      refine .inr (.inr ⟨List.count_pos_iff.mp (by omega), ?_⟩)
      rw [hi.word]
      exact (pack_and_eventSet closing false hbound).mpr rfl
  | true =>
      have hset := hi.counts.set hpos rfl
      by_cases hs : 0 < st.sets
      · exact .inl (hi.signalled.mpr hs)
      · exact .inr (.inl (List.count_pos_iff.mp (by omega)))

theorem Inv.left_set {st : State} {closing event : Bool} (hi : Inv st closing event)
    (hw : .waiting ∈ st.tasks) (hnone : ∀ task ∈ st.tasks, task.isInvoker = false) : st.canClose = true := by
  have hin : st.inside = 0 := by
    refine List.countP_eq_zero.mpr fun task ht => ?_
    have := hnone task ht
    cases task <;> simp_all [Task.isInvoker, Task.isCounted]
  obtain h | h | h := hi.last_sets hw hin
  · exact h
  · exact absurd (hnone _ h) (by decide)
  · exact absurd (hnone _ h.1) (by decide)

theorem Inv.sets_le {st : State} {closing event : Bool} (hi : Inv st closing event) : st.sets ≤ 1 := by
  have := hi.counts.once
  have := event.toNat_le
  omega

theorem Inv.proceeds_le {st : State} {closing event : Bool} (hi : Inv st closing event) :
    st.tasks.count .proceeds ≤ 1 := by
  have := hi.counts.closers
  have := closing.toNat_le
  omega

-- Calls never leave the pool once they are past `wait_invokers`, so the second part bounds
-- the closes that proceed in the whole run.
theorem wait_invokers_rundown (st : State) (h : machine.Reachable (fun _ _ => True) st) :
    (.proceeds ∈ st.tasks → .executing ∉ st.tasks ∧
      ∀ schedule later, machine.run (fun _ _ => True) st schedule = some later → .executing ∉ later.tasks) ∧
    st.tasks.count .proceeds ≤ 1 ∧
    st.sets ≤ 1 ∧
    (.waiting ∈ st.tasks →
      (st.inside = 0 → st.canClose = true ∨ .setEvent ∈ st.tasks ∨
        (.bitTest ∈ st.tasks ∧ st.invokeCnt &&& EVENT_SET = 0)) ∧
      ∀ schedule later, machine.run (fun _ _ => True) st schedule = some later → .waiting ∈ later.tasks →
        (∀ task ∈ later.tasks, task.isInvoker = false) →
        later.canClose = true ∧ (st.canClose = false → schedule.count .setEvent = 1)) := by
  obtain ⟨closing, event, hi⟩ := reachable_inv h
  refine ⟨fun hp => ⟨executing_of_proceeds hi hp, ?_⟩, hi.proceeds_le, hi.sets_le, fun hw => ⟨hi.last_sets hw, ?_⟩⟩
  · intro schedule later hr
    obtain ⟨_, _, hlater⟩ := reachable_inv (h.run hr)
    exact executing_of_proceeds hlater (proceeds_run hp hr)
  · intro schedule later hr hwait hnone
    obtain ⟨_, _, hlater⟩ := reachable_inv (h.run hr)
    have hclose := hlater.left_set hwait hnone
    refine ⟨hclose, fun hunset => ?_⟩
    have hzero : ¬ 0 < st.sets := fun hpos => by simp [hi.signalled.mpr hpos] at hunset
    have hsome := hlater.signalled.mp hclose
    have hle := hlater.sets_le
    have hsum := sets_run hr
    omega

-- A call is inside when the close begins, another one enters later and backs out.
def rundownSchedule : List Action := [.increment, .close, .returned, .decrement, .increment]

theorem wait_invokers_rundown_last :
    ∃ st, machine.Reachable (fun _ _ => True) st ∧ .waiting ∈ st.tasks ∧ st.sets ≤ 1 ∧
      ∀ schedule later, machine.run (fun _ _ => True) st schedule = some later → .waiting ∈ later.tasks →
        (∀ task ∈ later.tasks, task.isInvoker = false) → later.canClose = true := by
  have htasks : (machine.run (fun _ _ => True) {} rundownSchedule).map State.tasks =
      some [.leaving, .bitTest, .waiting] := by decide +kernel
  obtain ⟨st, hrun, htasks⟩ := Option.map_eq_some_iff.mp htasks
  have hreach : machine.Reachable (fun _ _ => True) st := Machine.Reachable.run (.init rfl) hrun
  have hwait : .waiting ∈ st.tasks := by simp [htasks]
  have hall := wait_invokers_rundown st hreach
  exact ⟨st, hreach, hwait, hall.2.2.1, fun s later hr hw hn => ((hall.2.2.2 hwait).2 s later hr hw hn).1⟩

end Usbip.Socket

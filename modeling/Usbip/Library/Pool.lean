import Mathlib.Algebra.BigOperators.Group.List.Basic
import Mathlib.Algebra.Order.Ring.Int
import Mathlib.Data.List.Count

namespace Usbip.Library.Pool

variable {τ : Type} [DecidableEq τ]

-- One of the tasks has done a step: it is gone and what it turned into takes its place.
def advance (tasks : List τ) (task : τ) (next : List τ) : List τ := next ++ tasks.erase task

theorem mem_advance {tasks next : List τ} {task x : τ} (h : x ∈ advance tasks task next) :
    x ∈ next ∨ x ∈ tasks :=
  (List.mem_append.mp h).imp id List.mem_of_mem_erase

theorem mem_advance_of_next {tasks next : List τ} {task x : τ} (h : x ∈ next) :
    x ∈ advance tasks task next :=
  List.mem_append_left _ h

theorem mem_advance_of_ne {tasks next : List τ} {task x : τ} (hne : x ≠ task) (h : x ∈ tasks) :
    x ∈ advance tasks task next :=
  List.mem_append_right _ ((List.mem_erase_of_ne hne).mpr h)

-- Every count over the pool moves by what the step took away and brought in.
theorem countP_advance (p : τ → Bool) {tasks : List τ} {task : τ} (h : task ∈ tasks) (next : List τ) :
    (advance tasks task next).countP p + (if p task then 1 else 0) = next.countP p + tasks.countP p := by
  have hperm := (List.perm_cons_erase h).countP_eq p
  rw [List.countP_cons] at hperm
  rw [advance, List.countP_append, hperm, Nat.add_assoc]

theorem count_advance {tasks : List τ} {task : τ} (h : task ∈ tasks) (next : List τ) (x : τ) :
    (advance tasks task next).count x + (if task = x then 1 else 0) = next.count x + tasks.count x := by
  simpa [List.count] using countP_advance (· == x) h next

-- The same for the sum of the weights of the tasks.
theorem sum_advance (w : τ → Nat) {tasks : List τ} {task : τ} (h : task ∈ tasks) (next : List τ) :
    ((advance tasks task next).map w).sum + w task = (next.map w).sum + (tasks.map w).sum := by
  have hperm := ((List.perm_cons_erase h).map w).sum_eq
  rw [List.map_cons, List.sum_cons] at hperm
  rw [advance, List.map_append, List.sum_append, hperm]
  omega

-- Of what at most one task does, none of the others does anything.
theorem not_of_mem_erase {p : τ → Bool} {tasks : List τ} {x y : τ} (h : tasks.countP p ≤ 1) (hx : x ∈ tasks)
    (hpx : p x = true) (hy : y ∈ tasks.erase x) : p y = false := by
  have hcount := countP_advance p hx []
  rw [if_pos hpx, List.countP_nil] at hcount
  have hzero : (tasks.erase x).countP p = 0 := by
    change (tasks.erase x).countP p + 1 = _ at hcount
    omega
  exact Bool.eq_false_iff.mpr (List.countP_eq_zero.mp hzero y hy)

end Usbip.Library.Pool

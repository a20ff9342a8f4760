import Mathlib.Algebra.BigOperators.Group.List.Basic
import Mathlib.Algebra.Order.Ring.Int
import Mathlib.Data.List.TakeWhile

namespace Usbip.Library.Separated

variable {α : Type} [DecidableEq α] {sep : α} {l first rest : List α}

theorem ne_of_not_mem (h : sep ∉ first) : ∀ x ∈ first, decide (x ≠ sep) = true := by
  intro x hx
  apply decide_eq_true
  rintro rfl
  exact h hx

theorem takeWhile_of_not_mem (h : sep ∉ first) : first.takeWhile (· ≠ sep) = first :=
  List.takeWhile_eq_self_iff.mpr (ne_of_not_mem h)

theorem dropWhile_of_not_mem (h : sep ∉ first) : first.dropWhile (· ≠ sep) = [] :=
  List.dropWhile_eq_nil_iff.mpr (ne_of_not_mem h)

-- The first element ends at the first separator.
theorem takeWhile_append_cons (h : sep ∉ first) : (first ++ sep :: rest).takeWhile (· ≠ sep) = first := by
  rw [List.takeWhile_append_of_pos (ne_of_not_mem h), List.takeWhile_cons_of_neg (by simp), List.append_nil]

theorem dropWhile_append_cons (h : sep ∉ first) : (first ++ sep :: rest).dropWhile (· ≠ sep) = sep :: rest := by
  rw [List.dropWhile_append_of_pos (ne_of_not_mem h), List.dropWhile_cons_of_neg (by simp)]

theorem not_mem_takeWhile : sep ∉ l.takeWhile (· ≠ sep) := by
  intro hmem
  have hne := List.mem_takeWhile_imp hmem
  simp at hne

-- A list is its first element, or the first element with a separator after it.
theorem eq_first_append (sep : α) (l : List α) : sep ∉ l ∨ ∃ first rest, sep ∉ first ∧ l = first ++ sep :: rest := by
  by_cases hmem : sep ∈ l
  · obtain ⟨first, rest, rfl, hfirst⟩ := List.eq_append_cons_of_mem hmem
    exact .inr ⟨first, rest, hfirst, rfl⟩
  · exact .inl hmem

end Usbip.Library.Separated

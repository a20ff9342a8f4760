import Mathlib.Algebra.BigOperators.Group.List.Basic
import Mathlib.Algebra.Order.Ring.Int

namespace Usbip.Library.Novelty

variable {α : Type}

-- A look at a set that changes: its members, those that something was done for and those it succeeded for.
structure Look (α : Type) where
  members : List α
  attempted : List α
  given : List α
  deriving DecidableEq, Repr

-- What the last look has shown; the newest one comes first.
def lastMembers : List (Look α) → List α
  | [] => []
  | look :: _ => look.members

-- In consecutive looks that all show it nothing is given to more than once.
def OncePerStay [BEq α] (history : List (Look α)) : Prop :=
  ∀ (later block earlier : List (Look α)) (a : α), history = later ++ (block ++ earlier) →
    (∀ look ∈ block, a ∈ look.members) → (block.flatMap Look.given).count a ≤ 1

def NewAttempted (history : List (Look α)) : Prop :=
  ∀ (later earlier : List (Look α)) (look : Look α) (a : α), history = later ++ look :: earlier →
    a ∈ look.members → a ∉ lastMembers earlier → a ∈ look.attempted

-- Every look takes what the one before has not shown, each element once.
inductive Differences : List (Look α) → Prop
  | nil : Differences []
  | cons {look : Look α} {earlier : List (Look α)} : Differences earlier →
      (∀ a, a ∈ look.attempted ↔ a ∈ look.members ∧ a ∉ lastMembers earlier) → look.attempted.Nodup →
      look.given.Sublist look.attempted → Differences (look :: earlier)

namespace Differences

theorem of_append {later earlier : List (Look α)} (h : Differences (later ++ earlier)) : Differences earlier := by
  induction later with
  | nil => exact h
  | cons look later ih =>
      cases h with
      | cons hrest => exact ih hrest

theorem newAttempted {history : List (Look α)} (h : Differences history) : NewAttempted history := by
  intro later earlier look a heq hmem hnew
  rw [heq] at h
  cases h.of_append with
  | cons _ hattempted => exact (hattempted a).mpr ⟨hmem, hnew⟩

-- Induction on the looks of the stay: only the first of them can find the element new.
theorem count_given_le [BEq α] [LawfulBEq α] {block earlier : List (Look α)} {a : α}
    (h : Differences (block ++ earlier)) (hstays : ∀ look ∈ block, a ∈ look.members) :
    (block.flatMap Look.given).count a ≤ 1 := by
  induction block with
  | nil => exact Nat.zero_le 1
  | cons look block ih =>
      cases h with
      | cons hrest hattempted hnodup hgiven =>
          have hih := ih hrest fun look hlook => hstays look (List.mem_cons_of_mem _ hlook)
          rw [List.flatMap_cons, List.count_append]
          cases block with
          | nil =>
              have hcount := hgiven.count_le a
              have honce := List.nodup_iff_count.mp hnodup a
              simp only [List.flatMap_nil, List.count_nil]
              omega
          | cons before block =>
              have hmem : a ∈ before.members := hstays before (by simp)
              have hnot : a ∉ look.attempted := fun hin => ((hattempted a).mp hin).2 hmem
              have hzero : look.given.count a = 0 := List.count_eq_zero.mpr fun hin => hnot (hgiven.subset hin)
              omega

theorem oncePerStay [BEq α] [LawfulBEq α] {history : List (Look α)} (h : Differences history) :
    OncePerStay history := by
  intro later block earlier a heq hstays
  rw [heq] at h
  exact count_given_le h.of_append hstays

end Differences

end Usbip.Library.Novelty

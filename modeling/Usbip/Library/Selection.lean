import Mathlib.Algebra.BigOperators.Group.List.Basic
import Mathlib.Algebra.Order.Ring.Int
import Mathlib.Data.List.Zip

namespace Usbip.Library.Selection

variable {α : Type} [DecidableEq α]

-- A list that no element is added to twice.
def addNew (members : List α) (x : α) : List α := if members.contains x then members else members ++ [x]

-- A group of which nothing is missing; a group without elements does not count.
def holds (members group : List α) : Bool := !group.isEmpty && group.all fun x => members.contains x

-- The marks that a list of members gives the groups, and the members that marks stand for.
def marksOf (groups : List (List α)) (members : List α) : List Bool := groups.map (holds members)

def membersOf (groups : List (List α)) (marks : List Bool) : List α :=
  (groups.zip marks).foldl (fun members group => if group.2 then group.1.foldl addNew members else members) []

-- Groups that can be told from each other by any of their elements.
structure Separate (groups : List (List α)) : Prop where
  disjoint : groups.Pairwise fun first second => ∀ x ∈ first, x ∉ second
  nonempty : [] ∉ groups

variable {members group : List α} {groups : List (List α)} {marks : List Bool} {x : α}

theorem mem_foldl_addNew {xs : List α} : x ∈ xs.foldl addNew members ↔ x ∈ members ∨ x ∈ xs := by
  induction xs generalizing members with
  | nil => simp
  | cons y xs ih =>
      have hadd : x ∈ addNew members y ↔ x ∈ members ∨ x = y := by
        unfold addNew
        by_cases hy : members.contains y
        · rw [if_pos hy]
          have hmem : y ∈ members := List.contains_iff_mem.mp hy
          exact ⟨Or.inl, fun h => h.elim id fun heq => heq ▸ hmem⟩
        · rw [if_neg hy, List.mem_append, List.mem_singleton]
      rw [List.foldl_cons, ih, hadd, List.mem_cons, or_assoc]

theorem nodup_addNew (h : members.Nodup) : (addNew members x).Nodup := by
  unfold addNew
  split
  · exact h
  · next hx =>
      have hfresh : x ∉ members := fun hmem => hx (List.contains_iff_mem.mpr hmem)
      exact List.nodup_append.mpr ⟨h, List.pairwise_singleton _ x, fun a ha b hb heq => hfresh (by
        rw [← List.mem_singleton.mp hb, ← heq]
        exact ha)⟩

theorem nodup_foldl_addNew {xs : List α} (h : members.Nodup) : (xs.foldl addNew members).Nodup := by
  induction xs generalizing members with
  | nil => exact h
  | cons y xs ih => exact ih (nodup_addNew h)

theorem holds_iff : holds members group = true ↔ group ≠ [] ∧ ∀ x ∈ group, x ∈ members := by
  simp [holds]

theorem mem_foldl_marked {pairs : List (List α × Bool)} :
    x ∈ pairs.foldl (fun members group => if group.2 then group.1.foldl addNew members else members) members ↔
      x ∈ members ∨ ∃ group ∈ pairs, group.2 = true ∧ x ∈ group.1 := by
  induction pairs generalizing members with
  | nil => simp
  | cons pair pairs ih =>
      obtain ⟨group, mark⟩ := pair
      rw [List.foldl_cons, ih]
      cases mark with
      | true => simp [mem_foldl_addNew, or_assoc]
      | false => simp

theorem mem_membersOf : x ∈ membersOf groups marks ↔ ∃ group ∈ groups.zip marks, group.2 = true ∧ x ∈ group.1 := by
  rw [membersOf, mem_foldl_marked]
  simp

theorem length_foldl_addNew_le {xs : List α} : (xs.foldl addNew members).length ≤ members.length + xs.length := by
  induction xs generalizing members with
  | nil => rfl
  | cons y xs ih =>
      have hadd : (addNew members y).length ≤ members.length + 1 := by
        unfold addNew
        split
        · omega
        · simp
      rw [List.foldl_cons, List.length_cons]
      exact Nat.le_trans ih (by omega)

theorem length_membersOf_le : (membersOf groups marks).length ≤ (groups.map List.length).sum := by
  have hfold : ∀ members : List α,
      ((groups.zip marks).foldl (fun members group => if group.2 then group.1.foldl addNew members else members)
        members).length ≤ members.length + (groups.map List.length).sum := by
    induction groups generalizing marks with
    | nil => simp
    | cons group groups ih =>
        intro members
        cases marks with
        | nil => simp
        | cons mark marks =>
            rw [List.zip_cons_cons, List.foldl_cons, List.map_cons, List.sum_cons]
            cases mark with
            | true =>
                have hgroup : (group.foldl addNew members).length ≤ members.length + group.length :=
                  length_foldl_addNew_le
                exact Nat.le_trans (ih (group.foldl addNew members)) (by omega)
            | false => exact Nat.le_trans (ih members) (by omega)
  exact Nat.le_trans (hfold []) (by simp)

-- What is left of a list that is read as marks.
theorem mem_membersOf_marksOf :
    x ∈ membersOf groups (marksOf groups members) ↔ ∃ group ∈ groups, holds members group = true ∧ x ∈ group := by
  have hzip : groups.zip (marksOf groups members) = groups.map fun group => (group, holds members group) := by
    rw [marksOf, List.map_prod_left_eq_zip]
  rw [mem_membersOf, hzip]
  simp

theorem subset_of_marksOf (h : x ∈ membersOf groups (marksOf groups members)) : x ∈ members := by
  obtain ⟨group, -, hholds, hx⟩ := mem_membersOf_marksOf.mp h
  exact (holds_iff.mp hholds).2 x hx

-- The same elements are admitted by what is left if it has a member for each of them.
theorem exists_mem_iff {Admits : α → Prop} :
    ((∃ x ∈ membersOf groups (marksOf groups members), Admits x) ↔ ∃ x ∈ members, Admits x) ↔
      ∀ x ∈ members, Admits x → ∃ group ∈ groups, holds members group = true ∧ ∃ y ∈ group, Admits y := by
  constructor
  · intro hsame x hx hadmits
    obtain ⟨y, hy, hadmits⟩ := hsame.mpr ⟨x, hx, hadmits⟩
    obtain ⟨group, hgroup, hholds, hy⟩ := mem_membersOf_marksOf.mp hy
    exact ⟨group, hgroup, hholds, y, hy, hadmits⟩
  · intro hleft
    constructor
    · rintro ⟨x, hx, hadmits⟩
      exact ⟨x, subset_of_marksOf hx, hadmits⟩
    · rintro ⟨x, hx, hadmits⟩
      obtain ⟨group, hgroup, hholds, y, hy, hadmits⟩ := hleft x hx hadmits
      exact ⟨y, mem_membersOf_marksOf.mpr ⟨group, hgroup, hholds, hy⟩, hadmits⟩

-- Marks are read back as they were set.
theorem marksOf_membersOf (hseparate : Separate groups) (hlength : marks.length = groups.length) :
    marksOf groups (membersOf groups marks) = marks := by
  apply List.ext_getElem
  · rw [marksOf, List.length_map, hlength]
  · intro i hi hmarks
    have hgroup : i < groups.length := by
      rw [marksOf, List.length_map] at hi
      exact hi
    have hzip : i < (groups.zip marks).length := by
      rw [List.length_zip, hlength]
      omega
    have hne : groups[i] ≠ [] := fun heq => hseparate.nonempty (heq ▸ List.getElem_mem hgroup)
    simp only [marksOf, List.getElem_map]
    rw [Bool.eq_iff_iff, holds_iff]
    constructor
    · rintro ⟨-, hall⟩
      obtain ⟨x, hx⟩ := List.exists_mem_of_ne_nil _ hne
      obtain ⟨pair, hpair, hmark, hx'⟩ := mem_membersOf.mp (hall x hx)
      obtain ⟨j, hj, rfl⟩ := List.getElem_of_mem hpair
      have hj' : j < groups.length := by
        rw [List.length_zip] at hj
        omega
      simp only [List.getElem_zip] at hmark hx'
      -- a group that has an element in common with another is that one
      have hsame : i = j := by
        rcases Nat.lt_trichotomy i j with hlt | heq | hgt
        · exact absurd hx' (List.pairwise_iff_getElem.mp hseparate.disjoint i j hgroup hj' hlt x hx)
        · exact heq
        · exact absurd hx (List.pairwise_iff_getElem.mp hseparate.disjoint j i hj' hgroup hgt x hx')
      subst hsame
      exact hmark
    · intro hmark
      refine ⟨hne, fun x hx => mem_membersOf.mpr ⟨(groups.zip marks)[i], List.getElem_mem hzip, ?_, ?_⟩⟩
      · rwa [List.getElem_zip]
      · rwa [List.getElem_zip]

end Usbip.Library.Selection

import Mathlib.Algebra.BigOperators.Group.List.Basic
import Mathlib.Algebra.Order.Ring.Int
import Mathlib.Data.List.Nodup

namespace Usbip.Library.Chain

-- Nodes in a memory, each with a link to the next one. `next p` is `none` when there is no
-- node at `p` and `some none` when its link is null.
variable {π : Type} {next : π → Option (Option π)}

-- The links lead from `head` through the given nodes to `last`.
def Linked (next : π → Option (Option π)) : Option π → List π → Option π → Prop
  | head, [], last => head = last
  | head, p :: rest, last => head = some p ∧ ∃ q, next p = some q ∧ Linked next q rest last

-- The whole of a null-terminated chain.
def Chained (next : π → Option (Option π)) (head : Option π) (nodes : List π) : Prop :=
  Linked next head nodes none

-- The loop that looks for the last node; `none` when it meets a missing node or outlives its fuel.
def lastFrom (next : π → Option (Option π)) : Nat → π → Option π
  | 0, _ => none
  | fuel + 1, p =>
    match next p with
    | none => none
    | some none => some p
    | some (some q) => lastFrom next fuel q

theorem Linked.append {head middle last : Option π} {front back : List π} (hf : Linked next head front middle)
    (hb : Linked next middle back last) : Linked next head (front ++ back) last := by
  induction front generalizing head with
  | nil =>
      cases hf
      exact hb
  | cons p rest ih =>
      obtain ⟨rfl, q, hq, hrest⟩ := hf
      exact ⟨rfl, q, hq, ih hrest⟩

theorem Linked.split {head last : Option π} {front back : List π} (h : Linked next head (front ++ back) last) :
    ∃ middle, Linked next head front middle ∧ Linked next middle back last := by
  induction front generalizing head with
  | nil => exact ⟨head, rfl, h⟩
  | cons p rest ih =>
      obtain ⟨rfl, q, hq, hrest⟩ := h
      obtain ⟨middle, hfront, hback⟩ := ih hrest
      exact ⟨middle, ⟨rfl, q, hq, hfront⟩, hback⟩

-- Links of other nodes do not matter.
theorem Linked.congr {next' : π → Option (Option π)} {head last : Option π} {nodes : List π}
    (h : Linked next head nodes last) (hsame : ∀ p ∈ nodes, next' p = next p) : Linked next' head nodes last := by
  induction nodes generalizing head with
  | nil => exact h
  | cons p rest ih =>
      obtain ⟨rfl, q, hq, hrest⟩ := h
      have hp := (hsame p List.mem_cons_self).trans hq
      exact ⟨rfl, q, hp, ih hrest fun r hr => hsame r (List.mem_cons_of_mem _ hr)⟩

-- What follows a node is determined, so a chain that ends meets no node twice.
theorem Chained.eq {head : Option π} {nodes nodes' : List π} (h : Chained next head nodes)
    (h' : Chained next head nodes') : nodes = nodes' := by
  unfold Chained at *
  induction nodes generalizing head nodes' with
  | nil =>
      cases nodes' with
      | nil => rfl
      | cons => cases h.symm.trans h'.1
  | cons p rest ih =>
      obtain ⟨rfl, q, hq, hrest⟩ := h
      cases nodes' with
      | nil => cases h'
      | cons p' rest' =>
          obtain ⟨hp, q', hq', hrest'⟩ := h'
          cases hp
          rw [hq] at hq'
          cases hq'
          rw [ih hrest hrest']

theorem Chained.nodup {head : Option π} {nodes : List π} (h : Chained next head nodes) : nodes.Nodup := by
  induction nodes generalizing head with
  | nil => exact List.nodup_nil
  | cons p rest ih =>
      obtain ⟨rfl, q, hq, hrest⟩ := id h
      refine List.nodup_cons.mpr ⟨fun hmem => ?_, ih hrest⟩
      obtain ⟨front, back, rfl⟩ := List.append_of_mem hmem
      obtain ⟨middle, _, hback⟩ := Linked.split hrest
      obtain ⟨rfl, _⟩ := id hback
      have hlen := congrArg List.length (Chained.eq h hback)
      simp at hlen
      omega

-- The last node of a chain gets a new link.
theorem Chained.relink {next' : π → Option (Option π)} {head last : Option π} {front : List π} {p : π}
    (h : Chained next head (front ++ [p])) (hsame : ∀ q ∈ front, next' q = next q) (hp : next' p = some last) :
    Linked next' head (front ++ [p]) last := by
  obtain ⟨middle, hfront, hback⟩ := Linked.split h
  obtain ⟨rfl, _⟩ := id hback
  exact (hfront.congr hsame).append ⟨rfl, last, hp, rfl⟩

-- A node that is linked to itself is never left.
theorem lastFrom_loop {p : π} (h : next p = some (some p)) (fuel : Nat) : lastFrom next fuel p = none := by
  induction fuel with
  | zero => rfl
  | succ fuel ih =>
      rw [lastFrom, h]
      exact ih

-- Nor is there an end to a chain that leads to it.
theorem not_chained_of_loop {head : Option π} {front nodes : List π} {p : π} (hf : Linked next head front (some p))
    (h : next p = some (some p)) : ¬ Chained next head nodes := by
  have hloop : ∀ nodes, ¬ Chained next (some p) nodes := by
    intro nodes
    induction nodes with
    | nil => exact fun hc => nomatch hc
    | cons q rest ih =>
        rintro ⟨hq, r, hr, hrest⟩
        cases hq
        rw [h] at hr
        cases hr
        exact ih hrest
  induction front generalizing head nodes with
  | nil =>
      cases hf
      exact hloop nodes
  | cons q front ih =>
      obtain ⟨rfl, r, hr, hfront⟩ := hf
      cases nodes with
      | nil => exact fun hc => nomatch hc
      | cons q' rest =>
          rintro ⟨hq, r', hr', hrest⟩
          cases hq
          rw [hr] at hr'
          cases hr'
          exact ih hfront hrest

theorem lastFrom_eq {p : π} {nodes : List π} (h : Chained next (some p) nodes) {fuel : Nat}
    (hfuel : nodes.length ≤ fuel) : lastFrom next fuel p = nodes.getLast? := by
  induction nodes generalizing p fuel with
  | nil => cases h
  | cons r rest ih =>
      obtain ⟨hp, q, hq, hrest⟩ := h
      cases hp
      obtain ⟨fuel, rfl⟩ : ∃ n, fuel = n + 1 := ⟨fuel - 1, by simp at hfuel; omega⟩
      rw [lastFrom, hq]
      cases rest with
      | nil =>
          cases hrest
          rfl
      | cons s rest =>
          obtain ⟨rfl, _⟩ := id hrest
          rw [List.getLast?_cons_cons]
          exact ih hrest (by simpa using hfuel)

end Usbip.Library.Chain

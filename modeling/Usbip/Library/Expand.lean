import Mathlib.Algebra.BigOperators.Group.List.Basic
import Mathlib.Algebra.Order.Ring.Int

namespace Usbip.Library.Expand

variable {β : Type}

-- A run of cells and the place that it is to be moved to.
structure Piece where
  dst : Nat
  src : Nat
  length : Nat
  deriving DecidableEq, Repr

namespace Piece

def Covers (p : Piece) (x : Nat) : Prop := p.dst ≤ x ∧ x < p.dst + p.length

instance (p : Piece) (x : Nat) : Decidable (p.Covers x) := inferInstanceAs (Decidable (_ ∧ _))

-- The cell that is moved to a place.
def source (p : Piece) (x : Nat) : Nat := p.src + (x - p.dst)

def move (p : Piece) (m : Nat → β) (x : Nat) : β := if p.Covers x then m (p.source x) else m x

theorem source_lt {p : Piece} {x : Nat} (h : p.Covers x) : p.source x < p.src + p.length := by
  obtain ⟨hle, hlt⟩ := h
  unfold source
  omega

theorem source_le {p : Piece} {x : Nat} : p.src ≤ p.source x := Nat.le_add_right _ _

theorem move_of_eq {p : Piece} (h : p.dst = p.src) (m : Nat → β) : p.move m = m := by
  funext x
  unfold move source
  split
  · rename_i hcovers
    congr 1
    have hle := hcovers.1
    omega
  · rfl

theorem move_of_empty {p : Piece} (h : p.length = 0) (m : Nat → β) : p.move m = m := by
  funext x
  refine if_neg fun hcovers => ?_
  have hlt := hcovers.2
  have hle := hcovers.1
  omega

end Piece

-- All pieces in one memory, the last one first.
def expand (pieces : List Piece) (m : Nat → β) : Nat → β := pieces.foldr Piece.move m

@[simp] theorem expand_nil (m : Nat → β) : expand [] m = m := rfl

@[simp] theorem expand_cons (p : Piece) (pieces : List Piece) (m : Nat → β) :
    expand (p :: pieces) m = p.move (expand pieces m) := rfl

theorem expand_append (pieces rest : List Piece) (m : Nat → β) :
    expand (pieces ++ rest) m = expand pieces (expand rest m) :=
  List.foldr_append

-- The pieces lie one behind the other from `start` on, and none of them moves down.
def Compacted : Nat → List Piece → Prop
  | _, [] => True
  | start, p :: rest => p.src = start ∧ (p.length ≠ 0 → p.src ≤ p.dst) ∧ Compacted (start + p.length) rest

theorem Compacted.concat {start : Nat} {pieces : List Piece} {p : Piece} (h : Compacted start pieces)
    (hsrc : p.src = start + (pieces.map Piece.length).sum) (hup : p.length ≠ 0 → p.src ≤ p.dst) :
    Compacted start (pieces ++ [p]) := by
  induction pieces generalizing start with
  | nil => exact ⟨hsrc, hup, trivial⟩
  | cons q rest ih =>
      obtain ⟨hq, hqup, hrest⟩ := h
      refine ⟨hq, hqup, ih hrest ?_⟩
      rw [hsrc, List.map_cons, List.sum_cons, Nat.add_assoc]

-- Two pieces bring the same to every place that both of them cover.
def Agree (m : Nat → β) (p q : Piece) : Prop := ∀ x, p.Covers x → q.Covers x → m (p.source x) = m (q.source x)

def Apart (p q : Piece) : Prop := ∀ x, ¬ (p.Covers x ∧ q.Covers x)

def Placed (pieces : List Piece) (m : Nat → β) : Prop :=
  ∀ p ∈ pieces, ∀ x, p.Covers x → expand pieces m x = m (p.source x)

variable {m : Nat → β} {pieces : List Piece} {start : Nat}

-- What lies before the pieces is still there when it is the turn of an earlier one.
theorem expand_below (h : Compacted start pieces) {x : Nat} (hx : x < start) : expand pieces m x = m x := by
  induction pieces generalizing start with
  | nil => rfl
  | cons p rest ih =>
      obtain ⟨hsrc, hup, hrest⟩ := h
      rw [expand_cons, Piece.move, if_neg]
      · exact ih hrest (by omega)
      · rintro ⟨hle, hlt⟩
        have hup := hup (by omega)
        omega

theorem expand_first (h : Compacted start pieces) {p : Piece} {x : Nat} {rest : List Piece}
    (hpieces : pieces = p :: rest)
    (hx : p.Covers x) : expand pieces m x = m (p.source x) := by
  subst hpieces
  rw [expand_cons, Piece.move, if_pos hx]
  refine expand_below h.2.2 ?_
  have hlt := Piece.source_lt hx
  rw [h.1] at hlt
  exact hlt

theorem placed_of_agree (h : Compacted start pieces) (hagree : pieces.Pairwise (Agree m)) : Placed pieces m := by
  induction pieces generalizing start with
  | nil => simp [Placed]
  | cons p rest ih =>
      obtain ⟨hfirst, hrest⟩ := List.pairwise_cons.mp hagree
      have hplaced := ih h.2.2 hrest
      intro q hq x hqx
      by_cases hp : p.Covers x
      · rw [expand_first h rfl hp]
        obtain rfl | hq := List.mem_cons.mp hq
        · rfl
        · exact hfirst q hq x hp hqx
      · rw [expand_cons, Piece.move, if_neg hp]
        obtain rfl | hq := List.mem_cons.mp hq
        · exact absurd hqx hp
        · exact hplaced q hq x hqx

-- Every piece gets to its place unless an earlier one brings something else there.
theorem placed_iff (h : Compacted start pieces) : Placed pieces m ↔ pieces.Pairwise (Agree m) := by
  refine ⟨fun hplaced => ?_, placed_of_agree h⟩
  refine List.pairwise_of_forall_mem_list fun p hp q hq x hpx hqx => ?_
  rw [← hplaced p hp x hpx]
  exact hplaced q hq x hqx

theorem src_of_mem (h : Compacted start pieces) {p : Piece} (hp : p ∈ pieces) : start ≤ p.src := by
  induction pieces generalizing start with
  | nil => cases hp
  | cons q rest ih =>
      obtain ⟨hsrc, _, hrest⟩ := h
      obtain rfl | hp := List.mem_cons.mp hp
      · exact hsrc.ge
      · exact le_trans (Nat.le_add_right _ _) (ih hrest hp)

-- Pieces with a place in common bring different cells there, so some memory tells them apart.
theorem agree_iff_apart {a b : β} (hab : a ≠ b) (h : Compacted start pieces) :
    (∀ m : Nat → β, pieces.Pairwise (Agree m)) ↔ pieces.Pairwise Apart := by
  induction pieces generalizing start with
  | nil => simp
  | cons p rest ih =>
      simp only [List.pairwise_cons, forall_and, ih h.2.2]
      refine and_congr_left fun _ => ⟨fun hagree q hq x ⟨hp, hqx⟩ => ?_, fun hapart m q hq x hp hqx => ?_⟩
      · have hsrc := src_of_mem h.2.2 hq
        have hlt := Piece.source_lt hp
        have hle : q.src ≤ q.source x := Piece.source_le
        have hne : p.source x ≠ q.source x := by
          rw [h.1] at hlt
          omega
        have hsame := hagree (fun y => if y = p.source x then a else b) q hq x hp hqx
        dsimp only at hsame
        rw [if_pos rfl, if_neg hne.symm] at hsame
        exact hab hsame
      · exact absurd ⟨hp, hqx⟩ (hapart q hq x)

end Usbip.Library.Expand

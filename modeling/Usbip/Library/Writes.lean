import Mathlib.Algebra.BigOperators.Group.List.Basic
import Mathlib.Algebra.Order.Ring.Int

namespace Usbip.Library.Writes

variable {α : Type}

-- What is to be written from an offset on.
structure Write (α : Type) where
  offset : Nat
  data : List α
  deriving DecidableEq, Repr

namespace Write

def Covers (w : Write α) (k : Nat) : Prop := w.offset ≤ k ∧ k < w.offset + w.data.length

instance (w : Write α) (k : Nat) : Decidable (w.Covers k) := inferInstanceAs (Decidable (_ ∧ _))

-- Nothing is written past the end of the buffer.
def run (w : Write α) (buffer : List α) : List α :=
  (buffer.take w.offset ++ w.data ++ buffer.drop (w.offset + w.data.length)).take buffer.length

-- A write into memory that has an end; `none` is one past it.
def store (w : Write α) (buffer : List α) : Option (List α) :=
  if w.offset + w.data.length ≤ buffer.length then some (w.run buffer) else none

variable (w : Write α) (buffer : List α)

@[simp] theorem length_run : (w.run buffer).length = buffer.length := by
  simp only [run, List.length_take, List.length_append, List.length_drop]
  omega

variable {w buffer}

@[simp] theorem covers_mk {offset k : Nat} {data : List α} :
    Covers ⟨offset, data⟩ k ↔ offset ≤ k ∧ k < offset + data.length :=
  Iff.rfl

theorem getElem?_run_of_covers {k : Nat} (h : w.Covers k) (hk : k < buffer.length) :
    (w.run buffer)[k]? = w.data[k - w.offset]? := by
  obtain ⟨hle, hlt⟩ := h
  have htake : (buffer.take w.offset).length = w.offset := List.length_take_of_le (by omega)
  rw [run, List.getElem?_take_of_lt hk, List.append_assoc, List.getElem?_append_right (by omega), htake]
  exact List.getElem?_append_left (by omega)

theorem getElem?_run_of_not_covers {k : Nat} (h : ¬ w.Covers k) : (w.run buffer)[k]? = buffer[k]? := by
  by_cases hk : k < buffer.length
  · rw [run, List.getElem?_take_of_lt hk, List.append_assoc]
    by_cases hbelow : k < w.offset
    · rw [List.getElem?_append_left (by rw [List.length_take]; omega), List.getElem?_take_of_lt hbelow]
    · have habove : w.offset + w.data.length ≤ k := by
        unfold Covers at h
        omega
      have htake : (buffer.take w.offset).length = w.offset := List.length_take_of_le (by omega)
      rw [List.getElem?_append_right (by omega), htake, List.getElem?_append_right (by omega), List.getElem?_drop]
      congr 1
      omega
  · rw [List.getElem?_eq_none (by rw [length_run]; omega), List.getElem?_eq_none (by omega)]

theorem store_append {front rest data : List α} (h : data.length ≤ rest.length) :
    store ⟨front.length, data⟩ (front ++ rest) = some (front ++ data ++ rest.drop data.length) := by
  have hroom : front.length + data.length ≤ (front ++ rest).length := by
    rw [List.length_append]
    omega
  have hrun : run ⟨front.length, data⟩ (front ++ rest) = front ++ data ++ rest.drop data.length := by
    have hlength : (front ++ rest).length = (front ++ data ++ rest.drop data.length).length := by
      simp only [List.length_append, List.length_drop]
      omega
    simp only [run, List.take_left, ← List.drop_drop, List.drop_left]
    rw [hlength, List.take_length]
  rw [store, if_pos hroom, hrun]

-- A text and its terminator, as far as there is room for it, over terminators.
theorem run_replicate {size : Nat} {text : List α} (h : text.length ≤ size) (z : α) :
    run ⟨0, text ++ [z]⟩ (List.replicate size z) = text ++ List.replicate (size - text.length) z := by
  simp only [run, List.take_zero, List.nil_append, Nat.zero_add, List.length_append, List.length_singleton,
    List.drop_replicate, List.length_replicate]
  by_cases hfull : text.length = size
  · rw [hfull, Nat.sub_self, List.replicate_zero, List.append_nil, Nat.sub_eq_zero_of_le (Nat.le_succ _),
      List.replicate_zero, List.append_nil, List.take_append_of_le_length hfull.ge, List.take_of_length_le hfull.le]
  · obtain ⟨k, hk⟩ := Nat.exists_eq_add_of_lt (Nat.lt_of_le_of_ne h hfull)
    have hrest : size - text.length = k + 1 := by omega
    have htail : size - (text.length + 1) = k := by omega
    rw [hrest, htail, List.replicate_succ, List.append_assoc, List.singleton_append]
    exact List.take_of_length_le (by simp only [List.length_append, List.length_cons, List.length_replicate]; omega)

-- A write that a part of the buffer has no room for goes as far as that part does.
theorem run_inside {offset size : Nat} (hsize : offset + size ≤ buffer.length) (data : List α) :
    run ⟨offset, run ⟨0, data⟩ ((buffer.drop offset).take size)⟩ buffer = run ⟨offset, data.take size⟩ buffer := by
  have hfield : ((buffer.drop offset).take size).length = size := by
    rw [List.length_take, List.length_drop]
    omega
  apply List.ext_getElem?
  intro k
  by_cases hin : offset ≤ k ∧ k < offset + size
  · obtain ⟨hle, hlt⟩ := hin
    rw [getElem?_run_of_covers ⟨hle, by rw [length_run, hfield]; exact hlt⟩ (by omega)]
    dsimp only
    by_cases hdata : k - offset < data.length
    · have hcovers : Covers ⟨offset, data.take size⟩ k := by
        rw [covers_mk, List.length_take]
        omega
      rw [getElem?_run_of_covers hcovers (by omega)]
      dsimp only
      rw [getElem?_run_of_covers ⟨Nat.zero_le _, by simpa using hdata⟩ (by rw [hfield]; omega)]
      rw [List.getElem?_take_of_lt (by omega)]
      rfl
    · have hbehind : ¬ Covers ⟨offset, data.take size⟩ k := by
        rw [covers_mk, List.length_take]
        omega
      rw [getElem?_run_of_not_covers hbehind]
      rw [getElem?_run_of_not_covers fun hcovers => hdata (by simpa using hcovers.2)]
      rw [List.getElem?_take_of_lt (by omega), List.getElem?_drop, Nat.add_sub_cancel' hle]
  · have houter : ¬ Covers ⟨offset, data.take size⟩ k := by
      rw [covers_mk, List.length_take]
      omega
    rw [getElem?_run_of_not_covers houter]
    refine getElem?_run_of_not_covers fun hcovers => hin ⟨hcovers.1, ?_⟩
    have hlt := hcovers.2
    rw [length_run, hfield] at hlt
    exact hlt

end Write

-- One write after the other.
def runAll (writes : List (Write α)) (buffer : List α) : List α := writes.foldl (fun b w => w.run b) buffer

def Covered (writes : List (Write α)) (k : Nat) : Prop := ∃ w ∈ writes, w.Covers k

variable {writes rest : List (Write α)} {w : Write α} {buffer first second : List α} {k n : Nat}

@[simp] theorem runAll_nil (buffer : List α) : runAll [] buffer = buffer := rfl

@[simp] theorem runAll_cons (w : Write α) (writes : List (Write α)) (buffer : List α) :
    runAll (w :: writes) buffer = runAll writes (w.run buffer) := rfl

theorem runAll_append (writes rest : List (Write α)) (buffer : List α) :
    runAll (writes ++ rest) buffer = runAll rest (runAll writes buffer) :=
  List.foldl_append

@[simp] theorem length_runAll (writes : List (Write α)) (buffer : List α) :
    (runAll writes buffer).length = buffer.length := by
  induction writes generalizing buffer with
  | nil => rfl
  | cons w writes ih => rw [runAll_cons, ih, Write.length_run]

@[simp] theorem covered_nil : ¬ Covered ([] : List (Write α)) k := by
  rintro ⟨w, hw, _⟩
  cases hw

@[simp] theorem covered_cons : Covered (w :: writes) k ↔ w.Covers k ∨ Covered writes k := by
  simp [Covered]

@[simp] theorem covered_append : Covered (writes ++ rest) k ↔ Covered writes k ∨ Covered rest k := by
  simp [Covered, or_and_right, exists_or]

theorem getElem?_runAll_of_not_covered (h : ¬ Covered writes k) : (runAll writes buffer)[k]? = buffer[k]? := by
  induction writes generalizing buffer with
  | nil => rfl
  | cons w writes ih =>
      rw [covered_cons, not_or] at h
      rw [runAll_cons, ih h.2, Write.getElem?_run_of_not_covers h.1]

-- Where something is written, it does not matter what was there.
theorem getElem?_runAll_of_covered (h : Covered writes k) (hfirst : k < first.length) (hsecond : k < second.length) :
    (runAll writes first)[k]? = (runAll writes second)[k]? := by
  induction writes generalizing first second with
  | nil => exact absurd h covered_nil
  | cons w writes ih =>
      rw [runAll_cons, runAll_cons]
      by_cases hrest : Covered writes k
      · exact ih hrest (by rwa [Write.length_run]) (by rwa [Write.length_run])
      · have hw : w.Covers k := (covered_cons.mp h).resolve_right hrest
        rw [getElem?_runAll_of_not_covered hrest, getElem?_runAll_of_not_covered hrest]
        rw [Write.getElem?_run_of_covers hw hfirst, Write.getElem?_run_of_covers hw hsecond]

-- No write reaches into what an earlier one has written.
def Apart (writes : List (Write α)) : Prop := writes.Pairwise fun w v => ∀ k, w.Covers k → ¬ v.Covers k

theorem apart_append : Apart (writes ++ rest) ↔
    Apart writes ∧ Apart rest ∧ ∀ k, Covered writes k → ¬ Covered rest k := by
  rw [Apart, List.pairwise_append]
  refine and_congr_right fun _ => and_congr_right fun _ => ?_
  constructor
  · rintro h k ⟨w, hw, hk⟩ ⟨v, hv, hkv⟩
    exact h w hw v hv k hk hkv
  · intro h w hw v hv k hk hkv
    exact h k ⟨w, hw, hk⟩ ⟨v, hv, hkv⟩

-- Then all that was written is there in the end.
theorem Apart.getElem?_runAll (h : Apart writes) (hw : w ∈ writes) (hk : w.Covers k) (hroom : k < buffer.length) :
    (runAll writes buffer)[k]? = w.data[k - w.offset]? := by
  induction writes generalizing buffer with
  | nil => cases hw
  | cons v writes ih =>
      obtain ⟨hv, hrest⟩ := List.pairwise_cons.mp h
      rw [runAll_cons]
      cases List.mem_cons.mp hw with
      | inl heq =>
          subst heq
          have hleft : ¬ Covered writes k := by
            rintro ⟨u, hu, hku⟩
            exact hv u hu k hk hku
          rw [getElem?_runAll_of_not_covered hleft, Write.getElem?_run_of_covers hk hroom]
      | inr hmem => exact ih hrest hmem (by rwa [Write.length_run])

-- What is left of the earlier contents shows where nothing is written.
theorem take_runAll_eq_iff (hfirst : n ≤ first.length) (hsecond : n ≤ second.length) :
    (runAll writes first).take n = (runAll writes second).take n ↔
      ∀ k < n, ¬ Covered writes k → first[k]? = second[k]? := by
  constructor
  · intro hsame k hk hnot
    have hat := congrArg (·[k]?) hsame
    simp only [List.getElem?_take_of_lt hk, getElem?_runAll_of_not_covered hnot] at hat
    exact hat
  · intro hleft
    apply List.ext_getElem?
    intro k
    by_cases hk : k < n
    · rw [List.getElem?_take_of_lt hk, List.getElem?_take_of_lt hk]
      by_cases hcovered : Covered writes k
      · exact getElem?_runAll_of_covered hcovered (by omega) (by omega)
      · rw [getElem?_runAll_of_not_covered hcovered, getElem?_runAll_of_not_covered hcovered]
        exact hleft k hk hcovered
    · rw [List.getElem?_eq_none (by rw [List.length_take]; omega),
        List.getElem?_eq_none (by rw [List.length_take]; omega)]

-- Writes inside a part of the buffer are one write of what that part is afterwards.
theorem runAll_eq_run {offset size : Nat} (hsize : offset + size ≤ buffer.length)
    (hinside : ∀ k, Covered writes k → offset ≤ k ∧ k < offset + size) :
    Write.run ⟨offset, ((runAll writes buffer).drop offset).take size⟩ buffer = runAll writes buffer := by
  have hpart : (((runAll writes buffer).drop offset).take size).length = size := by
    rw [List.length_take, List.length_drop, length_runAll]
    omega
  apply List.ext_getElem?
  intro k
  by_cases hin : offset ≤ k ∧ k < offset + size
  · rw [Write.getElem?_run_of_covers ⟨hin.1, by rw [hpart]; exact hin.2⟩ (by omega)]
    rw [List.getElem?_take_of_lt (by dsimp only; omega), List.getElem?_drop, Nat.add_sub_cancel' hin.1]
  · rw [Write.getElem?_run_of_not_covers fun hcovers => hin ⟨hcovers.1, by rw [← hpart]; exact hcovers.2⟩]
    rw [getElem?_runAll_of_not_covered fun hcovered => hin (hinside k hcovered)]

end Usbip.Library.Writes

import Mathlib.Algebra.BigOperators.Group.List.Basic
import Mathlib.Algebra.Order.Ring.Int
import Usbip.Library.Hoare

namespace Usbip.Library.Reader

open Usbip.Library.Hoare

variable {σ ε α β ι κ : Type}

-- A message is a list of records: the items of each and what is logged once it has arrived.
def items (records : List (List ι × List κ)) : List ι := records.flatMap Prod.fst

def entries (records : List (List ι × List κ)) : List κ := records.flatMap Prod.snd

-- What is logged of the first `k` items of a message.
def arrived : List (List ι × List κ) → Nat → List κ
  | [], _ => []
  | (first, logged) :: rest, k => if first.length ≤ k then logged ++ arrived rest (k - first.length) else []

variable {first second : List (List ι × List κ)} {k : Nat}

theorem items_append : items (first ++ second) = items first ++ items second := List.flatMap_append

theorem entries_append : entries (first ++ second) = entries first ++ entries second := List.flatMap_append

theorem arrived_append_of_le (h : (items first).length ≤ k) :
    arrived (first ++ second) k = entries first ++ arrived second (k - (items first).length) := by
  induction first generalizing k with
  | nil => simp [entries, items]
  | cons record first ih =>
      obtain ⟨bytes, logged⟩ := record
      simp only [items, List.flatMap_cons, List.length_append] at h
      have hrest : (items first).length ≤ k - bytes.length := by
        simp only [items]
        omega
      simp only [List.cons_append, arrived, if_pos (show bytes.length ≤ k by omega), ih hrest, entries, items,
        List.flatMap_cons, List.append_assoc, List.length_append, Nat.sub_sub]

theorem arrived_append_of_lt (h : k < (items first).length) : arrived (first ++ second) k = arrived first k := by
  induction first generalizing k with
  | nil => simp [items] at h
  | cons record first ih =>
      obtain ⟨bytes, logged⟩ := record
      simp only [items, List.flatMap_cons, List.length_append] at h
      simp only [List.cons_append, arrived]
      split
      case isTrue hle =>
        have hrest : k - bytes.length < (items first).length := by
          simp only [items]
          omega
        rw [ih hrest]
      case isFalse => rfl

-- A program that reads a message from a stream and logs what it finds. Where the stream ends within
-- the message it stops, and has logged the records that arrived in full.
structure Reads (stream : σ → List ι) (log : σ → List κ) (stop : ε) (x : EStateM ε σ α) (a : α)
    (records : List (List ι × List κ)) : Prop where
  whole : ∀ s rest, stream s = items records ++ rest →
    ∃ t, x s = .ok a t ∧ stream t = rest ∧ log t = log s ++ entries records
  cut : ∀ s k, k < (items records).length → stream s = (items records).take k →
    ∃ t, x s = .error stop t ∧ log t = log s ++ arrived records k

namespace Reads

variable {stream : σ → List ι} {log : σ → List κ} {stop : ε} {x : EStateM ε σ α} {f : α → EStateM ε σ β} {a : α} {b : β}

theorem pure : Reads stream log stop (Pure.pure a : EStateM ε σ α) a [] := by
  constructor
  · intro s _ hs
    exact ⟨s, rfl, hs, (List.append_nil _).symm⟩
  · intro _ k hk
    exact absurd hk (Nat.not_lt_zero k)

-- The stream ends within what the first program reads, or behind it.
theorem bind (hx : Reads stream log stop x a first) (hf : Reads stream log stop (f a) b second) :
    Reads stream log stop (x >>= f) b (first ++ second) := by
  constructor
  · intro s rest hs
    rw [items_append, List.append_assoc] at hs
    obtain ⟨t, hxt, hst, hlt⟩ := hx.whole s _ hs
    obtain ⟨u, hfu, hsu, hlu⟩ := hf.whole t rest hst
    refine ⟨u, (bind_of_ok hxt).trans hfu, hsu, ?_⟩
    rw [hlu, hlt, entries_append, List.append_assoc]
  · intro s k hk hs
    by_cases hfirst : k < (items first).length
    · rw [items_append, List.take_append_of_le_length hfirst.le] at hs
      obtain ⟨t, hxt, hlt⟩ := hx.cut s k hfirst hs
      refine ⟨t, bind_of_error hxt, ?_⟩
      rw [hlt, arrived_append_of_lt hfirst]
    · have hle := Nat.not_lt.mp hfirst
      rw [items_append, List.length_append] at hk
      rw [items_append, List.take_append, List.take_of_length_le hle] at hs
      obtain ⟨t, hxt, hst, hlt⟩ := hx.whole s _ hs
      obtain ⟨u, hfu, hlu⟩ := hf.cut t _ (by omega) hst
      refine ⟨u, (bind_of_ok hxt).trans hfu, ?_⟩
      rw [hlu, hlt, arrived_append_of_le hle, List.append_assoc]

-- What is logged when a record has been read belongs to the record.
theorem logged {bytes : List ι} {entry : List κ} {g : σ → σ} (hx : Reads stream log stop x a [(bytes, [])])
    (hf : f a = (modify g >>= fun _ => Pure.pure b)) (hs : ∀ s, stream (g s) = stream s)
    (hl : ∀ s, log (g s) = log s ++ entry) : Reads stream log stop (x >>= f) b [(bytes, entry)] := by
  constructor
  · intro s rest hst
    obtain ⟨t, hxt, hstt, hlt⟩ := hx.whole s rest hst
    refine ⟨g t, ?_, (hs t).trans hstt, ?_⟩
    · rw [bind_of_ok hxt, hf]
      rfl
    · rw [hl, hlt]
      simp [entries]
  · intro s k hk hst
    obtain ⟨t, hxt, hlt⟩ := hx.cut s k hk hst
    have hshort : ¬bytes.length ≤ k := by
      simp only [items, List.flatMap_cons, List.flatMap_nil, List.append_nil] at hk
      omega
    refine ⟨t, bind_of_error hxt, ?_⟩
    rw [hlt]
    simp only [arrived, if_neg hshort]

-- A loop with a round for each element of a list, which reads the records of that element.
theorem forM_zipIdx {τ : Type} {g : Nat → EStateM ε σ Unit} {l : List τ} (records : τ → Nat → List (List ι × List κ))
    (hg : ∀ i (h : i < l.length), Reads stream log stop (g i) () (records l[i] i)) :
    Reads stream log stop ((List.range l.length).forM g) () (l.zipIdx.flatMap fun p => records p.1 p.2) := by
  have hfrom : ∀ (l : List τ) (k : Nat),
      (∀ i (h : i < l.length), Reads stream log stop (g (k + i)) () (records l[i] (k + i))) →
      Reads stream log stop ((List.range' k l.length).forM g) () ((l.zipIdx k).flatMap fun p => records p.1 p.2) := by
    intro l
    induction l with
    | nil => exact fun _ _ => pure
    | cons x l ih =>
        intro k hg
        rw [List.length_cons, List.range'_succ, List.zipIdx_cons, List.flatMap_cons]
        refine (hg 0 (Nat.succ_pos _)).bind (ih (k + 1) fun i hi => ?_)
        have hnext := hg (i + 1) (Nat.succ_lt_succ hi)
        rw [Nat.add_assoc, Nat.add_comm 1 i]
        exact hnext
  rw [List.range_eq_range']
  exact hfrom l 0 fun i hi => by simpa using hg i hi

end Reads

end Usbip.Library.Reader

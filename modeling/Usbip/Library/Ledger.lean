import Mathlib.Data.List.Nodup
import Mathlib.Data.List.Perm.Basic

namespace Usbip.Library.Ledger

open List

variable {α κ : Type} {key : α → κ} {held : List κ} {flying flying' rest : List α} {a other : α}

-- What is held belongs to the members of a list that are on their way, each with a key of its own.
structure Balanced (key : α → κ) (held : List κ) (flying : List α) : Prop where
  perm : held ~ flying.map key
  nodup : held.Nodup

theorem perm_cons_eraseIdx {i : Nat} (h : flying[i]? = some a) : flying ~ a :: flying.eraseIdx i := by
  obtain ⟨hlt, rfl⟩ := List.getElem?_eq_some_iff.mp h
  exact (List.getElem_cons_eraseIdx_perm hlt).symm

theorem balanced_nil (key : α → κ) : Balanced key [] [] := ⟨.nil, List.nodup_nil⟩

theorem Balanced.mem (h : Balanced key held flying) (ha : a ∈ flying) : key a ∈ held :=
  h.perm.mem_iff.mpr (List.mem_map_of_mem ha)

theorem Balanced.of_perm (h : Balanced key held flying) (hperm : flying.map key ~ flying'.map key) :
    Balanced key held flying' :=
  ⟨h.perm.trans hperm, h.nodup⟩

theorem Balanced.add (h : Balanced key held flying) (hnew : key a ∉ held) :
    Balanced key (key a :: held) (a :: flying) :=
  ⟨h.perm.cons _, List.nodup_cons.mpr ⟨hnew, h.nodup⟩⟩

theorem Balanced.drop [DecidableEq κ] (h : Balanced key held (a :: flying)) :
    Balanced key (held.erase (key a)) flying := by
  refine ⟨?_, h.nodup.erase _⟩
  have herase := h.perm.erase (key a)
  rw [List.map_cons, List.erase_cons_head] at herase
  exact herase

-- The member that is taken out of the first part of the list, or of the second one.
theorem Balanced.pick_left {i : Nat} (h : Balanced key held (flying ++ rest)) (hi : flying[i]? = some a) :
    Balanced key held (a :: (flying.eraseIdx i ++ rest)) :=
  h.of_perm (((perm_cons_eraseIdx hi).append_right rest).map key)

theorem Balanced.pick_right {i : Nat} (h : Balanced key held (rest ++ flying)) (hi : flying[i]? = some a) :
    Balanced key held (a :: (rest ++ flying.eraseIdx i)) :=
  h.of_perm ((((perm_cons_eraseIdx hi).append_left rest).trans List.perm_middle).map key)

-- No other member has the key of one.
theorem Balanced.ne (h : Balanced key held (a :: flying)) (hother : other ∈ flying) : key other ≠ key a := by
  have hnodup := h.perm.nodup_iff.mp h.nodup
  rw [List.map_cons] at hnodup
  intro heq
  exact (List.nodup_cons.mp hnodup).1 (heq ▸ List.mem_map_of_mem hother)

end Usbip.Library.Ledger

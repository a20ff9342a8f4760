import Mathlib.Algebra.BigOperators.Group.List.Basic
import Mathlib.Algebra.Order.Ring.Int

namespace Usbip.Library.RecordWalk

variable {α : Type*} (size : α → Nat)

-- A record is at least two symbols long and its first symbol encodes its own length.
def IsRecord (record : List α) : Prop :=
  2 ≤ record.length ∧ record.head?.map size = some record.length

-- The records tile the buffer when, laid end to end, they are the whole buffer.
def Tiles (buffer : List α) (records : List (List α)) : Prop :=
  records.flatten = buffer ∧ ∀ record ∈ records, IsRecord size record

variable {size}

theorem IsRecord.ne_nil {record : List α} (h : IsRecord size record) : record ≠ [] := by
  rintro rfl
  simp [IsRecord] at h

theorem IsRecord.size_head {first : α} {tail : List α} (h : IsRecord size (first :: tail)) :
    size first = tail.length + 1 := by
  simpa using h.2

@[simp] theorem tiles_nil : Tiles size [] [] := by
  simp [Tiles]

theorem Tiles.cons {record rest : List α} {records : List (List α)}
    (hr : IsRecord size record) (ht : Tiles size rest records) :
    Tiles size (record ++ rest) (record :: records) := by
  refine ⟨by rw [List.flatten_cons, ht.1], ?_⟩
  intro r hm
  rcases List.mem_cons.mp hm with rfl | hm
  · exact hr
  · exact ht.2 r hm

theorem Tiles.uncons {buffer record : List α} {records : List (List α)}
    (h : Tiles size buffer (record :: records)) :
    IsRecord size record ∧ buffer = record ++ records.flatten ∧
      Tiles size records.flatten records :=
  ⟨h.2 _ List.mem_cons_self, by rw [← h.1, List.flatten_cons],
    rfl, fun r hr => h.2 r (List.mem_cons_of_mem _ hr)⟩

-- There are never more records than symbols.
theorem length_le_length_flatten {records : List (List α)}
    (h : ∀ record ∈ records, IsRecord size record) : records.length ≤ records.flatten.length := by
  induction records with
  | nil => simp
  | cons record rest ih =>
      have hr := (h record List.mem_cons_self).1
      have hrest := ih fun r hm => h r (List.mem_cons_of_mem _ hm)
      simp only [List.flatten_cons, List.length_append, List.length_cons]
      omega

-- The first symbol fixes where the first record ends, so a tiling is read off greedily.
theorem isRecord_prefix_unique {first second rest rest' : List α}
    (hf : IsRecord size first) (hs : IsRecord size second)
    (he : first ++ rest = second ++ rest') : first = second ∧ rest = rest' := by
  have hlen : first.length = second.length := by
    cases first with
    | nil => exact absurd rfl hf.ne_nil
    | cons a as =>
        cases second with
        | nil => exact absurd rfl hs.ne_nil
        | cons b bs =>
            have hab : a = b := by simpa using congrArg List.head? he
            have ha := hf.size_head
            have hb := hs.size_head
            rw [hab] at ha
            simp only [List.length_cons]
            omega
  exact List.append_inj he hlen

-- Any two tilings of one buffer are the same list of records.
theorem tiles_unique {buffer : List α} {left right : List (List α)}
    (hl : Tiles size buffer left) (hr : Tiles size buffer right) : left = right := by
  induction left generalizing buffer right with
  | nil =>
      cases right with
      | nil => rfl
      | cons second others =>
          obtain ⟨hs, he, _⟩ := hr.uncons
          have hnil : buffer = [] := hl.1.symm
          rw [hnil] at he
          exact absurd (List.append_eq_nil_iff.mp he.symm).1 hs.ne_nil
  | cons first rest ih =>
      obtain ⟨hf, he, hrest⟩ := hl.uncons
      cases right with
      | nil =>
          have hnil : buffer = [] := hr.1.symm
          rw [hnil] at he
          exact absurd (List.append_eq_nil_iff.mp he.symm).1 hf.ne_nil
      | cons second others =>
          obtain ⟨hs, he', hothers⟩ := hr.uncons
          obtain ⟨rfl, hflat⟩ := isRecord_prefix_unique hf hs (he.symm.trans he')
          rw [hflat] at hrest
          rw [ih hrest hothers]

section Admissible

variable (size) (good : List α → Prop)

-- The buffer is tiled by good records.
def Admissible (buffer : List α) : Prop :=
  ∃ records, Tiles size buffer records ∧ ∀ record ∈ records, good record

variable {size good}

theorem admissible_append_iff {record rest : List α} (hr : IsRecord size record) :
    Admissible size good (record ++ rest) ↔ good record ∧ Admissible size good rest := by
  constructor
  · rintro ⟨records, ht, hg⟩
    cases records with
    | nil =>
        have he : record = [] := (List.append_eq_nil_iff.mp (ht.1.symm : record ++ rest = [])).1
        exact absurd he hr.ne_nil
    | cons first others =>
        obtain ⟨hf, he, hothers⟩ := ht.uncons
        obtain ⟨rfl, rfl⟩ := isRecord_prefix_unique hr hf he
        exact ⟨hg _ List.mem_cons_self, others, hothers,
          fun r hm => hg r (List.mem_cons_of_mem _ hm)⟩
  · rintro ⟨hgood, records, ht, hg⟩
    refine ⟨record :: records, ht.cons hr, ?_⟩
    intro r hm
    rcases List.mem_cons.mp hm with rfl | hm
    · exact hgood
    · exact hg r hm

theorem Admissible.exists_record {buffer : List α} (h : Admissible size good buffer)
    (hne : buffer ≠ []) :
    ∃ record rest, buffer = record ++ rest ∧ IsRecord size record ∧ good record := by
  obtain ⟨records, ht, hg⟩ := h
  cases records with
  | nil => exact absurd (ht.1.symm : buffer = []) hne
  | cons first others =>
      obtain ⟨hf, he, _⟩ := ht.uncons
      exact ⟨first, _, he, hf, hg _ List.mem_cons_self⟩

end Admissible

end Usbip.Library.RecordWalk

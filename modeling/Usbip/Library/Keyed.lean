import Mathlib.Data.List.Nodup

namespace Usbip.Library.Keyed

variable {κ ι α : Type} [DecidableEq κ]

-- A list of entries under keys. The first entry of a key is the one that counts.
def find (k : κ) : List (κ × α) → Option α
  | [] => none
  | (key, a) :: rest => if key = k then some a else find k rest

def keys (l : List (κ × α)) : List κ := l.map Prod.fst

-- The entry of a key becomes another one or goes; without an entry, a new one is put at the end.
def alter (k : κ) (f : Option α → Option α) : List (κ × α) → List (κ × α)
  | [] => ((f none).map fun a => (k, a)).toList
  | (key, a) :: rest =>
    if key = k then ((f (some a)).map fun a => (key, a)).toList ++ rest else (key, a) :: alter k f rest

variable {k key : κ} {f g : Option α → Option α} {l rest : List (κ × α)} {a : α}

theorem find_cons_self (k : κ) (a : α) (rest : List (κ × α)) : find k ((k, a) :: rest) = some a := if_pos rfl

theorem find_cons_ne (h : key ≠ k) : find k ((key, a) :: rest) = find k rest := if_neg h

theorem find_eq_none : find k l = none ↔ k ∉ keys l := by
  induction l with
  | nil => simp [find, keys]
  | cons entry rest ih =>
      obtain ⟨key, a⟩ := entry
      by_cases h : key = k
      · subst h
        simp [find, keys]
      · rw [find_cons_ne h, ih]
        simp [keys, Ne.symm h]

theorem mem_of_find (h : find k l = some a) : (k, a) ∈ l := by
  induction l with
  | nil => cases h
  | cons entry rest ih =>
      obtain ⟨key, b⟩ := entry
      by_cases hkey : key = k
      · subst hkey
        rw [find_cons_self] at h
        obtain rfl := Option.some.inj h
        exact List.mem_cons_self
      · rw [find_cons_ne hkey] at h
        exact List.mem_cons_of_mem _ (ih h)

theorem find_of_mem (hnodup : (keys l).Nodup) (h : (k, a) ∈ l) : find k l = some a := by
  induction l with
  | nil => cases h
  | cons entry rest ih =>
      obtain ⟨key, b⟩ := entry
      obtain ⟨hfresh, hrest⟩ := List.nodup_cons.mp hnodup
      obtain heq | hmem := List.mem_cons.mp h
      · obtain ⟨rfl, rfl⟩ := Prod.mk.inj heq
        exact find_cons_self _ _ _
      · have hkey : key ≠ k := by
          rintro rfl
          exact hfresh (List.mem_map.mpr ⟨_, hmem, rfl⟩)
        rw [find_cons_ne hkey, ih hrest hmem]

theorem alter_cons_self (k : κ) (f : Option α → Option α) (a : α) (rest : List (κ × α)) :
    alter k f ((k, a) :: rest) = ((f (some a)).map fun a => (k, a)).toList ++ rest := if_pos rfl

theorem alter_cons_ne (h : key ≠ k) : alter k f ((key, a) :: rest) = (key, a) :: alter k f rest := if_neg h

-- Other entries are not touched.
theorem find_alter_ne {other : κ} (h : k ≠ other) (f : Option α → Option α) (l : List (κ × α)) :
    find other (alter k f l) = find other l := by
  induction l with
  | nil =>
      cases hnew : f none with
      | none => simp [alter, hnew]
      | some a => simp [alter, hnew, find, h]
  | cons entry rest ih =>
      obtain ⟨key, a⟩ := entry
      by_cases hkey : key = k
      · subst hkey
        rw [alter_cons_self, find_cons_ne h]
        cases hnew : f (some a) with
        | none => simp
        | some b => simp [find, h]
      · rw [alter_cons_ne hkey]
        simp only [find, ih]

theorem find_alter_self (hnodup : (keys l).Nodup) (k : κ) (f : Option α → Option α) :
    find k (alter k f l) = f (find k l) := by
  induction l with
  | nil =>
      cases hnew : f none with
      | none => simp [alter, find, hnew]
      | some a => simp [alter, find, hnew]
  | cons entry rest ih =>
      obtain ⟨key, a⟩ := entry
      obtain ⟨hfresh, hrest⟩ := List.nodup_cons.mp hnodup
      by_cases hkey : key = k
      · subst hkey
        rw [alter_cons_self, find_cons_self]
        cases hnew : f (some a) with
        | none => simpa using find_eq_none.mpr hfresh
        | some b => simp [find]
      · rw [alter_cons_ne hkey, find_cons_ne hkey, find_cons_ne hkey, ih hrest]

theorem mem_keys_alter {other : κ} (h : other ∈ keys (alter k f l)) : other = k ∨ other ∈ keys l := by
  by_contra hnot
  obtain ⟨hne, hfresh⟩ := not_or.mp hnot
  rw [← find_eq_none, ← find_alter_ne (Ne.symm hne) f, find_eq_none] at hfresh
  exact hfresh h

theorem nodup_alter (h : (keys l).Nodup) (k : κ) (f : Option α → Option α) : (keys (alter k f l)).Nodup := by
  induction l with
  | nil => cases hnew : f none <;> simp [alter, keys, hnew]
  | cons entry rest ih =>
      obtain ⟨key, a⟩ := entry
      obtain ⟨hfresh, hrest⟩ := List.nodup_cons.mp h
      by_cases hkey : key = k
      · subst hkey
        rw [alter_cons_self]
        cases hnew : f (some a) with
        | none => exact hrest
        | some b => exact List.nodup_cons.mpr ⟨hfresh, hrest⟩
      · rw [alter_cons_ne hkey]
        refine List.nodup_cons.mpr ⟨fun hmem => ?_, ih hrest⟩
        obtain heq | hmem := mem_keys_alter hmem
        · exact hkey heq
        · exact hfresh hmem

-- A second change of an entry that the first has left.
theorem alter_alter (hf : ∀ x, (f x).isSome) (l : List (κ × α)) : alter k g (alter k f l) = alter k (g ∘ f) l := by
  induction l with
  | nil =>
      obtain ⟨a, ha⟩ := Option.isSome_iff_exists.mp (hf none)
      simp [alter, ha]
  | cons entry rest ih =>
      obtain ⟨key, a⟩ := entry
      by_cases hkey : key = k
      · subst hkey
        obtain ⟨b, hb⟩ := Option.isSome_iff_exists.mp (hf (some a))
        simp [alter, hb]
      · rw [alter_cons_ne hkey, alter_cons_ne hkey, alter_cons_ne hkey, ih]

-- What becomes of the other contents of an entry does not matter.
theorem alter_congr (h : f (find k l) = g (find k l)) : alter k f l = alter k g l := by
  induction l with
  | nil => rw [alter, alter, show f none = g none from h]
  | cons entry rest ih =>
      obtain ⟨key, a⟩ := entry
      by_cases hkey : key = k
      · subst hkey
        rw [find_cons_self] at h
        rw [alter_cons_self, alter_cons_self, h]
      · rw [find_cons_ne hkey] at h
        rw [alter_cons_ne hkey, alter_cons_ne hkey, ih h]

theorem alter_ne_nil (hf : ∀ x, (f x).isSome) (k : κ) (l : List (κ × α)) : alter k f l ≠ [] := by
  cases l with
  | nil =>
      obtain ⟨a, ha⟩ := Option.isSome_iff_exists.mp (hf none)
      simp [alter, ha]
  | cons entry rest =>
      obtain ⟨key, a⟩ := entry
      obtain ⟨b, hb⟩ := Option.isSome_iff_exists.mp (hf (some a))
      by_cases hkey : key = k
      · simp [alter, hkey, hb]
      · simp [alter, hkey]

theorem alter_map_ne_nil {g : α → α} (h : l ≠ []) (k : κ) : alter k (Option.map g) l ≠ [] := by
  cases l with
  | nil => exact absurd rfl h
  | cons entry rest =>
      obtain ⟨key, a⟩ := entry
      by_cases hkey : key = k
      · simp [alter, hkey]
      · simp [alter, hkey]

-- The only one of its key.
theorem filter_key_of_mem {β : Type} {key : β → κ} {l : List β} {x : β} (hnodup : (l.map key).Nodup) (hx : x ∈ l) :
    (l.filter fun y => key y = key x) = [x] := by
  induction l with
  | nil => cases hx
  | cons y l ih =>
      obtain ⟨hfresh, hrest⟩ := List.nodup_cons.mp hnodup
      obtain rfl | hmem := List.mem_cons.mp hx
      · rw [List.filter_cons_of_pos (by simp)]
        refine congrArg _ (List.filter_eq_nil_iff.mpr fun z hz heq => hfresh ?_)
        rw [← of_decide_eq_true heq]
        exact List.mem_map_of_mem hz
      · have hne : key y ≠ key x := fun heq => hfresh (heq ▸ List.mem_map_of_mem hmem)
        rw [List.filter_cons_of_neg (by simpa using hne), ih hrest hmem]

section Forest

-- Entries under two keys, in groups by the first.
abbrev Forest (κ ι α : Type) : Type := List (κ × List (ι × α))

-- Each key is there once, and there is something in each group.
structure WellFormed (t : Forest κ ι α) : Prop where
  nodup : (keys t).Nodup
  groups : ∀ group ∈ t, (keys group.2).Nodup ∧ group.2 ≠ []

omit [DecidableEq κ] in
theorem wellFormed_nil : WellFormed ([] : Forest κ ι α) := ⟨List.nodup_nil, fun _ h => absurd h List.not_mem_nil⟩

theorem WellFormed.nodup_group {t : Forest κ ι α} (h : WellFormed t) (k : κ) : (keys ((find k t).getD [])).Nodup := by
  cases hfind : find k t with
  | none => exact List.nodup_nil
  | some group => exact (h.groups _ (mem_of_find hfind)).1

variable [DecidableEq ι]

def findLeaf (k : κ) (i : ι) (t : Forest κ ι α) : Option α := (find k t).bind (find i)

def nonempty (group : List α) : Option (List α) := if group.isEmpty then none else some group

-- A group goes with the last of its entries.
def alterLeaf (k : κ) (i : ι) (f : Option α → Option α) (t : Forest κ ι α) : Forest κ ι α :=
  alter k (fun group => nonempty (alter i f (group.getD []))) t

variable {t : Forest κ ι α} {i : ι}

theorem nonempty_eq_some {group group' : List α} : nonempty group = some group' ↔ group = group' ∧ group' ≠ [] := by
  unfold nonempty
  split
  · next h =>
      have hnil := List.isEmpty_iff.mp h
      simp only [reduceCtorEq, false_iff, not_and, not_not]
      exact fun heq => heq ▸ hnil
  · next h =>
      have hne := mt List.isEmpty_iff.mpr h
      simp only [Option.some.injEq, iff_self_and]
      exact fun heq => heq ▸ hne

theorem bind_nonempty (group : List (ι × α)) : (nonempty group).bind (find i) = find i group := by
  cases group <;> rfl

theorem findLeaf_eq (k : κ) (i : ι) (t : Forest κ ι α) : findLeaf k i t = find i ((find k t).getD []) := by
  unfold findLeaf
  cases find k t <;> rfl

theorem findLeaf_alterLeaf_self (h : WellFormed t) (k : κ) (i : ι) (f : Option α → Option α) :
    findLeaf k i (alterLeaf k i f t) = f (findLeaf k i t) := by
  rw [findLeaf_eq k i t, ← find_alter_self (h.nodup_group k) i f, findLeaf, alterLeaf, find_alter_self h.nodup,
    bind_nonempty]

theorem findLeaf_alterLeaf_ne (h : WellFormed t) {k' : κ} {i' : ι} (hne : ¬(k = k' ∧ i = i'))
    (f : Option α → Option α) : findLeaf k' i' (alterLeaf k i f t) = findLeaf k' i' t := by
  by_cases hk : k = k'
  · subst hk
    have hi : i ≠ i' := fun hi => hne ⟨rfl, hi⟩
    rw [findLeaf_eq k i' t, ← find_alter_ne hi f, findLeaf, alterLeaf, find_alter_self h.nodup, bind_nonempty]
  · rw [findLeaf, alterLeaf, find_alter_ne hk, findLeaf]

theorem WellFormed.alterLeaf (h : WellFormed t) (k : κ) (i : ι) (f : Option α → Option α) :
    WellFormed (alterLeaf k i f t) := by
  refine ⟨nodup_alter h.nodup _ _, fun group hgroup => ?_⟩
  have hnodup := nodup_alter h.nodup k fun group => nonempty (alter i f (group.getD []))
  by_cases hkey : k = group.1
  · have hfind := find_of_mem hnodup hgroup
    rw [← hkey, find_alter_self h.nodup, nonempty_eq_some] at hfind
    obtain ⟨hgroup', hne⟩ := hfind
    exact ⟨hgroup' ▸ nodup_alter (h.nodup_group k) i f, hne⟩
  · have hfind := find_of_mem hnodup hgroup
    rw [find_alter_ne hkey] at hfind
    exact h.groups group (mem_of_find hfind)

-- One leaf becomes another one, and all others stay.
structure Changes (t t' : Forest κ ι α) (key : κ × ι) (leaf : Option α) : Prop where
  wellFormed : WellFormed t'
  here : findLeaf key.1 key.2 t' = leaf
  others : ∀ other ≠ key, findLeaf other.1 other.2 t' = findLeaf other.1 other.2 t

theorem changes_alterLeaf (h : WellFormed t) (k : κ) (i : ι) (f : Option α → Option α) :
    Changes t (alterLeaf k i f t) (k, i) (f (findLeaf k i t)) where
  wellFormed := h.alterLeaf k i f
  here := findLeaf_alterLeaf_self h k i f
  others _ hother := findLeaf_alterLeaf_ne h (fun heq => hother (Prod.ext heq.1.symm heq.2.symm)) f

theorem Changes.refl (h : WellFormed t) (key : κ × ι) : Changes t t key (findLeaf key.1 key.2 t) :=
  ⟨h, rfl, fun _ _ => rfl⟩

theorem Changes.trans {t' t'' : Forest κ ι α} {key : κ × ι} {leaf leaf' : Option α} (h : Changes t t' key leaf)
    (h' : Changes t' t'' key leaf') : Changes t t'' key leaf' where
  wellFormed := h'.wellFormed
  here := h'.here
  others other hother := (h'.others other hother).trans (h.others other hother)

theorem Changes.congr {t' : Forest κ ι α} {key : κ × ι} {leaf leaf' : Option α} (h : Changes t t' key leaf)
    (heq : leaf = leaf') : Changes t t' key leaf' := heq ▸ h

-- After changes of leaves one after another, a leaf is what those of its own key have made of it.
theorem foldl_changes {β : Type} {op : Forest κ ι α → β → Forest κ ι α} {key : β → κ × ι}
    {f : β → Option α → Option α}
    (hop : ∀ t x, WellFormed t → Changes t (op t x) (key x) (f x (findLeaf (key x).1 (key x).2 t)))
    (xs : List β) (h : WellFormed t) (other : κ × ι) :
    findLeaf other.1 other.2 (xs.foldl op t) =
      (xs.filter fun x => key x = other).foldl (fun leaf x => f x leaf) (findLeaf other.1 other.2 t) := by
  induction xs generalizing t with
  | nil => rfl
  | cons x xs ih =>
      have hchanges := hop t x h
      rw [List.foldl_cons, ih hchanges.wellFormed]
      by_cases hkey : key x = other
      · subst hkey
        rw [List.filter_cons_of_pos (by simp), List.foldl_cons, hchanges.here]
      · rw [List.filter_cons_of_neg (by simpa using hkey), hchanges.others other (Ne.symm hkey)]

omit [DecidableEq κ] [DecidableEq ι] in
-- All leaves under both of their keys.
def entries (t : Forest κ ι α) : List ((κ × ι) × α) :=
  t.flatMap fun group => group.2.map fun entry => ((group.1, entry.1), entry.2)

theorem mem_entries (h : WellFormed t) (key : κ × ι) (a : α) :
    (key, a) ∈ entries t ↔ findLeaf key.1 key.2 t = some a := by
  simp only [entries, List.mem_flatMap, List.mem_map, findLeaf, Option.bind_eq_some_iff]
  constructor
  · rintro ⟨group, hgroup, entry, hentry, heq⟩
    obtain ⟨rfl, rfl⟩ := Prod.mk.inj heq
    exact ⟨group.2, find_of_mem h.nodup hgroup, find_of_mem (h.groups group hgroup).1 hentry⟩
  · rintro ⟨group, hgroup, hentry⟩
    exact ⟨(key.1, group), mem_of_find hgroup, (key.2, a), mem_of_find hentry, rfl⟩

omit [DecidableEq κ] [DecidableEq ι] in
theorem nodup_entries (h : WellFormed t) : ((entries t).map Prod.fst).Nodup := by
  rw [entries, List.map_flatMap, List.nodup_flatMap]
  refine ⟨fun group hgroup => ?_, ?_⟩
  · have hinj : Function.Injective fun i : ι => (group.1, i) := fun _ _ heq => (Prod.mk.inj heq).2
    simpa [keys, Function.comp_def] using (h.groups group hgroup).1.map hinj
  · refine (List.pairwise_map.mp h.nodup).imp fun hne => ?_
    simp only [Function.onFun, List.map_map, List.disjoint_left, List.mem_map, Function.comp_apply]
    rintro _ ⟨entry, -, rfl⟩ ⟨entry', -, heq⟩
    exact hne (Prod.mk.inj heq).1.symm

end Forest

end Usbip.Library.Keyed

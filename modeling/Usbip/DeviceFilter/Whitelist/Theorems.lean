import Usbip.DeviceFilter.Whitelist

namespace Usbip.DeviceFilter.Whitelist

section Items

variable {e e' : DeviceFilterEntry} {entries entries' : List DeviceFilterEntry} {cch i : Nat} {buf : Text}

def following (e : DeviceFilterEntry) : Text := separator ++ triple e

-- The entries with the separator between them.
def listed : List DeviceFilterEntry → Text
  | [] => []
  | e :: entries => triple e ++ entries.flatMap following

theorem length_formatMatchField (matched : Bool) (v : Byte) : (formatMatchField matched v).length = 2 := by
  cases matched <;> rfl

theorem length_triple (e : DeviceFilterEntry) : (triple e).length = 8 := by
  simp only [triple, List.length_append, List.length_cons, length_formatMatchField]

theorem length_following (e : DeviceFilterEntry) : (following e).length = 10 := by
  rw [following, List.length_append, length_triple]
  rfl

theorem length_flatMap_following (entries : List DeviceFilterEntry) :
    (entries.flatMap following).length = 10 * entries.length := by
  induction entries with
  | nil => rfl
  | cons e entries ih =>
      rw [List.flatMap_cons, List.length_append, ih, length_following, List.length_cons]
      omega

theorem length_listed (hne : entries ≠ []) : (listed entries).length + 2 = 10 * entries.length := by
  cases entries with
  | nil => exact absurd rfl hne
  | cons e entries =>
      rw [listed, List.length_append, length_triple, length_flatMap_following, List.length_cons]
      omega

theorem item_zero (e : DeviceFilterEntry) : item 0 e = triple e :=
  List.take_of_length_le (by rw [if_neg (not_not.mpr rfl), length_triple]; decide)

theorem item_of_ne (hi : i ≠ 0) (e : DeviceFilterEntry) : item i e = following e := by
  have hlength := length_following e
  rw [item, if_pos hi, ← following]
  exact List.take_of_length_le (by rw [hlength]; decide)

theorem cat_eq {src : Text} (h : buf.length + src.length < cch) : rtlStringCchCat cch buf src = buf ++ src :=
  List.take_of_length_le (by rw [List.length_append]; omega)

-- How many entries there is room for behind a text, with the ellipsis after them.
def room (cch used : Nat) : Nat := (cch - used - 7) / 10

def shown (cch : Nat) : Nat := 1 + room cch 8

theorem formatEntries_later (hi : i ≠ 0) (h : buf.length + reserveForEllipsis < cch) :
    formatEntries cch i entries buf = buf ++ ((entries.take (room cch buf.length)).flatMap following ++
      if room cch buf.length < entries.length then ellipsis else []) := by
  have hreserve : reserveForEllipsis = 6 := rfl
  induction entries generalizing i buf with
  | nil => simp [formatEntries]
  | cons e entries ih =>
      rw [formatEntries, item_of_ne hi, length_following]
      by_cases hfull : cch ≤ buf.length + 10 + reserveForEllipsis
      · have hroom : room cch buf.length = 0 := by
          rw [room]
          omega
        rw [if_pos hfull, cat_eq (by rw [show ellipsis.length = 5 from rfl]; omega), hroom]
        simp
      · have hlength : (buf ++ following e).length = buf.length + 10 := by
          rw [List.length_append, length_following]
        have hroom : room cch buf.length = room cch (buf ++ following e).length + 1 := by
          rw [hlength, room, room]
          omega
        rw [if_neg hfull, cat_eq (by rw [length_following]; omega), ih (Nat.succ_ne_zero i) (by omega), hroom,
          List.take_succ_cons, List.flatMap_cons, List.append_assoc, List.append_assoc, List.length_cons]
        simp only [Nat.add_lt_add_iff_right]

-- What the log has of a policy: as many entries as there is room for, each of them whole.
def rendered (cch : Nat) (entries : List DeviceFilterEntry) : Text :=
  if entries = [] then emptyText
  else listed (entries.take (shown cch)) ++ if shown cch < entries.length then ellipsis else []

theorem formatEntries_eq (h : 15 ≤ cch) (hne : entries ≠ []) :
    formatEntries cch 0 entries [] = rendered cch entries := by
  have hreserve : reserveForEllipsis = 6 := rfl
  cases entries with
  | nil => exact absurd rfl hne
  | cons e entries =>
      have hcat : rtlStringCchCat cch [] (triple e) = triple e := cat_eq (by rw [length_triple, List.length_nil]; omega)
      have hlength := length_triple e
      rw [formatEntries, item_zero, length_triple, if_neg (by rw [List.length_nil]; omega), hcat,
        formatEntries_later Nat.one_ne_zero (by omega), hlength, rendered, if_neg hne, shown, Nat.add_comm 1,
        List.take_succ_cons, listed, List.length_cons, List.append_assoc]
      simp only [Nat.add_lt_add_iff_right]

end Items

section Policies

variable {p : Policy} {cch : Nat}

theorem whitelist_eq_nil : whitelist p = [] ↔ p.count = 0 := by
  rw [whitelist, List.take_eq_nil_iff, ← UInt32.toNat_inj]
  constructor
  · rintro (hzero | hnil)
    · exact hzero
    · exact absurd (congrArg List.length hnil) (by rw [Vector.length_toList]; decide)
  · exact .inl

theorem formatWhitelist_eq (h : 15 ≤ cch) (p : Policy) : formatWhitelist p cch = rendered cch (whitelist p) := by
  by_cases hcount : p.count = 0
  · rw [formatWhitelist, if_pos hcount, rendered, if_pos (whitelist_eq_nil.mpr hcount)]
    exact List.take_of_length_le (by rw [show emptyText.length = 7 from rfl]; omega)
  · rw [formatWhitelist, if_neg hcount]
    exact formatEntries_eq h (mt whitelist_eq_nil.mp hcount)

end Policies

section Reading

variable {e e' : DeviceFilterEntry} {entries entries' : List DeviceFilterEntry} {cch : Nat}

theorem hexDigit_injective {a b : Nat} (ha : a < 16) (hb : b < 16) (h : hexDigit a = hexDigit b) : a = b := by
  have hall : ∀ a < 16, ∀ b < 16, hexDigit a = hexDigit b → a = b := by decide
  exact hall a ha b hb h

theorem hexDigit_ne_star {a : Nat} (ha : a < 16) : hexDigit a ≠ '*' := by
  have hall : ∀ a < 16, hexDigit a ≠ '*' := by decide
  exact hall a ha

theorem hex_injective {v v' : Byte} (h : hex v = hex v') : v = v' := by
  have hv := v.toNat_lt
  have hv' := v'.toNat_lt
  simp only [hex, List.cons.injEq, and_true] at h
  have hhigh := hexDigit_injective (by omega) (by omega) h.1
  have hlow := hexDigit_injective (by omega) (by omega) h.2
  apply UInt8.toNat_inj.mp
  omega

theorem hex_ne_stars (v : Byte) : hex v ≠ ['*', '*'] := by
  have hv := v.toNat_lt
  intro h
  exact hexDigit_ne_star (by omega) (List.cons.inj h).1

-- A field of the text tells whether the field of the entry counts, and its value then.
theorem formatMatchField_injective {m m' : Bool} {v v' : Byte} (h : formatMatchField m v = formatMatchField m' v') :
    m = m' ∧ (m = true → v = v') := by
  cases m with
  | false =>
      cases m' with
      | false => exact ⟨rfl, fun hm => absurd hm Bool.false_ne_true⟩
      | true => exact absurd h.symm (hex_ne_stars v')
  | true =>
      cases m' with
      | false => exact absurd h (hex_ne_stars v)
      | true => exact ⟨rfl, fun _ => hex_injective h⟩

theorem field_congr {m m' : Bool} {v v' : Byte} (h : formatMatchField m v = formatMatchField m' v') (x : Byte) :
    (m && v != x) = (m' && v' != x) := by
  obtain ⟨rfl, hv⟩ := formatMatchField_injective h
  cases m with
  | false => rfl
  | true => rw [hv rfl]

-- Entries with one text let in the same devices.
theorem accepts_congr (h : triple e = triple e') (cls sub proto : Byte) :
    e.accepts cls sub proto = e'.accepts cls sub proto := by
  obtain ⟨hclass, hrest⟩ := List.append_inj h (by rw [length_formatMatchField, length_formatMatchField])
  obtain ⟨hsub, hrest⟩ := List.append_inj (List.cons.inj hrest).2
    (by rw [length_formatMatchField, length_formatMatchField])
  have hproto := (List.cons.inj hrest).2
  rw [DeviceFilterEntry.accepts, DeviceFilterEntry.accepts, field_congr hclass, field_congr hsub, field_congr hproto]

theorem any_congr (h : entries.map triple = entries'.map triple) (cls sub proto : Byte) :
    entries.any (fun e => e.accepts cls sub proto) = entries'.any (fun e => e.accepts cls sub proto) := by
  induction entries generalizing entries' with
  | nil =>
      obtain rfl := List.map_eq_nil_iff.mp h.symm
      rfl
  | cons e entries ih =>
      obtain ⟨e', rest, rfl, he, hrest⟩ := List.map_eq_cons_iff.mp h.symm
      rw [List.any_cons, List.any_cons, ih hrest.symm, accepts_congr he.symm]

theorem flatMap_following_injective (h : entries.flatMap following = entries'.flatMap following) :
    entries.map triple = entries'.map triple := by
  induction entries generalizing entries' with
  | nil =>
      cases entries' with
      | nil => rfl
      | cons e' rest => cases h
  | cons e entries ih =>
      cases entries' with
      | nil => cases h
      | cons e' rest =>
          obtain ⟨hfirst, hrest⟩ := List.append_inj h (by rw [length_following, length_following])
          rw [List.map_cons, List.map_cons, ih hrest, (List.append_cancel_left hfirst)]

theorem listed_injective (h : listed entries = listed entries') : entries.map triple = entries'.map triple := by
  have hcons : ∀ e rest, listed (e :: rest) ≠ [] := by
    intro e rest hnil
    have hlength := congrArg List.length hnil
    rw [listed, List.length_append, length_triple, List.length_nil] at hlength
    omega
  cases entries with
  | nil =>
      cases entries' with
      | nil => rfl
      | cons e' rest => exact absurd h.symm (hcons e' rest)
  | cons e entries =>
      cases entries' with
      | nil => exact absurd h (hcons e entries)
      | cons e' rest =>
          obtain ⟨hfirst, hrest⟩ := List.append_inj h (by rw [length_triple, length_triple])
          rw [List.map_cons, List.map_cons, hfirst, flatMap_following_injective hrest]

theorem length_rendered (cch : Nat) (hne : entries ≠ []) : (rendered cch entries).length + 2 =
    10 * min (shown cch) entries.length + if shown cch < entries.length then 5 else 0 := by
  have htake : entries.take (shown cch) ≠ [] := by
    rw [ne_eq, List.take_eq_nil_iff, not_or]
    exact ⟨by rw [shown]; omega, hne⟩
  have hlisted := length_listed htake
  rw [List.length_take] at hlisted
  rw [rendered, if_neg hne, List.length_append]
  split
  · rw [show ellipsis.length = 5 from rfl]
    omega
  · rw [List.length_nil]
    omega

-- The text tells whether there are more entries than it shows, and which the ones shown are.
theorem rendered_injective (h : rendered cch entries = rendered cch entries') :
    (entries.length ≤ shown cch ↔ entries'.length ≤ shown cch) ∧
      (entries.take (shown cch)).map triple = (entries'.take (shown cch)).map triple := by
  have hlength := congrArg List.length h
  by_cases hnil : entries = []
  · by_cases hnil' : entries' = []
    · rw [hnil, hnil']
      exact ⟨.rfl, rfl⟩
    · have hrendered := length_rendered cch hnil'
      rw [← hlength, rendered, if_pos hnil, show emptyText.length = 7 from rfl] at hrendered
      split at hrendered <;> omega
  · have hrendered := length_rendered cch hnil
    by_cases hnil' : entries' = []
    · rw [hlength, rendered, if_pos hnil', show emptyText.length = 7 from rfl] at hrendered
      split at hrendered <;> omega
    · have hrendered' := length_rendered cch hnil'
      have hmore : shown cch < entries.length ↔ shown cch < entries'.length := by
        split_ifs at hrendered hrendered' <;> omega
      rw [rendered, rendered, if_neg hnil, if_neg hnil'] at h
      simp only [hmore] at h
      exact ⟨by omega, listed_injective (List.append_cancel_right h)⟩

end Reading

section Log

variable {cch : Nat}

theorem length_rendered_lt (h : 15 ≤ cch) (entries : List DeviceFilterEntry) :
    (rendered cch entries).length < cch := by
  by_cases hnil : entries = []
  · rw [rendered, if_pos hnil, show emptyText.length = 7 from rfl]
    omega
  · have hlength := length_rendered cch hnil
    have hshown : shown cch = 1 + (cch - 8 - 7) / 10 := rfl
    split at hlength <;> omega

-- The log of a rejection has the whole text of the entries that it shows, and the ellipsis if and only if these are not
-- all of them. Policies with one text let in the same devices as far as it goes.
theorem whitelist_logged (h : 15 ≤ cch) :
    (∀ p, formatWhitelist p cch = rendered cch (whitelist p) ∧ (formatWhitelist p cch).length < cch) ∧
      ∀ p p', formatWhitelist p cch = formatWhitelist p' cch →
        ((whitelist p).length ≤ shown cch ↔ (whitelist p').length ≤ shown cch) ∧
        ∀ cls sub proto,
          (((whitelist p).take (shown cch)).any fun e => e.accepts cls sub proto) =
            (((whitelist p').take (shown cch)).any fun e => e.accepts cls sub proto) ∧
          ((whitelist p).length ≤ shown cch → p.mode = p'.mode →
            isAllowed p cls sub proto = isAllowed p' cls sub proto) := by
  refine ⟨fun p => ?_, fun p p' hsame => ?_⟩
  · rw [formatWhitelist_eq h p]
    exact ⟨rfl, length_rendered_lt h _⟩
  · rw [formatWhitelist_eq h p, formatWhitelist_eq h p'] at hsame
    obtain ⟨hall, htriples⟩ := rendered_injective hsame
    refine ⟨hall, fun cls sub proto => ?_⟩
    have hany := any_congr htriples cls sub proto
    refine ⟨hany, fun hle hmode => ?_⟩
    rw [List.take_of_length_le hle, List.take_of_length_le (hall.mp hle)] at hany
    rw [isAllowed, isAllowed, ← whitelist, ← whitelist, hany, hmode]

-- Keyboards and mice; the subclass is not looked at, and there are entries behind the last one. The buffer of
-- `report_rejection` has 128 characters.
def hidPolicy (garbage : Byte) : Policy where
  mode := 1
  count := 1
  entries := Vector.replicate _ { bClass := 3, bSubClass := garbage, matchFlags := FILTER_MATCH_CLASS }

theorem whitelist_logged_hid :
    formatWhitelist (hidPolicy 0) 128 = ['0', '3', '/', '*', '*', '/', '*', '*'] ∧
      ∀ cls sub proto, isAllowed (hidPolicy 0) cls sub proto = isAllowed (hidPolicy 7) cls sub proto := by
  have hcch : 15 ≤ 128 := by decide
  obtain ⟨htext, hread⟩ := whitelist_logged hcch
  refine ⟨(htext _).1.trans (by decide), fun cls sub proto => ?_⟩
  exact ((hread _ _ (by decide)).2 cls sub proto).2 (by decide) rfl

end Log

end Usbip.DeviceFilter.Whitelist

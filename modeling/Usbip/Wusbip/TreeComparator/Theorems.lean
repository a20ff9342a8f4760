import Usbip.Wusbip.TreeComparator

namespace Usbip.Wusbip

open Usbip.Libusbip.Persistent (WChar)
open Usbip.Library.Comparators

section Parse

variable (wx : WxString) {busid : Text}

theorem WxString.parseFields_some {val : Int} (h : wx.toInt (beforeFirst DOT busid) = some val) :
    parseFields wx busid = val :: parseFields wx (afterFirst DOT busid) := by
  rw [parseFields]
  split
  · next hnone => exact absurd (h.symm.trans hnone) (by simp)
  · next hsome => rw [Option.some.inj (h.symm.trans hsome)]

theorem WxString.parseFields_none (h : wx.toInt (beforeFirst DOT busid) = none) : parseFields wx busid = [] := by
  rw [parseFields]
  split
  · rfl
  · next hsome => exact absurd (h.symm.trans hsome) (by simp)

theorem WxString.parseFields_empty : parseFields wx [] = [] := wx.parseFields_none wx.toInt_empty

variable {wx}

-- The numbers of a bus id that parses.
def busidKey (wx : WxString) (busid : Text) : Option (List Int) :=
  if (parseBusid wx busid).isEmpty then none else some (parseBusid wx busid)

theorem busidKey_eq_none : busidKey wx busid = none ↔ parseBusid wx busid = [] := by
  unfold busidKey
  split
  · next h => simpa using h
  · next h => simpa using h

theorem busidKey_eq_some {v : List Int} : busidKey wx busid = some v ↔ parseBusid wx busid = v ∧ v ≠ [] := by
  unfold busidKey
  split
  · next h =>
      rw [List.isEmpty_iff] at h
      simp [h]
  · next h =>
      rw [List.isEmpty_iff] at h
      constructor
      · rintro ⟨rfl⟩
        exact ⟨rfl, h⟩
      · rintro ⟨rfl, -⟩
        rfl

end Parse

section Columns

variable (wx : WxString) {column : Column} {first second : TreeItem}

-- Each column has one of three ways to compare.
theorem compareItems_busid (h : first.isDevice = true) :
    compareItems wx .busid first second =
      sign (fallback (busidKey wx) (List.compareLex compare) (List.compareLex compare) (first.text .busid)
        (second.text .busid)) := by
  unfold compareItems fallback busidKey cmp
  cases ha : (parseBusid wx (first.text .busid)).isEmpty <;> cases hb : (parseBusid wx (second.text .busid)).isEmpty <;>
    simp [h, ha, hb]

theorem compareItems_speed :
    compareItems wx .speed first second =
      sign (fallback (getSpeedVal wx) compare (List.compareLex compare) (first.text .speed) (second.text .speed)) := by
  unfold compareItems fallback cmp
  cases ha : getSpeedVal wx (first.text .speed) <;> cases hb : getSpeedVal wx (second.text .speed) <;> simp [ha, hb]

theorem compareItems_text (hbusid : column = .busid → first.isDevice = false) (hspeed : column ≠ .speed) :
    compareItems wx column first second = cmp (first.text column) (second.text column) := by
  have hdevice : ¬ (column = .busid ∧ first.isDevice = true) := by
    rintro ⟨hc, hd⟩
    rw [hbusid hc] at hd
    cases hd
  rw [compareItems, if_neg hdevice, if_neg hspeed]

-- The order of two items of one parent is turned round with them.
theorem compareItems_swap (h : first.isDevice = second.isDevice) :
    compareItems wx column first second = -compareItems wx column second first := by
  by_cases hspeed : column = .speed
  · subst hspeed
    rw [compareItems_speed, compareItems_speed, fallback_swap, sign_swap]
  · by_cases hbusid : column = .busid ∧ first.isDevice = true
    · obtain ⟨rfl, hdevice⟩ := hbusid
      rw [compareItems_busid wx hdevice, compareItems_busid wx (h ▸ hdevice), fallback_swap, sign_swap]
    · have hfirst : column = .busid → first.isDevice = false := fun hc =>
        Bool.eq_false_iff.mpr fun hd => hbusid ⟨hc, hd⟩
      have hswap : List.compareLex compare (first.text column) (second.text column) =
          (List.compareLex compare (second.text column) (first.text column)).swap := Std.OrientedCmp.eq_swap
      rw [compareItems_text wx hfirst hspeed, compareItems_text wx (fun hc => h ▸ hfirst hc) hspeed, cmp, cmp, hswap,
        sign_swap]

end Columns

section Busid

variable (wx : WxString) {a b c : Text}

def deviceItem (busid : Text) : TreeItem where
  text := fun column => if column = .busid then busid else []
  isDevice := true

def compareBusid (a b : Text) : Int := compareItems wx .busid (deviceItem a) (deviceItem b)

theorem compareBusid_eq (a b : Text) :
    compareBusid wx a b = sign (fallback (busidKey wx) (List.compareLex compare) (List.compareLex compare) a b) :=
  compareItems_busid wx rfl

-- Nothing but the bus ids of two devices counts.
theorem compareItems_eq_compareBusid {first second : TreeItem} (h : first.isDevice = true) :
    compareItems wx .busid first second = compareBusid wx (first.text .busid) (second.text .busid) := by
  rw [compareItems_busid wx h, compareBusid_eq]

theorem compareBusid_swap (a b : Text) : compareBusid wx a b = -compareBusid wx b a :=
  compareItems_swap wx rfl

theorem compareBusid_le_zero (a b : Text) : compareBusid wx a b ≤ 0 ↔
    (fallback (busidKey wx) (List.compareLex compare) (List.compareLex compare) a b).isLE := by
  rw [compareBusid_eq, sign_le_zero]

-- What is asked of the comparison of any three bus ids of a set.
def Ordered (s : Set Text) : Prop :=
  ∀ a ∈ s, ∀ b ∈ s, ∀ c ∈ s, (compareBusid wx a b).sign = -(compareBusid wx b a).sign ∧
    (compareBusid wx a b ≤ 0 → compareBusid wx b c ≤ 0 → compareBusid wx a c ≤ 0)

theorem ordered_iff_uncrossed (s : Set Text) :
    Ordered wx s ↔ Uncrossed (busidKey wx) (List.compareLex compare) (List.compareLex compare) s := by
  rw [← trans_iff_uncrossed]
  simp only [← compareBusid_le_zero]
  constructor
  · exact fun h a ha b hb c hc => (h a ha b hb c hc).2
  · refine fun h a ha b hb c hc => ⟨?_, h a ha b hb c hc⟩
    rw [compareBusid_swap, Int.sign_neg]

-- A bus id that does not parse stands between two that do only if their numbers are in the order of their texts.
theorem ordered_iff (s : Set Text) :
    Ordered wx s ↔
      ∀ a ∈ s, ∀ b ∈ s, ∀ c ∈ s, parseBusid wx a ≠ [] → parseBusid wx b ≠ [] → parseBusid wx c = [] →
        cmp a c < 0 → cmp c b < 0 → List.compareLex compare (parseBusid wx a) (parseBusid wx b) = .lt := by
  have hcmp : ∀ a b, cmp a b < 0 ↔ List.compareLex compare a b = .lt := fun a b => by
    rw [cmp]
    cases List.compareLex compare a b <;> decide
  rw [ordered_iff_uncrossed]
  simp only [Uncrossed, hcmp]
  constructor
  · intro h a ha b hb c hc hx hy hz
    exact h a ha b hb c hc _ _ (busidKey_eq_some.mpr ⟨rfl, hx⟩) (busidKey_eq_some.mpr ⟨rfl, hy⟩)
      (busidKey_eq_none.mpr hz)
  · intro h a ha b hb c hc x y hx hy hz
    obtain ⟨rfl, hx⟩ := busidKey_eq_some.mp hx
    obtain ⟨rfl, hy⟩ := busidKey_eq_some.mp hy
    exact h a ha b hb c hc hx hy (busidKey_eq_none.mp hz)

end Busid

section Decimal

def digit (c : WChar) : Option Int := if 48 ≤ c ∧ c ≤ 57 then some (c.toNat - 48 : Nat) else none

-- Numbers without a sign.
def decimal (s : Text) : Option Int :=
  if s = [] then none
  else
    (s.foldlM (fun (n : Int) c => (digit c).map fun d => 10 * n + d) 0).filter fun n => n < 2 ^ 31

def lower (c : WChar) : WChar := if 65 ≤ c ∧ c ≤ 90 then c + 32 else c

def decimalString : WxString where
  toInt := decimal
  toInt_empty := rfl
  isSameAs first second := first.map lower == second.map lower

-- "1-2", "1-10" and "1-1x"
def busid2 : Text := [49, 45, 50]
def busid10 : Text := [49, 45, 49, 48]
def busid1x : Text := [49, 45, 49, 120]

theorem parseFields_one {busid : Text} {x : Int} (rest : Text) (hx : decimal (beforeFirst DOT busid) = some x)
    (hrest : afterFirst DOT busid = rest) (hy : decimal (beforeFirst DOT rest) = none) :
    parseFields decimalString busid = [x] := by
  rw [decimalString.parseFields_some hx, hrest, decimalString.parseFields_none hy]

theorem parseFields_two {busid : Text} {x y : Int} (rest : Text) (hx : decimal (beforeFirst DOT busid) = some x)
    (hrest : afterFirst DOT busid = rest) (hy : decimal (beforeFirst DOT rest) = some y)
    (hend : afterFirst DOT rest = []) : parseFields decimalString busid = [x, y] := by
  rw [decimalString.parseFields_some hx, hrest, decimalString.parseFields_some hy, hend,
    decimalString.parseFields_empty]

theorem parseBusid_busid2 : parseBusid decimalString busid2 = [1, 2] := by
  have hparse : parseFields decimalString [49, 46, 50] = [1, 2] :=
    parseFields_two [50] (by decide) (by decide) (by decide) (by decide)
  have hdot : replaceFirst HYPHEN DOT busid2 = some [49, 46, 50] := by decide
  rw [parseBusid, hdot]
  simp [hparse]

theorem parseBusid_busid10 : parseBusid decimalString busid10 = [1, 10] := by
  have hparse : parseFields decimalString [49, 46, 49, 48] = [1, 10] :=
    parseFields_two [49, 48] (by decide) (by decide) (by decide +kernel) (by decide)
  have hdot : replaceFirst HYPHEN DOT busid10 = some [49, 46, 49, 48] := by decide
  rw [parseBusid, hdot]
  simp [hparse]

theorem parseBusid_busid1x : parseBusid decimalString busid1x = [] := by
  have hparse : parseFields decimalString [49, 46, 49, 120] = [1] :=
    parseFields_one [49, 120] (by decide) (by decide) (by decide +kernel)
  have hdot : replaceFirst HYPHEN DOT busid1x = some [49, 46, 49, 120] := by decide
  rw [parseBusid, hdot]
  simp [hparse]

theorem busids_not_ordered : ¬ Ordered decimalString {busid2, busid10, busid1x} := by
  intro hordered
  have huncrossed := (ordered_iff_uncrossed decimalString {busid2, busid10, busid1x}).mp hordered
  have hlt := huncrossed busid10 (by simp) busid2 (by simp) busid1x (by simp) [1, 10] [1, 2]
    (busidKey_eq_some.mpr ⟨parseBusid_busid10, by decide⟩) (busidKey_eq_some.mpr ⟨parseBusid_busid2, by decide⟩)
    (busidKey_eq_none.mpr parseBusid_busid1x)
    (by decide) (by decide)
  exact absurd hlt (by decide)

end Decimal

end Usbip.Wusbip

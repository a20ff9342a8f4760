import Mathlib.Data.UInt
import Usbip.Libusbip.UsbIds.Grammar

namespace Usbip.Libusbip.UsbIds

-- Names of two levels as a text lists them.
structure Listed (κ : Type) where
  id : κ
  name : Text
  items : List (κ × Text) := []

section Find

variable {α κ : Type} [DecidableEq κ] (id : α → κ) {l : List α} {a : α} {key : κ}

theorem find?_snoc_of_ne (h : id a ≠ key) : (l ++ [a]).find? (id · = key) = l.find? (id · = key) := by
  rw [List.find?_append, List.find?_cons_of_neg (by simpa using h), List.find?_nil, Option.or_none]

theorem find?_eq_none_of_not_mem (h : key ∉ l.map id) : l.find? (id · = key) = none := by
  rw [List.find?_eq_none]
  intro a ha
  simpa using fun heq : id a = key => h (heq ▸ List.mem_map_of_mem ha)

theorem find?_snoc_self (h : id a ∉ l.map id) : (l ++ [a]).find? (id · = id a) = some a := by
  rw [List.find?_append, find?_eq_none_of_not_mem id h, List.find?_cons_of_pos (by simp), Option.none_or]

theorem find?_of_mem (hnodup : (l.map id).Nodup) (h : a ∈ l) : l.find? (id · = id a) = some a := by
  obtain ⟨before, after, rfl⟩ := List.append_of_mem h
  rw [List.map_append, List.map_cons] at hnodup
  have hfresh : id a ∉ before.map id :=
    fun hmem => (List.nodup_append.mp hnodup).2.2 _ hmem _ List.mem_cons_self rfl
  rw [List.find?_append, find?_eq_none_of_not_mem id hfresh, List.find?_cons_of_pos (by simp), Option.none_or]

end Find

section Tables

variable {κ : Type} [DecidableEq κ] {l : List (Listed κ)} {g : Listed κ} {key item : κ} {name : Text}
  {items : List (κ × Text)}

def listedNames (l : List (Listed κ)) (key item : κ) : Text × Text :=
  match l.find? (·.id = key) with
  | none => ([], [])
  | some g => (g.name, (g.items.lookup item).getD [])

theorem lookup_eq_none_of_not_mem (h : item ∉ items.map Prod.fst) : items.lookup item = none := by
  rw [List.lookup_eq_none_iff]
  intro p hp
  have hne : p.1 ≠ item := fun heq => h (heq ▸ List.mem_map_of_mem hp)
  simpa using hne.symm

theorem lookup_of_mem {p : κ × Text} (hnodup : (items.map Prod.fst).Nodup) (h : p ∈ items) :
    items.lookup p.1 = some p.2 := by
  obtain ⟨before, after, rfl⟩ := List.append_of_mem h
  rw [List.map_append, List.map_cons] at hnodup
  have hfresh : p.1 ∉ before.map Prod.fst :=
    fun hmem => (List.nodup_append.mp hnodup).2.2 _ hmem _ List.mem_cons_self rfl
  rw [List.lookup_append, lookup_eq_none_of_not_mem hfresh, Option.none_or, List.lookup_cons_self]

theorem mem_of_lookup {name : Text} (h : items.lookup item = some name) : (item, name) ∈ items := by
  obtain ⟨before, after, rfl, -⟩ := List.lookup_eq_some_iff.mp h
  simp

variable [Zero κ]

-- What is loaded of them: entries with the id zero are passed over. One of the first level is there nevertheless
-- if it is needed for one of the second, but has no name.
def loadedItems (items : List (κ × Text)) : Names κ := fun item => if item = 0 then none else items.lookup item

def Listed.loaded (g : Listed κ) : Option (Text × Names κ) :=
  if g.id ≠ 0 then some (g.name, loadedItems g.items)
  else if ∀ item ∈ g.items, item.1 = 0 then none
  else some ([], loadedItems g.items)

def loadedTable (l : List (Listed κ)) : Table κ := fun key => (l.find? (·.id = key)).bind Listed.loaded

theorem loadedTable_snoc (h : g.id ∉ l.map Listed.id) :
    loadedTable (l ++ [g]) = Function.update (loadedTable l) g.id g.loaded := by
  funext key
  by_cases heq : key = g.id
  · subst heq
    rw [loadedTable, find?_snoc_self Listed.id h, Function.update_self]
    rfl
  · rw [loadedTable, find?_snoc_of_ne Listed.id (Ne.symm heq), Function.update_of_ne heq]
    rfl

theorem loadedTable_of_not_mem (h : key ∉ l.map Listed.id) : loadedTable l key = none := by
  rw [loadedTable, find?_eq_none_of_not_mem Listed.id h]
  rfl

theorem loadedItems_nil : loadedItems ([] : List (κ × Text)) = fun _ => none := by
  funext item
  simp [loadedItems]

theorem loadedItems_snoc (hitem : item ≠ 0) (h : item ∉ items.map Prod.fst) :
    emplace (loadedItems items) item name = loadedItems (items ++ [(item, name)]) := by
  have hfree : loadedItems items item = none := by
    rw [loadedItems, if_neg hitem, lookup_eq_none_of_not_mem h]
  rw [emplace, hfree]
  funext key
  by_cases heq : key = item
  · subst heq
    simp [loadedItems, hitem, List.lookup_append, lookup_eq_none_of_not_mem h]
  · have hne : (key == item) = false := beq_false_of_ne heq
    simp [loadedItems, heq, List.lookup_append, List.lookup_cons, hne]

theorem loadedItems_snoc_zero : loadedItems (items ++ [(0, name)]) = loadedItems items := by
  funext item
  by_cases hitem : item = 0
  · simp [loadedItems, hitem]
  · have hne : (item == 0) = false := beq_false_of_ne hitem
    simp [loadedItems, hitem, List.lookup_append, List.lookup_cons, hne]

theorem loadedItems_of_zero (h : ∀ item ∈ items, item.1 = 0) : loadedItems items = fun _ => none := by
  funext item
  by_cases hitem : item = 0
  · simp [loadedItems, hitem]
  · rw [loadedItems, if_neg hitem]
    refine lookup_eq_none_of_not_mem fun hmem => ?_
    obtain ⟨p, hp, rfl⟩ := List.mem_map.mp hmem
    exact hitem (h p hp)

-- With another item an entry is there in any case.
theorem loaded_item (name : Text) (hitem : item ≠ 0) (h : item ∉ g.items.map Prod.fst) :
    some ((g.loaded.getD ([], fun _ => none)).1, emplace (g.loaded.getD ([], fun _ => none)).2 item name) =
      Listed.loaded { g with items := g.items ++ [(item, name)] } := by
  have hsome : ¬ ∀ p ∈ g.items ++ [(item, name)], p.1 = 0 := fun hall => hitem (hall (item, name) (by simp))
  simp only [Listed.loaded, if_neg hsome]
  by_cases hid : g.id = 0
  · rw [if_neg (not_not.mpr hid), if_neg (not_not.mpr hid), ← loadedItems_snoc hitem h]
    by_cases hzero : ∀ p ∈ g.items, p.1 = 0
    · rw [if_pos hzero, loadedItems_of_zero hzero]
      rfl
    · rw [if_neg hzero]
      rfl
  · rw [if_pos hid, if_pos hid, ← loadedItems_snoc hitem h]
    rfl

theorem loaded_item_zero : Listed.loaded { g with items := g.items ++ [(0, name)] } = g.loaded := by
  have hall : (∀ p ∈ g.items ++ [(0, name)], p.1 = 0) ↔ ∀ p ∈ g.items, p.1 = 0 := by
    simp only [List.forall_mem_append, List.forall_mem_singleton, and_true]
  simp only [Listed.loaded, loadedItems_snoc_zero, hall]

-- A line of the first level.
theorem emplaceName_loaded (hkey : key ≠ 0) (h : key ∉ l.map Listed.id) :
    emplaceName (loadedTable l) key name = loadedTable (l ++ [{ id := key, name := name }]) := by
  rw [loadedTable_snoc h, emplaceName, emplace, loadedTable_of_not_mem h, Listed.loaded, if_pos hkey, loadedItems_nil]
  rfl

theorem loadedTable_snoc_zero (h : (0 : κ) ∉ l.map Listed.id) :
    loadedTable (l ++ [{ id := 0, name := name }]) = loadedTable l := by
  rw [loadedTable_snoc h]
  refine (Function.update_eq_self_iff ..).mpr ?_
  rw [loadedTable_of_not_mem h]
  simp [Listed.loaded]

-- A line of the second level, of the last entry of the first.
theorem emplaceItem_loaded (hitem : item ≠ 0) (hg : g.id ∉ l.map Listed.id) (h : item ∉ g.items.map Prod.fst) :
    emplaceItem (loadedTable (l ++ [g])) g.id item name =
      loadedTable (l ++ [{ g with items := g.items ++ [(item, name)] }]) := by
  have hentry := loaded_item name hitem h
  rw [loadedTable_snoc hg, loadedTable_snoc (g := { g with items := g.items ++ [(item, name)] }) hg, ← hentry,
    emplaceItem]
  simp only [Function.update_self, Function.update_idem]

theorem loadedTable_item_zero (hg : g.id ∉ l.map Listed.id) :
    loadedTable (l ++ [{ g with items := g.items ++ [(0, name)] }]) = loadedTable (l ++ [g]) := by
  rw [loadedTable_snoc hg, loadedTable_snoc (g := { g with items := g.items ++ [(0, name)] }) hg, loaded_item_zero]

-- What the names of a loaded table come to.
theorem findNames_loaded (l : List (Listed κ)) (key item : κ) :
    findNames (loadedTable l) key item =
      (if key = 0 then [] else (listedNames l key item).1, if item = 0 then [] else (listedNames l key item).2) := by
  rw [findNames, loadedTable, listedNames]
  cases hfind : l.find? (·.id = key) with
  | none => simp
  | some g =>
    have hid : g.id = key := by simpa using List.find?_some hfind
    have hitems : (loadedItems g.items item).getD [] = if item = 0 then [] else (g.items.lookup item).getD [] := by
      rw [loadedItems]
      split <;> rfl
    rw [Option.bind_some, Listed.loaded, hid]
    by_cases hkey : key = 0
    · rw [if_neg (not_not.mpr hkey), if_pos hkey]
      by_cases hzero : ∀ p ∈ g.items, p.1 = 0
      · rw [if_pos hzero, ← hitems, loadedItems_of_zero hzero]
        rfl
      · rw [if_neg hzero, ← hitems]
    · rw [if_pos hkey, if_neg hkey, ← hitems]

-- All of the names are found if none of them belongs to a zero id.
theorem findNames_loaded_iff (hnodup : (l.map Listed.id).Nodup) (hitems : ∀ g ∈ l, (g.items.map Prod.fst).Nodup) :
    (∀ key item, findNames (loadedTable l) key item = listedNames l key item) ↔
      ∀ g ∈ l, (g.id = 0 → g.name = []) ∧ ∀ p ∈ g.items, p.1 = 0 → p.2 = [] := by
  simp only [findNames_loaded, Prod.ext_iff]
  constructor
  · intro h g hg
    have hfind := find?_of_mem Listed.id hnodup hg
    constructor
    · intro hzero
      have hname := (h g.id 0).1
      rw [listedNames, hfind, if_pos hzero] at hname
      exact hname.symm
    · intro p hp hzero
      have hname := (h g.id p.1).2
      rw [listedNames, hfind, if_pos hzero] at hname
      simp only [lookup_of_mem (hitems g hg) hp, Option.getD_some] at hname
      exact hname.symm
  · intro h key item
    rw [listedNames]
    cases hfind : l.find? (·.id = key) with
    | none => simp
    | some g =>
      have hid : g.id = key := by simpa using List.find?_some hfind
      obtain ⟨hname, hitem⟩ := h g (List.mem_of_find?_eq_some hfind)
      constructor
      · by_cases hkey : key = 0
        · rw [if_pos hkey]
          exact (hname (hid.trans hkey)).symm
        · rw [if_neg hkey]
      · by_cases hzero : item = 0
        · rw [if_pos hzero]
          cases hlookup : g.items.lookup item with
          | none => simp [hlookup]
          | some name =>
            have hname := hitem _ (mem_of_lookup hlookup) hzero
            simp only [hlookup, Option.getD_some]
            exact hname.symm
        · rw [if_neg hzero]

end Tables

section Sections

variable {σ κ : Type} {n : Nat} {stop : Text}

-- Ids that are not the same are told apart by their values in the tables.
theorem nodup_keys {α : Type} {key : HexId n → κ} (hinj : ∀ a b, key a = key b → a.value = b.value) {id : α → HexId n}
    {as : List α} (h : (as.map fun a => (id a).value).Nodup) : (as.map fun a => key (id a)).Nodup :=
  List.pairwise_map.mpr ((List.pairwise_map.mp h).imp fun hne heq => hne (hinj _ _ heq))

def Item.listed (key : HexId n → κ) (item : Item n stop) : κ × Text := (key item.id, item.name.val)

def Group.listed (key : HexId n → κ) (group : Group n stop) : Listed κ where
  id := key group.id
  name := group.name.val
  items := group.items.map (Item.listed key)

-- How a parser goes through the two levels of a section. `Holds` tells what it has got so far; the last of these
-- entries is the one that the next items belong to.
structure SectionRules (f : Text → Text → σ → Option (Bool × σ)) (outer inner stop : Text) (key : HexId n → κ)
    (Holds : List (Listed κ) → σ → Prop) : Prop where
  inj : ∀ a b, key a = key b → a.value = b.value
  filler : ∀ (filler : Filler stop) st, Passes f filler.line.val st st
  group : ∀ l st id (name : OneLine), Holds l st → key id ∉ l.map Listed.id →
    ∃ st', Passes f (entryLine outer id name) st st' ∧ Holds (l ++ [{ id := key id, name := name.val }]) st'
  item : ∀ l g st id (name : OneLine), Holds (l ++ [g]) st → g.id ∉ l.map Listed.id →
    key id ∉ g.items.map Prod.fst →
      ∃ st', Passes f (entryLine inner id name) st st' ∧
        Holds (l ++ [{ g with items := g.items ++ [(key id, name.val)] }]) st'

namespace SectionRules

variable {f : Text → Text → σ → Option (Bool × σ)} {outer inner : Text} {key : HexId n → κ}
  {Holds : List (Listed κ) → σ → Prop} {l : List (Listed κ)} {g : Listed κ} {st : σ}

theorem runs_fillers (rules : SectionRules f outer inner stop key Holds) (fillers : List (Filler stop)) (st : σ) :
    Runs f (fillerLines fillers) st st := by
  induction fillers with
  | nil => exact .nil st
  | cons filler fillers ih => exact .cons (rules.filler filler st) ih

theorem runs_items (rules : SectionRules f outer inner stop key Holds) (items : List (Item n stop))
    (hg : g.id ∉ l.map Listed.id) (hnodup : (g.items.map Prod.fst ++ items.map fun item => key item.id).Nodup)
    (hst : Holds (l ++ [g]) st) :
    ∃ st', Runs f (items.flatMap (Item.lines inner)) st st' ∧
      Holds (l ++ [{ g with items := g.items ++ items.map (Item.listed key) }]) st' := by
  induction items generalizing g st with
  | nil =>
    refine ⟨st, .nil st, ?_⟩
    rw [List.map_nil, List.append_nil]
    exact hst
  | cons item items ih =>
    rw [List.map_cons, List.append_cons] at hnodup
    have hfresh : key item.id ∉ g.items.map Prod.fst := by
      have hfirst := (List.nodup_append.mp hnodup).1
      exact fun hmem => (List.nodup_append.mp hfirst).2.2 _ hmem _ (List.mem_singleton_self _) rfl
    obtain ⟨st₁, hpass, hst₁⟩ := rules.item l g st item.id item.name hst hg hfresh
    obtain ⟨st₂, hruns, hst₂⟩ := ih (g := { g with items := g.items ++ [(key item.id, item.name.val)] }) hg
      (by simpa using hnodup) hst₁
    refine ⟨st₂, ?_, ?_⟩
    · rw [List.flatMap_cons, Item.lines]
      exact ((rules.runs_fillers item.before st).append (.single hpass)).append hruns
    · have hitems : g.items ++ (item :: items).map (Item.listed key) =
          g.items ++ [(key item.id, item.name.val)] ++ items.map (Item.listed key) := by
        rw [List.map_cons, ← List.append_cons]
        rfl
      rw [hitems]
      exact hst₂

theorem runs_group (rules : SectionRules f outer inner stop key Holds) (group : Group n stop)
    (h : key group.id ∉ l.map Listed.id) (hst : Holds l st) :
    ∃ st', Runs f (group.lines outer inner) st st' ∧ Holds (l ++ [group.listed key]) st' := by
  obtain ⟨st₁, hpass, hst₁⟩ := rules.group l st group.id group.name hst h
  obtain ⟨st₂, hruns, hst₂⟩ := rules.runs_items (g := { id := key group.id, name := group.name.val }) group.items h
    (by simpa using nodup_keys rules.inj group.distinct) hst₁
  refine ⟨st₂, ?_, hst₂⟩
  rw [Group.lines, Item.lines]
  exact ((rules.runs_fillers group.before st).append (.single hpass)).append hruns

theorem runs_groups (rules : SectionRules f outer inner stop key Holds) (groups : List (Group n stop))
    (hnodup : (l.map Listed.id ++ groups.map fun group => key group.id).Nodup) (hst : Holds l st) :
    ∃ st', Runs f (groups.flatMap (Group.lines outer inner)) st st' ∧
      Holds (l ++ groups.map (Group.listed key)) st' := by
  induction groups generalizing l st with
  | nil =>
    refine ⟨st, .nil st, ?_⟩
    rw [List.map_nil, List.append_nil]
    exact hst
  | cons group groups ih =>
    rw [List.map_cons, List.append_cons] at hnodup
    have hfresh : key group.id ∉ l.map Listed.id := by
      have hfirst := (List.nodup_append.mp hnodup).1
      exact fun hmem => (List.nodup_append.mp hfirst).2.2 _ hmem _ (List.mem_singleton_self _) rfl
    obtain ⟨st₁, hgroup, hst₁⟩ := rules.runs_group group hfresh hst
    obtain ⟨st₂, hruns, hst₂⟩ := ih (l := l ++ [group.listed key])
      (by rw [List.map_append]; exact hnodup) hst₁
    refine ⟨st₂, ?_, ?_⟩
    · rw [List.flatMap_cons]
      exact hgroup.append hruns
    · rw [List.map_cons, List.append_cons]
      exact hst₂

end SectionRules

end Sections

section Entries

variable {n : Nat}

def vendorKey (id : HexId 4) : UInt16 := UInt16.ofNat id.value

def classKey (id : HexId 2) : UInt8 := UInt8.ofNat id.value

theorem vendorKey_inj (a b : HexId 4) (h : vendorKey a = vendorKey b) : a.value = b.value := by
  have ha := a.value_lt
  have hb := b.value_lt
  have hword := congrArg UInt16.toNat h
  simp only [vendorKey, UInt16.toNat_ofNat'] at hword
  omega

theorem classKey_inj (a b : HexId 2) (h : classKey a = classKey b) : a.value = b.value := by
  have ha := a.value_lt
  have hb := b.value_lt
  have hword := congrArg UInt8.toNat h
  simp only [classKey, UInt8.toNat_ofNat'] at hword
  omega

theorem startsWith_cons {c : Char} {line pre : Text} :
    startsWith (c :: line) (c :: pre) = startsWith line pre := by
  simp [startsWith]

theorem startsWith_cons_of_ne {c d : Char} (h : d ≠ c) (line pre : Text) :
    startsWith (c :: line) (d :: pre) = false := by
  simp [startsWith, List.isPrefixOf, h]

-- A line that is indented is not a comment.
theorem startsWith_tab_hash (line pre : Text) : startsWith ('\t' :: line) ('#' :: pre) = false :=
  startsWith_cons_of_ne (by decide) line pre

theorem startsWith_nil (line : Text) : startsWith line [] = true := by
  simp [startsWith]

theorem knownClasses_eq : ∃ pre, knownClasses = '#' :: pre := ⟨_, rfl⟩

theorem audioTerminalTypes_eq : ∃ pre, audioTerminalTypes = '#' :: pre := ⟨_, rfl⟩

-- The digits of an id are taken neither for a comment nor for an indentation.
theorem HexId.startsWith_digits (id : HexId n) (hn : n ≠ 0) {c : Char} (hc : hexDigit c = none) (rest pre : Text) :
    startsWith (id.digits ++ rest) (c :: pre) = false := by
  cases hdigits : id.digits with
  | nil =>
    have hsize := id.size
    rw [hdigits] at hsize
    exact absurd hsize.symm hn
  | cons d digits =>
    have hd := id.hex d (by rw [hdigits]; exact List.mem_cons_self)
    refine startsWith_cons_of_ne (fun heq => ?_) _ _
    rw [← heq, hc] at hd
    cases hd

theorem entryLine_ne_nil (indent : Text) (id : HexId n) (name : OneLine) : entryLine indent id name ≠ [] := by
  simp [entryLine]

theorem removePrefix_cons (c : Char) (line : Text) : removePrefix (c :: line) 1 = some line := by
  simp [removePrefix]

theorem removePrefix_two (c d : Char) (line : Text) : removePrefix (c :: d :: line) 2 = some line := by
  simp [removePrefix]

theorem Filler.passes {σ : Type} {f : Text → Text → σ → Option (Bool × σ)} {stop : Text} (filler : Filler stop)
    (hcomment : ∀ line tail st, startsWith line ['#'] = true → startsWith line stop = false →
      f line tail st = some (false, st)) (st : σ) : Passes f filler.line.val st st := by
  by_cases hnil : filler.line.val = []
  · exact .inl ⟨hnil, rfl⟩
  · obtain ⟨hhash, hstop⟩ := filler.kind.resolve_left hnil
    exact .inr ⟨hnil, fun tail => hcomment _ tail st hhash hstop⟩

end Entries

section Vendors

variable {st : VendorState} {tail : Text} {name : OneLine}

theorem parseVidPid_vendor (id : HexId 4) :
    parseVidPid (entryLine [] id name) tail st =
      some (false,
        if vendorKey id ≠ 0 then
          { st with
            vid := vendorKey id
            ids := { st.ids with vendor := emplaceName st.ids.vendor (vendorKey id) name.val } }
        else { st with vid := vendorKey id }) := by
  obtain ⟨pre, hpre⟩ := knownClasses_eq
  have hid := id.removePrefixHex_append (by decide) (' ' :: ' ' :: name.val)
  have hhash := id.startsWith_digits (by decide) (c := '#') rfl (' ' :: ' ' :: name.val)
  have htab := id.startsWith_digits (by decide) (c := '\t') rfl (' ' :: ' ' :: name.val)
  rw [parseVidPid, entryLine, List.nil_append, hpre]
  simp only [hhash, htab, hid, Bool.false_eq_true, if_false, Option.bind_eq_bind, Option.bind_some,
    removePrefix_two]
  unfold vendorKey
  split <;> rfl

theorem parseVidPid_product (id : HexId 4) :
    parseVidPid (entryLine ['\t'] id name) tail st =
      some (false,
        if vendorKey id ≠ 0 then
          { st with
            pid := vendorKey id
            ids := { st.ids with vendor := emplaceItem st.ids.vendor st.vid (vendorKey id) name.val } }
        else { st with pid := vendorKey id }) := by
  obtain ⟨pre, hpre⟩ := knownClasses_eq
  have hid := id.removePrefixHex_append (by decide) (' ' :: ' ' :: name.val)
  have htab := id.startsWith_digits (by decide) (c := '\t') rfl (' ' :: ' ' :: name.val)
  rw [parseVidPid, entryLine, List.singleton_append, hpre]
  simp only [startsWith_tab_hash, startsWith_cons, htab, startsWith_nil, removePrefix_cons, hid, Bool.false_eq_true,
    if_false, if_true, Option.bind_eq_bind, Option.bind_some, removePrefix_two]
  unfold vendorKey
  split <;> rfl

-- What the database holds between two lines of the vendors.
structure VendorsLoaded (l : List (Listed UInt16)) (st : VendorState) : Prop where
  vendor : st.ids.vendor = loadedTable l
  cls : st.ids.cls = fun _ => none
  last : ∀ g ∈ l.getLast?, st.vid = g.id

theorem vendor_rules : SectionRules parseVidPid [] ['\t'] knownClasses vendorKey VendorsLoaded where
  inj := vendorKey_inj
  filler := fun filler => filler.passes fun line tail st hhash hstop => by
    rw [parseVidPid, hstop, hhash]
    rfl
  group := by
    intro l st id name hst h
    refine ⟨_, .inr ⟨entryLine_ne_nil _ _ _, fun tail => parseVidPid_vendor id⟩, ?_⟩
    split
    case isTrue hne =>
      exact ⟨by rw [hst.vendor, emplaceName_loaded hne h], hst.cls, by simp⟩
    case isFalse hzero =>
      have hzero := not_not.mp hzero
      rw [hzero] at h ⊢
      exact ⟨by rw [hst.vendor, loadedTable_snoc_zero h], hst.cls, by simp⟩
  item := by
    intro l g st id name hst hg h
    have hvid : st.vid = g.id := hst.last g (by simp)
    refine ⟨_, .inr ⟨entryLine_ne_nil _ _ _, fun tail => parseVidPid_product id⟩, ?_⟩
    split
    case isTrue hne =>
      exact ⟨by rw [hst.vendor, hvid, emplaceItem_loaded hne hg h], hst.cls, by simp [hvid]⟩
    case isFalse hzero =>
      rw [not_not.mp hzero]
      exact ⟨by rw [hst.vendor, loadedTable_item_zero hg], hst.cls, by simp [hvid]⟩

end Vendors

structure ListedClass where
  id : UInt8
  name : Text
  subclasses : List (Listed UInt8) := []

section Classes

variable {st : ClassState} {tail : Text} {name : OneLine} {before : List ListedClass} {c : ListedClass}

-- Of classes the one with the id zero is loaded too.
def loadedClasses (l : List ListedClass) (cls : UInt8) : Option (Text × Table UInt8) :=
  (l.find? (·.id = cls)).map fun c => (c.name, loadedTable c.subclasses)

theorem loadedClasses_snoc (h : c.id ∉ before.map ListedClass.id) :
    loadedClasses (before ++ [c]) =
      Function.update (loadedClasses before) c.id (some (c.name, loadedTable c.subclasses)) := by
  funext cls
  by_cases heq : cls = c.id
  · subst heq
    rw [loadedClasses, find?_snoc_self ListedClass.id h, Function.update_self]
    rfl
  · rw [loadedClasses, find?_snoc_of_ne ListedClass.id (Ne.symm heq), Function.update_of_ne heq]
    rfl

theorem emplace_loadedClasses {cls : UInt8} (name : Text) (h : cls ∉ before.map ListedClass.id) :
    emplace (loadedClasses before) cls (name, fun _ => none) =
      loadedClasses (before ++ [{ id := cls, name := name }]) := by
  have hfree : loadedClasses before cls = none := by
    rw [loadedClasses, find?_eq_none_of_not_mem ListedClass.id h]
    rfl
  rw [loadedClasses_snoc (c := { id := cls, name := name }) h, emplace, hfree]
  rfl

-- A change of the subclasses of the last class.
theorem modifyClass_loaded {ids : Ids} {f : Table UInt8 → Table UInt8} {subclasses : List (Listed UInt8)}
    (hids : ids.cls = loadedClasses (before ++ [c])) (h : c.id ∉ before.map ListedClass.id)
    (hf : f (loadedTable c.subclasses) = loadedTable subclasses) :
    (ids.modifyClass c.id f).cls = loadedClasses (before ++ [{ c with subclasses := subclasses }]) := by
  rw [loadedClasses_snoc h] at hids
  rw [loadedClasses_snoc (c := { c with subclasses := subclasses }) h, Ids.modifyClass]
  simp only [hids, Function.update_self, Function.update_idem, Option.getD_some, hf]

theorem loadedClasses_congr {subclasses subclasses' : List (Listed UInt8)}
    (h : c.id ∉ before.map ListedClass.id) (hsame : loadedTable subclasses = loadedTable subclasses') :
    loadedClasses (before ++ [{ c with subclasses := subclasses }]) =
      loadedClasses (before ++ [{ c with subclasses := subclasses' }]) := by
  rw [loadedClasses_snoc (c := { c with subclasses := subclasses }) h,
    loadedClasses_snoc (c := { c with subclasses := subclasses' }) h, hsame]

theorem parseClassSubProto_class (id : HexId 2) :
    parseClassSubProto (entryLine ['C', ' '] id name) tail st =
      some (false,
        { st with
          cls := classKey id
          ids := { st.ids with cls := emplace st.ids.cls (classKey id) (name.val, fun _ => none) } }) := by
  obtain ⟨pre, hpre⟩ := audioTerminalTypes_eq
  have hid := id.removePrefixHex_append (by decide) (' ' :: ' ' :: name.val)
  have hother {c : Char} (hc : c ≠ 'C') (pre line : Text) : startsWith ('C' :: line) (c :: pre) = false :=
    startsWith_cons_of_ne hc line pre
  rw [parseClassSubProto, entryLine, hpre]
  simp only [List.cons_append, List.nil_append, hother (show '#' ≠ 'C' by decide),
    hother (show '\t' ≠ 'C' by decide), startsWith_cons, startsWith_nil, hid, Bool.false_eq_true, if_false,
    if_true, Option.bind_eq_bind, Option.bind_some, removePrefix_two, UInt16.toUInt8_ofNat']
  rfl

theorem parseClassSubProto_subclass (id : HexId 2) :
    parseClassSubProto (entryLine ['\t'] id name) tail st =
      some (false,
        if classKey id ≠ 0 then
          { st with
            subcls := classKey id
            ids := st.ids.modifyClass st.cls fun sub => emplaceName sub (classKey id) name.val }
        else { st with subcls := classKey id }) := by
  obtain ⟨pre, hpre⟩ := audioTerminalTypes_eq
  have hid := id.removePrefixHex_append (by decide) (' ' :: ' ' :: name.val)
  have htab := id.startsWith_digits (by decide) (c := '\t') rfl (' ' :: ' ' :: name.val)
  rw [parseClassSubProto, entryLine, List.singleton_append, hpre]
  simp only [startsWith_tab_hash, startsWith_cons, htab, startsWith_nil, removePrefix_cons, hid, Bool.false_eq_true,
    if_false, if_true, Option.bind_eq_bind, Option.bind_some, removePrefix_two, UInt16.toUInt8_ofNat']
  unfold classKey
  split <;> rfl

theorem parseClassSubProto_protocol (id : HexId 2) :
    parseClassSubProto (entryLine ['\t', '\t'] id name) tail st =
      some (false,
        if classKey id ≠ 0 then
          { st with ids := st.ids.modifyClass st.cls fun sub => emplaceItem sub st.subcls (classKey id) name.val }
        else st) := by
  obtain ⟨pre, hpre⟩ := audioTerminalTypes_eq
  have hid := id.removePrefixHex_append (by decide) (' ' :: ' ' :: name.val)
  rw [parseClassSubProto, entryLine, hpre]
  simp only [List.cons_append, List.nil_append, startsWith_tab_hash, startsWith_cons, startsWith_nil, hid,
    Bool.false_eq_true, if_false, if_true, Option.bind_eq_bind, Option.bind_some, removePrefix_two,
    UInt16.toUInt8_ofNat']
  unfold classKey
  split <;> rfl

theorem parseClassSubProto_comment (line tail : Text) (st : ClassState) (hhash : startsWith line ['#'] = true)
    (hstop : startsWith line audioTerminalTypes = false) : parseClassSubProto line tail st = some (false, st) := by
  rw [parseClassSubProto, hstop, hhash]
  rfl

-- What the database holds between two lines of the subclasses of a class.
structure SubclassesLoaded (vendor : Table UInt16) (before : List ListedClass) (c : ListedClass)
    (l : List (Listed UInt8)) (st : ClassState) : Prop where
  vendor : st.ids.vendor = vendor
  classes : st.ids.cls = loadedClasses (before ++ [{ c with subclasses := l }])
  cls : st.cls = c.id
  last : ∀ g ∈ l.getLast?, st.subcls = g.id

theorem subclass_rules (vendor : Table UInt16) (hc : c.id ∉ before.map ListedClass.id) :
    SectionRules parseClassSubProto ['\t'] ['\t', '\t'] audioTerminalTypes classKey
      (SubclassesLoaded vendor before c) where
  inj := classKey_inj
  filler := fun filler => filler.passes parseClassSubProto_comment
  group := by
    intro l st id name hst h
    refine ⟨_, .inr ⟨entryLine_ne_nil _ _ _, fun tail => parseClassSubProto_subclass id⟩, ?_⟩
    split
    case isTrue hne =>
      refine ⟨hst.vendor, ?_, hst.cls, by simp⟩
      rw [hst.cls]
      exact modifyClass_loaded (c := { c with subclasses := l }) hst.classes hc (emplaceName_loaded hne h)
    case isFalse hzero =>
      have hzero := not_not.mp hzero
      rw [hzero] at h ⊢
      refine ⟨hst.vendor, ?_, hst.cls, by simp⟩
      rw [hst.classes, loadedClasses_congr hc (loadedTable_snoc_zero h)]
  item := by
    intro l g st id name hst hg h
    have hsub : st.subcls = g.id := hst.last g (by simp)
    refine ⟨_, .inr ⟨entryLine_ne_nil _ _ _, fun tail => parseClassSubProto_protocol id⟩, ?_⟩
    split
    case isTrue hne =>
      refine ⟨hst.vendor, ?_, hst.cls, by simp [hsub]⟩
      rw [hst.cls, hsub]
      exact modifyClass_loaded (c := { c with subclasses := l ++ [g] }) hst.classes hc (emplaceItem_loaded hne hg h)
    case isFalse hzero =>
      rw [not_not.mp hzero]
      refine ⟨hst.vendor, ?_, hst.cls, by simp [hsub]⟩
      rw [hst.classes, loadedClasses_congr hc (loadedTable_item_zero hg)]

def UsbClass.listed (cls : UsbClass) : ListedClass where
  id := classKey cls.id
  name := cls.name.val
  subclasses := cls.subclasses.map (Group.listed classKey)

theorem runs_class (vendor : Table UInt16) (cls : UsbClass) (h : classKey cls.id ∉ before.map ListedClass.id)
    (hvendor : st.ids.vendor = vendor) (hst : st.ids.cls = loadedClasses before) :
    ∃ st', Runs parseClassSubProto cls.lines st st' ∧ st'.ids.vendor = vendor ∧
      st'.ids.cls = loadedClasses (before ++ [cls.listed]) := by
  have rules := subclass_rules (c := { id := classKey cls.id, name := cls.name.val }) vendor h
  obtain ⟨st₁, hpass, hst₁⟩ : ∃ st₁, Passes parseClassSubProto (entryLine ['C', ' '] cls.id cls.name) st st₁ ∧
      SubclassesLoaded vendor before { id := classKey cls.id, name := cls.name.val } [] st₁ := by
    refine ⟨_, .inr ⟨entryLine_ne_nil _ _ _, fun tail => parseClassSubProto_class cls.id⟩, hvendor, ?_, rfl, by simp⟩
    simp only [hst]
    exact emplace_loadedClasses cls.name.val h
  obtain ⟨st', hruns, hst'⟩ := rules.runs_groups cls.subclasses (by simpa using nodup_keys rules.inj cls.distinct) hst₁
  refine ⟨st', ?_, hst'.vendor, hst'.classes⟩
  rw [UsbClass.lines, Item.lines]
  exact ((rules.runs_fillers cls.before st).append (.single hpass)).append hruns

theorem runs_classes (vendor : Table UInt16) (classes : List UsbClass)
    (hnodup : (before.map ListedClass.id ++ classes.map fun cls => classKey cls.id).Nodup)
    (hvendor : st.ids.vendor = vendor) (hst : st.ids.cls = loadedClasses before) :
    ∃ st', Runs parseClassSubProto (classes.flatMap UsbClass.lines) st st' ∧ st'.ids.vendor = vendor ∧
      st'.ids.cls = loadedClasses (before ++ classes.map UsbClass.listed) := by
  induction classes generalizing before st with
  | nil =>
    refine ⟨st, .nil st, hvendor, ?_⟩
    rw [List.map_nil, List.append_nil]
    exact hst
  | cons cls classes ih =>
    rw [List.map_cons, List.append_cons] at hnodup
    have hfresh : classKey cls.id ∉ before.map ListedClass.id := by
      have hfirst := (List.nodup_append.mp hnodup).1
      exact fun hmem => (List.nodup_append.mp hfirst).2.2 _ hmem _ (List.mem_singleton_self _) rfl
    obtain ⟨st₁, hclass, hvendor₁, hst₁⟩ := runs_class vendor cls hfresh hvendor hst
    obtain ⟨st₂, hruns, hvendor₂, hst₂⟩ := ih (by rw [List.map_append]; exact hnodup) hvendor₁ hst₁
    refine ⟨st₂, ?_, hvendor₂, ?_⟩
    · rw [List.flatMap_cons]
      exact hclass.append hruns
    · rw [List.map_cons, List.append_cons]
      exact hst₂

end Classes

-- What a text lists, by its vendors and products, and by its classes.
def Database.vendorList (db : Database) : List (Listed UInt16) := db.vendors.map (Group.listed vendorKey)

def Database.classList (db : Database) : List ListedClass := db.classes.map UsbClass.listed

def Database.product (db : Database) (vid pid : UInt16) : Text × Text := listedNames db.vendorList vid pid

def Database.classSubclassProto (db : Database) (classId subclassId protId : UInt8) : Text × Text × Text :=
  match db.classList.find? (·.id = classId) with
  | none => ([], [], [])
  | some c => (c.name, listedNames c.subclasses subclassId protId)

section Loading

variable (db : Database)

theorem newline_not_mem_entryLine {n : Nat} {indent : Text} (h : '\n' ∉ indent) (id : HexId n) (name : OneLine) :
    '\n' ∉ entryLine indent id name := by
  have hdigits : '\n' ∉ id.digits := fun hmem => absurd (id.hex _ hmem) (by decide)
  simp [entryLine, h, hdigits, name.property]

theorem newline_not_mem_item {n : Nat} {stop indent line : Text} (h : '\n' ∉ indent) (item : Item n stop)
    (hline : line ∈ item.lines indent) : '\n' ∉ line := by
  rcases List.mem_append.mp hline with hline | hline
  · obtain ⟨filler, -, rfl⟩ := List.mem_map.mp hline
    exact filler.line.property
  · rw [List.mem_singleton.mp hline]
    exact newline_not_mem_entryLine h _ _

theorem newline_not_mem_group {n : Nat} {stop outer inner line : Text} (ho : '\n' ∉ outer) (hi : '\n' ∉ inner)
    (group : Group n stop) (hline : line ∈ group.lines outer inner) : '\n' ∉ line := by
  rcases List.mem_append.mp hline with hline | hline
  · exact newline_not_mem_item ho _ hline
  · obtain ⟨item, -, hline⟩ := List.mem_flatMap.mp hline
    exact newline_not_mem_item hi _ hline

theorem newline_not_mem_classLines {line : Text} (hline : line ∈ db.classLines) : '\n' ∉ line := by
  rcases List.mem_append.mp hline with hline | hline
  · obtain ⟨cls, -, hline⟩ := List.mem_flatMap.mp hline
    rcases List.mem_append.mp hline with hline | hline
    · exact newline_not_mem_item (by decide) _ hline
    · obtain ⟨group, -, hline⟩ := List.mem_flatMap.mp hline
      exact newline_not_mem_group (by decide) (by decide) _ hline
  · rcases List.mem_append.mp hline with hline | hline
    · obtain ⟨filler, -, rfl⟩ := List.mem_map.mp hline
      exact filler.line.property
    · obtain ⟨line, -, rfl⟩ := List.mem_map.mp hline
      exact line.property

theorem newline_not_mem_lines {line : Text} (hline : line ∈ db.lines) : '\n' ∉ line := by
  rcases List.mem_append.mp hline with hline | hline
  · obtain ⟨group, -, hline⟩ := List.mem_flatMap.mp hline
    exact newline_not_mem_group (by decide) (by decide) _ hline
  · rcases List.mem_append.mp hline with hline | hline
    · obtain ⟨filler, -, rfl⟩ := List.mem_map.mp hline
      exact filler.line.property
    · rcases List.mem_cons.mp hline with rfl | hline
      · decide
      · exact newline_not_mem_classLines db hline

-- The list that follows ends the classes, or the text does.
theorem runLines_rest (st : ClassState) : runLines parseClassSubProto (db.rest.map Subtype.val) st = some st := by
  cases hrest : db.rest with
  | nil => rfl
  | cons line rest =>
    have hstart := db.restStart line (by rw [hrest]; rfl)
    have hne : line.val ≠ [] := by
      intro hnil
      rw [hnil] at hstart
      exact absurd hstart (by decide)
    refine runLines_stop hne ?_
    rw [parseClassSubProto, if_pos hstart]

theorem load_classLines (vendor : Table UInt16) (st : ClassState) (hvendor : st.ids.vendor = vendor)
    (hst : st.ids.cls = fun _ => none) :
    ∃ st', runLines parseClassSubProto db.classLines st = some st' ∧
      st'.ids = { vendor := vendor, cls := loadedClasses db.classList } := by
  have rules : SectionRules parseClassSubProto ['\t'] ['\t', '\t'] audioTerminalTypes classKey
      (SubclassesLoaded vendor [] { id := 0, name := [] }) := subclass_rules vendor (by simp)
  obtain ⟨st', hruns, hvendor', hst'⟩ := runs_classes vendor db.classes
    (by simpa using nodup_keys rules.inj db.distinctClasses) hvendor (show st.ids.cls = loadedClasses [] from hst)
  have hfillers := rules.runs_fillers db.afterClasses st'
  refine ⟨st', ?_, ?_⟩
  · rw [Database.classLines, ← List.append_assoc, (hruns.append hfillers).runLines_append, runLines_rest]
  · rw [← hvendor']
    exact congrArg (Ids.mk st'.ids.vendor) hst'

-- A text that follows the grammar is loaded, without leaving a line, and as it says but for the zero ids.
theorem load_text :
    load db.text = some { vendor := loadedTable db.vendorList, cls := loadedClasses db.classList } := by
  have hempty : VendorsLoaded [] {} := ⟨rfl, rfl, by simp⟩
  obtain ⟨st, hruns, hst⟩ := vendor_rules.runs_groups db.vendors
    (by simpa using nodup_keys vendorKey_inj db.distinctVendors) hempty
  have hfillers := vendor_rules.runs_fillers db.beforeClasses st
  obtain ⟨classes, hclasses, hids⟩ :=
    load_classLines db (loadedTable db.vendorList) { ids := st.ids } hst.vendor hst.cls
  have hstop : parseVidPid knownClasses (['\n'].intercalate db.classLines) st =
      some (true, { st with ids := classes.ids }) := by
    have hrest : forEachLine parseClassSubProto (['\n'].intercalate db.classLines) { ids := st.ids } =
        runLines parseClassSubProto db.classLines { ids := st.ids } :=
      forEachLine_intercalate fun line hline => newline_not_mem_classLines db hline
    rw [parseVidPid, if_pos (by decide), hrest, hclasses]
    rfl
  rw [load, Database.text, forEachLine_intercalate fun line hline => newline_not_mem_lines db hline, Database.lines,
    ← List.append_assoc, (hruns.append hfillers).runLines_append, runLines_stop (by decide) hstop, ← hids]
  rfl

end Loading

-- The entries with a zero id have nothing to lose.
def Group.ZeroNameless {n : Nat} {stop : Text} (group : Group n stop) : Prop :=
  (group.id.value = 0 → group.name.val = []) ∧ ∀ item ∈ group.items, item.id.value = 0 → item.name.val = []

def Database.ZeroNameless (db : Database) : Prop :=
  (∀ vendor ∈ db.vendors, vendor.ZeroNameless) ∧ ∀ cls ∈ db.classes, ∀ sub ∈ cls.subclasses, sub.ZeroNameless

section Groups

variable {κ : Type} [Zero κ] {n : Nat} {stop : Text} {key : HexId n → κ}

theorem zeroNameless_listed_iff (hzero : ∀ id, key id = 0 ↔ id.value = 0) (group : Group n stop) :
    (((group.listed key).id = 0 → (group.listed key).name = []) ∧
        ∀ p ∈ (group.listed key).items, p.1 = 0 → p.2 = []) ↔ group.ZeroNameless := by
  simp only [Group.listed, Item.listed, List.forall_mem_map, hzero, Group.ZeroNameless]

theorem findNames_groups_iff [DecidableEq κ] (hzero : ∀ id, key id = 0 ↔ id.value = 0)
    (hinj : ∀ a b, key a = key b → a.value = b.value) (groups : List (Group n stop))
    (hnodup : (groups.map fun group => group.id.value).Nodup) :
    (∀ k item, findNames (loadedTable (groups.map (Group.listed key))) k item =
      listedNames (groups.map (Group.listed key)) k item) ↔ ∀ group ∈ groups, group.ZeroNameless := by
  rw [findNames_loaded_iff]
  · simp only [List.forall_mem_map, zeroNameless_listed_iff hzero]
  · rw [List.map_map]
    exact nodup_keys hinj hnodup
  · intro g hg
    obtain ⟨group, -, rfl⟩ := List.mem_map.mp hg
    simp only [Group.listed, List.map_map]
    exact nodup_keys hinj group.distinct

end Groups

theorem vendorKey_eq_zero_iff (id : HexId 4) : vendorKey id = 0 ↔ id.value = 0 := by
  have hlt := id.value_lt
  rw [← UInt16.toNat_inj, vendorKey, UInt16.toNat_ofNat']
  simp only [UInt16.toNat_zero]
  omega

theorem classKey_eq_zero_iff (id : HexId 2) : classKey id = 0 ↔ id.value = 0 := by
  have hlt := id.value_lt
  rw [← UInt8.toNat_inj, classKey, UInt8.toNat_ofNat']
  simp only [UInt8.toNat_zero]
  omega

theorem findProduct_iff (db : Database) {ids : Ids} (h : ids.vendor = loadedTable db.vendorList) :
    (∀ vid pid, ids.findProduct vid pid = db.product vid pid) ↔ ∀ vendor ∈ db.vendors, vendor.ZeroNameless := by
  simp only [Ids.findProduct, Database.product, h]
  exact findNames_groups_iff vendorKey_eq_zero_iff vendorKey_inj db.vendors db.distinctVendors

theorem findClassSubclassProto_iff (db : Database) {ids : Ids} (h : ids.cls = loadedClasses db.classList) :
    (∀ c s p, ids.findClassSubclassProto c s p = db.classSubclassProto c s p) ↔
      ∀ cls ∈ db.classes, ∀ sub ∈ cls.subclasses, sub.ZeroNameless := by
  have hnodup : (db.classList.map ListedClass.id).Nodup := by
    rw [Database.classList, List.map_map]
    exact nodup_keys classKey_inj db.distinctClasses
  have hsub (cls : UsbClass) := findNames_groups_iff classKey_eq_zero_iff classKey_inj cls.subclasses cls.distinct
  simp only [Ids.findClassSubclassProto, Database.classSubclassProto, h, loadedClasses]
  constructor
  · intro hall cls hcls
    have hfind := find?_of_mem ListedClass.id hnodup (List.mem_map_of_mem hcls : cls.listed ∈ db.classList)
    refine (hsub cls).mp fun s p => ?_
    have hnames := hall cls.listed.id s p
    rw [hfind] at hnames
    exact (Prod.mk.inj hnames).2
  · intro hall c s p
    cases hfind : db.classList.find? (·.id = c) with
    | none => rfl
    | some listed =>
      obtain ⟨cls, hcls, rfl⟩ := List.mem_map.mp (List.mem_of_find?_eq_some hfind)
      simp only [Option.map_some]
      exact congrArg (Prod.mk cls.listed.name) ((hsub cls).mpr (hall cls hcls) s p)

-- A text that follows the grammar is read line by line; the names that are found are those it lists unless one of
-- them has the id zero.
theorem usbIds_iff (db : Database) :
    ∃ ids, load db.text = some ids ∧
      (((∀ vid pid, ids.findProduct vid pid = db.product vid pid) ∧
          ∀ c s p, ids.findClassSubclassProto c s p = db.classSubclassProto c s p) ↔ db.ZeroNameless) :=
  ⟨_, load_text db, and_congr (findProduct_iff db rfl) (findClassSubclassProto_iff db rfl)⟩

-- Keyboards without a subclass, as the list of classes has them.
def keyboardProtocol : Item 2 audioTerminalTypes where
  before := []
  id := { digits := ['0', '1'], size := rfl, hex := by simp [hexDigit] }
  name := ⟨"Keyboard".toList, by decide⟩

def noSubclass : Group 2 audioTerminalTypes where
  before := []
  id := { digits := ['0', '0'], size := rfl, hex := by simp [hexDigit] }
  name := ⟨"No Subclass".toList, by decide⟩
  items := [keyboardProtocol]
  distinct := by decide

def hidClass : UsbClass where
  before := []
  id := { digits := ['0', '3'], size := rfl, hex := by simp [hexDigit] }
  name := ⟨"Human Interface Device".toList, by decide⟩
  subclasses := [noSubclass]
  distinct := by decide

def hidDatabase : Database where
  vendors := []
  distinctVendors := List.nodup_nil
  beforeClasses := []
  classes := [hidClass]
  distinctClasses := by decide
  afterClasses := []
  rest := []
  restStart := by simp

theorem noSubclass_not_found :
    ∃ ids, load hidDatabase.text = some ids ∧
      hidDatabase.classSubclassProto 3 0 1 =
        ("Human Interface Device".toList, "No Subclass".toList, "Keyboard".toList) ∧
      ids.findClassSubclassProto 3 0 1 = ("Human Interface Device".toList, [], "Keyboard".toList) :=
  ⟨_, load_text hidDatabase, by decide, by decide⟩

end Usbip.Libusbip.UsbIds

import Usbip.Wusbip.DeviceTree

namespace Usbip.Wusbip.DeviceTree

open Usbip.Library.Keyed
open Usbip.Libusbip.Events (DeviceState)
open Usbip.Libusbip.Imported (ImportedDevice)
open Usbip.Libusbip.Persistent (DeviceLocation PersistentDevice Utf WChar)
open Usbip.Libusbip.UsbIds (Ids)

section Texts

theorem digitCode_injective {d e : Nat} (hd : d < 16) (he : e < 16) (h : digitCode d = digitCode e) : d = e := by
  have hall : ∀ d < 16, ∀ e < 16, digitCode d = digitCode e → d = e := by decide
  exact hall d hd e he h

theorem digitsText_one {base n : Nat} (h : n ≠ 0) :
    digitsText base 1 n = (Nat.digits base n).reverse.map digitCode := by
  have hne : (Nat.digits base n).length ≠ 0 := mt List.length_eq_zero_iff.mp (Nat.digits_ne_nil_iff_ne_zero.mpr h)
  have hzero : 1 - (Nat.digits base n).length = 0 := by omega
  simp [digitsText, hzero]

theorem map_digitCode_injective {l l' : List Nat} (hl : ∀ d ∈ l, d < 16) (hl' : ∀ d ∈ l', d < 16)
    (h : l.map digitCode = l'.map digitCode) : l = l' := by
  induction l generalizing l' with
  | nil => exact (List.map_eq_nil_iff.mp h.symm).symm
  | cons d l ih =>
      cases l' with
      | nil => cases h
      | cons e l' =>
          obtain ⟨hhead, htail⟩ := List.cons.inj h
          obtain ⟨hd, hl⟩ := List.forall_mem_cons.mp hl
          obtain ⟨he, hl'⟩ := List.forall_mem_cons.mp hl'
          rw [digitCode_injective hd he hhead, ih hl hl' htail]

theorem digitsText_ne_nil {base width n : Nat} (h : width ≠ 0) : digitsText base width n ≠ [] := by
  intro hnil
  have hlen : (digitsText base width n).length = 0 := congrArg List.length hnil
  simp only [digitsText, List.length_append, List.length_replicate, List.length_map, List.length_reverse] at hlen
  omega

theorem toWxstring_eq {id : UInt32} (h : id ≠ 0) :
    toWxstring id = (Nat.digits 16 id.toNat).reverse.map digitCode := by
  have hne : id.toNat ≠ 0 := fun hzero => h (UInt32.toNat_inj.mp hzero)
  rw [toWxstring, if_neg h, digitsText_one hne]

theorem toWxstring_eq_nil {id : UInt32} : toWxstring id = [] ↔ id = 0 := by
  constructor
  · intro hnil
    by_contra h
    have hne : id.toNat ≠ 0 := fun hzero => h (UInt32.toNat_inj.mp hzero)
    have hdigits : Nat.digits 16 id.toNat ≠ [] := Nat.digits_ne_nil_iff_ne_zero.mpr hne
    rw [toWxstring_eq h] at hnil
    exact hdigits (by simpa using hnil)
  · rintro rfl
    rfl

-- Sources are told apart by what is in their column.
theorem toWxstring_injective {id id' : UInt32} (h : toWxstring id = toWxstring id') : id = id' := by
  by_cases hid : id = 0
  · subst hid
    exact (toWxstring_eq_nil.mp h.symm).symm
  · have hid' : id' ≠ 0 := fun hzero => hid (toWxstring_eq_nil.mp (h.trans (toWxstring_eq_nil.mpr hzero)))
    have hdigit : ∀ {n d : Nat}, d ∈ (Nat.digits 16 n).reverse → d < 16 := fun hd =>
      Nat.digits_lt_base (by decide) (List.mem_reverse.mp hd)
    rw [toWxstring_eq hid, toWxstring_eq hid'] at h
    have hdigits := map_digitCode_injective (fun _ => hdigit) (fun _ => hdigit) h
    exact UInt32.toNat_inj.mp (Nat.digits_inj_iff.mp (List.reverse_inj.mp hdigits))

theorem stateText_eq_plugged {state : Option Attach.DeviceState} :
    stateText state = stateText (some .plugged) ↔ state = some .plugged := by
  constructor
  · intro h
    obtain - | state := state
    · cases h
    · cases state with
      | plugged => rfl
      | _ => cases h
  · exact congrArg stateText

end Texts

section Columns

variable {dc : DeviceColumns} {flags : Flags} {col : Column} {row : Row}

@[simp]
theorem set_text (dc : DeviceColumns) (col other : Column) (value : Text) :
    (dc.set col value).text other = if other = col then value else dc.text other := Function.update_apply _ _ _ _

@[simp]
theorem set_url (dc : DeviceColumns) (col : Column) (value : Text) : (dc.set col value).url = dc.url := rfl

@[simp]
theorem add_apply (flags : Flags) (columns : List Column) (col : Column) :
    flags.add columns col = (flags col || columns.contains col) := rfl

@[simp]
theorem patch_busid (dc : DeviceColumns) (flags : Flags) (row : Row) : patch dc flags row .busid = row .busid :=
  if_neg fun h => h.1 rfl

theorem patch_set (hcol : col ≠ .busid) (h : flags col = true) : patch dc flags row col = dc.text col :=
  if_pos ⟨hcol, h⟩

theorem patch_keep (h : flags col = false) : patch dc flags row col = row col :=
  if_neg fun hset => Bool.false_ne_true (h.symm.trans hset.2)

theorem setId_text (hcol : col ≠ other) (id : UInt16) (name : Libusbip.UsbIds.Text) :
    (setId dc other id name).text col = dc.text col := by
  unfold setId
  split
  · rfl
  · rw [set_text, if_neg hcol]

theorem setVendorProduct_text (ids : Ids) (hvendor : col ≠ .vendor) (hproduct : col ≠ .product) (v p : UInt16) :
    (setVendorProduct ids dc v p).text col = dc.text col := by
  rw [setVendorProduct, setId_text hproduct, setId_text hvendor]

theorem setId_url (dc : DeviceColumns) (col : Column) (id : UInt16) (name : Libusbip.UsbIds.Text) :
    (setId dc col id name).url = dc.url := by
  unfold setId
  split <;> rfl

theorem setVendorProduct_url (ids : Ids) (dc : DeviceColumns) (v p : UInt16) :
    (setVendorProduct ids dc v p).url = dc.url := by
  rw [setVendorProduct, setId_url, setId_url]

-- A devid that is to be shown is there.
def ShowsDevid (columns : DeviceColumns × Flags) : Prop := columns.2 .devid = true → columns.1.text .devid ≠ []

theorem ShowsDevid.patch {columns : DeviceColumns × Flags} (h : ShowsDevid columns)
    (hrow : row .devid ≠ []) : patch columns.1 columns.2 row .devid ≠ [] := by
  cases hflag : columns.2 .devid with
  | true =>
      rw [patch_set (by decide) hflag]
      exact h hflag
  | false =>
      rw [patch_keep hflag]
      exact hrow

variable (utf : Utf) (ids : Ids) {dev : ImportedDevice} {st : DeviceState}

-- The columns are those of the key of the device.
theorem makeImportedColumns_key :
    (makeImportedColumns utf ids dev).1.url = makeServerUrl utf dev.location ∧
      (makeImportedColumns utf ids dev).1.text .busid = fromUTF8 utf dev.location.busid := by
  by_cases hdev : isEmptyDevice dev = true
  · simp [makeImportedColumns, hdev, makeCmpKey]
  · by_cases hport : dev.port = 0 <;> by_cases hserial : dev.serial = []
    all_goals
      simp [makeImportedColumns, hdev, hport, hserial, setVendorProduct_text, setVendorProduct_url, makeCmpKey]

theorem makeImportedColumns_port (hdev : isEmptyDevice dev = false) (hport : dev.port ≠ 0) :
    (makeImportedColumns utf ids dev).2 .port = true ∧
      (makeImportedColumns utf ids dev).1.text .port = portText dev.port := by
  by_cases hserial : dev.serial = []
  · simp [makeImportedColumns, hdev, hport, hserial]
  · simp [makeImportedColumns, hdev, hport, hserial]

theorem makeImportedColumns_noPort (hport : dev.port = 0) : (makeImportedColumns utf ids dev).2 .port = false := by
  by_cases hdev : isEmptyDevice dev = true
  · simp [makeImportedColumns, hdev, noFlags]
  · by_cases hserial : dev.serial = []
    · simp [makeImportedColumns, hdev, hport, hserial, noFlags]
    · simp [makeImportedColumns, hdev, hport, hserial, noFlags]

theorem makeImportedColumns_devid (hdev : isEmptyDevice dev = false) :
    (makeImportedColumns utf ids dev).2 .devid = true ∧
      (makeImportedColumns utf ids dev).1.text .devid = hexText dev.devid.toNat := by
  by_cases hport : dev.port = 0 <;> by_cases hserial : dev.serial = []
  all_goals simp [makeImportedColumns, hdev, hport, hserial, setVendorProduct_text]

theorem makeImportedColumns_showsDevid : ShowsDevid (makeImportedColumns utf ids dev) := by
  intro hflag
  by_cases hdev : isEmptyDevice dev = true
  · simp [makeImportedColumns, hdev, noFlags] at hflag
  · rw [(makeImportedColumns_devid utf ids (by simpa using hdev)).2]
    exact digitsText_ne_nil (by decide)

theorem makeDeviceColumns_text (col : Column) :
    (makeDeviceColumns utf ids st).1.text col =
      if col = .sourceId then toWxstring st.sourceId
      else if col = .state then stateText st.state
      else (makeImportedColumns utf ids st.device).1.text col := by
  simp [makeDeviceColumns]

theorem makeDeviceColumns_flags (col : Column) :
    (makeDeviceColumns utf ids st).2 col =
      ((makeImportedColumns utf ids st.device).2 col || [Column.state, .sourceId].contains col) := rfl

theorem makeDeviceColumns_showsDevid : ShowsDevid (makeDeviceColumns utf ids st) := by
  intro hflag
  rw [makeDeviceColumns_text]
  exact makeImportedColumns_showsDevid utf ids (by simpa [makeDeviceColumns_flags] using hflag)

section Saved

variable (persistent : List PersistentDevice) {saved : List DeviceColumns} {notesOnly : Bool}

theorem fromSaved_cases :
    fromSaved dc flags saved notesOnly = (dc, flags) ∨
      ∃ s ∈ saved, s.sameKey dc = true ∧
        fromSaved dc flags saved notesOnly =
          if notesOnly then (dc.set .notes (s.text .notes), flags.add [.notes])
          else (setSavedColumns dc s, flags.add savedKeys) := by
  unfold fromSaved
  split
  · exact .inl rfl
  · next s hfind =>
      exact .inr ⟨s, List.mem_of_find?_eq_some hfind, (List.find?_eq_some_iff_append.mp hfind).1, rfl⟩

-- The mark is that of a persistent device, and everything else is as it was.
theorem updateFromSaved_text (hcol : col ≠ .persistent) :
    (updateFromSaved utf dc flags persistent saved notesOnly).1.text col =
      (fromSaved dc flags saved notesOnly).1.text col := by
  simp only [updateFromSaved]
  split
  · rw [set_text, if_neg hcol]
  · rfl

theorem updateFromSaved_flags (hcol : col ≠ .persistent) :
    (updateFromSaved utf dc flags persistent saved notesOnly).2 col = (fromSaved dc flags saved notesOnly).2 col := by
  simp only [updateFromSaved]
  split
  · simp [hcol]
  · rfl

theorem fromSaved_keep (hcol : col ∉ savedKeys) :
    (fromSaved dc flags saved notesOnly).1.text col = dc.text col ∧
      (fromSaved dc flags saved notesOnly).2 col = flags col := by
  have hnotes : col ≠ .notes := by
    rintro rfl
    exact hcol (by decide)
  obtain heq | ⟨s, -, -, heq⟩ := @fromSaved_cases dc flags saved notesOnly
  · simp [heq]
  · cases notesOnly <;> simp [heq, hnotes, hcol, setSavedColumns]

theorem updateFromSaved_keep (hcol : col ∉ savedKeys) (hpersistent : col ≠ .persistent) :
    (updateFromSaved utf dc flags persistent saved notesOnly).1.text col = dc.text col ∧
      (updateFromSaved utf dc flags persistent saved notesOnly).2 col = flags col := by
  rw [updateFromSaved_text utf persistent hpersistent, updateFromSaved_flags utf persistent hpersistent]
  exact fromSaved_keep hcol

theorem fromSaved_notesOnly (hcol : col ≠ .notes) : (fromSaved dc flags saved true).1.text col = dc.text col := by
  obtain heq | ⟨s, -, -, heq⟩ := @fromSaved_cases dc flags saved true
  · rw [heq]
  · simp [heq, hcol]

theorem updateFromSaved_url : (updateFromSaved utf dc flags persistent saved notesOnly).1.url = dc.url := by
  have hurl : (fromSaved dc flags saved notesOnly).1.url = dc.url := by
    obtain heq | ⟨s, -, -, heq⟩ := @fromSaved_cases dc flags saved notesOnly
    · rw [heq]
    · cases notesOnly <;> simp [heq, setSavedColumns]
  simp only [updateFromSaved]
  split <;> exact hurl

theorem fromSaved_mono (h : flags col = true) : (fromSaved dc flags saved notesOnly).2 col = true := by
  obtain heq | ⟨s, -, -, heq⟩ := @fromSaved_cases dc flags saved notesOnly
  · exact heq ▸ h
  · cases notesOnly <;> simp [heq, h]

theorem patch_updateFromSaved (hcol : col ∉ .busid :: .persistent :: savedKeys) :
    patch (updateFromSaved utf dc flags persistent saved notesOnly).1
        (updateFromSaved utf dc flags persistent saved notesOnly).2 row col =
      if flags col then dc.text col else row col := by
  simp only [List.mem_cons, not_or] at hcol
  obtain ⟨hbusid, hpersistent, hsaved⟩ := hcol
  obtain ⟨htext, hflag⟩ := @updateFromSaved_keep dc flags col utf persistent saved notesOnly hsaved hpersistent
  cases hset : flags col with
  | true => exact (patch_set hbusid (hflag.trans hset)).trans htext
  | false => exact patch_keep (hflag.trans hset)

theorem updateFromSaved_mono (hcol : col ≠ .persistent) (h : flags col = true) :
    (updateFromSaved utf dc flags persistent saved notesOnly).2 col = true :=
  (updateFromSaved_flags utf persistent hcol).trans (fromSaved_mono h)

theorem updateFromSaved_showsDevid (hsaved : ∀ s ∈ saved, s.text .devid ≠ []) (h : ShowsDevid (dc, flags)) :
    ShowsDevid (updateFromSaved utf dc flags persistent saved notesOnly) := by
  unfold ShowsDevid
  rw [updateFromSaved_text utf persistent (by decide), updateFromSaved_flags utf persistent (by decide)]
  obtain heq | ⟨s, hs, -, heq⟩ := @fromSaved_cases dc flags saved notesOnly
  · rw [heq]
    exact h
  · cases notesOnly with
    | true => simpa [heq, ShowsDevid] using h
    | false =>
        intro _
        simpa [heq, setSavedColumns, savedKeys] using hsaved s hs

end Saved

end Columns

section Operations

variable {tree : Tree} {url busid : Text}

theorem findLeaf_findOrAddServer (h : WellFormed tree) :
    findLeaf url busid (findOrAddServer tree url) = findLeaf url busid tree := by
  rw [findLeaf_eq url busid tree, findOrAddServer, findLeaf, find_alter_self h.nodup]
  rfl

theorem findOrAddDevice_eq (h : WellFormed tree) (url busid : Text) :
    findOrAddDevice tree url busid =
      (alterLeaf url busid (fun row => some (row.getD (newRow busid))) tree, (findLeaf url busid tree).isNone) := by
  refine Prod.ext ?_ (congrArg Option.isNone (findLeaf_findOrAddServer h))
  change alter url _ (alter url _ tree) = _
  rw [alter_alter (fun _ => rfl), alterLeaf]
  congr 1
  funext group
  exact (nonempty_eq_some.mpr ⟨rfl, alter_ne_nil (fun _ => rfl) _ _⟩).symm

theorem removeDevice_eq (tree : Tree) (url busid : Text) :
    removeDevice tree url busid = alterLeaf url busid (fun _ => none) tree := by
  rw [removeDevice, alterLeaf]
  congr 1
  funext group
  cases group <;> rfl

theorem modifyDevice_eq (h : WellFormed tree) (url busid : Text) (f : Row → Row) :
    modifyDevice tree url busid f = alterLeaf url busid (Option.map f) tree := by
  rw [modifyDevice, alterLeaf]
  refine alter_congr ?_
  cases hgroup : find url tree with
  | none => rfl
  | some group =>
      have hne := (h.groups _ (mem_of_find hgroup)).2
      exact (nonempty_eq_some.mpr ⟨rfl, alter_map_ne_nil hne busid⟩).symm

theorem changes_findOrAddDevice {tree' : Tree} {added : Bool} (h : WellFormed tree)
    (hfound : findOrAddDevice tree url busid = (tree', added)) :
    Changes tree tree' (url, busid) (some ((findLeaf url busid tree).getD (newRow busid))) ∧
      added = (findLeaf url busid tree).isNone := by
  rw [findOrAddDevice_eq h] at hfound
  obtain ⟨rfl, rfl⟩ := Prod.mk.inj hfound
  exact ⟨changes_alterLeaf h _ _ _, rfl⟩

theorem changes_removeDevice (h : WellFormed tree) (url busid : Text) :
    Changes tree (removeDevice tree url busid) (url, busid) none := by
  rw [removeDevice_eq]
  exact changes_alterLeaf h _ _ _

theorem changes_modifyDevice (h : WellFormed tree) (url busid : Text) (f : Row → Row) :
    Changes tree (modifyDevice tree url busid f) (url, busid) ((findLeaf url busid tree).map f) := by
  rw [modifyDevice_eq h]
  exact changes_alterLeaf h _ _ _

-- A device that is there and updated.
theorem changes_updateDevice {tree' : Tree} {key : Text × Text} {row : Row} (h : Changes tree tree' key (some row))
    (columns : DeviceColumns × Flags) :
    Changes tree (updateDevice tree' key.1 key.2 columns) key (some (patch columns.1 columns.2 row)) := by
  refine h.trans ((changes_modifyDevice h.wellFormed key.1 key.2 _).congr ?_)
  rw [h.here]
  rfl

end Operations

end Usbip.Wusbip.DeviceTree

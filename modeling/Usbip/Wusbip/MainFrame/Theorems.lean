import Mathlib.Data.List.Induction
import Usbip.Libusbip.Persistent.Theorems
import Usbip.Wusbip.DeviceTree.Theorems
import Usbip.Wusbip.MainFrame

namespace Usbip.Wusbip.MainFrame

open Usbip.Library.Keyed
open Usbip.Libusbip.Events (DeviceState)
open Usbip.Libusbip.Imported (ImportedDevice)
open Usbip.Libusbip.Persistent (DeviceLocation PersistentDevice Utf asciiUtf)
open Usbip.Libusbip.Remote (UsbDevice)
open Usbip.Libusbip.UsbIds (Ids)
open Usbip.Wusbip.DeviceTree

variable (env : Env)

section Columns

variable {st : DeviceState} {fresh : Bool} {persistent : List PersistentDevice} {saved : List DeviceColumns}

theorem eventColumns_keep {col : Column} (hcol : col ∉ savedKeys) (hpersistent : col ≠ .persistent) :
    (eventColumns env st fresh persistent saved).1.text col = (ownColumns env st).1.text col ∧
      (eventColumns env st fresh persistent saved).2 col = (ownColumns env st).2 col := by
  cases fresh with
  | true => exact updateFromSaved_keep env.utf persistent hcol hpersistent
  | false => exact ⟨rfl, rfl⟩

theorem ownColumns_keep {col : Column} (hcol : col ≠ .port) :
    (ownColumns env st).1.text col = (makeDeviceColumns env.utf env.ids (clearSource st)).1.text col ∧
      (ownColumns env st).2 col = (makeDeviceColumns env.utf env.ids (clearSource st)).2 col := by
  simp only [ownColumns]
  split
  · simp [hcol]
  · exact ⟨rfl, rfl⟩

theorem clearSource_device : (clearSource st).device = st.device := by
  unfold clearSource
  split <;> rfl

theorem clearSource_state : (clearSource st).state = st.state := by
  unfold clearSource
  split <;> rfl

theorem clearSource_sourceId : (clearSource st).sourceId = if isLast st.state then 0 else st.sourceId := by
  unfold clearSource
  split <;> rfl

theorem eventColumns_state :
    (eventColumns env st fresh persistent saved).1.text .state = stateText st.state ∧
      (eventColumns env st fresh persistent saved).2 .state = true := by
  obtain ⟨htext, hflag⟩ := @eventColumns_keep env st fresh persistent saved .state (by decide) (by decide)
  obtain ⟨hown, hownFlag⟩ := @ownColumns_keep env st .state (by decide)
  rw [htext, hflag, hown, hownFlag, makeDeviceColumns_text, makeDeviceColumns_flags]
  simp [clearSource_state]

theorem eventColumns_sourceId :
    (eventColumns env st fresh persistent saved).1.text .sourceId =
        toWxstring (if isLast st.state then 0 else st.sourceId) ∧
      (eventColumns env st fresh persistent saved).2 .sourceId = true := by
  obtain ⟨htext, hflag⟩ := @eventColumns_keep env st fresh persistent saved .sourceId (by decide) (by decide)
  obtain ⟨hown, hownFlag⟩ := @ownColumns_keep env st .sourceId (by decide)
  rw [htext, hflag, hown, hownFlag, makeDeviceColumns_text, makeDeviceColumns_flags]
  simp [clearSource_sourceId]

theorem eventColumns_port (hstate : st.state = some .plugged) (hdev : isEmptyDevice st.device = false)
    (hport : st.device.port ≠ 0) :
    (eventColumns env st fresh persistent saved).1.text .port = portText st.device.port ∧
      (eventColumns env st fresh persistent saved).2 .port = true := by
  obtain ⟨htext, hflag⟩ := @eventColumns_keep env st fresh persistent saved .port (by decide) (by decide)
  obtain ⟨hset, hportText⟩ := makeImportedColumns_port env.utf env.ids hdev hport
  have hresidual : isPortResidual st.state = false := by simp [hstate, isPortResidual]
  have hown : ownColumns env st = makeDeviceColumns env.utf env.ids (clearSource st) := by
    unfold ownColumns
    simp [hresidual]
  rw [htext, hflag, hown, makeDeviceColumns_text, makeDeviceColumns_flags, clearSource_device]
  simp [hset, hportText]

theorem eventColumns_showsDevid (hsaved : ∀ s ∈ saved, s.text .devid ≠ []) :
    ShowsDevid (eventColumns env st fresh persistent saved) := by
  have hown : ShowsDevid (ownColumns env st) := by
    obtain ⟨htext, hflag⟩ := @ownColumns_keep env st .devid (by decide)
    unfold ShowsDevid
    rw [htext, hflag]
    exact makeDeviceColumns_showsDevid env.utf env.ids
  cases fresh with
  | true => exact updateFromSaved_showsDevid env.utf persistent hsaved hown
  | false => exact hown

theorem eventColumns_devid (hdev : isEmptyDevice st.device = false) :
    (eventColumns env st fresh persistent saved).2 .devid = true := by
  have hown : (ownColumns env st).2 .devid = true := by
    rw [(@ownColumns_keep env st .devid (by decide)).2, makeDeviceColumns_flags, clearSource_device,
      (makeImportedColumns_devid env.utf env.ids hdev).1]
    rfl
  cases fresh with
  | true => exact updateFromSaved_mono env.utf persistent (by decide) hown
  | false => exact hown

end Columns

section Rows

variable (groups : List DeviceColumns) (persistent : List PersistentDevice)

-- What an event makes of the row of its device.
def eventRow (st : DeviceState) (row : Option Row) : Option Row :=
  let there := row.getD (newRow (locationKey env st.device.location).2)
  if st.state = some .disconnected ∧ isEmptyRow there then none
  else if accepts there st = false then some there
  else
    let columns := eventColumns env st (row.isNone || isEmptyDevice st.device) persistent (getSaved env groups)
    some (patch columns.1 columns.2 there)

def loadRow (dc : DeviceColumns) (row : Option Row) : Option Row :=
  let there := row.getD (newRow (dc.text .busid))
  if row.isNone = false ∧ isEmptyRow there = false then some there
  else
    let columns := updateFromSaved env.utf (dc.set .state (stateText (some .unplugged)))
      ((noFlags.add savedKeys).add [.state]) persistent [] false
    some (patch columns.1 columns.2 there)

-- The columns of a device that the driver has.
def reloadColumns (dev : ImportedDevice) : DeviceColumns × Flags :=
  let columns := makeDeviceColumns env.utf env.ids { device := dev, state := some .plugged, sourceId := 0 }
  updateFromSaved env.utf columns.1 columns.2 persistent (getSaved env groups) true

def reloadRow (dev : ImportedDevice) (row : Option Row) : Option Row :=
  let columns := reloadColumns env groups persistent dev
  some (patch columns.1 columns.2 (row.getD (newRow (locationKey env dev.location).2)))

def exportedRow (hostname service : List Byte) (dev : UsbDevice) (row : Option Row) : Option Row :=
  let columns := exportedColumns env hostname service groups persistent dev
  let flags : Flags := if row.isNone then columns.2 else fun col => columns.2 col && col != .state
  some (patch columns.1 flags (row.getD (newRow (exportedKey env hostname service dev).2)))

def flagRow (hostname service : List Byte) (flagged : Exported) (row : Option Row) : Option Row :=
  match flagged.2 with
  | none => row
  | some reason =>
    let dc := (exportedColumns env hostname service groups persistent flagged.1).1.set .notes (ascii reason.text)
    some (patch dc (noFlags.add [.notes]) (row.getD (newRow (exportedKey env hostname service flagged.1).2)))

variable {tree : Tree}

theorem changes_onDeviceState (h : WellFormed tree) (st : DeviceState) :
    Changes tree (onDeviceState env groups persistent tree st) (locationKey env st.device.location)
      (eventRow env groups persistent st
        (findLeaf (locationKey env st.device.location).1 (locationKey env st.device.location).2 tree)) := by
  rcases hkey : locationKey env st.device.location with ⟨url, busid⟩
  rcases hfound : findOrAddDevice tree url busid with ⟨tree', added⟩
  obtain ⟨hchanges, rfl⟩ := changes_findOrAddDevice h hfound
  simp only [onDeviceState, eventRow, hkey, hfound, hchanges.here, Option.getD_some]
  split
  · exact hchanges.trans (changes_removeDevice hchanges.wellFormed url busid)
  · split
    · exact hchanges
    · exact changes_updateDevice hchanges _

theorem changes_loadDevice (h : WellFormed tree) (dc : DeviceColumns) :
    Changes tree (loadDevice env persistent tree dc) (dc.url, dc.text .busid)
      (loadRow env persistent dc (findLeaf dc.url (dc.text .busid) tree)) := by
  rcases hfound : findOrAddDevice tree dc.url (dc.text .busid) with ⟨tree', added⟩
  obtain ⟨hchanges, rfl⟩ := changes_findOrAddDevice h hfound
  simp only [loadDevice, loadRow, hfound, hchanges.here, Option.getD_some]
  split
  · exact hchanges
  · exact changes_updateDevice hchanges _

theorem changes_reloadDevice (h : WellFormed tree) (dev : ImportedDevice) :
    Changes tree (reloadDevice env groups persistent tree dev) (locationKey env dev.location)
      (reloadRow env groups persistent dev
        (findLeaf (locationKey env dev.location).1 (locationKey env dev.location).2 tree)) := by
  rcases hkey : locationKey env dev.location with ⟨url, busid⟩
  rcases hfound : findOrAddDevice tree url busid with ⟨tree', added⟩
  obtain ⟨hchanges, rfl⟩ := changes_findOrAddDevice h hfound
  simp only [reloadDevice, reloadRow, reloadColumns, hkey, hfound]
  exact changes_updateDevice hchanges _

variable (hostname service : List Byte)

theorem exportedColumns_key (dev : UsbDevice) :
    ((exportedColumns env hostname service groups persistent dev).1.url,
        (exportedColumns env hostname service groups persistent dev).1.text .busid) =
      exportedKey env hostname service dev := by
  have hkey := @makeImportedColumns_key env.utf env.ids (makeImportedDevice hostname service dev)
  refine Prod.ext ?_ ?_
  · simp only [exportedColumns, updateFromSaved_url]
    exact hkey.1
  · simp only [exportedColumns]
    rw [updateFromSaved_text env.utf persistent (by decide), fromSaved_notesOnly (by decide), makeDeviceColumns_text]
    exact hkey.2

theorem changes_addExportedDevice (h : WellFormed tree) (dev : UsbDevice) :
    Changes tree (addExportedDevice env hostname service groups persistent tree dev)
      (exportedKey env hostname service dev)
      (exportedRow env groups persistent hostname service dev
        (findLeaf (exportedKey env hostname service dev).1 (exportedKey env hostname service dev).2 tree)) := by
  have hkey := exportedColumns_key env groups persistent hostname service dev
  rcases hdev : exportedColumns env hostname service groups persistent dev with ⟨dc, flags⟩
  rw [hdev] at hkey
  rcases hfound : findOrAddDevice tree dc.url (dc.text .busid) with ⟨tree', added⟩
  obtain ⟨hchanges, rfl⟩ := changes_findOrAddDevice h hfound
  simp only [addExportedDevice, exportedRow, ← hkey, hdev, hfound]
  exact changes_updateDevice hchanges _

theorem changes_flagDevice (h : WellFormed tree) (flagged : Exported) :
    Changes tree (flagDevice env hostname service groups persistent tree flagged)
      (exportedKey env hostname service flagged.1)
      (flagRow env groups persistent hostname service flagged
        (findLeaf (exportedKey env hostname service flagged.1).1 (exportedKey env hostname service flagged.1).2
          tree)) := by
  obtain ⟨dev, reason⟩ := flagged
  cases reason with
  | none => exact .refl h _
  | some reason =>
      have hkey := exportedColumns_key env groups persistent hostname service dev
      rcases hdev : exportedColumns env hostname service groups persistent dev with ⟨dc, flags⟩
      rw [hdev] at hkey
      rcases hfound : findOrAddDevice tree dc.url (dc.text .busid) with ⟨tree', added⟩
      obtain ⟨hchanges, -⟩ := changes_findOrAddDevice h hfound
      simp only [flagDevice, flagRow, ← hkey, hdev, set_url, set_text, reduceCtorEq, ↓reduceIte, hfound]
      exact changes_updateDevice hchanges _

end Rows

section Shown

-- The row of a device tells what is to be shown of it.
def Agrees (row : Row) : Option Plugged → Prop
  | none => row .state ≠ stateText (some .plugged)
  | some p =>
    row .state = stateText (some .plugged) ∧ row .port = portText p.port ∧ row .sourceId = toWxstring p.source ∧
      row .devid ≠ []

-- A device without a row is shown as one with a new row.
def RowShows (busid : Text) (shown : Option Plugged) (row : Option Row) : Prop :=
  row.getD (newRow busid) .busid = busid ∧ Agrees (row.getD (newRow busid)) shown

variable {busid : Text} {shown : Option Plugged} {row : Option Row}

theorem newRow_busid (busid : Text) : newRow busid .busid = busid := Function.update_self ..

theorem newRow_ne {col : Column} (hcol : col ≠ .busid) (busid : Text) : newRow busid col = [] :=
  Function.update_of_ne hcol ..

theorem rowShows_none : RowShows busid none none := by
  refine ⟨newRow_busid busid, ?_⟩
  simp [Agrees, newRow_ne, stateText]

theorem Agrees.eq_none {there : Row} (h : Agrees there shown) (hempty : isEmptyRow there = true) : shown = none := by
  cases shown with
  | none => rfl
  | some p => exact absurd (List.isEmpty_iff.mp hempty) h.2.2.2

-- Columns that leave the state, the port, the source and the devid alone.
theorem Agrees.congr {there there' : Row} (h : Agrees there shown) (hstate : there' .state = there .state)
    (hport : there' .port = there .port) (hsource : there' .sourceId = there .sourceId)
    (hdevid : there .devid ≠ [] → there' .devid ≠ []) : Agrees there' shown := by
  cases shown with
  | none => exact fun hplugged => h (hstate.symm.trans hplugged)
  | some p =>
      obtain ⟨hs, hp, hid, hdev⟩ := h
      exact ⟨hstate.trans hs, hport.trans hp, hsource.trans hid, hdevid hdev⟩

variable (groups : List DeviceColumns) (persistent : List PersistentDevice)

section Events

variable {st : DeviceState} {there : Row}

theorem accepts_eq_true :
    accepts there st = true ↔
      there .sourceId = [] ∨ st.state = some .plugged ∨ toWxstring st.sourceId = there .sourceId := by
  simp [accepts, or_assoc]

theorem afterEvent_of_ne (hstate : st.state ≠ some .plugged) :
    afterEvent st shown = shown.filter fun p => p.source ≠ 0 ∧ p.source ≠ st.sourceId := if_neg hstate

-- The event of another source changes nothing.
theorem afterEvent_of_not_accepts (h : Agrees there shown) (hskip : accepts there st = false) :
    afterEvent st shown = shown := by
  have hnot := mt accepts_eq_true.mpr (Bool.eq_false_iff.mp hskip)
  rw [not_or, not_or] at hnot
  obtain ⟨hsource, hstate, hid⟩ := hnot
  rw [afterEvent_of_ne hstate]
  cases shown with
  | none => rfl
  | some p =>
      obtain ⟨-, -, hp, -⟩ := h
      rw [hp] at hsource hid
      have hzero : p.source ≠ 0 := mt toWxstring_eq_nil.mpr hsource
      have hne : p.source ≠ st.sourceId := fun heq => hid (congrArg toWxstring heq.symm)
      simp [hzero, hne]

theorem afterEvent_of_accepts (h : Agrees there shown) (hstate : st.state ≠ some .plugged)
    (haccepts : accepts there st = true) : afterEvent st shown = none := by
  rw [afterEvent_of_ne hstate]
  cases shown with
  | none => rfl
  | some p =>
      obtain ⟨-, -, hp, -⟩ := h
      obtain hsource | hplugged | hid := accepts_eq_true.mp haccepts
      · have hzero := toWxstring_eq_nil.mp (hp.symm.trans hsource)
        simp [hzero]
      · exact absurd hplugged hstate
      · have heq := toWxstring_injective (hid.trans hp)
        simp [heq]

theorem patch_event_plugged {fresh : Bool} {saved : List DeviceColumns} (hstate : st.state = some .plugged)
    (hdev : isImported st.device = true) (hsaved : ∀ s ∈ saved, s.text .devid ≠ []) :
    Agrees
      (patch (eventColumns env st fresh persistent saved).1 (eventColumns env st fresh persistent saved).2 there)
      (some { port := st.device.port, source := st.sourceId }) := by
  simp only [isImported, Bool.and_eq_true, Bool.not_eq_true', bne_iff_ne] at hdev
  obtain ⟨hempty, hport⟩ := hdev
  obtain ⟨hstateText, hstateFlag⟩ := @eventColumns_state env st fresh persistent saved
  obtain ⟨hportText, hportFlag⟩ := @eventColumns_port env st fresh persistent saved hstate hempty hport
  obtain ⟨hidText, hidFlag⟩ := @eventColumns_sourceId env st fresh persistent saved
  have hdevidFlag := @eventColumns_devid env st fresh persistent saved hempty
  refine ⟨?_, ?_, ?_, ?_⟩
  · rw [patch_set (by decide) hstateFlag, hstateText, hstate]
  · rw [patch_set (by decide) hportFlag, hportText]
  · rw [patch_set (by decide) hidFlag, hidText]
    simp [hstate, isLast]
  · rw [patch_set (by decide) hdevidFlag]
    exact eventColumns_showsDevid env hsaved hdevidFlag

theorem eventRow_shows (hreal : st.state = some .plugged → isImported st.device = true)
    (hsaved : ∀ s ∈ getSaved env groups, s.text .devid ≠ [])
    (h : RowShows (locationKey env st.device.location).2 shown row) :
    RowShows (locationKey env st.device.location).2 (afterEvent st shown) (eventRow env groups persistent st row) := by
  obtain ⟨hbusid, hagrees⟩ := h
  simp only [eventRow]
  split
  · next hgone =>
      have hstate : st.state ≠ some .plugged := by simp [hgone.1]
      obtain rfl := hagrees.eq_none hgone.2
      rw [afterEvent_of_ne hstate]
      exact rowShows_none
  · split
    · next hskip =>
        rw [afterEvent_of_not_accepts hagrees hskip]
        exact ⟨hbusid, hagrees⟩
    · next hskip =>
        refine ⟨(patch_busid _ _ _).trans hbusid, ?_⟩
        by_cases hstate : st.state = some .plugged
        · rw [afterEvent, if_pos hstate]
          exact patch_event_plugged env persistent hstate (hreal hstate) hsaved
        · rw [afterEvent_of_accepts hagrees hstate (by simpa using hskip)]
          obtain ⟨htext, hflag⟩ := @eventColumns_state env st (row.isNone || isEmptyDevice st.device) persistent
            (getSaved env groups)
          intro hplugged
          rw [Option.getD_some, patch_set (by decide) hflag, htext] at hplugged
          exact hstate (stateText_eq_plugged.mp hplugged)

end Events

section Rows

theorem loadRow_shows (dc : DeviceColumns) (h : RowShows (dc.text .busid) shown row) :
    RowShows (dc.text .busid) shown (loadRow env persistent dc row) := by
  obtain ⟨hbusid, hagrees⟩ := h
  simp only [loadRow]
  split
  · exact ⟨hbusid, hagrees⟩
  · next hload =>
      refine ⟨(patch_busid _ _ _).trans hbusid, ?_⟩
      have hempty : isEmptyRow (row.getD (newRow (dc.text .busid))) = true := by
        cases row with
        | none => exact List.isEmpty_iff.mpr (newRow_ne (by decide) _)
        | some there => simpa using hload
      obtain rfl := hagrees.eq_none hempty
      intro hplugged
      rw [Option.getD_some, patch_updateFromSaved env.utf persistent (by decide), if_pos (by decide), set_text,
        if_pos rfl] at hplugged
      cases stateText_eq_plugged.mp hplugged

variable (hsaved : ∀ s ∈ getSaved env groups, s.text .devid ≠ [])

include hsaved

theorem reloadRow_shows {dev : ImportedDevice} (hdev : isImported dev = true)
    (hbusid : row.getD (newRow (locationKey env dev.location).2) .busid = (locationKey env dev.location).2) :
    RowShows (locationKey env dev.location).2 (some { port := dev.port, source := 0 })
      (reloadRow env groups persistent dev row) := by
  simp only [isImported, Bool.and_eq_true, Bool.not_eq_true', bne_iff_ne] at hdev
  obtain ⟨hempty, hport⟩ := hdev
  obtain ⟨hportFlag, hportText⟩ := makeImportedColumns_port env.utf env.ids hempty hport
  have hdevid := (makeImportedColumns_devid env.utf env.ids hempty).1
  refine ⟨(patch_busid _ _ _).trans hbusid, ?_⟩
  simp only [reloadRow, reloadColumns, Option.getD_some]
  refine ⟨?_, ?_, ?_, ?_⟩
  · rw [patch_updateFromSaved env.utf persistent (by decide)]
    simp [makeDeviceColumns_flags, makeDeviceColumns_text]
  · rw [patch_updateFromSaved env.utf persistent (by decide)]
    simp [makeDeviceColumns_flags, makeDeviceColumns_text, hportFlag, hportText]
  · rw [patch_updateFromSaved env.utf persistent (by decide)]
    simp [makeDeviceColumns_flags, makeDeviceColumns_text]
  · have hflag : (reloadColumns env groups persistent dev).2 .devid = true :=
      updateFromSaved_mono env.utf persistent (by decide) (by simp [makeDeviceColumns_flags, hdevid])
    change patch (reloadColumns env groups persistent dev).1 (reloadColumns env groups persistent dev).2 _ _ ≠ _
    rw [patch_set (by decide) hflag]
    exact updateFromSaved_showsDevid env.utf persistent hsaved (makeDeviceColumns_showsDevid env.utf env.ids) hflag

variable (hostname service : List Byte)

omit hsaved in
-- An exported device has no port and no source.
theorem exportedColumns_plain (dev : UsbDevice) :
    ((exportedColumns env hostname service groups persistent dev).2 .state = true ∧
        (exportedColumns env hostname service groups persistent dev).1.text .state = stateText (some .unplugged)) ∧
      ((exportedColumns env hostname service groups persistent dev).2 .sourceId = true ∧
        (exportedColumns env hostname service groups persistent dev).1.text .sourceId = []) ∧
      (exportedColumns env hostname service groups persistent dev).2 .port = false := by
  have hport := @makeImportedColumns_noPort env.utf env.ids (makeImportedDevice hostname service dev) rfl
  simp only [exportedColumns]
  refine ⟨?_, ?_, ?_⟩
  · have hkeep := fun dc flags => @updateFromSaved_keep dc flags .state env.utf persistent (getSaved env groups) true
      (by decide) (by decide)
    rw [(hkeep _ _).1, (hkeep _ _).2]
    simp [makeDeviceColumns_flags, makeDeviceColumns_text]
  · have hkeep := fun dc flags => @updateFromSaved_keep dc flags .sourceId env.utf persistent (getSaved env groups) true
      (by decide) (by decide)
    rw [(hkeep _ _).1, (hkeep _ _).2]
    simp [makeDeviceColumns_flags, makeDeviceColumns_text, toWxstring]
  · have hkeep := fun dc flags => @updateFromSaved_keep dc flags .port env.utf persistent (getSaved env groups) true
      (by decide) (by decide)
    rw [(hkeep _ _).2, makeDeviceColumns_flags, hport]
    rfl

theorem exportedRow_shows (dev : UsbDevice) (h : RowShows (exportedKey env hostname service dev).2 shown row) :
    RowShows (exportedKey env hostname service dev).2 (shown.map fun p => { p with source := 0 })
      (exportedRow env groups persistent hostname service dev row) := by
  obtain ⟨hbusid, hagrees⟩ := h
  refine ⟨(patch_busid _ _ _).trans hbusid, ?_⟩
  have hdevid : ShowsDevid (exportedColumns env hostname service groups persistent dev) :=
    updateFromSaved_showsDevid env.utf persistent hsaved (makeDeviceColumns_showsDevid env.utf env.ids)
  obtain ⟨⟨hstateFlag, hstateText⟩, ⟨hsourceFlag, hsourceText⟩, hportFlag⟩ :=
    exportedColumns_plain env groups persistent hostname service dev
  simp only [exportedRow, Option.getD_some]
  cases row with
  | none =>
      obtain rfl := hagrees.eq_none (List.isEmpty_iff.mpr (newRow_ne (by decide) _))
      intro hplugged
      rw [Option.isNone_none, if_pos rfl, patch_set (by decide) hstateFlag, hstateText] at hplugged
      cases stateText_eq_plugged.mp hplugged
  | some there =>
      have hdevid' : ShowsDevid ((exportedColumns env hostname service groups persistent dev).1,
          fun col => (exportedColumns env hostname service groups persistent dev).2 col && col != .state) := by
        intro hflag
        exact hdevid (Bool.and_elim_left hflag)
      rw [Option.isNone_some, if_neg Bool.false_ne_true]
      cases shown with
      | none =>
          intro hplugged
          rw [patch_keep (by simp)] at hplugged
          exact hagrees hplugged
      | some p =>
          obtain ⟨hstate, hport, -, hthere⟩ := hagrees
          refine ⟨?_, ?_, ?_, hdevid'.patch hthere⟩
          · rw [patch_keep (by simp)]
            exact hstate
          · rw [patch_keep (by simp [hportFlag])]
            exact hport
          · rw [patch_set (by decide) (by simp [hsourceFlag]), hsourceText]
            rfl

omit hsaved in
theorem flagRow_shows (flagged : Exported) (h : RowShows (exportedKey env hostname service flagged.1).2 shown row) :
    RowShows (exportedKey env hostname service flagged.1).2 shown
      (flagRow env groups persistent hostname service flagged row) := by
  obtain ⟨hbusid, hagrees⟩ := h
  obtain ⟨dev, reason⟩ := flagged
  cases reason with
  | none => exact ⟨hbusid, hagrees⟩
  | some reason =>
      refine ⟨(patch_busid _ _ _).trans hbusid, hagrees.congr rfl rfl rfl fun hdevid => hdevid⟩

end Rows

end Shown

section Runs

variable {shown : Text × Text → Option Plugged} {tree tree' : Tree}

-- All rows of a tree tell what is to be shown.
structure TreeShows (shown : Text × Text → Option Plugged) (tree : Tree) : Prop where
  wellFormed : WellFormed tree
  rows : ∀ key, RowShows key.2 (shown key) (findLeaf key.1 key.2 tree)

theorem TreeShows.changes (h : TreeShows shown tree) {key : Text × Text} {row : Option Row} {p : Option Plugged}
    (hchanges : Changes tree tree' key row) (hrow : RowShows key.2 p row) :
    TreeShows (Function.update shown key p) tree' where
  wellFormed := hchanges.wellFormed
  rows other := by
    by_cases hkey : other = key
    · subst hkey
      rw [Function.update_self, hchanges.here]
      exact hrow
    · rw [Function.update_of_ne hkey, hchanges.others other hkey]
      exact h.rows other

theorem TreeShows.congr {shown' : Text × Text → Option Plugged} (h : TreeShows shown tree)
    (heq : ∀ key, shown key = shown' key) : TreeShows shown' tree := funext heq ▸ h

theorem TreeShows.modifyDevice (h : TreeShows shown tree) (url busid : Text) {f : Row → Row}
    (hf : ∀ row, ∀ col ∈ [Column.busid, .state, .port, .sourceId, .devid], f row col = row col) :
    TreeShows shown (modifyDevice tree url busid f) := by
  have hshows := h.rows (url, busid)
  have hrow : RowShows busid (shown (url, busid)) ((findLeaf url busid tree).map f) := by
    cases hthere : findLeaf url busid tree with
    | none => simpa [hthere] using hshows
    | some row =>
        simp only [hthere] at hshows
        simp only [List.forall_mem_cons] at hf
        obtain ⟨hbusid, hstate, hport, hsource, hdevid, -⟩ := hf row
        refine ⟨hbusid.trans hshows.1, hshows.2.congr hstate hport hsource fun hne => ?_⟩
        rw [Option.map_some, Option.getD_some, hdevid]
        exact hne
  have hchanges := h.changes (changes_modifyDevice h.wellFormed url busid f) hrow
  rwa [Function.update_eq_self] at hchanges

variable {groups : List DeviceColumns} (hsaved : ∀ s ∈ getSaved env groups, s.text .devid ≠ [])
  (persistent : List PersistentDevice)

include hsaved

theorem TreeShows.onDeviceState (h : TreeShows shown tree) {st : DeviceState}
    (hreal : st.state = some .plugged → isImported st.device = true) :
    TreeShows
      (Function.update shown (locationKey env st.device.location)
        (afterEvent st (shown (locationKey env st.device.location))))
      (onDeviceState env groups persistent tree st) :=
  h.changes (changes_onDeviceState env groups persistent h.wellFormed st)
    (eventRow_shows env groups persistent hreal hsaved (h.rows _))

omit hsaved in
theorem TreeShows.onLoad (h : TreeShows shown tree) : TreeShows shown (onLoad env groups persistent tree) := by
  refine List.foldlRecOn _ _ h fun tree h dc _ => ?_
  have hchanges := h.changes (changes_loadDevice env persistent h.wellFormed dc)
    (loadRow_shows env persistent dc (h.rows (dc.url, dc.text .busid)))
  rwa [Function.update_eq_self] at hchanges

omit hsaved in
theorem treeShows_nil : TreeShows (fun _ => none) [] := ⟨wellFormed_nil, fun _ => rowShows_none⟩

theorem treeShows_reload {devices : List ImportedDevice} (hreal : ∀ dev ∈ devices, isImported dev = true) :
    TreeShows
      (fun key => (devices.filter fun dev => locationKey env dev.location = key).getLast?.map fun dev =>
        { port := dev.port, source := 0 })
      (devices.foldl (reloadDevice env groups persistent) []) := by
  induction devices using List.reverseRecOn with
  | nil => exact treeShows_nil
  | append_singleton devices dev ih =>
      have hrest := ih fun dev hdev => hreal dev (List.mem_append_left _ hdev)
      rw [List.foldl_concat]
      have hchanges := hrest.changes (changes_reloadDevice env groups persistent hrest.wellFormed dev)
        (reloadRow_shows env groups persistent hsaved (hreal dev (by simp)) (hrest.rows _).1)
      refine hchanges.congr fun key => ?_
      rw [List.filter_append]
      by_cases hkey : locationKey env dev.location = key
      · subst hkey
        simp
      · rw [Function.update_of_ne (Ne.symm hkey)]
        simp [hkey]

theorem TreeShows.addExportedDevices (h : TreeShows shown tree) (hostname service : List Byte)
    (devices : List Exported) :
    TreeShows
      (fun key =>
        if devices.any fun dev => exportedKey env hostname service dev.1 = key then
          (shown key).map fun p => { p with source := 0 }
        else shown key)
      (addExportedDevices env hostname service groups persistent devices tree) := by
  have hadded : TreeShows
      (fun key =>
        if devices.any fun dev => exportedKey env hostname service dev.1 = key then
          (shown key).map fun p => { p with source := 0 }
        else shown key)
      ((devices.map Prod.fst).foldl (addExportedDevice env hostname service groups persistent) tree) := by
    induction devices using List.reverseRecOn with
    | nil => exact h
    | append_singleton devices dev ih =>
        rw [List.map_append, List.foldl_append]
        have hchanges := ih.changes
          (changes_addExportedDevice env groups persistent hostname service ih.wellFormed dev.1)
          (exportedRow_shows env groups persistent hsaved hostname service dev.1 (ih.rows _))
        refine hchanges.congr fun key => ?_
        by_cases hkey : exportedKey env hostname service dev.1 = key
        · subst hkey
          rw [Function.update_self]
          split <;> simp [Function.comp_def]
        · rw [Function.update_of_ne (Ne.symm hkey)]
          rw [List.any_append, List.any_cons, decide_eq_false hkey, List.any_nil, Bool.or_false, Bool.or_false]
  refine List.foldlRecOn _ _ hadded fun tree h flagged _ => ?_
  have hchanges := h.changes (changes_flagDevice env groups persistent hostname service h.wellFormed flagged)
    (flagRow_shows env groups persistent hostname service flagged (h.rows _))
  rwa [Function.update_eq_self] at hchanges

section Saving

omit hsaved

-- What `wxConfig` has is not read back as empty.
def Env.KeepsTexts : Prop := ∀ text : Text, text ≠ [] → env.readConfig text ≠ []

theorem getSaved_devid (hkeeps : env.KeepsTexts) (hgroups : ∀ group ∈ groups, group.text .devid ≠ []) :
    ∀ s ∈ getSaved env groups, s.text .devid ≠ [] := by
  intro s hs
  obtain ⟨group, hgroup, rfl⟩ := List.mem_map.mp (List.mem_filter.mp hs).1
  exact hkeeps _ (hgroups group hgroup)

-- Only devices are saved.
theorem save_devid (selected : Text × Row → Bool) :
    ∀ group ∈ (save env ((getDevices tree).filter selected)).1, group.text .devid ≠ [] := by
  intro group hgroup
  obtain ⟨device, hdevice, rfl⟩ := List.mem_map.mp hgroup
  have hfilled := (List.mem_filter.mp (List.mem_filter.mp hdevice).1).2
  simpa [isEmptyRow, savedColumns, savedKeys] using hfilled

end Saving

-- What is saved is of devices, and the tree shows the devices that are plugged.
structure StateShows (shown : Text × Text → Option Plugged) (s : State) : Prop where
  groups : ∀ group ∈ s.groups, group.text .devid ≠ []
  tree : TreeShows shown s.tree

omit hsaved in
theorem stateShows_step (hkeeps : env.KeepsTexts) {s : State} (h : StateShows shown s) {a : Action}
    (hreal : a.isReal = true) :
    StateShows (fun key => afterAction env key (shown key) a) (step env s a) := by
  obtain ⟨hgroups, htree⟩ := h
  have hsaved := getSaved_devid env hkeeps hgroups
  cases a with
  | deviceState persistent st =>
      have hst : st.state = some .plugged → isImported st.device = true := by
        simpa [Action.isReal, or_iff_not_imp_left] using hreal
      refine ⟨hgroups, (htree.onDeviceState env hsaved persistent hst).congr fun key => ?_⟩
      by_cases hkey : locationKey env st.device.location = key
      · subst hkey
        simp [afterAction]
      · simp [afterAction, hkey, Function.update_of_ne (Ne.symm hkey)]
  | load persistent => exact ⟨hgroups, htree.onLoad env persistent⟩
  | reload persistent devices =>
      refine ⟨hgroups, ?_⟩
      cases devices with
      | none => exact treeShows_nil
      | some devices =>
          have hdevices : ∀ dev ∈ devices, isImported dev = true := by simpa [Action.isReal] using hreal
          have hreloaded := treeShows_reload env hsaved persistent hdevices
          simp only [step, onReload]
          split
          · exact hreloaded.onLoad env persistent
          · exact hreloaded
  | addExported persistent hostname service devices =>
      exact ⟨hgroups, htree.addExportedDevices env hsaved persistent hostname service devices⟩
  | editNotes url busid value => exact ⟨hgroups, htree.modifyDevice url busid fun row => by simp [setText]⟩
  | editSerial url busid value => exact ⟨hgroups, htree.modifyDevice url busid fun row => by simp [setText]⟩
  | toggleAuto url busid => exact ⟨hgroups, htree.modifyDevice url busid fun row => by simp [toggleMark, setText]⟩
  | save selected => exact ⟨save_devid env selected, htree⟩
  | config groups =>
      have hconfig : ∀ group ∈ groups, group.text .devid ≠ [] := by simpa [Action.isReal] using hreal
      exact ⟨hconfig, htree⟩

omit hsaved in
theorem stateShows_run (hkeeps : env.KeepsTexts) {s : State} (h : StateShows shown s) {actions : List Action}
    (hreal : ∀ a ∈ actions, a.isReal = true) :
    StateShows (fun key => actions.foldl (afterAction env key) (shown key)) (run env s actions) := by
  induction actions generalizing shown s with
  | nil => exact h
  | cons a actions ih =>
      obtain ⟨ha, hactions⟩ := List.forall_mem_cons.mp hreal
      exact ih (stateShows_step env hkeeps h ha) hactions

omit hsaved in
-- After any run each device has at most one row, which shows it as plugged, with its port and its source, if and only
-- if the device is.
theorem run_shows (hkeeps : env.KeepsTexts) (hgroups : ∀ group ∈ groups, group.text .devid ≠ []) {actions : List Action}
    (hreal : ∀ a ∈ actions, a.isReal = true) :
    let tree := (run env { groups := groups } actions).tree
    WellFormed tree ∧
      ∀ url busid,
        (∀ p, shownAfter env (url, busid) actions = some p →
          ∃ row, findLeaf url busid tree = some row ∧ row .state = stateText (some .plugged) ∧
            row .port = portText p.port ∧ row .sourceId = toWxstring p.source) ∧
        ∀ row, findLeaf url busid tree = some row →
          row .busid = busid ∧
            (row .state = stateText (some .plugged) → (shownAfter env (url, busid) actions).isSome = true) := by
  intro tree
  have hinit : StateShows (fun _ => none) ({ groups := groups } : State) := ⟨hgroups, treeShows_nil⟩
  obtain ⟨-, hwf, hrows⟩ := stateShows_run env hkeeps hinit hreal
  refine ⟨hwf, fun url busid => ?_⟩
  have hshows : RowShows busid (shownAfter env (url, busid) actions) (findLeaf url busid tree) := hrows (url, busid)
  refine ⟨fun p hp => ?_, fun row hrow => ?_⟩
  · rw [hp] at hshows
    obtain ⟨-, hagrees⟩ := hshows
    cases hthere : findLeaf url busid tree with
    | none =>
        rw [hthere] at hagrees
        cases hagrees.eq_none (List.isEmpty_iff.mpr (newRow_ne (by decide) _))
    | some row =>
        rw [hthere] at hagrees
        obtain ⟨hstate, hport, hsource, -⟩ := hagrees
        exact ⟨row, rfl, hstate, hport, hsource⟩
  · rw [hrow] at hshows
    obtain ⟨hbusid, hagrees⟩ := hshows
    refine ⟨hbusid, fun hstate => ?_⟩
    cases hshown : shownAfter env (url, busid) actions with
    | none =>
        rw [hshown] at hagrees
        exact absurd hstate hagrees
    | some p => rfl

section TwoSources

def asciiEnv : Env := ⟨asciiUtf, {}, id⟩

def hostDevice : ImportedDevice where
  location := { hostname := [104], service := [51, 50], busid := [49, 45, 49] }
  port := 3
  devid := 0x10002

-- The device is plugged by one source; another one, that has been connecting to it, is disconnected.
def twoSources : List Action :=
  [.deviceState [] { device := hostDevice, state := some .plugged, sourceId := 0xAB },
    .deviceState [] { device := { location := hostDevice.location }, state := some .disconnected, sourceId := 7 }]

omit hsaved in
theorem run_shows_twoSources :
    ∃ row, findLeaf (ascii "h:32") (ascii "1-1") (run asciiEnv {} twoSources).tree = some row ∧
      row .state = stateText (some .plugged) ∧ row .port = portText 3 ∧ row .sourceId = toWxstring 0xAB :=
  ((run_shows asciiEnv (fun _ h => h) (fun _ h => absurd h List.not_mem_nil) (by decide)).2 _ _).1 ⟨3, 0xAB⟩ rfl

end TwoSources

end Runs

end Usbip.Wusbip.MainFrame

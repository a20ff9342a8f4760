import Usbip.Libusbip.Events
import Usbip.Libusbip.Imported.Theorems
import Usbip.Vhci.Events.Theorems

namespace Usbip.Libusbip.Events

open Usbip.Library.Layout
open Usbip.Library.Words
open Usbip.Library.Writes
open Usbip.Libusbip.Imported (Named Recorded apart_writes importedDevice makeImportedDevice_eq)
open Usbip.Libusbip.Persistent (DeviceLocation)
open Usbip.Persistent (Rtl)
open Usbip.Vhci.DeviceState hiding makeDeviceState
open Usbip.VhciIoctl
open Usbip.VhciIoctl.Imported (covered_writes_iff overwrite_eq_run fill_eq)

-- What the reader is to be given of a change.
def told (location : DeviceLocation) (change : Change) : DeviceState where
  device := importedDevice location change.dev
  state := some change.state
  sourceId := change.sourceId

variable {rtl : Rtl} {change : Change} {location : DeviceLocation}

theorem stateOf?_code (state : Attach.DeviceState) : stateOf? (code state) = some state := by
  cases state <;> rfl

section Record

-- What is written in front of the device and behind it.
def header (change : Change) : List (Write Byte) :=
  [⟨0, bytes32 (UInt32.ofNat sizeofDeviceState)⟩, ⟨offsetofState, bytes32 (code change.state)⟩,
    ⟨offsetofSourceId, bytes32 change.sourceId⟩]

def writes (rtl : Rtl) (change : Change) : List (Write Byte) := header change ++ change.dev.writes rtl sizeofBase

def zeroed : List Byte := List.replicate sizeofDeviceState 0

theorem length_zeroed : zeroed.length = sizeofDeviceState := List.length_replicate

theorem makeDeviceState_eq (h : change.dev.Converts rtl) :
    Vhci.DeviceState.makeDeviceState rtl change = some (runAll (writes rtl change) zeroed) := by
  have hroom : sizeofBase + sizeofImportedDevice ≤ (runAll (header change) zeroed).length := by
    rw [length_runAll, length_zeroed]
    decide
  have hfill := fill_eq hroom h
  rw [writes, runAll_append]
  simp only [header, runAll_cons, runAll_nil, ← overwrite_eq_run, zeroed] at hfill ⊢
  simp only [Vhci.DeviceState.makeDeviceState, hfill, ne_eq, not_true_eq_false, if_false]

-- The fields do not overlap.
theorem apart_deviceState (rtl : Rtl) (change : Change) : Apart (writes rtl change) := by
  refine apart_append.mpr ⟨?_, apart_writes rtl change.dev sizeofBase, ?_⟩
  · simp only [Apart, header, List.pairwise_cons, List.mem_cons, List.not_mem_nil, or_false, forall_eq_or_imp, forall_eq,
      Write.covers_mk, IsEmpty.forall_iff, implies_true, List.Pairwise.nil, and_true, bytes32, List.length_cons,
      List.length_nil, offsetofSourceId]
    refine ⟨⟨fun k => ?_, fun k => ?_⟩, fun k => ?_⟩
    all_goals
      simp only [offsetofState, sizeofBase, sizeofImportedDevice, sizeofImportedDeviceLocation,
        sizeofImportedDeviceProperties]
      omega
  · intro k hheader hdevice
    obtain ⟨hle, hlt, -⟩ := covered_writes_iff.mp hdevice
    simp only [header, covered_cons, covered_nil, or_false, Write.covers_mk, bytes32, List.length_cons, List.length_nil,
      offsetofSourceId, offsetofState, sizeofBase] at hheader hle hlt
    omega

theorem holds_written {w : Write Byte} (hw : w ∈ writes rtl change) (hroom : ∀ k, w.Covers k → k < sizeofDeviceState) :
    Holds (byteAt (runAll (writes rtl change) zeroed)) w.offset w.data := by
  intro j hj
  have hk : w.Covers (w.offset + j) := ⟨Nat.le_add_right _ _, Nat.add_lt_add_left hj _⟩
  have hlt : w.offset + j < zeroed.length := by
    rw [length_zeroed]
    exact hroom _ hk
  have hat := (apart_deviceState rtl change).getElem?_runAll hw hk hlt
  rw [Nat.add_sub_cancel_left, List.getElem?_eq_getElem hj] at hat
  rw [byteAt, List.getD_eq_getElem?_getD, hat, Option.getD_some]

theorem recorded_deviceState (rtl : Rtl) (change : Change) :
    Recorded rtl change.dev sizeofBase (runAll (writes rtl change) zeroed) where
  room := by
    rw [length_runAll, length_zeroed]
    decide
  holds w hw := by
    refine holds_written (List.mem_append_right _ hw) fun k hk => ?_
    obtain ⟨-, hlt, -⟩ := covered_writes_iff.mp ⟨w, hw, hk⟩
    exact hlt.trans (by decide)

theorem header_at {w : Write Byte} (hw : w ∈ header change) :
    Holds (byteAt (runAll (writes rtl change) zeroed)) w.offset w.data := by
  refine holds_written (List.mem_append_left _ hw) fun k hk => ?_
  simp only [header, List.mem_cons, List.not_mem_nil, or_false] at hw
  have hcovers := hk.2
  obtain rfl | rfl | rfl := hw
  all_goals
    refine hcovers.trans_le ?_
    simp only [bytes32, List.length_cons, List.length_nil]
    decide

-- A read that is completed with the event of a change.
def readEvent (rtl : Rtl) (change : Change) : Option (Except Win32Error DeviceState) :=
  (Vhci.DeviceState.makeDeviceState rtl change).map fun evt => readDeviceState (completeRead sizeofDeviceState evt)

-- The reader makes of the event what the driver has made it of.
theorem readEvent_eq (hnamed : Named rtl change.dev location) :
    readEvent rtl change = some (.ok (told location change)) := by
  have hlength : (runAll (writes rtl change) zeroed).length = sizeofDeviceState := by
    rw [length_runAll, length_zeroed]
  have hsize : ulongAt (runAll (writes rtl change) zeroed) 0 = UInt32.ofNat sizeofDeviceState :=
    ulongAt_of_holds (header_at List.mem_cons_self)
  have hstate : ulongAt (runAll (writes rtl change) zeroed) offsetofState = code change.state :=
    ulongAt_of_holds (header_at (List.mem_cons_of_mem _ List.mem_cons_self))
  have hsource : ulongAt (runAll (writes rtl change) zeroed) offsetofSourceId = change.sourceId :=
    ulongAt_of_holds (header_at (List.mem_cons_of_mem _ (List.mem_cons_of_mem _ List.mem_cons_self)))
  have hdevice := makeImportedDevice_eq hnamed (recorded_deviceState rtl change)
  have hread : completeRead sizeofDeviceState (runAll (writes rtl change) zeroed) =
      (.STATUS_SUCCESS, runAll (writes rtl change) zeroed) := rfl
  have hpos : sizeofDeviceState ≠ 0 := by decide
  rw [readEvent, makeDeviceState_eq hnamed.converts, Option.map_some, hread]
  simp only [readDeviceState, NTSTATUS.isSuccess, Bool.true_eq_false, false_and, if_false, hlength, if_neg hpos,
    getDeviceState, hsize, ne_eq, not_true_eq_false, makeDeviceState, hdevice, hstate, hsource, stateOf?_code, told]

end Record

section Runs

open Usbip.Vhci.Events (Event FileObject State machine upcoming)

-- The events of a run, each with the change it was made of.
variable {changes : Event → Change} {locations : Event → DeviceLocation}

-- What the reads of the events have come to, for those that were made.
def readAll (rtl : Rtl) (changes : Event → Change) (events : List Event) : List (Except Win32Error DeviceState) :=
  events.filterMap fun evt => readEvent rtl (changes evt)

theorem readAll_eq (hnamed : ∀ evt, Named rtl (changes evt).dev (locations evt)) (events : List Event) :
    readAll rtl changes events = events.map fun evt => .ok (told (locations evt) (changes evt)) := by
  rw [readAll, ← List.filterMap_eq_map]
  exact List.filterMap_congr fun evt _ => readEvent_eq (hnamed evt)

-- A reader is told the changes since its first read in their order and as they were; it is told all of them if its
-- queue was never full and nothing is under way.
theorem events_told (hnamed : ∀ evt, Named rtl (changes evt).dev (locations evt)) (st : State)
    (h : machine.Reachable (fun _ _ => True) st) (f : FileObject) :
    (readAll rtl changes (st.file f).delivered).Sublist
      ((st.emitted.drop (st.file f).firstRead).map fun evt => .ok (told (locations evt) (changes evt))) ∧
    (f ∈ st.fileobjects → (st.file f).processEvents = true → (st.file f).dropped = [] → (st.file f).events = [] →
      st.loop = none → readAll rtl changes (st.file f).delivered =
        (st.emitted.drop (st.file f).firstRead).map fun evt => .ok (told (locations evt) (changes evt))) := by
  have hi : Vhci.Events.Inv st := h.invariant (fun _ => Vhci.Events.inv_init) (fun _ _ _ hi _ hs => hi.step hs)
  rw [readAll_eq hnamed]
  constructor
  · exact ((List.sublist_append_left _ _).trans (hi.files f).delivery.sublist).map _
  · intro hf hsub hdropped hqueue hloop
    have haccount := ((hi.files f).subscription hsub hf).account
    have hnone : (st.file f).droppedEvents = [] := by
      rw [Vhci.Events.FileobjectCtx.droppedEvents, hdropped, List.map_nil]
    have hupcoming : upcoming st.loop f = [] := by
      rw [hloop]
      rfl
    rw [hqueue, hnone, hupcoming, List.append_nil, List.append_nil] at haccount
    rw [haccount]
    congr 1
    exact List.filter_eq_self.mpr fun evt _ => by simp

-- The device of the host pc is plugged while a read waits.
def pcPlugged : Change where
  dev := Usbip.VhciIoctl.Imported.pcDevice
  state := .plugged
  sourceId := 7

theorem events_told_pc : ∃ st : State, (st.file 0).delivered = [0] ∧
    readAll Usbip.Persistent.asciiRtl (fun _ => pcPlugged) (st.file 0).delivered =
      [.ok (told Imported.pcLocation pcPlugged)] := by
  have hinit : machine.Reachable (fun _ _ => True) { devicesCnt := 1 } := .init ⟨1, rfl⟩
  have hrun : (machine.run (fun _ _ => True) { devicesCnt := 1 }
      ([.fileCreate 0, .read 0 0 true] ++ Vhci.Events.emitSchedule 0)).any
      (fun st => decide ((st.file 0).delivered = [0] ∧ st.fileobjects = [0] ∧ (st.file 0).processEvents = true ∧
        (st.file 0).dropped = [] ∧ (st.file 0).events = [] ∧ st.loop = none ∧ st.emitted = [0] ∧
        (st.file 0).firstRead = 0)) = true := by
    decide +kernel
  obtain ⟨st, hst, hfile⟩ := hinit.exists_run hrun
  obtain ⟨hdelivered, hopen, hsub, hdropped, hqueue, hloop, hemitted, hfirst⟩ := of_decide_eq_true hfile
  have htold := (@events_told Usbip.Persistent.asciiRtl (fun _ => pcPlugged) (fun _ => Imported.pcLocation)
    (fun _ => Imported.pcDevice_named) st hst 0).2 (by simp [hopen]) hsub hdropped hqueue hloop
  refine ⟨st, hdelivered, htold.trans ?_⟩
  rw [hemitted, hfirst]
  rfl

end Runs

end Usbip.Libusbip.Events

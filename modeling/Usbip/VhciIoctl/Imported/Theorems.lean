import Usbip.Persistent.DeviceStr.Theorems
import Usbip.VhciIoctl.Imported
import Usbip.VhciIoctl.Theorems

namespace Usbip.VhciIoctl.Imported

open Usbip.Library.Words
open Usbip.Library.Writes
open Usbip.Persistent

variable (rtl : Rtl)

theorem overwrite_eq_run (buffer : List Byte) (offset : Nat) (bytes : List Byte) :
    overwrite buffer offset bytes = Write.run ⟨offset, bytes⟩ buffer := by
  simp only [overwrite, Write.run]

section Fields

-- The conversion of a string for an array of this size.
def Field.converted (f : Field) : NTSTATUS × List Byte :=
  rtl.unicodeToUTF8N (f.src.buffer.map (·.take (f.src.length / 2))) f.size

-- The text and its terminator, as far as the array has room for them.
def Field.text (f : Field) : List Byte := ((f.converted rtl).2 ++ [0]).take f.size

def Field.write (f : Field) : Write Byte := ⟨f.offset, f.text rtl⟩

theorem Field.length_text (f : Field) : (f.text rtl).length ≤ f.size := List.length_take_le _ _

variable {rtl} {output : List Byte}

-- The terminator is written after the text if it ends before the array does.
theorem set_run_terminator (bytes dst : List Byte) :
    (if bytes.length < dst.length then (Write.run ⟨0, bytes⟩ dst).set bytes.length 0 else Write.run ⟨0, bytes⟩ dst) =
      Write.run ⟨0, bytes ++ [0]⟩ dst := by
  split
  · rename_i hroom
    simp only [Write.run, List.take_zero, List.nil_append, Nat.zero_add, List.length_append, List.length_singleton]
    rw [List.take_of_length_le (by simp; omega), List.take_of_length_le (by simp; omega)]
    rw [List.set_append_right _ _ (le_refl _), Nat.sub_self]
    rw [List.drop_eq_getElem_cons hroom, List.set_cons_zero, List.append_assoc]
    rfl
  · rename_i hfull
    have hle : dst.length ≤ bytes.length := not_lt.mp hfull
    simp only [Write.run, List.take_zero, List.nil_append, Nat.zero_add, List.append_assoc]
    rw [List.take_append_of_le_length hle, List.take_append_of_le_length hle]

theorem fillField_eq {f : Field} (h : f.offset + f.size ≤ output.length) :
    fillField rtl output f = ((f.converted rtl).1, (f.write rtl).run output) := by
  have hsize : ((output.drop f.offset).take f.size).length = f.size := by
    rw [List.length_take, List.length_drop]
    omega
  have hwrite := Write.run_inside h ((f.converted rtl).2 ++ [0])
  rw [← set_run_terminator, hsize] at hwrite
  unfold fillField unicodeToUtf8
  simp only [overwrite_eq_run, Write.length_run, hsize]
  exact congrArg (Prod.mk _) hwrite

theorem fillFields_isSuccess {fields : List Field} (h : ∀ f ∈ fields, f.offset + f.size ≤ output.length) :
    (fillFields rtl fields output).1 = .STATUS_SUCCESS ↔ ∀ f ∈ fields, (f.converted rtl).1 = .STATUS_SUCCESS := by
  induction fields generalizing output with
  | nil => simp [fillFields]
  | cons f rest ih =>
      obtain ⟨hf, hrest⟩ := List.forall_mem_cons.mp h
      have hnext : ∀ g ∈ rest, g.offset + g.size ≤ ((f.write rtl).run output).length := by simpa using hrest
      simp only [fillFields, fillField_eq hf, List.forall_mem_cons]
      by_cases hst : (f.converted rtl).1 = .STATUS_SUCCESS
      · simpa [hst] using ih hnext
      · simp [hst]

theorem fillFields_eq {fields : List Field} (h : ∀ f ∈ fields, f.offset + f.size ≤ output.length)
    (hconv : ∀ f ∈ fields, (f.converted rtl).1 = .STATUS_SUCCESS) :
    fillFields rtl fields output = (.STATUS_SUCCESS, runAll (fields.map (Field.write rtl)) output) := by
  induction fields generalizing output with
  | nil => rfl
  | cons f rest ih =>
      obtain ⟨hf, hrest⟩ := List.forall_mem_cons.mp h
      obtain ⟨hst, hconv⟩ := List.forall_mem_cons.mp hconv
      simp only [fillFields, fillField_eq hf, hst, ne_eq, not_true_eq_false, if_false]
      exact ih (by simpa using hrest) hconv

end Fields

section Records

variable (dev : DeviceCtx) (base : Nat)

def DeviceCtx.Converts : Prop := ∀ f ∈ dev.fields 0, (f.converted rtl).1 = .STATUS_SUCCESS

-- What `fill` writes for a device whose strings convert.
def DeviceCtx.writes : List (Write Byte) :=
  ⟨base + offsetofPort, bytes32 dev.port⟩ :: (dev.fields base).map (Field.write rtl) ++
    [⟨base + offsetofProperties, dev.properties.bytes⟩]

-- The bytes of a record behind the end of a string, and the padding behind the last of them.
def DeviceCtx.Unwritten (k : Nat) : Prop :=
  (∃ f ∈ dev.fields 0, f.offset + (f.text rtl).length ≤ k ∧ k < f.offset + f.size) ∨
    (offsetofHost + sizeofHost ≤ k ∧ k < offsetofProperties)

variable {rtl dev base}

theorem converts_iff (base : Nat) : dev.Converts rtl ↔ ∀ f ∈ dev.fields base, (f.converted rtl).1 = .STATUS_SUCCESS := by
  simp [DeviceCtx.Converts, DeviceCtx.fields, Field.converted]

theorem length_properties (p : ImportedDeviceProperties) : p.bytes.length = sizeofImportedDeviceProperties := by
  simp [ImportedDeviceProperties.bytes, bytes16, bytes32]
  rfl

theorem mem_fields_le {f : Field} (hf : f ∈ dev.fields base) : f.offset + f.size ≤ base + offsetofProperties := by
  simp only [DeviceCtx.fields, List.mem_cons, List.not_mem_nil, or_false] at hf
  obtain rfl | rfl | rfl := hf
  all_goals
    simp only [offsetofHost, sizeofHost, offsetofService, sizeofService, offsetofBusid, BUS_ID_SIZE, offsetofPort,
      offsetofProperties, sizeofImportedDeviceLocation]
    omega

theorem offsetofProperties_add : offsetofProperties + sizeofImportedDeviceProperties = sizeofImportedDevice := rfl

variable {output : List Byte}

theorem fields_room (h : base + sizeofImportedDevice ≤ output.length) (w : Write Byte) :
    ∀ f ∈ dev.fields base, f.offset + f.size ≤ (w.run output).length := by
  intro f hf
  have hle := mem_fields_le hf
  have hsize := offsetofProperties_add
  rw [Write.length_run]
  omega

theorem fill_isSuccess (h : base + sizeofImportedDevice ≤ output.length) :
    (fill rtl output base dev).1 = .STATUS_SUCCESS ↔ dev.Converts rtl := by
  rw [converts_iff base]
  rw [← fillFields_isSuccess (fields_room h ⟨base + offsetofPort, bytes32 dev.port⟩)]
  unfold fill fillLocation
  simp only [overwrite_eq_run]
  by_cases hst : (fillFields rtl (dev.fields base)
      (Write.run ⟨base + offsetofPort, bytes32 dev.port⟩ output)).1 = .STATUS_SUCCESS
  · simp [hst]
  · simp [hst]

theorem fill_eq (h : base + sizeofImportedDevice ≤ output.length) (hconv : dev.Converts rtl) :
    fill rtl output base dev = (.STATUS_SUCCESS, runAll (dev.writes rtl base) output) := by
  unfold fill fillLocation
  simp only [overwrite_eq_run]
  simp only [fillFields_eq (fields_room h _) ((converts_iff base).mp hconv)]
  simp [DeviceCtx.writes, runAll_append]

-- Inside its record a device leaves nothing but those bytes, and outside of it everything.
theorem covered_writes_iff {k : Nat} :
    Covered (dev.writes rtl base) k ↔
      base ≤ k ∧ k < base + sizeofImportedDevice ∧ ¬ dev.Unwritten rtl (k - base) := by
  have hhost := Field.length_text rtl ⟨offsetofHost, sizeofHost, dev.nodeName⟩
  have hservice := Field.length_text rtl ⟨offsetofService, sizeofService, dev.serviceName⟩
  have hbusid := Field.length_text rtl ⟨offsetofBusid, BUS_ID_SIZE, dev.busid⟩
  simp only [DeviceCtx.writes, DeviceCtx.Unwritten, DeviceCtx.fields, List.map_cons, List.map_nil, List.cons_append,
    List.nil_append, covered_cons, covered_nil, or_false, List.exists_mem_cons_iff, List.not_mem_nil, false_and,
    exists_false, Field.write, Write.covers_mk, length_properties, Field.text, Field.converted, bytes32] at *
  generalize List.length (List.take sizeofHost _) = host at *
  generalize List.length (List.take sizeofService _) = service at *
  generalize List.length (List.take BUS_ID_SIZE _) = busid at *
  simp only [offsetofHost, sizeofHost, offsetofService, sizeofService, offsetofBusid, BUS_ID_SIZE, offsetofPort,
    offsetofProperties, sizeofImportedDevice, sizeofImportedDeviceLocation, sizeofImportedDeviceProperties,
    List.length_cons, List.length_nil] at *
  omega

end Records

section Loop

-- The devices that are reported, in the order of their ports.
def present (table : List (Option DeviceCtx)) : List DeviceCtx := table.reduceOption

-- The writes for the devices from the record `cnt` on.
def writesFrom : Nat → List DeviceCtx → List (Write Byte)
  | _, [] => []
  | cnt, dev :: rest => dev.writes rtl (getImportedDevicesSize cnt) ++ writesFrom (cnt + 1) rest

theorem size_succ (n : Nat) : getImportedDevicesSize (n + 1) = getImportedDevicesSize n + sizeofImportedDevice := by
  rw [getImportedDevicesSize, getImportedDevicesSize, Nat.succ_mul, Nat.add_assoc]

theorem size_mono {n m : Nat} (h : n ≤ m) : getImportedDevicesSize n ≤ getImportedDevicesSize m :=
  Nat.add_le_add_left (Nat.mul_le_mul_right _ h) _

theorem record_room {cnt maxCnt : Nat} {output : List Byte} (hcnt : cnt < maxCnt)
    (h : getImportedDevicesSize maxCnt ≤ output.length) :
    getImportedDevicesSize cnt + sizeofImportedDevice ≤ output.length := by
  rw [← size_succ]
  exact (size_mono hcnt).trans h

variable {rtl} {maxCnt cnt : Nat} {table : List (Option DeviceCtx)} {output : List Byte}

theorem fill_length (h : getImportedDevicesSize cnt + sizeofImportedDevice ≤ output.length) {dev : DeviceCtx}
    (hconv : dev.Converts rtl) : (fill rtl output (getImportedDevicesSize cnt) dev).2.length = output.length := by
  rw [fill_eq h hconv, length_runAll]

theorem fillPorts_isSuccess (h : getImportedDevicesSize maxCnt ≤ output.length) (hcnt : cnt ≤ maxCnt) :
    (fillPorts rtl maxCnt table cnt output).1 = .STATUS_SUCCESS ↔
      cnt + (present table).length ≤ maxCnt ∧ ∀ dev ∈ present table, dev.Converts rtl := by
  induction table generalizing cnt output with
  | nil =>
      have hnone : present [] = [] := rfl
      simpa [fillPorts, hnone] using hcnt
  | cons device rest ih =>
      cases device with
      | none => exact ih h hcnt
      | some dev =>
          have hlen : (present (some dev :: rest)).length = (present rest).length + 1 := rfl
          rw [hlen, show present (some dev :: rest) = dev :: present rest from rfl, List.forall_mem_cons]
          simp only [fillPorts]
          by_cases hfull : cnt = maxCnt
          · rw [if_pos hfull]
            simp only [reduceCtorEq, false_iff, not_and]
            omega
          · rw [if_neg hfull]
            have hroom := record_room (Nat.lt_of_le_of_ne hcnt hfull) h
            by_cases hconv : dev.Converts rtl
            · have hsame := fill_length hroom hconv
              have hrest := ih (hsame.symm ▸ h) (show cnt + 1 ≤ maxCnt by omega)
              rw [if_neg (not_not.mpr ((fill_isSuccess hroom).mpr hconv)), hrest]
              simp only [hconv, true_and, Nat.add_assoc, Nat.add_comm 1]
            · have hst := mt (fill_isSuccess hroom).mp hconv
              rw [if_pos hst]
              simp [hconv, hst]

theorem fillPorts_eq (h : getImportedDevicesSize maxCnt ≤ output.length)
    (hfits : cnt + (present table).length ≤ maxCnt) (hconv : ∀ dev ∈ present table, dev.Converts rtl) :
    fillPorts rtl maxCnt table cnt output =
      (.STATUS_SUCCESS, cnt + (present table).length, runAll (writesFrom rtl cnt (present table)) output) := by
  induction table generalizing cnt output with
  | nil => rfl
  | cons device rest ih =>
      cases device with
      | none => exact ih h hfits hconv
      | some dev =>
          have hlen : (present (some dev :: rest)).length = (present rest).length + 1 := rfl
          rw [hlen] at hfits ⊢
          obtain ⟨hdev, hrest⟩ := List.forall_mem_cons.mp (show ∀ d ∈ dev :: present rest, d.Converts rtl from hconv)
          have hroom := record_room (show cnt < maxCnt by omega) h
          simp only [fillPorts, fill_eq hroom hdev]
          rw [if_neg (by omega), if_neg (by simp)]
          rw [ih (by rwa [length_runAll]) (by omega) hrest]
          rw [show present (some dev :: rest) = dev :: present rest from rfl, writesFrom, runAll_append]
          rw [Nat.add_assoc, Nat.add_comm 1]

theorem size_le_of_covered {devices : List DeviceCtx} {k : Nat} (h : Covered (writesFrom rtl cnt devices) k) :
    getImportedDevicesSize cnt ≤ k := by
  induction devices generalizing cnt with
  | nil => exact absurd h covered_nil
  | cons dev rest ih =>
      rw [writesFrom, covered_append] at h
      obtain hdev | hrest := h
      · exact (covered_writes_iff.mp hdev).1
      · exact (size_mono (Nat.le_succ cnt)).trans (ih hrest)

-- Each record is written for its own device only.
theorem covered_writesFrom_iff {devices : List DeviceCtx} {i k : Nat} (hk : k < sizeofImportedDevice)
    (hi : i < devices.length) :
    Covered (writesFrom rtl cnt devices) (getImportedDevicesSize (cnt + i) + k) ↔ ¬ devices[i].Unwritten rtl k := by
  induction devices generalizing cnt i with
  | nil => cases hi
  | cons dev rest ih =>
      rw [writesFrom, covered_append, covered_writes_iff]
      have hnext := size_succ cnt
      cases i with
      | zero =>
          have hrest : ¬ Covered (writesFrom rtl (cnt + 1) rest) (getImportedDevicesSize cnt + k) := by
            intro hcovered
            have hle := size_le_of_covered hcovered
            omega
          simp only [Nat.add_zero, hrest, or_false, Nat.add_sub_cancel_left, List.getElem_cons_zero]
          constructor
          · intro h
            exact h.2.2
          · intro h
            exact ⟨Nat.le_add_right _ _, Nat.add_lt_add_left hk _, h⟩
      | succ i =>
          have hlater := size_mono (show cnt + 1 ≤ cnt + (i + 1) by omega)
          have hdev :
              ¬ getImportedDevicesSize (cnt + (i + 1)) + k < getImportedDevicesSize cnt + sizeofImportedDevice := by
            omega
          simp only [hdev, false_and, and_false, false_or, List.getElem_cons_succ]
          rw [← Nat.add_assoc, Nat.add_right_comm]
          exact ih (by simpa using hi)

-- The bytes of the records that nothing is written to, among the bytes that are returned.
theorem not_covered_writesFrom_iff {devices : List DeviceCtx} (P : Nat → Prop) :
    (∀ k < getImportedDevicesSize devices.length, ¬ Covered (writesFrom rtl 0 devices) k → P k) ↔
      (∀ k < sizeofBase, P k) ∧
        ∀ (i : Nat) (hi : i < devices.length), ∀ k < sizeofImportedDevice, devices[i].Unwritten rtl k →
          P (getImportedDevicesSize i + k) := by
  constructor
  · intro h
    constructor
    · intro k hk
      have hbase : sizeofBase ≤ getImportedDevicesSize devices.length := Nat.le_add_right _ _
      refine h k (by omega) fun hcovered => ?_
      have hle : sizeofBase ≤ k := (size_mono (Nat.zero_le _)).trans (size_le_of_covered hcovered)
      omega
    · intro i hi k hk hleft
      have hroom := size_mono hi
      rw [Nat.succ_eq_add_one, size_succ] at hroom
      have hrecord : Covered (writesFrom rtl 0 devices) (getImportedDevicesSize (0 + i) + k) ↔ _ :=
        covered_writesFrom_iff hk hi
      rw [Nat.zero_add] at hrecord
      exact h _ (by omega) fun hcovered => hrecord.mp hcovered hleft
  · rintro ⟨hbase, hrecords⟩ k hk hleft
    by_cases hlow : k < sizeofBase
    · exact hbase k hlow
    · have hpos : 0 < sizeofImportedDevice := by decide
      have hdiv := Nat.div_add_mod (k - sizeofBase) sizeofImportedDevice
      have hi : (k - sizeofBase) / sizeofImportedDevice < devices.length := by
        rw [Nat.div_lt_iff_lt_mul hpos]
        have hall : getImportedDevicesSize devices.length = sizeofBase + devices.length * sizeofImportedDevice := rfl
        omega
      have hk' : getImportedDevicesSize ((k - sizeofBase) / sizeofImportedDevice) +
          (k - sizeofBase) % sizeofImportedDevice = k := by
        rw [getImportedDevicesSize, Nat.mul_comm, show offsetofDevices = sizeofBase from rfl]
        omega
      have hmod := Nat.mod_lt (k - sizeofBase) hpos
      have hrecord : Covered (writesFrom rtl 0 devices)
          (getImportedDevicesSize (0 + (k - sizeofBase) / sizeofImportedDevice) +
          (k - sizeofBase) % sizeofImportedDevice) ↔ _ := covered_writesFrom_iff hmod hi
      rw [Nat.zero_add, hk'] at hrecord
      have hat := hrecords _ hi _ hmod (not_not.mp (mt hrecord.mpr hleft))
      rwa [hk'] at hat

end Loop

section Handler

variable (table : List (Option DeviceCtx)) (r : Request)

-- The request is accepted, the buffer has room for all devices and their strings convert.
structure Reports : Prop where
  room : sizeofGetImportedDevices ≤ r.outputLength
  size : (ulongAt r.buffer 0).toNat = sizeofGetImportedDevices
  fits : (present table).length ≤ (r.outputLength - offsetofDevices) / sizeofImportedDevice
  converts : ∀ dev ∈ present table, dev.Converts rtl

variable {rtl table r}

theorem maxCnt_room (h : sizeofGetImportedDevices ≤ r.outputLength) :
    getImportedDevicesSize ((r.outputLength - offsetofDevices) / sizeofImportedDevice) ≤ r.buffer.length := by
  have hdiv := Nat.div_mul_le_self (r.outputLength - offsetofDevices) sizeofImportedDevice
  have hmin : offsetofDevices ≤ sizeofGetImportedDevices := Nat.le_add_right _ _
  have hbuffer := r.size
  unfold getImportedDevicesSize
  omega

theorem retrieveBuffer_eq (length : Nat) {minimum : Nat} (hpos : 0 < minimum) :
    retrieveBuffer length minimum = .STATUS_SUCCESS ↔ minimum ≤ length := by
  unfold retrieveBuffer
  split <;> simp <;> omega

theorem getImportedDevices_eq (h : Reports rtl table r) :
    getImportedDevices rtl table r =
      { status := .STATUS_SUCCESS
        information := getImportedDevicesSize (present table).length
        output := runAll (writesFrom rtl 0 (present table)) r.buffer } := by
  have herr := (retrieveBuffer_eq r.outputLength (show 0 < sizeofGetImportedDevices by decide)).mpr h.room
  have hfits : 0 + (present table).length ≤ (r.outputLength - offsetofDevices) / sizeofImportedDevice := by
    rw [Nat.zero_add]
    exact h.fits
  have hloop := fillPorts_eq (maxCnt_room h.room) hfits h.converts
  unfold getImportedDevices
  simp only [herr, h.size, hloop, ne_eq, not_true_eq_false, if_false, Nat.zero_add]

theorem getImportedDevices_isSuccess :
    (getImportedDevices rtl table r).status = .STATUS_SUCCESS ↔ Reports rtl table r := by
  refine ⟨fun hst => ?_, fun h => by rw [getImportedDevices_eq h]⟩
  unfold getImportedDevices at hst
  by_cases herr : retrieveBuffer r.outputLength sizeofGetImportedDevices = .STATUS_SUCCESS
  · by_cases hsize : (ulongAt r.buffer 0).toNat = sizeofGetImportedDevices
    · have hroom := (retrieveBuffer_eq r.outputLength (show 0 < sizeofGetImportedDevices by decide)).mp herr
      by_cases hfill : (fillPorts rtl ((r.outputLength - offsetofDevices) / sizeofImportedDevice) table 0 r.buffer).1 =
          .STATUS_SUCCESS
      · obtain ⟨hfits, hconv⟩ := (fillPorts_isSuccess (maxCnt_room hroom) (Nat.zero_le _)).mp hfill
        rw [Nat.zero_add] at hfits
        exact ⟨hroom, hsize, hfits, hconv⟩
      · simp [herr, hsize, hfill] at hst
    · simp [herr, hsize, Request.reply] at hst
  · simp [herr, Request.reply] at hst

-- A request that fails reports no bytes.
theorem getImportedDevices_information (h : (getImportedDevices rtl table r).status ≠ .STATUS_SUCCESS) :
    (getImportedDevices rtl table r).information = 0 := by
  unfold getImportedDevices at h ⊢
  simp only [] at h ⊢
  split_ifs at h ⊢
  · rfl
  · rfl
  · rfl
  · simp_all

theorem returned_of_reports (h : Reports rtl table r) : (getImportedDevices rtl table r).returned =
    (runAll (writesFrom rtl 0 (present table)) r.buffer).take (getImportedDevicesSize (present table).length) := by
  rw [getImportedDevices_eq h, Reply.returned]

theorem Reports.room_returned (h : Reports rtl table r) :
    getImportedDevicesSize (present table).length ≤ r.buffer.length :=
  (size_mono h.fits).trans (maxCnt_room h.room)

theorem returned_of_not_reports (h : ¬ Reports rtl table r) : (getImportedDevices rtl table r).returned = [] := by
  rw [Reply.returned, getImportedDevices_information (mt getImportedDevices_isSuccess.mp h), List.take_zero]

theorem byteAt_congr {first second : List Byte} {k : Nat} (h : first[k]? = second[k]?) :
    byteAt first k = byteAt second k := by
  simp [byteAt, List.getD_eq_getElem?_getD, h]

variable {r₁ r₂ : Request}

theorem reports_congr (hout : r₁.outputLength = r₂.outputLength)
    (hsize : ∀ k < sizeofBase, r₁.buffer[k]? = r₂.buffer[k]?) (h : Reports rtl table r₁) : Reports rtl table r₂ where
  room := hout ▸ h.room
  size := by
    have hword : ulongAt r₂.buffer 0 = ulongAt r₁.buffer 0 := by
      unfold ulongAt
      rw [byteAt_congr (hsize 0 (by decide)), byteAt_congr (hsize (0 + 1) (by decide)),
        byteAt_congr (hsize (0 + 2) (by decide)), byteAt_congr (hsize (0 + 3) (by decide))]
    rw [hword]
    exact h.size
  fits := hout ▸ h.fits
  converts := h.converts

-- Two contents of the system buffer show alike unless they differ in a byte of a record that is never written.
theorem getImportedDevices_returned_eq_iff (rtl : Rtl) (table : List (Option DeviceCtx))
    (hout : r₁.outputLength = r₂.outputLength)
    (hsize : ∀ k < sizeofBase, r₁.buffer[k]? = r₂.buffer[k]?) :
    (getImportedDevices rtl table r₁).returned = (getImportedDevices rtl table r₂).returned ↔
      (Reports rtl table r₁ → ∀ (i : Nat) (hi : i < (present table).length),
        ∀ k < sizeofImportedDevice, (present table)[i].Unwritten rtl k →
          r₁.buffer[getImportedDevicesSize i + k]? = r₂.buffer[getImportedDevicesSize i + k]?) := by
  by_cases h : Reports rtl table r₁
  · have h₂ := reports_congr hout hsize h
    simp only [h, forall_const]
    rw [returned_of_reports h, returned_of_reports h₂, take_runAll_eq_iff h.room_returned h₂.room_returned,
      not_covered_writesFrom_iff]
    exact and_iff_right hsize
  · have h₂ : ¬ Reports rtl table r₂ := fun h₂ => h (reports_congr hout.symm (fun k hk => (hsize k hk).symm) h₂)
    simp [h, returned_of_not_reports h, returned_of_not_reports h₂]

-- The padding behind the host is never written, so a record that is reported always has such bytes.
theorem unwritten_padding (rtl : Rtl) (dev : DeviceCtx) : dev.Unwritten rtl (offsetofHost + sizeofHost) :=
  .inr ⟨le_refl _, by decide⟩

end Handler

section WholeRecords

-- What `get_device` and `fill` give for each port when records are taken as a whole.
def records : List (Option DeviceCtx) → Nat → List Byte → List (Option (Except NTSTATUS (List Byte)))
  | [], _, _ => []
  | none :: rest, cnt, output => none :: records rest cnt output
  | some dev :: rest, cnt, output =>
    let (err, output) := fill rtl output (getImportedDevicesSize cnt) dev
    some (if err ≠ .STATUS_SUCCESS then .error err else .ok (output.drop (getImportedDevicesSize cnt))) ::
      records rest (cnt + 1) output

variable {rtl} {maxCnt cnt : Nat} {table : List (Option DeviceCtx)} {output : List Byte}

theorem overwrite_record {dev : DeviceCtx} (h : getImportedDevicesSize cnt + sizeofImportedDevice ≤ output.length)
    (hconv : dev.Converts rtl) :
    overwrite output (getImportedDevicesSize cnt)
        (((fill rtl output (getImportedDevicesSize cnt) dev).2.drop (getImportedDevicesSize cnt)).take
          sizeofImportedDevice) =
      (fill rtl output (getImportedDevicesSize cnt) dev).2 := by
  rw [fill_eq h hconv, overwrite_eq_run]
  refine runAll_eq_run h fun k hk => ?_
  obtain ⟨hle, hlt, -⟩ := covered_writes_iff.mp hk
  exact ⟨hle, hlt⟩

theorem fillDevices_records (rtl : Rtl) (table : List (Option DeviceCtx))
    (h : getImportedDevicesSize maxCnt ≤ output.length) (hcnt : cnt ≤ maxCnt) :
    (fillDevices maxCnt (records rtl table cnt output) cnt output).1 = (fillPorts rtl maxCnt table cnt output).1 ∧
      ((fillPorts rtl maxCnt table cnt output).1 = .STATUS_SUCCESS →
        fillDevices maxCnt (records rtl table cnt output) cnt output = fillPorts rtl maxCnt table cnt output) := by
  induction table generalizing cnt output with
  | nil => exact ⟨rfl, fun _ => rfl⟩
  | cons device rest ih =>
      cases device with
      | none => exact ih h hcnt
      | some dev =>
          simp only [records, fillDevices, fillPorts]
          by_cases hfull : cnt = maxCnt
          · rw [if_pos hfull, if_pos hfull]
            exact ⟨rfl, fun _ => rfl⟩
          · rw [if_neg hfull, if_neg hfull]
            have hroom := record_room (Nat.lt_of_le_of_ne hcnt hfull) h
            by_cases hconv : dev.Converts rtl
            · have hst := (fill_isSuccess hroom).mpr hconv
              have hsame := fill_length hroom hconv
              have hrest := ih (hsame.symm ▸ h) (show cnt + 1 ≤ maxCnt by omega)
              simp only [hst, ne_eq, not_true_eq_false, if_false, overwrite_record hroom hconv]
              exact hrest
            · have hst := mt (fill_isSuccess hroom).mp hconv
              simp [hst]

-- The handler with whole records replies the same for these.
theorem getImportedDevices_records (env : Env) (r : Request) (henv : env.devices = records rtl table 0 r.buffer) :
    (VhciIoctl.getImportedDevices env r).status = (getImportedDevices rtl table r).status ∧
      (VhciIoctl.getImportedDevices env r).information = (getImportedDevices rtl table r).information ∧
      (VhciIoctl.getImportedDevices env r).returned = (getImportedDevices rtl table r).returned := by
  unfold VhciIoctl.getImportedDevices getImportedDevices
  rw [henv]
  by_cases herr : retrieveBuffer r.outputLength sizeofGetImportedDevices = .STATUS_SUCCESS
  · have hroom := (retrieveBuffer_eq r.outputLength (show 0 < sizeofGetImportedDevices by decide)).mp herr
    obtain ⟨hst, hsame⟩ := fillDevices_records rtl table (maxCnt_room hroom) (Nat.zero_le _)
    by_cases hfill : (fillPorts rtl ((r.outputLength - offsetofDevices) / sizeofImportedDevice) table 0 r.buffer).1 =
        .STATUS_SUCCESS
    · simp only [hsame hfill, and_self]
    · simp only [hst, hfill, ne_eq, not_false_eq_true, if_true]
      split_ifs <;> simp [Reply.returned]
  · simp [herr, Request.reply]

end WholeRecords

section Examples

-- "pc", "3240" and "3-3" at port 1.
def pcDevice : DeviceCtx where
  port := 1
  nodeName := unicodeString [112, 99]
  serviceName := unicodeString [51, 50, 52, 48]
  busid := unicodeString [51, 45, 51]
  properties := { devid := 0x30003, speed := 3 }

-- Room for one device, with the same byte everywhere behind the size.
def filledRequest (b : Byte) : Request where
  inputLength := sizeofBase
  outputLength := sizeofGetImportedDevices
  buffer := bytes32 1132 ++ List.replicate 1128 b
  size := by rw [List.length_append, List.length_replicate]; rfl

theorem filledRequest_size (b c : Byte) :
    ∀ k < sizeofBase, (filledRequest b).buffer[k]? = (filledRequest c).buffer[k]? := by
  intro k hk
  have hlen : k < (bytes32 1132).length := hk
  simp only [filledRequest, List.getElem?_append_left hlen]

theorem ulongAt_bytes32 (word : UInt32) (rest : List Byte) : ulongAt (bytes32 word ++ rest) 0 = word := by
  simp [ulongAt, byteAt, bytes32]

theorem pcDevice_reports (b : Byte) : Reports asciiRtl [some pcDevice] (filledRequest b) where
  room := le_refl sizeofGetImportedDevices
  size := by
    rw [filledRequest, ulongAt_bytes32]
    rfl
  fits := show 1 ≤ (sizeofGetImportedDevices - offsetofDevices) / sizeofImportedDevice by decide
  converts := by
    intro dev hdev f hf
    obtain rfl : dev = pcDevice := List.mem_singleton.mp hdev
    simp only [DeviceCtx.fields, List.mem_cons, List.not_mem_nil, or_false] at hf
    obtain rfl | rfl | rfl := hf <;> decide

theorem getImportedDevices_returned_pc :
    (getImportedDevices asciiRtl [some pcDevice] (filledRequest 0)).returned =
        (getImportedDevices asciiRtl [some pcDevice] (filledRequest 255)).returned ↔
      (Reports asciiRtl [some pcDevice] (filledRequest 0) →
        ∀ (i : Nat) (hi : i < (present [some pcDevice]).length),
          ∀ k < sizeofImportedDevice, (present [some pcDevice])[i].Unwritten asciiRtl k →
            (filledRequest 0).buffer[getImportedDevicesSize i + k]? =
              (filledRequest 255).buffer[getImportedDevicesSize i + k]?) :=
  getImportedDevices_returned_eq_iff asciiRtl [some pcDevice] rfl (filledRequest_size 0 255)

-- A byte of the padding is returned as it was in the buffer.
theorem getImportedDevices_shows_stale :
    ¬ ∀ (rtl : Rtl) (table : List (Option DeviceCtx)) (r₁ r₂ : Request), r₁.outputLength = r₂.outputLength →
      (∀ k < sizeofBase, r₁.buffer[k]? = r₂.buffer[k]?) →
        (getImportedDevices rtl table r₁).returned = (getImportedDevices rtl table r₂).returned := by
  intro h
  have hsame := h asciiRtl [some pcDevice] (filledRequest 0) (filledRequest 255) rfl (filledRequest_size 0 255)
  have hzeros := pcDevice_reports 0
  have hones := pcDevice_reports 255
  rw [returned_of_reports hzeros, returned_of_reports hones, take_runAll_eq_iff hzeros.room_returned hones.room_returned,
    not_covered_writesFrom_iff] at hsame
  have hrecords := hsame.2 0 (by decide) _ (by decide) (unwritten_padding _ _)
  rw [show getImportedDevicesSize 0 + (offsetofHost + sizeofHost) = (bytes32 1132).length + 1093 from rfl] at hrecords
  simp only [filledRequest, List.getElem?_append_right (Nat.le_add_right _ _), Nat.add_sub_cancel_left] at hrecords
  rw [List.getElem?_replicate_of_lt (by decide), List.getElem?_replicate_of_lt (by decide)] at hrecords
  exact absurd hrecords (by decide)

end Examples

end Usbip.VhciIoctl.Imported

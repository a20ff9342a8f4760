import Usbip.DescriptorPatch
import Usbip.DeviceFilter.Parser.Theorems

namespace Usbip

open Usbip.Library.RecordWalk
open Usbip.DeviceFilter

theorem patchEndpoint_append {record : List Byte} (hlen : 7 ≤ record.length) (before rest : List Byte) :
    ∃ patched, patchEndpoint record 0 = some patched ∧
      patchEndpoint (before ++ (record ++ rest)) before.length = some (before ++ (patched ++ rest)) ∧
      patched.length = record.length ∧ patched.take 2 = record.take 2 := by
  have hread : ∀ i, i < 7 → (before ++ (record ++ rest))[before.length + i]? = record[i]? := by
    intro i hi
    rw [List.getElem?_append_right (by omega), List.getElem?_append_left (by omega)]
    congr 1
    omega
  have hset : ∀ (target : List Byte) i b, i < target.length →
      (before ++ (target ++ rest)).set (before.length + i) b = before ++ (target.set i b ++ rest) := by
    intro target i b hi
    rw [List.set_append_right _ _ (by omega), List.set_append_left _ _ (by omega)]
    congr 3
    omega
  obtain ⟨attributes, h3⟩ : ∃ b, record[3]? = some b := ⟨_, List.getElem?_eq_getElem (by omega)⟩
  obtain ⟨interval, h6⟩ : ∃ b, record[6]? = some b := ⟨_, List.getElem?_eq_getElem (by omega)⟩
  have htake : ∀ (target : List Byte) i b, 2 ≤ i → (target.set i b).take 2 = target.take 2 :=
    fun target i b hi => List.take_set_of_le hi
  simp only [patchEndpoint, hread 3 (by omega), hread 6 (by omega), Nat.zero_add, h3, h6,
    Option.bind_eq_bind, Option.bind_some, Option.pure_def]
  cases usbEndpointType attributes with
  | control => exact ⟨record, rfl, rfl, rfl, rfl⟩
  | isochronous =>
      exact ⟨_, rfl, congrArg some (hset _ _ _ (by omega)), by simp, htake _ _ _ (by omega)⟩
  | interrupt =>
      exact ⟨_, rfl, congrArg some (hset _ _ _ (by omega)), by simp, htake _ _ _ (by omega)⟩
  | bulk =>
      have hin : before.length + 5 < (before ++ (record ++ rest)).length := by
        simp only [List.length_append]
        omega
      refine ⟨_, if_pos (by omega), ?_, by simp, ?_⟩
      · rw [if_pos hin, hset _ _ _ (by omega), hset _ _ _ (by rw [List.length_set]; omega)]
      · rw [htake _ _ _ (by omega), htake _ _ _ (by omega)]

instance (record : List Byte) : Decidable (IsEndpoint record) :=
  inferInstanceAs (Decidable (record[1]? = some endpointDescriptorType))

-- What the patch does to one record of the configuration.
def patchRecord (record : List Byte) : List Byte :=
  if IsEndpoint record then (patchEndpoint record 0).getD record else record

-- The records the patch may meet: a length byte that is right, endpoints not cut short.
structure PatchableRecord (record : List Byte) : Prop where
  isRecord : IsRecord UInt8.toNat record
  endpoint : IsEndpoint record → 7 ≤ record.length

theorem patchRecord_of_not_endpoint {record : List Byte} (h : ¬IsEndpoint record) :
    patchRecord record = record :=
  if_neg h

theorem PatchableRecord.length_patchRecord {record : List Byte} (h : PatchableRecord record) :
    (patchRecord record).length = record.length := by
  by_cases he : IsEndpoint record
  · obtain ⟨patched, hp, _, hlen, _⟩ := patchEndpoint_append (h.endpoint he) [] []
    rw [patchRecord, if_pos he, hp, Option.getD_some, hlen]
  · rw [patchRecord_of_not_endpoint he]

theorem PatchableRecord.take_patchRecord {record : List Byte} (h : PatchableRecord record) :
    (patchRecord record).take 2 = record.take 2 := by
  by_cases he : IsEndpoint record
  · obtain ⟨patched, hp, _, _, htake⟩ := patchEndpoint_append (h.endpoint he) [] []
    rw [patchRecord, if_pos he, hp, Option.getD_some, htake]
  · rw [patchRecord_of_not_endpoint he]

theorem PatchableRecord.getElem?_patchRecord {record : List Byte} (h : PatchableRecord record)
    {i : Nat} (hi : i < 2) : (patchRecord record)[i]? = record[i]? := by
  rw [← List.getElem?_take_of_lt hi, h.take_patchRecord, List.getElem?_take_of_lt hi]

theorem PatchableRecord.isInterface_iff {record : List Byte} (h : PatchableRecord record) :
    IsInterface (patchRecord record) ↔ IsInterface record := by
  rw [IsInterface, IsInterface, h.getElem?_patchRecord (by omega)]

theorem PatchableRecord.isEndpoint_iff {record : List Byte} (h : PatchableRecord record) :
    IsEndpoint (patchRecord record) ↔ IsEndpoint record := by
  rw [IsEndpoint, IsEndpoint, h.getElem?_patchRecord (by omega)]

theorem PatchableRecord.isRecord_patchRecord {record : List Byte} (h : PatchableRecord record) :
    IsRecord UInt8.toNat (patchRecord record) := by
  refine ⟨h.length_patchRecord ▸ h.isRecord.1, ?_⟩
  rw [List.head?_eq_getElem?, h.getElem?_patchRecord (by omega), ← List.head?_eq_getElem?,
    h.isRecord.2, h.length_patchRecord]

theorem not_isEndpoint_of_isInterface {record : List Byte} (h : IsInterface record) :
    ¬IsEndpoint record := by
  intro he
  rw [IsEndpoint, h] at he
  exact absurd (Option.some_inj.mp he) (by decide)

theorem PatchableRecord.allowed {isAllowed : InterfaceClass → Bool} {record : List Byte}
    (h : PatchableRecord record) (ha : AllowedRecord isAllowed record) :
    AllowedRecord isAllowed (patchRecord record) := by
  refine ⟨fun hi => ?_, fun he => ?_⟩
  · rw [h.isInterface_iff] at hi
    rw [patchRecord_of_not_endpoint (not_isEndpoint_of_isInterface hi)]
    exact ha.intf hi
  · rw [h.isEndpoint_iff] at he
    rw [h.length_patchRecord]
    exact ha.endpoint he

theorem interfaceNumbers_map_patchRecord {records : List (List Byte)}
    (h : ∀ record ∈ records, PatchableRecord record) :
    interfaceNumbers (records.map patchRecord) = interfaceNumbers records := by
  induction records with
  | nil => rfl
  | cons record rest ih =>
      have hr := h record List.mem_cons_self
      have hrest := ih fun r hm => h r (List.mem_cons_of_mem _ hm)
      simp only [interfaceNumbers] at hrest ⊢
      by_cases hi : IsInterface record
      · have hp := patchRecord_of_not_endpoint (not_isEndpoint_of_isInterface hi)
        simp [hp, hi, hrest]
      · have hp : ¬IsInterface (patchRecord record) := fun hc => hi (hr.isInterface_iff.mp hc)
        simp [hp, hi, hrest]

-- The walk of `USBD_ParseDescriptors`, with as much fuel as there are bytes ahead.
def usbdParseLoop (buffer : List Byte) (total : Nat) (type : Byte) : Nat → Nat → Option (Option Nat)
  | 0, _ => some none
  | fuel + 1, start =>
    if start < total then
      match buffer[start]?, buffer[start + 1]? with
      | some length, some other =>
        if other = type then some (some start)
        else if length = 0 then some none
        else usbdParseLoop buffer total type fuel (start + length.toNat)
      | _, _ => none
    else some none

def usbdParseDescriptors : ParseDescriptors :=
  fun buffer total start type => usbdParseLoop buffer total type (total + 1 - start) start

theorem usbdParseLoop_fuel (buffer : List Byte) (total : Nat) (type : Byte) (fuel more start : Nat)
    (hfuel : total < start + fuel) (hmore : total < start + more) :
    usbdParseLoop buffer total type fuel start = usbdParseLoop buffer total type more start := by
  induction fuel generalizing more start with
  | zero =>
      cases more with
      | zero => rfl
      | succ more => rw [usbdParseLoop, usbdParseLoop, if_neg (by omega)]
  | succ fuel ih =>
      cases more with
      | zero => rw [usbdParseLoop, usbdParseLoop, if_neg (by omega)]
      | succ more =>
          rw [usbdParseLoop, usbdParseLoop]
          cases hb : buffer[start]? with
          | none => rfl
          | some length =>
              cases ht : buffer[start + 1]? with
              | none => rfl
              | some other =>
                  by_cases hz : length = 0
                  · simp only [if_pos hz]
                  · have hpos : length.toNat ≠ 0 := fun h => hz (UInt8.toNat_inj.mp h)
                    simp only [if_neg hz]
                    rw [ih more (start + length.toNat) (by omega) (by omega)]

theorem usbdParseDescriptors_walks : usbdParseDescriptors.Walks where
  outside buffer total start type h := by
    cases hf : total + 1 - start with
    | zero => simp only [usbdParseDescriptors, hf, usbdParseLoop]
    | succ fuel => simp only [usbdParseDescriptors, hf, usbdParseLoop, if_neg (show ¬start < total by omega)]
  cut buffer total start type h ht := by
    obtain ⟨fuel, hf⟩ : ∃ n, total + 1 - start = n + 1 := ⟨total - start, by omega⟩
    simp only [usbdParseDescriptors, hf, usbdParseLoop, if_pos h, ht]
    cases buffer[start]? <;> rfl
  found buffer total start type h ht := by
    obtain ⟨fuel, hf⟩ : ∃ n, total + 1 - start = n + 1 := ⟨total - start, by omega⟩
    have hin : start < buffer.length := Nat.lt_of_succ_lt (List.getElem?_eq_some_iff.mp ht).1
    simp only [usbdParseDescriptors, hf, usbdParseLoop, if_pos h, ht, List.getElem?_eq_getElem hin, if_true]
  skip buffer total start type other length h ht hne hl hz := by
    have hpos : length.toNat ≠ 0 := fun h => hz (UInt8.toNat_inj.mp h)
    obtain ⟨fuel, hf⟩ : ∃ n, total + 1 - start = n + 1 := ⟨total - start, by omega⟩
    simp only [usbdParseDescriptors, hf, usbdParseLoop, if_pos h, ht, hl, if_neg hne, if_neg hz]
    exact usbdParseLoop_fuel buffer total type _ _ _ (by omega) (by omega)
  stop buffer total start type other h ht hne hl := by
    obtain ⟨fuel, hf⟩ : ∃ n, total + 1 - start = n + 1 := ⟨total - start, by omega⟩
    simp only [usbdParseDescriptors, hf, usbdParseLoop, if_pos h, ht, hl, if_neg hne, if_true]

-- `parse` steps over what is no endpoint, so the loop may as well start behind it.
theorem patchLoop_pass {parse : ParseDescriptors} (hparse : parse.Walks) {buffer : List Byte} {start : Nat}
    (htotal : wTotalLength buffer = some buffer.length) {other length : Byte} (htype : buffer[start + 1]? = some other)
    (hother : other ≠ USB_ENDPOINT_DESCRIPTOR_TYPE) (hlength : buffer[start]? = some length) (hne : length ≠ 0)
    (fuel : Nat) :
    patchLoop parse (fuel + 1) buffer start = patchLoop parse (fuel + 1) buffer (start + length.toNat) := by
  have hin := (List.getElem?_eq_some_iff.mp hlength).1
  rw [patchLoop, patchLoop, htotal]
  dsimp only [Option.bind_eq_bind, Option.bind_some]
  rw [hparse.skip _ _ _ _ _ _ hin htype hother hlength hne]

theorem patchLoop_skip {parse : ParseDescriptors} (hparse : parse.Walks) (before : List Byte)
    {record : List Byte} (rest : List Byte)
    (hr : IsRecord UInt8.toNat record) (hn : ¬IsEndpoint record)
    (htotal : wTotalLength (before ++ (record ++ rest)) = some (before ++ (record ++ rest)).length)
    (fuel : Nat) :
    patchLoop parse (fuel + 1) (before ++ (record ++ rest)) before.length =
      patchLoop parse (fuel + 1) (before ++ (record ++ rest)) (before.length + record.length) := by
  obtain ⟨first, tail, rfl⟩ := List.exists_cons_of_ne_nil hr.ne_nil
  have h2 := hr.1
  have hfirst : (before ++ (first :: tail ++ rest))[before.length]? = some first := by simp
  obtain ⟨other, hother⟩ : ∃ other, (first :: tail)[1]? = some other := ⟨_, List.getElem?_eq_getElem (by omega)⟩
  have htype : (before ++ (first :: tail ++ rest))[before.length + 1]? = some other := by
    rw [List.length_cons] at h2
    rw [List.getElem?_append_right (by omega), List.getElem?_append_left (by rw [List.length_cons]; omega),
      Nat.add_sub_cancel_left, hother]
  have hne : other ≠ USB_ENDPOINT_DESCRIPTOR_TYPE := by
    rintro rfl
    exact hn hother
  have hsize := hr.size_head
  have hz : first ≠ 0 := by
    rintro rfl
    simp at hsize
  rw [patchLoop_pass hparse htotal htype hne hfirst hz, hsize, List.length_cons]

theorem wTotalLength_append {before : List Byte} (h : 4 ≤ before.length) (rest : List Byte) :
    wTotalLength (before ++ rest) = wTotalLength before := by
  simp only [wTotalLength, List.getElem?_append_left (show 2 < before.length by omega),
    List.getElem?_append_left (show 3 < before.length by omega)]

-- The induction is on the records still ahead of the loop; what is behind it, the total
-- length included, stays as it is.
theorem patchLoop_records {parse : ParseDescriptors} (hparse : parse.Walks) (records : List (List Byte))
    (hrecords : ∀ record ∈ records, PatchableRecord record) (before : List Byte) (h4 : 4 ≤ before.length)
    (htotal : wTotalLength before = some (before.length + records.flatten.length))
    (fuel : Nat) (hfuel : records.length < fuel) :
    patchLoop parse fuel (before ++ records.flatten) before.length =
      some (before ++ (records.map patchRecord).flatten) := by
  induction records generalizing before fuel with
  | nil =>
      obtain ⟨fuel, rfl⟩ := Nat.exists_eq_add_of_lt hfuel
      have hout := hparse.outside before before.length before.length USB_ENDPOINT_DESCRIPTOR_TYPE le_rfl
      simp only [List.flatten_nil, List.append_nil, List.length_nil, Nat.add_zero] at htotal ⊢
      simp [patchLoop, htotal, hout]
  | cons record rest ih =>
      have hr := hrecords record List.mem_cons_self
      have hrest : ∀ r ∈ rest, PatchableRecord r := fun r hm => hrecords r (List.mem_cons_of_mem _ hm)
      have hwhole : wTotalLength (before ++ (record ++ rest.flatten)) =
          some (before ++ (record ++ rest.flatten)).length := by
        rw [wTotalLength_append h4, htotal]
        simp
      obtain ⟨fuel, rfl⟩ : ∃ n, fuel = n + 1 := ⟨fuel - 1, by omega⟩
      rw [List.length_cons] at hfuel
      rw [List.flatten_cons, List.map_cons, List.flatten_cons]
      by_cases he : IsEndpoint record
      · obtain ⟨patched, hp, hstep, hlen, _⟩ := patchEndpoint_append (hr.endpoint he) before rest.flatten
        obtain ⟨first, tail, rfl⟩ := List.exists_cons_of_ne_nil hr.isRecord.ne_nil
        have h7 := hr.endpoint he
        have hfound := hparse.found (before ++ (first :: tail ++ rest.flatten))
          (before ++ (first :: tail ++ rest.flatten)).length before.length USB_ENDPOINT_DESCRIPTOR_TYPE
          (by simp) (by
            rw [List.getElem?_append_right (by omega), List.getElem?_append_left (by omega),
              Nat.add_sub_cancel_left]
            exact he)
        have hfirst : (before ++ (first :: tail ++ rest.flatten))[before.length]? = some first := by simp
        have hsize := hr.isRecord.size_head
        rw [List.length_cons] at h7 hlen
        have hnext := ih hrest (before ++ patched) (by rw [List.length_append]; omega)
          (by
            rw [wTotalLength_append h4, htotal]
            simp only [List.flatten_cons, List.length_append, List.length_cons]
            congr 1
            omega)
          fuel (by omega)
        rw [patchRecord, if_pos he, hp, Option.getD_some]
        rw [List.length_append, hlen, List.append_assoc, List.append_assoc] at hnext
        simp only [patchLoop, hwhole, hfound, hfirst, Option.bind_eq_bind, Option.bind_some, hsize]
        rw [if_neg (by rw [sizeofUsbEndpointDescriptor]; omega), hstep, Option.bind_some, hnext]
      · have hnext := ih hrest (before ++ record) (by rw [List.length_append]; omega)
          (by
            rw [wTotalLength_append h4, htotal]
            simp only [List.flatten_cons, List.length_append]
            congr 1
            omega)
          (fuel + 1) (by omega)
        rw [patchLoop_skip hparse before rest.flatten hr.isRecord he hwhole, patchRecord_of_not_endpoint he]
        rw [List.length_append, List.append_assoc, List.append_assoc] at hnext
        exact hnext

-- The header is the first record, since its length byte is 9.
theorem header_first {isAllowed : InterfaceClass → Bool} {bytes : List Byte} (hg : Grammar isAllowed bytes) :
    ∃ header rest, bytes = header ++ rest.flatten ∧ header.length = 9 ∧ ¬IsEndpoint header ∧
      (∀ record ∈ header :: rest, PatchableRecord record ∧ AllowedRecord isAllowed record) ∧
      (∃ record ∈ header :: rest, IsInterface record) ∧
      (interfaceNumbers (header :: rest)).toFinset.card = (bytes.getD 4 0).toNat := by
  obtain ⟨records, ht, ha, hi, hc⟩ := hg.records
  cases records with
  | nil => simp at hi
  | cons header rest =>
      obtain ⟨hr, he, _⟩ := ht.uncons
      obtain ⟨h0, h1⟩ := hg.header
      have h2 := hr.1
      rw [he, List.getElem?_append_left (by omega)] at h0 h1
      refine ⟨header, rest, he, ?_, ?_, ?_, hi, hc⟩
      · have hs := hr.2
        rw [List.head?_eq_getElem?, h0, Option.map_some, Option.some_inj] at hs
        exact hs.symm
      · intro hc
        rw [IsEndpoint, h1, Option.some_inj] at hc
        exact absurd hc (by decide)
      · intro record hm
        exact ⟨⟨ht.2 record hm, (ha record hm).endpoint⟩, ha record hm⟩

theorem wTotalLength_of_grammar {isAllowed : InterfaceClass → Bool} {bytes : List Byte} (hg : Grammar isAllowed bytes) :
    wTotalLength bytes = some bytes.length := by
  have hsize := hg.size
  have htotal := hg.total
  rw [List.getD_eq_getElem?_getD, List.getD_eq_getElem?_getD, List.getElem?_eq_getElem (show 2 < bytes.length by omega),
    List.getElem?_eq_getElem (show 3 < bytes.length by omega), Option.getD_some, Option.getD_some] at htotal
  rw [wTotalLength, List.getElem?_eq_getElem (show 2 < bytes.length by omega),
    List.getElem?_eq_getElem (show 3 < bytes.length by omega)]
  exact congrArg some htotal

-- The patch of a configuration is that of its records.
theorem patchConfigurationForUdecx_records {parse : ParseDescriptors} (hparse : parse.Walks)
    {isAllowed : InterfaceClass → Bool} {bytes : List Byte} (hg : Grammar isAllowed bytes) {speed : Int}
    (hs : ¬ USB_SPEED_HIGH ≤ speed) :
    ∃ header rest, bytes = header ++ rest.flatten ∧ header.length = 9 ∧ ¬IsEndpoint header ∧
      (∀ record ∈ header :: rest, PatchableRecord record ∧ AllowedRecord isAllowed record) ∧
      (∃ record ∈ header :: rest, IsInterface record) ∧
      (interfaceNumbers (header :: rest)).toFinset.card = (bytes.getD 4 0).toNat ∧
      patchConfigurationForUdecx parse bytes speed = some (header ++ (rest.map patchRecord).flatten) := by
  have hw := wTotalLength_of_grammar hg
  obtain ⟨header, rest, rfl, h9, hn, hall, hi, hcard⟩ := header_first hg
  have hhead := (hall header List.mem_cons_self).1
  have hrest : ∀ record ∈ rest, PatchableRecord record :=
    fun record hm => (hall record (List.mem_cons_of_mem _ hm)).1
  have hcount := length_le_length_flatten fun record hm => (hrest record hm).isRecord
  refine ⟨header, rest, rfl, h9, hn, hall, hi, hcard, ?_⟩
  have hskip := patchLoop_skip hparse [] rest.flatten hhead.isRecord hn
    (by rw [List.nil_append, hw]) (header ++ rest.flatten).length
  rw [List.nil_append, List.length_nil, Nat.zero_add] at hskip
  rw [wTotalLength_append (by omega), List.length_append] at hw
  rw [patchConfigurationForUdecx, if_neg hs, hskip]
  exact patchLoop_records hparse rest hrest header (by omega) hw _ (by rw [List.length_append]; omega)

-- The patch neither fails nor changes what the grammar looks at.
theorem patchConfigurationForUdecx_grammar {parse : ParseDescriptors} (hparse : parse.Walks)
    {isAllowed : InterfaceClass → Bool} {bytes : List Byte} (hg : Grammar isAllowed bytes) (speed : Int) :
    ∃ patched, patchConfigurationForUdecx parse bytes speed = some patched ∧
      patched.length = bytes.length ∧ Grammar isAllowed patched := by
  by_cases hs : USB_SPEED_HIGH ≤ speed
  · exact ⟨bytes, if_pos hs, rfl, hg⟩
  have htotal := hg.total
  have hheader := hg.header
  obtain ⟨header, rest, rfl, h9, hn, hall, ⟨intf, hm, hi⟩, hcard, hrun⟩ :=
    patchConfigurationForUdecx_records hparse hg hs
  have hrest : ∀ record ∈ rest, PatchableRecord record :=
    fun record hm => (hall record (List.mem_cons_of_mem _ hm)).1
  have hread : ∀ (tail : List Byte) i, i < 9 → (header ++ tail).getD i 0 = header.getD i 0 := by
    intro tail i hlt
    rw [List.getD_eq_getElem?_getD, List.getElem?_append_left (by omega), List.getD_eq_getElem?_getD]
  rw [hread _ _ (by omega), hread _ _ (by omega), List.length_append] at htotal
  have hlen : (rest.map patchRecord).flatten.length = rest.flatten.length := by
    rw [List.length_flatten, List.length_flatten, List.map_map]
    congr 1
    refine List.map_congr_left fun record hm => ?_
    exact (hrest record hm).length_patchRecord
  have hflat : header ++ (rest.map patchRecord).flatten = ((header :: rest).map patchRecord).flatten := by
    rw [List.map_cons, List.flatten_cons, patchRecord_of_not_endpoint hn]
  refine ⟨_, hrun, by rw [List.length_append, List.length_append, hlen], ?_, ?_, ?_, ?_⟩
  · rw [List.length_append]
    omega
  · rw [List.getElem?_append_left (by omega), List.getElem?_append_left (by omega)] at hheader ⊢
    exact hheader
  · rw [hread _ _ (by omega), hread _ _ (by omega), List.length_append, hlen]
    exact htotal
  · refine ⟨(header :: rest).map patchRecord, ⟨hflat.symm, ?_⟩, ?_, ?_, ?_⟩
    · simp only [List.forall_mem_map]
      exact fun record hm => (hall record hm).1.isRecord_patchRecord
    · simp only [List.forall_mem_map]
      exact fun record hm => (hall record hm).1.allowed (hall record hm).2
    · exact ⟨patchRecord intf, List.mem_map_of_mem hm, (hall intf hm).1.isInterface_iff.mpr hi⟩
    · rw [interfaceNumbers_map_patchRecord fun record hm => (hall record hm).1, hcard,
        hread _ _ (by omega), hread _ _ (by omega)]

end Usbip

import Mathlib.Data.Finset.Card
import Mathlib.Data.List.Basic
import Usbip.DeviceFilter.Parser
import Usbip.Library.RecordWalk

namespace Usbip.DeviceFilter

open Usbip.Library.RecordWalk

def IsInterface (record : List Byte) : Prop := record[1]? = some interfaceDescriptorType

def IsEndpoint (record : List Byte) : Prop := record[1]? = some endpointDescriptorType

instance (record : List Byte) : Decidable (IsInterface record) :=
  inferInstanceAs (Decidable (record[1]? = some interfaceDescriptorType))

def interfaceOf (record : List Byte) : InterfaceClass where
  number := record.getD 2 0
  alternateSetting := record.getD 3 0
  cls := record.getD 5 0
  subcls := record.getD 6 0
  protocol := record.getD 7 0

-- What the filter demands of one descriptor of a configuration.
structure AllowedRecord (isAllowed : InterfaceClass → Bool) (record : List Byte) : Prop where
  intf : IsInterface record → 9 ≤ record.length ∧ isAllowed (interfaceOf record) = true
  endpoint : IsEndpoint record → 7 ≤ record.length

def interfaceNumbers (records : List (List Byte)) : List Byte :=
  (records.filter (fun record => decide (IsInterface record))).map (fun record => (interfaceOf record).number)

-- The grammar of the configurations the filter lets through.
structure Grammar (isAllowed : InterfaceClass → Bool) (bytes : List Byte) : Prop where
  size : 9 ≤ bytes.length
  header : bytes[0]? = some 9 ∧ bytes[1]? = some 2
  total : (bytes.getD 2 0).toNat + 256 * (bytes.getD 3 0).toNat = bytes.length
  records : ∃ records, Tiles UInt8.toNat bytes records ∧
    (∀ record ∈ records, AllowedRecord isAllowed record) ∧
    (∃ record ∈ records, IsInterface record) ∧
    (interfaceNumbers records).toFinset.card = (bytes.getD 4 0).toNat

-- `intf` is the first interface, in walk order, that the predicate turns down.
def FirstDisallowed (isAllowed : InterfaceClass → Bool) (bytes : List Byte)
    (intf : InterfaceClass) : Prop :=
  ∃ (before : List (List Byte)) (record after : List Byte),
    bytes = before.flatten ++ (record ++ after) ∧
    (∀ r ∈ before, IsRecord UInt8.toNat r ∧ AllowedRecord isAllowed r) ∧
    IsRecord UInt8.toNat record ∧ IsInterface record ∧ 9 ≤ record.length ∧
    isAllowed intf = false ∧ intf = interfaceOf record

def Walk.absorb (walk : Walk) (record : List Byte) : Walk :=
  if IsInterface record then walk.observe (interfaceOf record) else walk

inductive WalkOutcome (isAllowed : InterfaceClass → Bool) (rest : List Byte) (walk out : Walk) : Prop
  | finished (records : List (List Byte)) (ht : Tiles UInt8.toNat rest records)
      (ha : ∀ record ∈ records, AllowedRecord isAllowed record)
      (ho : out = records.foldl Walk.absorb walk)
  | disallowed (hf : FirstDisallowed isAllowed rest out.result.offendingInterface)
      (ho : out.result.error = .interfaceNotAllowed)
      (hd : ¬Admissible UInt8.toNat (AllowedRecord isAllowed) rest)
  | malformed (hd : ¬Admissible UInt8.toNat (AllowedRecord isAllowed) rest)
      (ho : out.result.error ≠ .none) (hn : out.result.error ≠ .interfaceNotAllowed)

theorem FirstDisallowed.cons {isAllowed : InterfaceClass → Bool} {record rest : List Byte}
    {intf : InterfaceClass} (hr : IsRecord UInt8.toNat record) (ha : AllowedRecord isAllowed record)
    (h : FirstDisallowed isAllowed rest intf) : FirstDisallowed isAllowed (record ++ rest) intf := by
  obtain ⟨before, bad, after, rfl, hb, hbad⟩ := h
  refine ⟨record :: before, bad, after, by simp, ?_, hbad⟩
  intro r hm
  rcases List.mem_cons.mp hm with rfl | hm
  · exact ⟨hr, ha⟩
  · exact hb r hm

theorem WalkOutcome.cons {isAllowed : InterfaceClass → Bool} {record rest : List Byte}
    {walk out : Walk} (hr : IsRecord UInt8.toNat record) (ha : AllowedRecord isAllowed record)
    (h : WalkOutcome isAllowed rest (walk.absorb record) out) :
    WalkOutcome isAllowed (record ++ rest) walk out := by
  cases h with
  | finished records ht hall ho =>
      refine .finished (record :: records) (ht.cons hr) ?_ ho
      intro r hm
      rcases List.mem_cons.mp hm with rfl | hm
      · exact ha
      · exact hall r hm
  | disallowed hf ho hd =>
      exact .disallowed (hf.cons hr ha) ho (fun h => hd ((admissible_append_iff hr).mp h).2)
  | malformed hd ho hn =>
      exact .malformed (fun h => hd ((admissible_append_iff hr).mp h).2) ho hn

section Record

variable {isAllowed : InterfaceClass → Bool} {record : List Byte} {walk : Walk}

theorem AllowedRecord.of_interface (hi : IsInterface record) (h9 : 9 ≤ record.length)
    (hallow : isAllowed (interfaceOf record) = true) : AllowedRecord isAllowed record := by
  refine ⟨fun _ => ⟨h9, hallow⟩, fun he => ?_⟩
  have hkind := Option.some_inj.mp (hi.symm.trans he)
  simp [interfaceDescriptorType, endpointDescriptorType] at hkind

theorem AllowedRecord.of_other (hi : ¬IsInterface record) (h7 : IsEndpoint record → 7 ≤ record.length) :
    AllowedRecord isAllowed record :=
  ⟨fun h => absurd h hi, h7⟩

theorem not_admissible_append (hr : IsRecord UInt8.toNat record) (ha : ¬AllowedRecord isAllowed record)
    (rest : List Byte) : ¬Admissible UInt8.toNat (AllowedRecord isAllowed) (record ++ rest) :=
  fun h => ha ((admissible_append_iff hr).mp h).1

-- A walk that is given up for another reason than the class of an interface.
theorem WalkOutcome.of_fail {rest : List Byte} {reason : DescriptorError} (hnone : reason ≠ .none)
    (hnot : reason ≠ .interfaceNotAllowed) (hd : ¬Admissible UInt8.toNat (AllowedRecord isAllowed) rest) :
    WalkOutcome isAllowed rest walk (walk.fail reason) :=
  .malformed hd hnone hnot

-- The walk ends at an interface that the predicate turns down.
theorem WalkOutcome.of_reject (hr : IsRecord UInt8.toNat record) (hi : IsInterface record) (h9 : 9 ≤ record.length)
    (hallow : ¬isAllowed (interfaceOf record) = true) (rest : List Byte) :
    WalkOutcome isAllowed (record ++ rest) walk ((walk.observe (interfaceOf record)).reject (interfaceOf record)) := by
  refine .disallowed ?_ rfl (not_admissible_append hr (fun ha => hallow (ha.intf hi).2) rest)
  exact ⟨[], record, rest, rfl, by simp, hr, hi, h9, Bool.eq_false_iff.mpr hallow, rfl⟩

end Record

theorem getElem?_after (done rest : List Byte) (i : Nat) :
    (done ++ rest)[done.length + i]? = rest[i]? := by
  rw [List.getElem?_append_right (by omega), Nat.add_sub_cancel_left]

theorem readInterface_after (done rest : List Byte) (h : 9 ≤ rest.length) :
    readInterface (done ++ rest) done.length = some (interfaceOf rest) := by
  simp only [readInterface, getElem?_after, interfaceOf]
  simp [List.getElem?_eq_getElem (show 2 < rest.length by omega),
    List.getElem?_eq_getElem (show 3 < rest.length by omega),
    List.getElem?_eq_getElem (show 5 < rest.length by omega),
    List.getElem?_eq_getElem (show 6 < rest.length by omega),
    List.getElem?_eq_getElem (show 7 < rest.length by omega)]

-- The interface fields only read the first nine bytes.
theorem interfaceOf_append (record rest : List Byte) (h : 9 ≤ record.length) :
    interfaceOf (record ++ rest) = interfaceOf record := by
  simp only [interfaceOf, List.getD_eq_getElem?_getD]
  simp [List.getElem?_append_left (show 2 < record.length by omega),
    List.getElem?_append_left (show 3 < record.length by omega),
    List.getElem?_append_left (show 5 < record.length by omega),
    List.getElem?_append_left (show 6 < record.length by omega),
    List.getElem?_append_left (show 7 < record.length by omega)]

theorem isRecord_take {rest : List Byte} {length : Byte} (h0 : rest[0]? = some length)
    (h2 : 2 ≤ length.toNat) (hle : length.toNat ≤ rest.length) :
    IsRecord UInt8.toNat (rest.take length.toNat) := by
  cases rest with
  | nil => simp at h0
  | cons first tail =>
      have he : first = length := by simpa using h0
      subst he
      refine ⟨by simp only [List.length_take]; omega, ?_⟩
      rw [List.head?_take, if_neg (by omega)]
      simp only [List.head?_cons, Option.map_some, List.length_take]
      congr 1
      omega

section Round

variable {isAllowed : InterfaceClass → Bool} {record rest : List Byte} {type : Byte} (fuel : Nat) (done : List Byte)
  (walk : Walk)

variable (isAllowed) in
-- The walk is given up where no record can be cut off.
theorem walkLoop_undelimited (hne : rest ≠ [])
    (hcut : ∀ record after, rest = record ++ after → ¬IsRecord UInt8.toNat record) :
    ∃ reason, reason ≠ .none ∧ reason ≠ .interfaceNotAllowed ∧
      walkLoop (done ++ rest) isAllowed (fuel + 1) done.length walk = some (walk.fail reason) := by
  have hpos : 0 < rest.length := List.length_pos_iff.mpr hne
  simp only [walkLoop, List.length_append, Nat.lt_add_right_iff_pos, Nat.add_sub_cancel_left]
  rw [if_pos hpos]
  by_cases h2 : rest.length < 2
  · exact ⟨.descriptorHeaderTruncated, by decide, by decide, if_pos h2⟩
  rw [if_neg h2]
  obtain ⟨length, h0⟩ : ∃ length, rest[0]? = some length := ⟨_, List.getElem?_eq_getElem hpos⟩
  obtain ⟨type, h1⟩ : ∃ type, rest[1]? = some type :=
    ⟨_, List.getElem?_eq_getElem (show 1 < rest.length by omega)⟩
  have hfirst : (done ++ rest)[done.length]? = some length := by
    simpa using (getElem?_after done rest 0).trans h0
  rw [getElem?_after, hfirst, h1]
  simp only [Option.bind_eq_bind, Option.bind_some]
  by_cases hlen : length.toNat < 2 ∨ rest.length < length.toNat
  · exact ⟨.invalidDescriptorLength, by decide, by decide, if_pos hlen⟩
  · have hrec := isRecord_take h0 (by omega) (by omega)
    exact absurd hrec (hcut _ _ (List.take_append_drop length.toNat rest).symm)

-- A round of the loop at a record that is well delimited.
theorem walkLoop_record (hr : IsRecord UInt8.toNat record) (htype : record[1]? = some type) :
    walkLoop (done ++ (record ++ rest)) isAllowed (fuel + 1) done.length walk =
      if type = interfaceDescriptorType then
        if record.length < interfaceDescriptorSize then some (walk.fail .invalidInterfaceDescriptor)
        else if isAllowed (interfaceOf record) then
          walkLoop (done ++ record ++ rest) isAllowed fuel (done ++ record).length (walk.observe (interfaceOf record))
        else some ((walk.observe (interfaceOf record)).reject (interfaceOf record))
      else if type = endpointDescriptorType ∧ record.length < endpointDescriptorSize then
        some (walk.fail .invalidEndpointDescriptor)
      else walkLoop (done ++ record ++ rest) isAllowed fuel (done ++ record).length walk := by
  have h2 := hr.1
  obtain ⟨length, h0, hlength⟩ : ∃ length, record[0]? = some length ∧ length.toNat = record.length := by
    have hhead := hr.2
    rw [Option.map_eq_some_iff] at hhead
    rwa [← List.head?_eq_getElem?]
  have hfirst : (done ++ (record ++ rest))[done.length]? = some length := by
    have hafter := getElem?_after done (record ++ rest) 0
    rw [Nat.add_zero] at hafter
    rw [hafter, List.getElem?_append_left (by omega), h0]
  have hsecond : (done ++ (record ++ rest))[done.length + 1]? = some type := by
    rw [getElem?_after, List.getElem?_append_left (by omega), htype]
  have hread : interfaceDescriptorSize ≤ record.length →
      readInterface (done ++ (record ++ rest)) done.length = some (interfaceOf record) := by
    intro h9
    rw [readInterface_after _ _ (by rw [List.length_append]; exact Nat.le_add_right_of_le h9),
      interfaceOf_append _ _ h9]
  have hroom : done.length < (done ++ (record ++ rest)).length := by
    simp only [List.length_append]
    omega
  have hleft : (done ++ (record ++ rest)).length - done.length = record.length + rest.length := by
    simp only [List.length_append]
    omega
  rw [walkLoop, if_pos hroom, hleft, if_neg (by omega), hfirst, hsecond]
  simp only [Option.bind_eq_bind, Option.bind_some]
  rw [hlength, if_neg (by omega), List.append_assoc, List.length_append]
  by_cases h9 : record.length < interfaceDescriptorSize
  · rw [if_pos h9, if_pos h9]
  · rw [if_neg h9, if_neg h9, hread (Nat.not_lt.mp h9)]
    rfl

end Round

theorem walkLoop_spec (isAllowed : InterfaceClass → Bool) (fuel : Nat) (done rest : List Byte)
    (walk : Walk) (hf : rest.length < fuel) :
    ∃ out, walkLoop (done ++ rest) isAllowed fuel done.length walk = some out ∧
      WalkOutcome isAllowed rest walk out := by
  induction fuel generalizing done rest walk with
  | zero => omega
  | succ fuel ih =>
      by_cases hne : rest = []
      · subst hne
        exact ⟨walk, by simp [walkLoop], .finished [] tiles_nil (by simp) rfl⟩
      by_cases hcut : ∃ record after, rest = record ++ after ∧ IsRecord UInt8.toNat record
      case neg =>
        obtain ⟨reason, hnone, hnot, hrun⟩ := walkLoop_undelimited isAllowed fuel done walk hne
          fun record after he hr => hcut ⟨record, after, he, hr⟩
        refine ⟨_, hrun, .of_fail hnone hnot fun h => ?_⟩
        obtain ⟨record, after, he, hr, -⟩ := h.exists_record hne
        exact hcut ⟨record, after, he, hr⟩
      obtain ⟨record, after, rfl, hr⟩ := hcut
      have h2 := hr.1
      obtain ⟨type, htype⟩ : ∃ type, record[1]? = some type := ⟨_, List.getElem?_eq_getElem h2⟩
      have hnext := ih (done ++ record) after
      rw [walkLoop_record fuel done walk hr htype]
      rw [List.length_append] at hf
      by_cases hi : type = interfaceDescriptorType
      · have hintf : IsInterface record := by rw [IsInterface, htype, hi]
        rw [if_pos hi]
        by_cases h9 : record.length < interfaceDescriptorSize
        · refine ⟨_, if_pos h9, .of_fail (by decide) (by decide) (not_admissible_append hr (fun ha => ?_) after)⟩
          exact absurd (ha.intf hintf).1 (Nat.not_le.mpr h9)
        rw [if_neg h9]
        have hlong : 9 ≤ record.length := Nat.not_lt.mp h9
        by_cases hallow : isAllowed (interfaceOf record) = true
        · rw [if_pos hallow]
          obtain ⟨out, hrun, hout⟩ := hnext (walk.observe (interfaceOf record)) (by omega)
          refine ⟨out, hrun, .cons hr (.of_interface hintf hlong hallow) ?_⟩
          rwa [Walk.absorb, if_pos hintf]
        · exact ⟨_, if_neg hallow, .of_reject hr hintf hlong hallow after⟩
      · have hnotintf : ¬IsInterface record := by
          rw [IsInterface, htype, Option.some_inj]
          exact hi
        rw [if_neg hi]
        by_cases h7 : type = endpointDescriptorType ∧ record.length < endpointDescriptorSize
        · refine ⟨_, if_pos h7, .of_fail (by decide) (by decide) (not_admissible_append hr (fun ha => ?_) after)⟩
          exact absurd (ha.endpoint (by rw [IsEndpoint, htype, h7.1])) (Nat.not_le.mpr h7.2)
        · have hlong : IsEndpoint record → 7 ≤ record.length := by
            intro he
            rw [IsEndpoint, htype, Option.some_inj] at he
            by_contra hshort
            exact h7 ⟨he, Nat.not_le.mp hshort⟩
          rw [if_neg h7]
          obtain ⟨out, hrun, hout⟩ := hnext walk (by omega)
          refine ⟨out, hrun, .cons hr (.of_other hnotintf hlong) ?_⟩
          rwa [Walk.absorb, if_neg hnotintf]

-- The loop's table and counters agree with the interface numbers met so far.
structure Walk.Counts (walk : Walk) (declared : Nat) (numbers : List Byte) : Prop where
  error : walk.result.error = .none
  declared : walk.result.declaredInterfaces = declared
  seen : ∀ n, walk.seenInterfaces n = true ↔ n ∈ numbers
  observed : walk.result.observedInterfaces = numbers.toFinset.card
  descriptors : walk.interfaceDescriptors = numbers.length

theorem Walk.Counts.observe {walk : Walk} {declared : Nat} {numbers : List Byte}
    (h : walk.Counts declared numbers) (intf : InterfaceClass) :
    (walk.observe intf).Counts declared (numbers ++ [intf.number]) := by
  by_cases hs : walk.seenInterfaces intf.number = true
  · have hm := (h.seen intf.number).mp hs
    refine ⟨?_, ?_, ?_, ?_, ?_⟩ <;> simp only [Walk.observe, if_pos hs]
    · exact h.error
    · exact h.declared
    · intro n
      simp [h.seen, or_comm]
    · rw [h.observed, List.toFinset_append]
      congr 1
      ext n
      simp only [Finset.mem_union, List.mem_toFinset, List.mem_singleton]
      exact ⟨Or.inl, fun hn => hn.elim id (fun e => e ▸ hm)⟩
    · simp [h.descriptors]
  · have hm : intf.number ∉ numbers := fun hc => hs ((h.seen intf.number).mpr hc)
    refine ⟨?_, ?_, ?_, ?_, ?_⟩ <;> simp only [Walk.observe, if_neg hs]
    · exact h.error
    · exact h.declared
    · intro n
      simp [h.seen, or_comm]
    · have hdis : Disjoint numbers.toFinset [intf.number].toFinset := by
        simp [hm]
      rw [h.observed, List.toFinset_append, Finset.card_union_of_disjoint hdis]
      simp
    · simp [h.descriptors]

theorem Walk.Counts.foldl_absorb {walk : Walk} {declared : Nat} {numbers : List Byte}
    (h : walk.Counts declared numbers) (records : List (List Byte)) :
    (records.foldl Walk.absorb walk).Counts declared (numbers ++ interfaceNumbers records) := by
  induction records generalizing walk numbers with
  | nil => simpa [interfaceNumbers] using h
  | cons record rest ih =>
      rw [List.foldl_cons]
      by_cases hi : IsInterface record
      · have hw : (walk.absorb record).Counts declared (numbers ++ [(interfaceOf record).number]) := by
          rw [Walk.absorb, if_pos hi]
          exact h.observe _
        simpa [interfaceNumbers, hi] using ih hw
      · have hw : (walk.absorb record).Counts declared numbers := by
          rw [Walk.absorb, if_neg hi]
          exact h
        simpa [interfaceNumbers, hi] using ih hw

theorem interfaceNumbers_ne_nil_iff (records : List (List Byte)) :
    interfaceNumbers records ≠ [] ↔ ∃ record ∈ records, IsInterface record := by
  simp [interfaceNumbers]

theorem Walk.Counts.finish_error_iff {walk : Walk} {declared : Nat} {numbers : List Byte}
    (h : walk.Counts declared numbers) :
    walk.finish.error = .none ↔ numbers ≠ [] ∧ numbers.toFinset.card = declared := by
  have hz : walk.interfaceDescriptors = 0 ↔ numbers = [] := by
    rw [h.descriptors, List.length_eq_zero_iff]
  simp only [Walk.finish, h.error, ne_eq, not_true_eq_false, if_false, hz, h.observed, h.declared]
  by_cases hn : numbers = []
  · simp [hn]
  · by_cases hc : numbers.toFinset.card = declared <;> simp [hn, hc, h.error]

theorem Walk.Counts.finish_allowed {walk : Walk} {declared : Nat} {numbers : List Byte}
    (h : walk.Counts declared numbers) : walk.finish.error ≠ .interfaceNotAllowed := by
  simp only [Walk.finish, h.error, ne_eq, not_true_eq_false, if_false]
  split_ifs <;> simp [h.error]

theorem Walk.finish_of_error {walk : Walk} (h : walk.result.error ≠ .none) :
    walk.finish = walk.result :=
  if_pos h

inductive Verdict (isAllowed : InterfaceClass → Bool) (bytes : List Byte)
    (result : DescriptorResult) : Prop
  | accepted (hg : Grammar isAllowed bytes) (he : result.error = .none)
  | blamed (hg : ¬Grammar isAllowed bytes) (he : result.error = .interfaceNotAllowed)
      (hf : FirstDisallowed isAllowed bytes result.offendingInterface)
  | refused (hg : ¬Grammar isAllowed bytes) (he : result.error ≠ .none)
      (hn : result.error ≠ .interfaceNotAllowed)

theorem Grammar.admissible {isAllowed : InterfaceClass → Bool} {bytes : List Byte}
    (h : Grammar isAllowed bytes) : Admissible UInt8.toNat (AllowedRecord isAllowed) bytes := by
  obtain ⟨records, ht, ha, _⟩ := h.records
  exact ⟨records, ht, ha⟩

-- The walk over a buffer whose header already passed.
theorem verdict_of_walk {isAllowed : InterfaceClass → Bool} {bytes : List Byte} {declared : Nat}
    {out : Walk} (h9 : 9 ≤ bytes.length) (hheader : bytes[0]? = some 9 ∧ bytes[1]? = some 2)
    (htotal : (bytes.getD 2 0).toNat + 256 * (bytes.getD 3 0).toNat = bytes.length)
    (hdecl : (bytes.getD 4 0).toNat = declared)
    (hout : WalkOutcome isAllowed bytes { result := { declaredInterfaces := declared } } out) :
    Verdict isAllowed bytes out.finish := by
  cases hout with
  | finished records htile hall ho =>
      have hc : Walk.Counts { result := { declaredInterfaces := declared } } declared [] :=
        ⟨rfl, rfl, by simp, rfl, rfl⟩
      have hcounts := hc.foldl_absorb records
      rw [← ho, List.nil_append] at hcounts
      by_cases he : out.finish.error = .none
      · obtain ⟨hex, hcard⟩ := hcounts.finish_error_iff.mp he
        rw [interfaceNumbers_ne_nil_iff] at hex
        exact .accepted ⟨h9, hheader, htotal, records, htile, hall, hex, by rw [hdecl, hcard]⟩ he
      · refine .refused (fun h => he ?_) he hcounts.finish_allowed
        obtain ⟨others, hothers, _, hex, hcard⟩ := h.records
        obtain rfl := tiles_unique htile hothers
        exact hcounts.finish_error_iff.mpr
          ⟨(interfaceNumbers_ne_nil_iff _).mpr hex, by rw [← hdecl, hcard]⟩
  | disallowed hf ho hd =>
      rw [Walk.finish_of_error (by rw [ho]; simp)]
      exact .blamed (fun h => hd h.admissible) ho hf
  | malformed hd ho hn =>
      rw [Walk.finish_of_error ho]
      exact .refused (fun h => hd h.admissible) ho hn

theorem evaluateConfiguration_verdict (bytes : List Byte) (isAllowed : InterfaceClass → Bool) :
    ∃ result, evaluateConfiguration (some bytes) isAllowed = some result ∧
      Verdict isAllowed bytes result := by
  simp only [evaluateConfiguration]
  by_cases h9 : bytes.length < configurationDescriptorSize
  · refine ⟨_, if_pos h9, .refused (fun h => ?_) (by simp) (by simp)⟩
    have := h.size
    simp only [configurationDescriptorSize] at h9
    omega
  rw [if_neg h9]
  simp only [configurationDescriptorSize] at h9 ⊢
  obtain ⟨b0, h0⟩ : ∃ b, bytes[0]? = some b := ⟨_, List.getElem?_eq_getElem (by omega)⟩
  obtain ⟨b1, h1⟩ : ∃ b, bytes[1]? = some b := ⟨_, List.getElem?_eq_getElem (by omega)⟩
  obtain ⟨b2, h2⟩ : ∃ b, bytes[2]? = some b := ⟨_, List.getElem?_eq_getElem (by omega)⟩
  obtain ⟨b3, h3⟩ : ∃ b, bytes[3]? = some b := ⟨_, List.getElem?_eq_getElem (by omega)⟩
  obtain ⟨b4, h4⟩ : ∃ b, bytes[4]? = some b := ⟨_, List.getElem?_eq_getElem (by omega)⟩
  rw [h0, h1, h2, h3, h4]
  simp only [Option.bind_eq_bind, Option.bind_some]
  by_cases hh : b0.toNat ≠ 9 ∨ b1 ≠ configurationDescriptorType
  · refine ⟨_, if_pos hh, .refused (fun h => ?_) (by simp) (by simp)⟩
    have := h.header
    rw [h0, h1, Option.some_inj, Option.some_inj] at this
    rcases hh with hh | hh
    · exact absurd (by rw [this.1]; rfl) hh
    · exact absurd this.2 hh
  rw [if_neg hh]
  by_cases ht : b2.toNat + 256 * b3.toNat ≠ bytes.length
  · refine ⟨_, if_pos ht, .refused (fun h => ?_) (by simp) (by simp)⟩
    have := h.total
    simp only [List.getD_eq_getElem?_getD, h2, h3, Option.getD_some] at this
    exact absurd this ht
  rw [if_neg ht]
  obtain ⟨out, hrun, hout⟩ := walkLoop_spec isAllowed (bytes.length + 1) [] bytes
    { result := { declaredInterfaces := b4.toNat } } (by omega)
  simp only [List.nil_append, List.length_nil] at hrun
  simp only [hrun, Option.bind_some, Option.pure_def]
  refine ⟨_, rfl, verdict_of_walk (by omega) ?_ ?_ ?_ hout⟩
  · rw [h0, h1]
    simp only [ne_eq, not_or, not_not, configurationDescriptorType] at hh
    exact ⟨congrArg some (UInt8.toNat_inj.mp hh.1), congrArg some hh.2⟩
  · simp only [List.getD_eq_getElem?_getD, h2, h3, Option.getD_some]
    exact not_not.mp ht
  · simp only [List.getD_eq_getElem?_getD, h4, Option.getD_some]

-- The parser accepts exactly the grammar, blames the first disallowed interface
-- and never reads outside the buffer.
theorem evaluateConfiguration_accepts_grammar (bytes : List Byte)
    (isAllowed : InterfaceClass → Bool) :
    ∃ result, evaluateConfiguration (some bytes) isAllowed = some result ∧
      (result.error = .none ↔ Grammar isAllowed bytes) ∧
      (result.error = .interfaceNotAllowed →
        FirstDisallowed isAllowed bytes result.offendingInterface) := by
  obtain ⟨result, hrun, hv⟩ := evaluateConfiguration_verdict bytes isAllowed
  refine ⟨result, hrun, ?_⟩
  cases hv with
  | accepted hg he => exact ⟨by simp [hg, he], by simp [he]⟩
  | blamed hg he hf => exact ⟨by simp [hg, he], fun _ => hf⟩
  | refused hg he hn => exact ⟨by simp [hg, he], fun h => absurd h hn⟩

end Usbip.DeviceFilter

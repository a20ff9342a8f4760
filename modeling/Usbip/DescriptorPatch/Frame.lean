import Usbip.DescriptorPatch.Live

namespace Usbip

open Usbip.Library.RecordWalk
open Usbip.DeviceFilter

-- What the patch may change: the fields of the endpoints on the walk, and an interval is a right one then.
structure Patched (buffer patched : List Byte) (start : Nat) : Prop where
  size : patched.length = buffer.length
  frame : ∀ i, patched[i]? ≠ buffer[i]? → ∃ cur type k, Reaches buffer start cur ∧ EndpointAt buffer cur ∧
    TypeAt buffer cur type ∧ k ∈ patchedFields type ∧ i = cur + k
  interval : ∀ cur length type, Reaches buffer start cur → EndpointAt buffer cur → buffer[cur]? = some length →
    sizeofUsbEndpointDescriptor ≤ length.toNat → TypeAt buffer cur type → 6 ∈ patchedFields type →
    ∃ v, patched[cur + 6]? = some v ∧ 1 ≤ v.toNat ∧ v.toNat ≤ 16

section Frame

variable {parse : ParseDescriptors} {buffer patched out : List Byte} {start : Nat} {length : Byte}

-- Nothing is changed before the first endpoint.
theorem Patched.same (h : Patched buffer patched start) {i : Nat} (hi : i < start) : patched[i]? = buffer[i]? := by
  by_contra hne
  obtain ⟨cur, type, k, hreach, -, -, -, rfl⟩ := h.frame i hne
  have hle := hreach.le
  omega

theorem Patched.of_advance (h : Advance parse buffer patched start length)
    (hrest : Patched patched out (start + length.toNat)) : Patched buffer out start := by
  constructor
  case size => rw [hrest.size, h.size]
  case frame =>
    intro i hi
    by_cases hlater : out[i]? = patched[i]?
    · rw [hlater] at hi
      obtain ⟨hendpoint, -, type, hpatch⟩ | ⟨-, rfl⟩ := h.change
      · obtain ⟨k, hk, hi⟩ := hpatch.frame i hi
        exact ⟨start, type, k, .here start, hendpoint, hpatch.kind, hk, hi⟩
      · exact absurd rfl hi
    · obtain ⟨cur, type, k, hreach, hendpoint, hkind, hk, hi⟩ := hrest.frame i hlater
      have hle := hreach.le
      have hback := hreach.congr fun j hj => (h.same j hj).symm
      rw [EndpointAt, h.same _ (by omega)] at hendpoint
      rw [TypeAt, h.same _ (by omega)] at hkind
      exact ⟨cur, type, k, .next h.here h.pos hback, hendpoint, hkind, hk, hi⟩
  case interval =>
    intro cur length' type hreach hendpoint hlength hlong hkind hsix
    cases hreach with
    | here =>
        cases h.here.symm.trans hlength
        obtain ⟨-, -, type', hpatch⟩ | ⟨hnot, -⟩ := h.change
        · cases hkind.symm.trans hpatch.kind
          obtain ⟨v, hv, hbounds⟩ := hpatch.interval hsix
          unfold sizeofUsbEndpointDescriptor at hlong
          exact ⟨v, (hrest.same (by omega)).trans hv, hbounds⟩
        · exact absurd ⟨hendpoint, hlong⟩ hnot
    | next hlength' _ hreach =>
        cases h.here.symm.trans hlength'
        have hle := hreach.le
        refine hrest.interval cur length' type (hreach.congr h.same) ?_ ?_ hlong ?_ hsix
        · rw [EndpointAt, h.same _ (by omega)]
          exact hendpoint
        · rw [h.same _ hle]
          exact hlength
        · rw [TypeAt, h.same _ (by omega)]
          exact hkind

-- Induction on the bytes that are left.
theorem patchLoop_patched (hparse : parse.Walks) (htotal : wTotalLength buffer = some buffer.length) {fuel : Nat}
    (h : patchLoop parse fuel buffer start = some out) : Patched buffer out start := by
  induction hleft : buffer.length - start using Nat.strongRecOn generalizing buffer start fuel with
  | ind left ih =>
      cases fuel with
      | zero => cases h
      | succ fuel =>
          cases patchLoop_round hparse htotal with
          | done _ hnone hrun =>
              rw [hrun] at h
              cases h
              refine ⟨rfl, fun i hi => absurd rfl hi, fun cur _ _ hreach hendpoint => ?_⟩
              exact absurd hendpoint (hnone cur hreach)
          | stuck _ hrun =>
              rw [hrun] at h
              cases h
          | advance patched length hadvance =>
              have hless := hadvance.less
              refine .of_advance hadvance ?_
              obtain hrun | hrun := hadvance.run fuel
              · rw [hrun] at h
                exact ih _ (by omega) (hadvance.total htotal) h rfl
              · rw [hrun] at h
                exact ih _ (by omega) (hadvance.total htotal) h rfl

end Frame

section Checked

variable {isAllowed : InterfaceClass → Bool} {bytes : List Byte} {records : List (List Byte)}

-- The result of the check, in terms of the records.
theorem DeviceFilter.Grammar.evaluateConfiguration_eq (hg : Grammar isAllowed bytes)
    (ht : Tiles UInt8.toNat bytes records) :
    evaluateConfiguration (some bytes) isAllowed =
      some (records.foldl Walk.absorb { result := { declaredInterfaces := (bytes.getD 4 0).toNat } }).finish := by
  have hsize := hg.size
  obtain ⟨h0, h1⟩ := hg.header
  have hread : ∀ i < 9, bytes[i]? = some (bytes.getD i 0) := by
    intro i hi
    rw [List.getD_eq_getElem?_getD, List.getElem?_eq_getElem (by omega), Option.getD_some]
  obtain ⟨out, hrun, hout⟩ := walkLoop_spec isAllowed (bytes.length + 1) [] bytes
    { result := { declaredInterfaces := (bytes.getD 4 0).toNat } } (by omega)
  rw [List.nil_append, List.length_nil] at hrun
  have hfinished : out = records.foldl Walk.absorb { result := { declaredInterfaces := (bytes.getD 4 0).toNat } } := by
    cases hout with
    | finished records' ht' _ ho =>
        obtain rfl := tiles_unique ht ht'
        exact ho
    | disallowed _ _ hd => exact absurd hg.admissible hd
    | malformed hd _ _ => exact absurd hg.admissible hd
  have hlong : ¬ bytes.length < configurationDescriptorSize := Nat.not_lt.mpr hsize
  have hheader : ¬ ((9 : Byte).toNat ≠ configurationDescriptorSize ∨ (2 : Byte) ≠ configurationDescriptorType) := by
    decide
  unfold evaluateConfiguration
  dsimp only
  rw [if_neg hlong, h0, h1, hread 2 (by decide), hread 3 (by decide), hread 4 (by decide)]
  dsimp only [Option.bind_eq_bind, Option.bind_some]
  rw [if_neg hheader, if_neg (not_not.mpr hg.total), hrun, Option.bind_some, hfinished]
  rfl

theorem absorb_patchRecord {record : List Byte} (h : PatchableRecord record) (walk : Walk) :
    walk.absorb (patchRecord record) = walk.absorb record := by
  by_cases hi : IsInterface record
  · rw [patchRecord_of_not_endpoint (not_isEndpoint_of_isInterface hi)]
  · rw [Walk.absorb, Walk.absorb, if_neg hi, if_neg fun hp => hi (h.isInterface_iff.mp hp)]

theorem foldl_absorb_patchRecord (h : ∀ record ∈ records, PatchableRecord record) (walk : Walk) :
    (records.map patchRecord).foldl Walk.absorb walk = records.foldl Walk.absorb walk := by
  induction records generalizing walk with
  | nil => rfl
  | cons record rest ih =>
      rw [List.map_cons, List.foldl_cons, List.foldl_cons, absorb_patchRecord (h record List.mem_cons_self)]
      exact ih (fun r hm => h r (List.mem_cons_of_mem _ hm)) _

end Checked

-- The walk of the patch meets the records that the check has met: no byte of them changes but the fields that it is
-- meant to change, and the check comes to the same result.
theorem patchConfigurationForUdecx_preserves {parse : ParseDescriptors} (hparse : parse.Walks)
    (isAllowed : InterfaceClass → Bool) {bytes : List Byte} {result : DescriptorResult}
    (hresult : evaluateConfiguration (some bytes) isAllowed = some result) (hnone : result.error = .none) (speed : Int) :
    ∃ patched, patchConfigurationForUdecx parse bytes speed = some patched ∧
      (if USB_SPEED_HIGH ≤ speed then patched = bytes else Patched bytes patched 0) ∧
      evaluateConfiguration (some patched) isAllowed = some result := by
  obtain ⟨result', hresult', haccepts, -⟩ := evaluateConfiguration_accepts_grammar bytes isAllowed
  cases hresult.symm.trans hresult'
  have hg := haccepts.mp hnone
  by_cases hspeed : USB_SPEED_HIGH ≤ speed
  · refine ⟨bytes, if_pos hspeed, ?_, hresult⟩
    rw [if_pos hspeed]
  · obtain ⟨patched, hrun, -, hgrammar⟩ := patchConfigurationForUdecx_grammar hparse hg speed
    have hframe : Patched bytes patched 0 := by
      have hloop := hrun
      rw [patchConfigurationForUdecx, if_neg hspeed] at hloop
      exact patchLoop_patched hparse (wTotalLength_of_grammar hg) hloop
    refine ⟨patched, hrun, ?_, ?_⟩
    · rw [if_neg hspeed]
      exact hframe
    obtain ⟨header, rest, rfl, h9, hn, hall, -, -, hrecords⟩ := patchConfigurationForUdecx_records hparse hg hspeed
    cases hrun.symm.trans hrecords
    have hpatchable := fun record hm => (hall record hm).1
    have htiles : Tiles UInt8.toNat (header ++ rest.flatten) (header :: rest) :=
      ⟨rfl, fun record hm => (hpatchable record hm).isRecord⟩
    have htiles' : Tiles UInt8.toNat (header ++ (rest.map patchRecord).flatten) ((header :: rest).map patchRecord) := by
      constructor
      · rw [List.map_cons, List.flatten_cons, patchRecord_of_not_endpoint hn]
      · exact List.forall_mem_map.mpr fun record hm => (hpatchable record hm).isRecord_patchRecord
    have hdeclared : (header ++ (rest.map patchRecord).flatten).getD 4 0 = (header ++ rest.flatten).getD 4 0 := by
      rw [List.getD_eq_getElem?_getD, List.getD_eq_getElem?_getD, List.getElem?_append_left (by omega),
        List.getElem?_append_left (by omega)]
    rw [hgrammar.evaluateConfiguration_eq htiles', foldl_absorb_patchRecord hpatchable, hdeclared, ← hresult,
      hg.evaluateConfiguration_eq htiles]

theorem patchConfigurationForUdecx_preserves_plain :
    ∃ patched, patchConfigurationForUdecx usbdParseDescriptors plainConfiguration 1 = some patched ∧
      Patched plainConfiguration patched 0 ∧
      evaluateConfiguration (some patched) (fun _ => true) = some ⟨.none, 1, 1, {}⟩ := by
  obtain ⟨patched, hrun, hframe, hsame⟩ := patchConfigurationForUdecx_preserves usbdParseDescriptors_walks
    (fun _ => true) (rfl : evaluateConfiguration (some plainConfiguration) _ = some ⟨.none, 1, 1, {}⟩) rfl 1
  rw [if_neg (by decide)] at hframe
  exact ⟨patched, hrun, hframe, hsame⟩

end Usbip

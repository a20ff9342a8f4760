import Usbip.Filter.Request.Theorems
import Usbip.Filter.SelectWalk

namespace Usbip.Filter.Select

open Usbip.Library.Heap
open Usbip.Send

-- The members of a record up to its pipes, or an entry of its pipes, lie in the first `len` bytes.
def Visit.Inside (len : Nat) : Visit → Prop
  | .record offset => offset + offsetPipes ≤ len
  | .pipe offset => offset + sizeofPipe ≤ len
  | .null => False

section Records

variable {memory : Memory} {len r n : Nat}

-- The end of a record is that of its last pipe, or that of its other members.
theorem record_inside_iff :
    (Visit.record r).Inside len ∧ (∀ j < n, (Visit.pipe (pipeOffset r j)).Inside len) ↔ pipeOffset r n ≤ len := by
  simp only [Visit.Inside, pipeOffset, offsetPipes, sizeofPipe]
  constructor
  · rintro ⟨hrecord, hpipes⟩
    cases n with
    | zero => simpa using hrecord
    | succ j =>
      have hlast := hpipes j j.lt_succ_self
      omega
  · intro h
    refine ⟨by omega, fun j hj => ?_⟩
    omega

end Records

section Printing

variable {print : List Visit → Bool} {memory : Memory} {len r n : Nat} {trace : List Visit}

-- What is printed of the pipes adds accesses to pipes of the record.
theorem pipesStr_inside (hpipes : ∀ j < n, (Visit.pipe (pipeOffset r j)).Inside len) {k j : Nat} (hk : j + k ≤ n)
    (htrace : ∀ v ∈ trace, v.Inside len) : ∀ v ∈ (pipesStr print r k j trace).2, v.Inside len := by
  induction k generalizing j trace with
  | zero => exact htrace
  | succ k ih =>
    have hmore : ∀ v ∈ trace ++ [.pipe (pipeOffset r j)], v.Inside len := by
      intro v hv
      rcases List.mem_append.mp hv with hv | hv
      · exact htrace v hv
      · rw [List.mem_singleton.mp hv]
        exact hpipes j (by omega)
    simp only [pipesStr]
    split
    · exact ih (by omega) hmore
    · exact hmore

-- Records that fit are printed without leaving them, and the record that follows is found.
theorem interfacesStr_inside (hfits : RecordsFit memory len r n) (htrace : ∀ v ∈ trace, v.Inside len) :
    ∀ v ∈ interfacesStr print memory (some len) n (some r) trace, v.Inside len := by
  induction n generalizing r trace with
  | zero => exact htrace
  | succ n ih =>
    obtain ⟨hfirst, hrest⟩ := recordsFit_succ.mp hfits
    obtain ⟨hrecord, hpipes⟩ := record_inside_iff.mpr hfirst
    have hmore : ∀ v ∈ trace ++ [.record r], v.Inside len := by
      intro v hv
      rcases List.mem_append.mp hv with hv | hv
      · exact htrace v hv
      · rw [List.mem_singleton.mp hv]
        exact hrecord
    have hprinted : ∀ v ∈ (pipesStr print r (numberOfPipes memory r) 0 (trace ++ [.record r])).2, v.Inside len :=
      pipesStr_inside hpipes (Nat.zero_add _).le hmore
    simp only [interfacesStr]
    split
    · split
      · cases n with
        | zero => exact hprinted
        | succ n =>
          have hnext : next memory r + offsetPipes ≤ len :=
            (record_inside_iff.mpr (recordsFit_succ.mp hrest).1).1
          have hlt : next memory r < len := by
            simp only [offsetPipes] at hnext
            omega
          rw [nextInterface]
          simp only [if_pos hlt]
          exact ih hrest hprinted
      · exact hprinted
    · exact hmore

-- With room for every text all of the pipes are visited.
theorem pipesStr_all (k j : Nat) (trace : List Visit) :
    pipesStr (fun _ => true) r k j trace =
      (true, trace ++ (List.range' j k).map fun j => .pipe (pipeOffset r j)) := by
  induction k generalizing j trace with
  | zero => simp [pipesStr]
  | succ k ih => simp [pipesStr, ih, List.range'_succ]

theorem mem_interfacesStr {cfgEnd : Option Nat} {start : Option Nat} {v : Visit} (hv : v ∈ trace) :
    v ∈ interfacesStr (fun _ => true) memory cfgEnd n start trace := by
  induction n generalizing start trace with
  | zero => exact hv
  | succ n ih =>
    cases start with
    | none => exact List.mem_append_left _ hv
    | some r =>
      simp only [interfacesStr, pipesStr_all, if_true]
      exact ih (List.mem_append_left _ (List.mem_append_left _ hv))

-- With room for every text the printing stays inside only if all of the records fit.
theorem recordsFit_of_interfacesStr
    (h : ∀ v ∈ interfacesStr (fun _ => true) memory (some len) n (some r) trace, v.Inside len) :
    RecordsFit memory len r n := by
  induction n generalizing r trace with
  | zero => exact recordsFit_zero
  | succ n ih =>
    simp only [interfacesStr, pipesStr_all, if_true] at h
    rw [recordsFit_succ]
    constructor
    · refine record_inside_iff.mp ⟨h _ (mem_interfacesStr ?_), fun j hj => h _ (mem_interfacesStr ?_)⟩
      · simp
      · simp only [List.mem_append, List.mem_map]
        exact .inr ⟨j, by simpa [List.mem_range'_1] using hj, rfl⟩
    · cases n with
      | zero => exact recordsFit_zero
      | succ n =>
        by_cases hlt : next memory r < len
        · rw [nextInterface] at h
          simp only [if_pos hlt] at h
          exact ih h
        · -- The loop goes on with a null pointer.
          rw [nextInterface] at h
          simp only [if_neg hlt] at h
          exact (h .null (List.mem_append_right _ (List.mem_singleton_self _))).elim

end Printing

section Walk

variable {memory : Memory} {len r : Nat} {endpoints : Endpoints}

-- A fold that keeps a trace beside its state.
theorem foldl_trace {σ α τ : Type} {step : σ × List τ → α → σ × List τ} {next : σ → α → σ} {visit : α → τ}
    (h : ∀ st trace x, step (st, trace) x = (next st x, trace ++ [visit x])) (l : List α) (st : σ)
    (trace : List τ) : l.foldl step (st, trace) = (l.foldl next st, trace ++ l.map visit) := by
  induction l generalizing st trace with
  | nil => simp
  | cons x l ih =>
      rw [List.foldl_cons, h, ih, List.foldl_cons, List.map_cons, List.append_assoc]
      rfl

theorem updatePipeProperties_eq :
    updatePipeProperties endpoints memory r =
      (Filter.updatePipeProperties endpoints (interfaceAt memory r),
        .record r :: (List.range (numberOfPipes memory r)).map fun j => .pipe (pipeOffset r j)) := by
  unfold updatePipeProperties Filter.updatePipeProperties interfaceAt
  rw [List.foldl_map]
  refine foldl_trace (fun endpoints trace j => ?_) _ endpoints [Visit.record r]
  dsimp only
  cases findEndpoint endpoints (.address (pipeAt memory r j).endpointAddress) with
  | none => rfl
  | some endp => rfl

theorem updatePipeProperties_inside_iff :
    (∀ v ∈ (updatePipeProperties endpoints memory r).2, v.Inside len) ↔
      pipeOffset r (numberOfPipes memory r) ≤ len := by
  rw [updatePipeProperties_eq, ← record_inside_iff]
  simp

-- Each record and each pipe is visited, whatever the length of the URB.
theorem selectInterfaces_inside_iff {cnt : Nat} :
    (∀ v ∈ (selectInterfaces memory cnt r endpoints).2, v.Inside len) ↔ RecordsFit memory len r cnt := by
  induction cnt generalizing r endpoints with
  | zero => simp [selectInterfaces, recordsFit_zero]
  | succ cnt ih =>
    simp only [selectInterfaces, List.forall_mem_append, recordsFit_succ, ih, updatePipeProperties_inside_iff]

theorem selectInterfaces_endpoints {cnt : Nat} :
    (selectInterfaces memory cnt r endpoints).1 =
      (List.range cnt).foldl
        (fun endpoints i => Filter.updatePipeProperties endpoints (interfaceAt memory ((next memory)^[i] r)))
        endpoints := by
  induction cnt generalizing r endpoints with
  | zero => rfl
  | succ cnt ih =>
    simp only [selectInterfaces, updatePipeProperties_eq, ih, List.range_succ_eq_map, List.foldl_cons,
      List.foldl_map, Function.iterate_succ_apply, Function.iterate_zero, id]

end Walk

section Configuration

variable {cfg : RawUrb} {len : Nat}

-- A configuration without interfaces has nothing to print, and one with interfaces has room for a record.
theorem selectConfigurationStr_inside {print : List Visit → Bool}
    (hlen : offsetInterface + offsetPipes ≤ len → cfg.length = len)
    (h : RecordsFit cfg.memory len offsetInterface (numInterfaces cfg)) :
    ∀ v ∈ selectConfigurationStr print cfg, v.Inside len := by
  unfold selectConfigurationStr
  unfold numInterfaces at h
  cases hcd : cfg.configurationDescriptor with
  | none => simp
  | some cd =>
      rw [hcd] at h
      dsimp only at h ⊢
      cases print [] with
      | true =>
          cases hnum : (bNumInterfaces cd).toNat with
          | zero => simp [interfacesStr]
          | succ n =>
              rw [hnum] at h
              rw [if_pos rfl, hlen (pipeOffset_le.1.trans (recordsFit_succ.mp h).1)]
              exact interfacesStr_inside h (by simp)
      | false => simp

theorem recordsFit_of_selectConfigurationStr
    (h : ∀ v ∈ selectConfigurationStr (fun _ => true) cfg, v.Inside cfg.length) :
    RecordsFit cfg.memory cfg.length offsetInterface (numInterfaces cfg) := by
  unfold selectConfigurationStr at h
  unfold numInterfaces
  cases hcd : cfg.configurationDescriptor with
  | none => exact recordsFit_zero
  | some cd =>
      rw [hcd] at h
      exact recordsFit_of_interfacesStr h

theorem selectConfiguration_inside_iff {print : List Visit → Bool} {endpoints : Endpoints}
    (hlen : offsetInterface + offsetPipes ≤ len → cfg.length = len) :
    (∀ v ∈ (selectConfiguration print endpoints cfg).2.2, v.Inside len) ↔
      RecordsFit cfg.memory len offsetInterface (numInterfaces cfg) := by
  constructor
  · intro h
    unfold selectConfiguration at h
    unfold numInterfaces
    cases hcd : cfg.configurationDescriptor with
    | none => exact recordsFit_zero
    | some cd =>
      simp only [hcd, List.forall_mem_append] at h
      exact selectInterfaces_inside_iff.mp h.2
  · intro h
    have hprinted : ∀ v ∈ selectConfigurationStr print cfg, v.Inside len :=
      selectConfigurationStr_inside hlen h
    unfold selectConfiguration
    unfold numInterfaces at h
    cases hcd : cfg.configurationDescriptor with
    | none =>
      simp only
      exact hprinted
    | some cd =>
      simp only [hcd] at h
      simp only [List.forall_mem_append]
      exact ⟨hprinted, selectInterfaces_inside_iff.mpr h⟩

-- The records of a clone are those of the URB, as they lie behind the pointer to the descriptor.
theorem recordsFit_clone (src : RawUrb) (dst : Nat) {n : Nat} :
    RecordsFit (clone dst src).memory src.length offsetInterface n ↔
      RecordsFit src.memory src.length offsetInterface n :=
  ⟨fun h => (recordsFit_congr (fun _ hr hi => (clone_memory hi (.inr ((by decide : _ ≤ _).trans hr))).symm) h).1,
    fun h => (recordsFit_congr (fun _ hr hi => clone_memory hi (.inr ((by decide : _ ≤ _).trans hr))) h).1⟩

end Configuration

-- The printing of the URB by the filter, and the printing and the walk of its clone by the driver.
theorem visits_inside_iff (src : RawUrb) (dst : Nat) (endpoints : Endpoints) :
    (∀ print, (∀ v ∈ selectConfigurationStr print src, v.Inside src.length) ∧
      ∀ v ∈ (selectConfiguration print endpoints (clone dst src)).2.2, v.Inside src.length) ↔
    RecordsFit src.memory src.length offsetInterface (numInterfaces src) ∧
      RecordsFit src.memory src.length offsetInterface (numInterfaces (clone dst src)) := by
  have hlen : offsetInterface + offsetPipes ≤ src.length → (clone dst src).length = src.length :=
    fun h => clone_length ((by decide : 2 ≤ offsetInterface + offsetPipes).trans h)
  have hclone (print : List Visit → Bool) :
      (∀ v ∈ (selectConfiguration print endpoints (clone dst src)).2.2, v.Inside src.length) ↔
        RecordsFit src.memory src.length offsetInterface (numInterfaces (clone dst src)) :=
    (selectConfiguration_inside_iff hlen).trans (recordsFit_clone src dst)
  constructor
  · intro h
    obtain ⟨hprinted, hwalked⟩ := h fun _ => true
    exact ⟨recordsFit_of_selectConfigurationStr hprinted, (hclone _).mp hwalked⟩
  · rintro ⟨hsrc, hfits⟩ print
    exact ⟨selectConfigurationStr_inside (fun _ => rfl) hsrc, (hclone print).mpr hfits⟩

-- A URB of a device with two interfaces, without pipes, that has a record for the first one only. The descriptor is
-- at 128.
def shortUrb : RawUrb where
  heap := ofBytes [(256, 64), (280, 128), (296, 24), (128, 9), (129, 2), (130, 9), (132, 2), (133, 1)]
  address := 256

-- The end of the URB makes the next record a null pointer, which is then read. The driver has no end to stop at.
theorem visits_not_inside :
    ¬ (∀ v ∈ selectConfigurationStr (fun _ => true) shortUrb, v.Inside shortUrb.length) ∧
      ¬ ∀ v ∈ (selectConfiguration (fun _ => true) {} (clone 4096 shortUrb)).2.2, v.Inside shortUrb.length := by
  constructor
  · intro h
    exact h .null (by decide +kernel)
  · intro h
    have hsecond : 64 + offsetPipes ≤ shortUrb.length := h (.record 64) (by decide +kernel)
    exact absurd hsecond (by decide +kernel)

-- The records as the walk over the bytes finds them are those of the model of the request.
theorem selectConfiguration_refines {st : State} {r : Pointer} {cfg : RawUrb} {print : List Visit → Bool}
    (hurb : st.urbAt r = cfg.toUnion) :
    Filter.selectConfiguration st r =
      (.ok (selectConfiguration print st.endpoints cfg).1,
        { st with endpoints := (selectConfiguration print st.endpoints cfg).2.1 }) := by
  unfold Filter.selectConfiguration selectConfiguration
  rw [hurb]
  cases hcd : cfg.configurationDescriptor with
  | none => simp only [RawUrb.toUnion, hcd, Option.map_none]
  | some cd => simp only [RawUrb.toUnion, hcd, Option.map_some, selectInterfaces_endpoints]

-- What the UDE driver does with the copy that the filter has passed on is the walk over the clone.
theorem selectConfiguration_clone {st st' : State} {buffer : Pointer} {urb : RawUrb} {r : ControlUrb}
    {print : List Visit → Bool} (hpost : postProcessUrb st (some buffer) urb = some (r, st'))
    (hfunction : urb.function.toNat = URB_FUNCTION_SELECT_CONFIGURATION) :
    Filter.selectConfiguration st' buffer =
      (.ok (selectConfiguration print st.endpoints (clone buffer urb)).1,
        { st' with endpoints := (selectConfiguration print st.endpoints (clone buffer urb)).2.1 }) := by
  obtain ⟨-, rfl⟩ := postProcessUrb_eq_some hpost
  refine selectConfiguration_refines ?_
  rw [copyOf, if_pos hfunction]
  exact Function.update_self _ _ _

end Usbip.Filter.Select

import Usbip.VhciIoctl.StopAttach

namespace Usbip.VhciIoctl.StopAttach

open Usbip.Library.Pool
open Usbip.Library.Runs
open Usbip.Library.Words
open Usbip.Persistent

section Removal

variable {α : Type} [BEq α] [LawfulBEq α] {p : α → Bool} {xs : List α} {x : α}

theorem countP_of_find? (h : xs.find? p = some x) : xs.countP p = (xs.erase x).countP p + 1 := by
  have hmem : x ∈ xs := List.mem_of_find?_eq_some h
  have hx : p x = true := List.find?_some h
  have hpos : 0 < xs.countP p := List.countP_pos_iff.mpr ⟨x, hmem, hx⟩
  rw [List.countP_erase, if_pos (by simp [hmem, hx])]
  omega

theorem filter_erase_of_not (h : p x = false) : (xs.erase x).filter p = xs.filter p := by
  have hmem : x ∉ xs.filter p := by simp [h]
  rw [← List.erase_filter, List.erase_of_not_mem hmem]

end Removal

section Loop

variable {st : Requests.State} {hash : UInt32}

theorem stopRequests_of_none (h : Requests.matching st hash = none) : stopRequests st hash = (0, st) := by
  rw [stopRequests]
  split
  · rfl
  · rename_i hsome
    rw [h] at hsome
    cases hsome

theorem stopRequests_of_some {r : Requests.Request} (h : Requests.matching st hash = some r) :
    stopRequests st hash =
      ((stopRequests { st with reattachReq := st.reattachReq.erase r } hash).1 + 1,
        (stopRequests { st with reattachReq := st.reattachReq.erase r } hash).2) := by
  rw [stopRequests]
  split
  · rename_i hnone
    rw [h] at hnone
    cases hnone
  · rename_i q hsome
    obtain rfl : r = q := Option.some.inj (h.symm.trans hsome)
    rfl

-- The requests that the loop looks for.
def isTarget (st : Requests.State) (hash : UInt32) (r : Requests.Request) : Bool :=
  hash == 0 || hash == st.locationHash r

-- The loop takes out the requests it looks for, each of them once, and no others.
theorem stopRequests_eq (st : Requests.State) (hash : UInt32) :
    stopRequests st hash =
      (st.reattachReq.countP (isTarget st hash),
        { st with reattachReq := st.reattachReq.filter fun r => !isTarget st hash r }) := by
  induction st using stopRequests.induct hash with
  | case1 st hnone =>
      have hnot : ∀ r ∈ st.reattachReq, ¬isTarget st hash r = true := List.find?_eq_none.mp hnone
      have hall : st.reattachReq.filter (fun r => !isTarget st hash r) = st.reattachReq :=
        List.filter_eq_self.mpr fun r hr => by simp [hnot r hr]
      rw [stopRequests_of_none hnone, hall, List.countP_eq_zero.mpr hnot]
  | case2 st r hr _ _ _ ih =>
      have htarget : isTarget st hash r = true := List.find?_some hr
      have hcount : st.reattachReq.countP (isTarget st hash) =
          (st.reattachReq.erase r).countP (isTarget st hash) + 1 := countP_of_find? hr
      have hkept : (st.reattachReq.erase r).filter (fun q => !isTarget st hash q) =
          st.reattachReq.filter fun q => !isTarget st hash q :=
        filter_erase_of_not (by simpa using htarget)
      rw [stopRequests_of_some hr, ih, hcount, ← hkept]
      rfl

-- The rounds of the loop are those of a call of `stop_attach_attempts` that no other task comes between.
theorem stopRequests_rounds (st : Requests.State) (hash : UInt32) (tasks : List Requests.Task) :
    ∃ schedule, Requests.machine.run (fun _ _ => True) { st with tasks := .stopping hash :: tasks } schedule =
      some { (stopRequests st hash).2 with tasks := tasks } := by
  induction st using stopRequests.induct hash with
  | case1 st hnone =>
      refine ⟨[.go (.stopping hash) {}], ?_⟩
      have hmatching : Requests.matching { st with tasks := .stopping hash :: tasks } hash = none := hnone
      rw [stopRequests_of_none hnone]
      simp [Requests.machine, Machine.run, Requests.step, Requests.run, hmatching, advance]
  | case2 st r hr _ _ _ ih =>
      obtain ⟨schedule, hrun⟩ := ih
      refine ⟨.go (.stopping hash) {} :: .go (.canceling hash r) {} :: schedule, ?_⟩
      have hmatching : Requests.matching { st with tasks := .stopping hash :: tasks } hash = some r := hr
      rw [stopRequests_of_some hr, ← hrun]
      simp [Requests.machine, Machine.run, Requests.step, Requests.run, hmatching, advance]

end Loop

section Handler

variable {sys : Services} {st : Requests.State} {r : Request}

-- The reply is that of the handler for which the number of requests and the status of the attributes are given.
theorem stopAttachAttempts_reply :
    (stopAttachAttempts sys st r).1 =
      VhciIoctl.stopAttachAttempts
        { initDeviceAttributes := (targetHash sys r).1
          stopped := UInt32.ofNat (stopRequests st (targetHash sys r).2).1 } r := by
  unfold stopAttachAttempts VhciIoctl.stopAttachAttempts
  by_cases herr : checkInput r sizeofStopAttachAttempts = .STATUS_SUCCESS
  · have hstatus : (targetHash sys r).1 =
        if locationStrings r = 0 then .STATUS_SUCCESS
        else if locationStrings r ≠ 3 then .STATUS_INVALID_PARAMETER
        else (targetHash sys r).1 := by
      unfold targetHash
      split_ifs <;> rfl
    simp only [herr, ne_eq, not_true_eq_false, if_false]
    rw [← hstatus]
    split_ifs <;> rfl
  · simp only [herr, ne_eq, not_false_eq_true, if_true]

-- What becomes of a request whose strings stand for a hash.
theorem stopAttachAttempts_of_hash {hash : UInt32} (hinput : checkInput r sizeofStopAttachAttempts = .STATUS_SUCCESS)
    (hhash : targetHash sys r = (.STATUS_SUCCESS, hash)) :
    stopAttachAttempts sys st r =
      ({ status := .STATUS_SUCCESS
         information := sizeofStopAttachAttempts
         output := overwrite r.buffer offsetofStopCount
          (bytes32 (UInt32.ofNat (st.reattachReq.countP (isTarget st hash)))) },
        { st with reattachReq := st.reattachReq.filter fun r => !isTarget st hash r }) := by
  unfold stopAttachAttempts
  simp only [hinput, hhash, stopRequests_eq, ne_eq, not_true_eq_false, if_false, NTSTATUS.isSuccess, if_true]

-- A request that is refused leaves the collection as it is.
theorem stopAttachAttempts_of_error (hinput : checkInput r sizeofStopAttachAttempts = .STATUS_SUCCESS)
    (hstatus : (targetHash sys r).1.isSuccess = false) :
    stopAttachAttempts sys st r = (r.reply (targetHash sys r).1, st) := by
  unfold stopAttachAttempts
  simp only [hinput, hstatus, ne_eq, not_true_eq_false, if_false, Bool.false_eq_true]

end Handler

end Usbip.VhciIoctl.StopAttach

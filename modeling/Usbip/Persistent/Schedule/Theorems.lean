import Usbip.Persistent.Schedule

namespace Usbip.Persistent

theorem unsigned_of_lt {bits value : Nat} (h : value < 2 ^ bits) : unsigned bits value = .ok value := by
  rw [unsigned, if_pos h]

-- The delays of the schedule, whatever ends it.
def delaysFrom (maxDelay : Nat) : Nat → Nat → List Nat
  | _, 0 => []
  | delay, k + 1 => delay :: delaysFrom maxDelay (min (3 * delay / 2) maxDelay) k

section Delays

variable {delay maxDelay : Nat}

theorem getNextDelay_eq (hmax : maxDelay < 2 ^ 32) (h : delay ≤ maxDelay) :
    getNextDelay delay maxDelay = .ok (min (3 * delay / 2) maxDelay) := by
  have hproduct : 3 * delay < 2 ^ 64 := by omega
  unfold getNextDelay
  by_cases heq : delay = maxDelay
  · have hmin : min (3 * delay / 2) maxDelay = delay := by omega
    rw [if_neg (not_not.mpr heq), hmin]
    rfl
  · rw [if_pos heq, unsigned_of_lt hproduct]
    by_cases hlt : 3 * delay / 2 < maxDelay
    · have hmin : min (3 * delay / 2) maxDelay = 3 * delay / 2 := by omega
      have hfits : 3 * delay / 2 < 2 ^ 32 := by omega
      rw [hmin, ← unsigned_of_lt hfits]
      exact if_pos hlt
    · have hmin : min (3 * delay / 2) maxDelay = maxDelay := by omega
      rw [hmin]
      exact if_neg hlt

-- The next delay is not shorter.
theorem next_bounds (hpos : 1 ≤ delay) (h : delay ≤ maxDelay) :
    delay ≤ min (3 * delay / 2) maxDelay ∧ 1 ≤ min (3 * delay / 2) maxDelay ∧
      min (3 * delay / 2) maxDelay ≤ maxDelay := by
  omega

theorem length_delaysFrom (k : Nat) : (delaysFrom maxDelay delay k).length = k := by
  induction k generalizing delay with
  | zero => rfl
  | succ k ih => rw [delaysFrom, List.length_cons, ih]

theorem mem_delaysFrom (hpos : 1 ≤ delay) (h : delay ≤ maxDelay) {k d : Nat}
    (hd : d ∈ delaysFrom maxDelay delay k) : delay ≤ d ∧ d ≤ maxDelay := by
  induction k generalizing delay with
  | zero => cases hd
  | succ k ih =>
      obtain ⟨hnext, hpos', hmax⟩ := next_bounds hpos h
      obtain rfl | hd := List.mem_cons.mp hd
      · exact ⟨le_refl _, h⟩
      · obtain ⟨hle, hd⟩ := ih hpos' hmax hd
        exact ⟨hnext.trans hle, hd⟩

theorem sorted_delaysFrom (hpos : 1 ≤ delay) (h : delay ≤ maxDelay) (k : Nat) :
    (delaysFrom maxDelay delay k).Pairwise (· ≤ ·) := by
  induction k generalizing delay with
  | zero => exact .nil
  | succ k ih =>
      obtain ⟨hnext, hpos', hmax⟩ := next_bounds hpos h
      exact .cons (fun d hd => hnext.trans (mem_delaysFrom hpos' hmax hd).1) (ih hpos' hmax)

theorem sum_delaysFrom_mono {k n : Nat} (hkn : k ≤ n) :
    (delaysFrom maxDelay delay k).sum ≤ (delaysFrom maxDelay delay n).sum := by
  induction k generalizing delay n with
  | zero => exact Nat.zero_le _
  | succ k ih =>
      obtain ⟨n, rfl⟩ := Nat.exists_eq_add_of_le' (Nat.le_trans (Nat.succ_le_succ (Nat.zero_le k)) hkn)
      rw [delaysFrom, delaysFrom, List.sum_cons, List.sum_cons]
      exact Nat.add_le_add_left (ih (Nat.le_of_succ_le_succ hkn)) _

-- The loop ends, and so many delays fit into the time.
theorem countAttempts_spec {maxTotalDelay : Nat} (htime : maxTotalDelay + maxDelay < 2 ^ 32) (fuel total cnt : Nat)
    (hpos : 1 ≤ delay) (h : delay ≤ maxDelay) (htotal : total ≤ maxTotalDelay) (hfuel : maxTotalDelay < total + fuel)
    (hcnt : cnt + (maxTotalDelay - total) < 2 ^ 32) :
    ∃ k, countAttempts maxDelay maxTotalDelay fuel delay total cnt = .ok (cnt + k) ∧
      total + (delaysFrom maxDelay delay k).sum ≤ maxTotalDelay := by
  induction fuel generalizing delay total cnt with
  | zero => omega
  | succ fuel ih =>
      obtain ⟨-, hpos', hmax⟩ := next_bounds hpos h
      have hsum : total + delay < 2 ^ 32 := by omega
      by_cases hfits : total + delay ≤ maxTotalDelay
      · have hone : cnt + 1 < 2 ^ 32 := by omega
        obtain ⟨k, hk, hle⟩ := ih (total + delay) (cnt + 1) hpos' hmax hfits (by omega) (by omega)
        refine ⟨k + 1, ?_, ?_⟩
        · rw [countAttempts, unsigned_of_lt hsum]
          have hnext := getNextDelay_eq (by omega) h
          simp only [bind, Except.bind, if_pos hfits, hnext, unsigned_of_lt hone, hk]
          rw [Nat.add_assoc, Nat.add_comm 1]
        · rw [delaysFrom, List.sum_cons]
          omega
      · refine ⟨0, ?_, by simpa [delaysFrom] using htotal⟩
        rw [countAttempts, unsigned_of_lt hsum]
        simp only [bind, Except.bind, if_neg hfits]
        rfl

end Delays

theorem getMaxAttachAttempts_spec {firstDelay maxDelay maxTotalDelay : Nat} (hpos : 1 ≤ firstDelay)
    (h : firstDelay ≤ maxDelay) (htime : maxTotalDelay + maxDelay < 2 ^ 32) :
    ∃ n, getMaxAttachAttempts firstDelay maxDelay maxTotalDelay = .ok n ∧
      (delaysFrom maxDelay firstDelay n).sum ≤ maxTotalDelay := by
  obtain ⟨n, hn, hsum⟩ := countAttempts_spec htime (maxTotalDelay + 1) 0 0 hpos h (Nat.zero_le _) (by omega) (by omega)
  rw [Nat.zero_add] at hn hsum
  exact ⟨n, hn, hsum⟩

-- The number of attempts in the .inf file.
example : getMaxAttachAttempts DEF_FIRST_DELAY DEF_MAX_DELAY (2 * HOUR) = .ok 20 := rfl

-- A second at least for each attempt.
theorem length_le_sum_delaysFrom {delay maxDelay : Nat} (hpos : 1 ≤ delay) (h : delay ≤ maxDelay) (k : Nat) :
    k ≤ (delaysFrom maxDelay delay k).sum := by
  induction k generalizing delay with
  | zero => exact Nat.zero_le _
  | succ k ih =>
      obtain ⟨-, hpos', hmax⟩ := next_bounds hpos h
      have hrest := ih hpos' hmax
      rw [delaysFrom, List.sum_cons]
      omega

-- What the clamps and the loop come to, whatever is in the registry.
structure Valid (vhci : Constants) : Prop where
  min : 1 ≤ vhci.reattachFirstDelay
  ordered : vhci.reattachFirstDelay ≤ vhci.reattachMaxDelay
  max : vhci.reattachMaxDelay ≤ MAX_DELAY
  total : (delaysFrom vhci.reattachMaxDelay vhci.reattachFirstDelay vhci.reattachMaxAttempts).sum ≤ MAX_TOTAL_DELAY

theorem inRange_bounds (val : Nat) : 1 ≤ inRange val ∧ inRange val ≤ MAX_DELAY := by
  simp only [inRange, MIN_DELAY, MAX_DELAY, HOUR]
  omega

theorem clamped_bounds {val default : Nat} (hpos : 1 ≤ default) (hmax : default ≤ MAX_DELAY) :
    1 ≤ (if val ≠ 0 then inRange val else default) ∧ (if val ≠ 0 then inRange val else default) ≤ MAX_DELAY := by
  split
  · exact inRange_bounds val
  · exact ⟨hpos, hmax⟩

-- The smaller of the two delays is the first one.
theorem swapped_bounds {first last : Nat} (hfirst : 1 ≤ first ∧ first ≤ MAX_DELAY)
    (hlast : 1 ≤ last ∧ last ≤ MAX_DELAY) :
    1 ≤ (if first > last then (last, first) else (first, last)).1 ∧
      (if first > last then (last, first) else (first, last)).1 ≤
        (if first > last then (last, first) else (first, last)).2 ∧
      (if first > last then (last, first) else (first, last)).2 ≤ MAX_DELAY := by
  split
  · exact ⟨hlast.1, by omega, hfirst.2⟩
  · exact ⟨hfirst.1, by omega, hlast.2⟩

theorem initConstants_spec (key : Option ReattachParameters) :
    ∃ vhci, initConstants key = .ok vhci ∧ Valid vhci := by
  cases key with
  | none =>
      have hpos : 1 ≤ DEF_FIRST_DELAY := by decide
      have hordered : DEF_FIRST_DELAY ≤ DEF_MAX_DELAY := by decide
      have hmax : DEF_MAX_DELAY ≤ MAX_DELAY := by decide
      have htwo : 2 * HOUR ≤ MAX_TOTAL_DELAY := by decide
      have htime : 2 * HOUR + DEF_MAX_DELAY < 2 ^ 32 := by decide
      obtain ⟨n, hn, hsum⟩ := getMaxAttachAttempts_spec hpos hordered htime
      refine ⟨⟨n, DEF_FIRST_DELAY, DEF_MAX_DELAY⟩, ?_, hpos, hordered, hmax, hsum.trans htwo⟩
      simp only [initConstants, hn, bind, Except.bind]
      rfl
  | some params =>
      simp only [initConstants]
      generalize (params.reattachMaxAttempts.map UInt32.toNat).getD 0 = maxAttempts
      generalize hfirst : (if (params.reattachFirstDelay.map UInt32.toNat).getD 0 ≠ 0
        then inRange ((params.reattachFirstDelay.map UInt32.toNat).getD 0) else DEF_FIRST_DELAY) = first
      generalize hlast : (if (params.reattachMaxDelay.map UInt32.toNat).getD 0 ≠ 0
        then inRange ((params.reattachMaxDelay.map UInt32.toNat).getD 0) else DEF_MAX_DELAY) = last
      have hfirst' : 1 ≤ first ∧ first ≤ MAX_DELAY := hfirst ▸ clamped_bounds (by decide) (by decide)
      have hlast' : 1 ≤ last ∧ last ≤ MAX_DELAY := hlast ▸ clamped_bounds (by decide) (by decide)
      obtain ⟨hpos, hordered, hmax⟩ := swapped_bounds hfirst' hlast'
      generalize (if first > last then (last, first) else (first, last)) = delays at hpos hordered hmax ⊢
      have htime : MAX_TOTAL_DELAY + delays.2 < 2 ^ 32 := lt_of_le_of_lt (Nat.add_le_add_left hmax _) (by decide)
      obtain ⟨n, hn, hsum⟩ := getMaxAttachAttempts_spec hpos hordered htime
      refine ⟨⟨if maxAttempts > n then n else maxAttempts, delays.1, delays.2⟩, ?_, hpos, hordered, hmax, ?_⟩
      · simp only [hn, bind, Except.bind]
        rfl
      · refine (sum_delaysFrom_mono ?_).trans hsum
        dsimp only
        split <;> omega

-- A context between two attempts.
structure Paced (vhci : Constants) (req : AttachCtx) : Prop where
  min : 1 ≤ req.delay
  max : req.delay ≤ vhci.reattachMaxDelay
  retryCnt : req.retryCnt ≤ vhci.reattachMaxAttempts + 1

-- The context for the next attempt.
def AttachCtx.next (vhci : Constants) (req : AttachCtx) : AttachCtx :=
  { retryCnt := req.retryCnt + 1, delay := Min.min (3 * req.delay / 2) vhci.reattachMaxDelay }

section Attempts

variable {vhci : Constants} (hvalid : Valid vhci) {req : AttachCtx}

include hvalid

theorem paced_startAttachAttempts (delayed : Bool) : Paced vhci (startAttachAttempts vhci delayed) := by
  refine ⟨hvalid.min, hvalid.ordered, ?_⟩
  cases delayed
  · exact Nat.zero_le _
  · exact Nat.le_add_left _ _

-- A request that comes back is deleted, or another attempt is left and nothing wraps around.
theorem onPluginHardware_spec (h : Paced vhci req) (completion : Completion) :
    onPluginHardware vhci req completion = .ok none ∨
      req.retryCnt < vhci.reattachMaxAttempts ∧ Paced vhci (req.next vhci) ∧
        onPluginHardware vhci req completion = .ok (some (req.delay, req.next vhci)) := by
  have hlimit := length_le_sum_delaysFrom hvalid.min hvalid.ordered vhci.reattachMaxAttempts
  have htotal := hvalid.total
  have hbits : MAX_TOTAL_DELAY + 2 < 2 ^ 32 := by decide
  have hcnt := h.retryCnt
  have hone : req.retryCnt + 1 < 2 ^ 32 := by omega
  simp only [onPluginHardware, unsigned_of_lt hone, bind, Except.bind]
  by_cases hretry : (completion.status.isError && decide (req.retryCnt < vhci.reattachMaxAttempts) &&
      completion.canReattach && !completion.removing) = false
  · rw [if_pos hretry]
    exact .inl rfl
  · rw [if_neg hretry]
    by_cases hreuse : completion.reuse ≠ .STATUS_SUCCESS
    · rw [if_pos hreuse]
      exact .inl rfl
    · have hleft : req.retryCnt < vhci.reattachMaxAttempts := by
        by_contra hnone
        simp [hnone] at hretry
      have hhour : MAX_DELAY < 2 ^ 32 := by decide
      have hnext := getNextDelay_eq (lt_of_le_of_lt hvalid.max hhour) h.max
      obtain ⟨-, hpos, hmax⟩ := next_bounds h.min h.max
      rw [if_neg hreuse, hnext]
      exact .inr ⟨hleft, ⟨hpos, hmax, Nat.succ_le_succ hleft.le⟩, rfl⟩

-- A run of attempts uses delays of the schedule, no more than are left.
theorem attempts_spec (list : List Attempt) (h : Paced vhci req) :
    ∃ sent k, attempts vhci req list = .ok (sent, delaysFrom vhci.reattachMaxDelay req.delay k) ∧
      k ≤ vhci.reattachMaxAttempts - req.retryCnt ∧ sent ≤ k + 1 := by
  induction list generalizing req with
  | nil => exact ⟨0, 0, rfl, Nat.zero_le _, Nat.zero_le _⟩
  | cons attempt rest ih =>
      cases attempt with
      | notSent => exact ⟨0, 0, rfl, Nat.zero_le _, Nat.zero_le _⟩
      | sent completion =>
          obtain hdeleted | ⟨hleft, hpaced, hretried⟩ := onPluginHardware_spec hvalid h completion
          · refine ⟨1, 0, ?_, Nat.zero_le _, le_refl _⟩
            rw [attempts, hdeleted]
            rfl
          · obtain ⟨sent, k, hrun, hk, hsent⟩ := ih hpaced
            have hk' : k + 1 ≤ vhci.reattachMaxAttempts - req.retryCnt := by
              simp only [AttachCtx.next] at hk
              omega
            refine ⟨sent + 1, k + 1, ?_, hk', Nat.succ_le_succ hsent⟩
            rw [attempts, hretried]
            simp only [bind, Except.bind, hrun]
            rfl

end Attempts

theorem retry_schedule (key : Option ReattachParameters) (delayed : Bool) (list : List Attempt) :
    ∃ vhci sent delays, initConstants key = .ok vhci ∧
      attempts vhci (startAttachAttempts vhci delayed) list = .ok (sent, delays) ∧
      delays.Pairwise (· ≤ ·) ∧
      (∀ delay ∈ delays, 1 ≤ delay ∧ delay ≤ vhci.reattachMaxDelay) ∧
      delays.length ≤ vhci.reattachMaxAttempts ∧
      delays.sum ≤ 72 * HOUR ∧
      sent ≤ vhci.reattachMaxAttempts + 1 := by
  obtain ⟨vhci, hinit, hvalid⟩ := initConstants_spec key
  obtain ⟨sent, k, hrun, hk, hsent⟩ := attempts_spec hvalid list (paced_startAttachAttempts hvalid delayed)
  have hattempts : k ≤ vhci.reattachMaxAttempts := hk.trans (Nat.sub_le _ _)
  refine ⟨vhci, sent, _, hinit, hrun, sorted_delaysFrom hvalid.min hvalid.ordered k, fun delay hdelay => ?_,
    (length_delaysFrom k).trans_le hattempts, (sum_delaysFrom_mono hattempts).trans hvalid.total,
    hsent.trans (Nat.succ_le_succ hattempts)⟩
  obtain ⟨hle, hmax⟩ := mem_delaysFrom hvalid.min hvalid.ordered hdelay
  exact ⟨hvalid.min.trans hle, hmax⟩

end Usbip.Persistent

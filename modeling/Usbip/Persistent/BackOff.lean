import Mathlib.Logic.Function.Iterate
import Usbip.Persistent.Schedule.Theorems

namespace Usbip.Persistent

-- `get_next_delay` so many times in a row.
def delayAfter (maxDelay : Nat) : Nat → Nat → Except Fault Nat
  | 0, delay => .ok delay
  | k + 1, delay => do
    let delay ← getNextDelay delay maxDelay
    delayAfter maxDelay k delay

-- The delay grows until it has reached the largest one, and it stays there.
structure MakesProgress (vhci : Constants) : Prop where
  grows : ∀ k delay, delayAfter vhci.reattachMaxDelay k vhci.reattachFirstDelay = .ok delay →
    delay ≠ vhci.reattachMaxDelay →
    ∃ delay', delayAfter vhci.reattachMaxDelay (k + 1) vhci.reattachFirstDelay = .ok delay' ∧ delay < delay'
  stays : ∀ k, delayAfter vhci.reattachMaxDelay k vhci.reattachFirstDelay = .ok vhci.reattachMaxDelay →
    delayAfter vhci.reattachMaxDelay (k + 1) vhci.reattachFirstDelay = .ok vhci.reattachMaxDelay
  reaches : ∃ k, delayAfter vhci.reattachMaxDelay k vhci.reattachFirstDelay = .ok vhci.reattachMaxDelay

section Growth

variable {delay maxDelay : Nat}

def nextDelay (maxDelay delay : Nat) : Nat := min (3 * delay / 2) maxDelay

theorem nextDelay_le (maxDelay delay : Nat) : nextDelay maxDelay delay ≤ maxDelay := Nat.min_le_right _ _

theorem iterate_nextDelay_le (h : delay ≤ maxDelay) (k : Nat) : (nextDelay maxDelay)^[k] delay ≤ maxDelay := by
  cases k with
  | zero => exact h
  | succ k =>
      rw [Function.iterate_succ_apply']
      exact nextDelay_le _ _

theorem delayAfter_eq (hmax : maxDelay < 2 ^ 32) (h : delay ≤ maxDelay) (k : Nat) :
    delayAfter maxDelay k delay = .ok ((nextDelay maxDelay)^[k] delay) := by
  induction k generalizing delay with
  | zero => rfl
  | succ k ih =>
      rw [delayAfter, getNextDelay_eq hmax h]
      exact ih (nextDelay_le _ _)

-- Half of the delay is added, and half of one second is nothing.
theorem lt_nextDelay (htwo : 2 ≤ delay) (hlt : delay < maxDelay) : delay < nextDelay maxDelay delay := by
  unfold nextDelay
  omega

theorem two_le_nextDelay (htwo : 2 ≤ delay) (h : delay ≤ maxDelay) : 2 ≤ nextDelay maxDelay delay := by
  unfold nextDelay
  omega

theorem nextDelay_max (maxDelay : Nat) : nextDelay maxDelay maxDelay = maxDelay := by
  unfold nextDelay
  omega

theorem iterate_nextDelay_one (hmax : 1 ≤ maxDelay) (k : Nat) : (nextDelay maxDelay)^[k] 1 = 1 := by
  induction k with
  | zero => rfl
  | succ k ih =>
      rw [Function.iterate_succ_apply', ih]
      unfold nextDelay
      omega

theorem le_iterate_nextDelay (htwo : 2 ≤ delay) (h : delay ≤ maxDelay) (k : Nat) :
    2 ≤ (nextDelay maxDelay)^[k] delay := by
  induction k with
  | zero => exact htwo
  | succ k ih =>
      rw [Function.iterate_succ_apply']
      exact two_le_nextDelay ih (iterate_nextDelay_le h k)

-- Induction on what is missing to the largest delay.
theorem exists_iterate_nextDelay (htwo : 2 ≤ delay) (h : delay ≤ maxDelay) :
    ∃ k, (nextDelay maxDelay)^[k] delay = maxDelay := by
  induction hmissing : maxDelay - delay using Nat.strongRecOn generalizing delay with
  | ind missing ih =>
      by_cases hreached : delay = maxDelay
      · exact ⟨0, hreached⟩
      · have hgrows : delay < nextDelay maxDelay delay := lt_nextDelay htwo (by omega)
        have hle := nextDelay_le maxDelay delay
        have hless : maxDelay - nextDelay maxDelay delay < missing := by omega
        obtain ⟨k, hk⟩ := ih _ hless (htwo.trans hgrows.le) hle rfl
        exact ⟨k + 1, hk⟩

theorem delaysFrom_getElem? (k i : Nat) :
    (delaysFrom maxDelay delay k)[i]? = if i < k then some ((nextDelay maxDelay)^[i] delay) else none := by
  induction k generalizing delay i with
  | zero => rfl
  | succ k ih =>
      cases i with
      | zero => rfl
      | succ i =>
          rw [delaysFrom, List.getElem?_cons_succ, ih]
          simp only [Nat.succ_lt_succ_iff]
          rfl

end Growth

section BackOff

variable {vhci : Constants}

theorem Valid.max_lt (hvalid : Valid vhci) : vhci.reattachMaxDelay < 2 ^ 32 := by
  have hhour : MAX_DELAY < 2 ^ 32 := by decide
  exact lt_of_le_of_lt hvalid.max hhour

-- The timer of a request is started with these delays.
theorem attempts_delays (hvalid : Valid vhci) (delayed : Bool) (list : List Attempt) {sent : Nat} {delays : List Nat}
    (h : attempts vhci (startAttachAttempts vhci delayed) list = .ok (sent, delays)) {i delay : Nat}
    (hi : delays[i]? = some delay) :
    delayAfter vhci.reattachMaxDelay i vhci.reattachFirstDelay = .ok delay := by
  obtain ⟨sent', k, hrun, -, -⟩ := attempts_spec hvalid list (paced_startAttachAttempts hvalid delayed)
  cases h.symm.trans hrun
  rw [delaysFrom_getElem?] at hi
  rw [delayAfter_eq hvalid.max_lt hvalid.ordered]
  split at hi
  · exact congrArg Except.ok (Option.some_inj.mp hi)
  · cases hi

theorem Valid.makesProgress_of_eq (hvalid : Valid vhci) (heq : vhci.reattachFirstDelay = vhci.reattachMaxDelay) :
    MakesProgress vhci := by
  have hrun : ∀ k, delayAfter vhci.reattachMaxDelay k vhci.reattachFirstDelay = .ok vhci.reattachMaxDelay := by
    intro k
    rw [delayAfter_eq hvalid.max_lt hvalid.ordered, heq, Function.iterate_fixed (nextDelay_max _)]
  constructor
  case grows =>
    intro k delay hk hne
    rw [hrun] at hk
    exact absurd (Except.ok.inj hk).symm hne
  case stays => exact fun k _ => hrun (k + 1)
  case reaches => exact ⟨0, hrun 0⟩

theorem Valid.makesProgress (hvalid : Valid vhci) (htwo : 2 ≤ vhci.reattachFirstDelay) : MakesProgress vhci := by
  have hrun := delayAfter_eq hvalid.max_lt hvalid.ordered
  have hnext : ∀ k, (nextDelay vhci.reattachMaxDelay)^[k + 1] vhci.reattachFirstDelay =
      nextDelay vhci.reattachMaxDelay ((nextDelay vhci.reattachMaxDelay)^[k] vhci.reattachFirstDelay) :=
    fun k => Function.iterate_succ_apply' _ _ _
  constructor
  case grows =>
    intro k delay hk hne
    rw [hrun] at hk
    cases hk
    refine ⟨_, hrun (k + 1), ?_⟩
    rw [hnext]
    have hle := iterate_nextDelay_le hvalid.ordered k
    exact lt_nextDelay (le_iterate_nextDelay htwo hvalid.ordered k) (by omega)
  case stays =>
    intro k hk
    rw [hrun] at hk ⊢
    rw [hnext, Except.ok.inj hk, nextDelay_max]
  case reaches =>
    obtain ⟨k, hk⟩ := exists_iterate_nextDelay htwo hvalid.ordered
    exact ⟨k, by rw [hrun, hk]⟩

-- A second stays a second.
theorem Valid.not_makesProgress (hvalid : Valid vhci) (hfirst : vhci.reattachFirstDelay = 1)
    (hmax : vhci.reattachMaxDelay ≠ 1) : ¬ MakesProgress vhci := by
  intro hprogress
  obtain ⟨k, hk⟩ := hprogress.reaches
  have hpos := hvalid.min.trans hvalid.ordered
  rw [delayAfter_eq hvalid.max_lt hvalid.ordered, hfirst, iterate_nextDelay_one hpos] at hk
  exact hmax (Except.ok.inj hk).symm

-- Whatever is in the registry, the delay grows unless it begins with one second and may be longer.
theorem backOff_progress_iff {key : Option ReattachParameters} (hinit : initConstants key = .ok vhci) :
    MakesProgress vhci ↔ vhci.reattachFirstDelay ≠ 1 ∨ vhci.reattachMaxDelay = 1 := by
  obtain ⟨vhci', hinit', hvalid⟩ := initConstants_spec key
  cases hinit.symm.trans hinit'
  have hmin := hvalid.min
  have hordered := hvalid.ordered
  constructor
  · intro hprogress
    by_contra hone
    obtain ⟨hfirst, hmax⟩ := not_or.mp hone
    exact hvalid.not_makesProgress (not_not.mp hfirst) hmax hprogress
  · rintro (hfirst | hmax)
    · exact hvalid.makesProgress (by omega)
    · exact hvalid.makesProgress_of_eq (by omega)

end BackOff

-- The values of the .inf file.
theorem backOff_progress_default :
    ∃ vhci, initConstants none = .ok vhci ∧ MakesProgress vhci := by
  have hinit : initConstants none = .ok ⟨20, 30, 480⟩ := rfl
  exact ⟨_, hinit, (backOff_progress_iff hinit).mpr (.inl (by decide))⟩

theorem initConstants_one_two {vhci : Constants} (h : initConstants (some ⟨some 0, some 1, some 2⟩) = .ok vhci) :
    vhci.reattachFirstDelay = 1 ∧ vhci.reattachMaxDelay = 2 := by
  simp only [initConstants] at h
  generalize getMaxAttachAttempts _ _ _ = attempts at h
  cases attempts with
  | error fault => cases h
  | ok n =>
      cases h
      exact ⟨rfl, rfl⟩

-- The first delay is one second.
theorem backOff_stalls : ¬ ∀ (key : Option ReattachParameters) (vhci : Constants),
    initConstants key = .ok vhci → MakesProgress vhci := by
  intro h
  obtain ⟨vhci, hinit, hvalid⟩ := initConstants_spec (some ⟨some 0, some 1, some 2⟩)
  obtain ⟨hfirst, hmax⟩ := initConstants_one_two hinit
  exact hvalid.not_makesProgress hfirst (by omega) (h _ _ hinit)

end Usbip.Persistent

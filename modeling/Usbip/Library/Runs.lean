import Mathlib.Algebra.BigOperators.Group.List.Basic
import Mathlib.Algebra.Order.Ring.Int

namespace Usbip.Library.Runs

-- A machine whose steps are picked by a scheduler; a step that is not possible is `none`.
structure Machine (σ α : Type) where
  init : σ → Prop
  step : σ → α → Option σ

variable {σ α : Type} (m : Machine σ α)

-- The states of the runs all of whose steps meet `ok`, whatever the order of the steps.
inductive Machine.Reachable (ok : σ → α → Prop) : σ → Prop
  | init {s : σ} : m.init s → Reachable ok s
  | step {s t : σ} {a : α} : Reachable ok s → ok s a → m.step s a = some t → Reachable ok t

-- A schedule carried out from a given state, `none` as soon as a step does not meet `ok`.
def Machine.run (ok : σ → α → Prop) [∀ s a, Decidable (ok s a)] : σ → List α → Option σ
  | s, [] => some s
  | s, a :: rest => if ok s a then (m.step s a).bind fun t => Machine.run ok t rest else none

variable {m} {ok : σ → α → Prop}

theorem Machine.Reachable.invariant {I : σ → Prop} (hinit : ∀ s, m.init s → I s)
    (hstep : ∀ s a t, I s → ok s a → m.step s a = some t → I t) {s : σ} (h : m.Reachable ok s) : I s := by
  induction h with
  | init hs => exact hinit _ hs
  | step _ hok hs ih => exact hstep _ _ _ ih hok hs

-- An invariant already known may be used while another one is proved.
theorem Machine.Reachable.invariant_under {I J : σ → Prop} (hI : ∀ s, m.Reachable ok s → I s)
    (hinit : ∀ s, m.init s → J s)
    (hstep : ∀ s a t, I s → J s → ok s a → m.step s a = some t → J t) {s : σ} (h : m.Reachable ok s) : J s := by
  induction h with
  | init hs => exact hinit _ hs
  | step hr hok hs ih => exact hstep _ _ _ (hI _ hr) ih hok hs

theorem Machine.Reachable.mono {ok' : σ → α → Prop} (hok : ∀ s a, ok s a → ok' s a) {s : σ}
    (h : m.Reachable ok s) : m.Reachable ok' s := by
  induction h with
  | init hs => exact .init hs
  | step _ ha hs ih => exact ih.step (hok _ _ ha) hs

section Recorded

variable {γ : Type} {start : γ} {record : σ → α → γ → γ}

-- The machine with a record of its run beside its state.
def Machine.recorded (m : Machine σ α) (start : γ) (record : σ → α → γ → γ) : Machine (σ × γ) α where
  init s := m.init s.1 ∧ s.2 = start
  step s a := (m.step s.1 a).map fun t => (t, record s.1 a s.2)

-- A condition on the record stands for one on the state as long as an invariant of both bears it out.
theorem Machine.Reachable.of_recorded {okRecord : σ × γ → α → Prop} {I : σ × γ → Prop}
    (hinit : ∀ s, m.init s → I (s, start))
    (hok : ∀ s a, m.Reachable ok s.1 → I s → okRecord s a → ok s.1 a)
    (hstep : ∀ s a t, m.Reachable ok s.1 → I s → okRecord s a → m.step s.1 a = some t → I (t, record s.1 a s.2))
    {s : σ × γ} (h : (m.recorded start record).Reachable okRecord s) : m.Reachable ok s.1 ∧ I s := by
  refine h.invariant (I := fun s => m.Reachable ok s.1 ∧ I s) ?_ ?_
  · rintro ⟨s, g⟩ ⟨hs, rfl⟩
    exact ⟨.init hs, hinit s hs⟩
  · rintro s a t ⟨hr, hI⟩ ha hs
    obtain ⟨next, hnext, rfl⟩ := Option.map_eq_some_iff.mp hs
    exact ⟨hr.step (hok s a hr hI ha) hnext, hstep s a next hr hI ha hnext⟩

end Recorded

section Schedules

variable [∀ s a, Decidable (ok s a)] {s t : σ} {schedule : List α}

theorem Machine.run_preserves {P : σ → Prop} (hstep : ∀ s a t, P s → ok s a → m.step s a = some t → P t)
    (hr : m.run ok s schedule = some t) (hs : P s) : P t := by
  induction schedule generalizing s with
  | nil =>
      obtain rfl : s = t := by simpa [Machine.run] using hr
      exact hs
  | cons a rest ih =>
      rw [Machine.run] at hr
      split at hr
      · obtain ⟨next, hnext, hrest⟩ := Option.bind_eq_some_iff.mp hr
        exact ih hrest (hstep s a next hs ‹_› hnext)
      · cases hr

theorem Machine.Reachable.run (h : m.Reachable ok s) (hr : m.run ok s schedule = some t) : m.Reachable ok t :=
  Machine.run_preserves (fun _ _ _ hs hok hstep => hs.step hok hstep) hr h

-- A schedule that can be carried out shows that a state of some kind is reached.
theorem Machine.Reachable.exists_run {p : σ → Bool} (h : m.Reachable ok s)
    (hr : (m.run ok s schedule).any p = true) : ∃ t, m.Reachable ok t ∧ p t = true := by
  obtain ⟨t, ht, hp⟩ := (Option.any_eq_true _ _).mp hr
  exact ⟨t, h.run ht, hp⟩

-- What a step keeps if it meets `ok`, and only then, is left at the end of a run if all its steps meet `ok`.
theorem Machine.Reachable.run_iff {P : σ → Prop}
    (hstep : ∀ s a t, m.Reachable (fun _ _ => True) s → m.step s a = some t → (P t ↔ P s ∧ ok s a))
    (h : m.Reachable (fun _ _ => True) s) (hr : m.run (fun _ _ => True) s schedule = some t) :
    P t ↔ P s ∧ m.run ok s schedule = some t := by
  induction schedule generalizing s with
  | nil =>
      obtain rfl : s = t := by simpa [Machine.run] using hr
      simp [Machine.run]
  | cons a rest ih =>
      rw [Machine.run, if_pos trivial] at hr
      obtain ⟨next, hnext, hrest⟩ := Option.bind_eq_some_iff.mp hr
      rw [ih (h.step trivial hnext) hrest, hstep s a next h hnext, and_assoc]
      refine and_congr_right fun _ => ?_
      by_cases hok : ok s a
      · simp [Machine.run, hok, hnext]
      · simp [Machine.run, hok]

end Schedules

section Infinite

variable (m ok)

structure Machine.IsRun (state : Nat → σ) (act : Nat → α) : Prop where
  ok : ∀ n, ok (state n) (act n)
  step : ∀ n, m.step (state n) (act n) = some (state (n + 1))

-- The scheduler does not put off for ever the steps in `own`: while one is possible, one is done later.
def Machine.IsFair (own : α → Prop) (state : Nat → σ) (act : Nat → α) : Prop :=
  ∀ n, (∃ a t, own a ∧ ok (state n) a ∧ m.step (state n) a = some t) → ∃ k, own (act (n + k))

variable {m ok} {state : Nat → σ} {act : Nat → α}

theorem Machine.IsRun.reachable (h : m.IsRun ok state act) (h0 : m.Reachable ok (state 0)) (n : Nat) :
    m.Reachable ok (state n) := by
  induction n with
  | zero => exact h0
  | succ n ih => exact ih.step (h.ok n) (h.step n)

variable {own : α → Prop} {P : σ → Prop} {τ : Type} {R : τ → τ → Prop} {rank : σ → τ}

-- Up to the next own step the rank stays; with that step it goes down.
theorem Machine.IsRun.descends (h : m.IsRun ok state act) (h0 : m.Reachable ok (state 0))
    (hown : ∀ s a t, m.Reachable ok s → ok s a → own a → m.step s a = some t → P t ∨ R (rank t) (rank s))
    (hother : ∀ s a t, m.Reachable ok s → ok s a → ¬own a → m.step s a = some t → P t ∨ rank t = rank s)
    {n k : Nat} (hk : own (act (n + k))) : ∃ i, P (state i) ∨ R (rank (state i)) (rank (state n)) := by
  induction k generalizing n with
  | zero => exact ⟨n + 1, hown _ _ _ (h.reachable h0 n) (h.ok n) hk (h.step n)⟩
  | succ k ih =>
      by_cases hact : own (act n)
      · exact ⟨n + 1, hown _ _ _ (h.reachable h0 n) (h.ok n) hact (h.step n)⟩
      · obtain hP | hrank := hother _ _ _ (h.reachable h0 n) (h.ok n) hact (h.step n)
        · exact ⟨n + 1, .inl hP⟩
        · rw [← Nat.succ_add_eq_add_succ] at hk
          rw [← hrank]
          exact ih hk

-- What own steps bring nearer is reached in the end if they are possible until then.
theorem Machine.IsRun.eventually (h : m.IsRun ok state act) (h0 : m.Reachable ok (state 0))
    (hfair : m.IsFair ok own state act) (hR : WellFounded R)
    (hlive : ∀ s, m.Reachable ok s → ¬P s → ∃ a t, own a ∧ ok s a ∧ m.step s a = some t)
    (hown : ∀ s a t, m.Reachable ok s → ok s a → own a → m.step s a = some t → P t ∨ R (rank t) (rank s))
    (hother : ∀ s a t, m.Reachable ok s → ok s a → ¬own a → m.step s a = some t → P t ∨ rank t = rank s) :
    ∃ n, P (state n) := by
  have hfrom : ∀ r n, rank (state n) = r → ∃ i, P (state i) := by
    intro r
    induction r using hR.induction with
    | _ r ih =>
        intro n hn
        by_cases hP : P (state n)
        · exact ⟨n, hP⟩
        · obtain ⟨k, hk⟩ := hfair n (hlive _ (h.reachable h0 n) hP)
          obtain ⟨i, hi | hi⟩ := h.descends h0 hown hother hk
          · exact ⟨i, hi⟩
          · rw [hn] at hi
            exact ih _ hi i rfl
  exact hfrom _ 0 rfl

end Infinite

end Usbip.Library.Runs

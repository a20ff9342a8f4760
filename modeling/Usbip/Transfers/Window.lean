import Usbip.Seqnums.Theorems
import Usbip.Transfers.Frame

namespace Usbip.Device

open Function
open Usbip.Library.Pool
open Usbip.Library.Runs
open Usbip.Device.Seqnums (NUMBERS following following_pos following_nextSeqnum extractNum_nextSeqnum)

-- How many numbers were drawn, those of the CMD_UNLINKs among them, and when each was drawn for a transfer.
structure Draws where
  count : Nat := 0
  last : Seqnum → Nat := fun _ => 0

def Draws.record (st : State) (a : Action) (draws : Draws) : Draws :=
  match a with
  | .draw dirIn =>
    { count := draws.count + 1
      last := update draws.last (nextSeqnum st.seqnum dirIn).2 draws.count }
  | .unlink _ _ false => { draws with count := draws.count + 1 }
  | _ => draws

-- Fewer than 2^31 - 1 numbers were drawn from the oldest on that a transfer or its context still has.
def InWindow (s : State × Draws) : Prop :=
  ∀ n, s.1.inUse n = true → s.2.count - s.2.last n < NUMBERS

-- The numbers go round: each is determined by the one that the counter started before.
structure Numbered (first : Nat) (s : State × Draws) : Prop where
  next : following s.1.seqnum = (first + s.2.count) % NUMBERS + 1
  number : ∀ n, s.1.inUse n = true → s.2.last n < s.2.count ∧
    (extractNum n).toNat = (first + s.2.last n) % NUMBERS + 1

section Window

variable {st st' : State} {draws : Draws} {a : Action}

-- A number is in use by a context or by a transfer that is not completed.
theorem Inv.inUse_cases (hi : Inv st) {n : Seqnum} (h : st.inUse n = true) :
    (∃ t ∈ st.tasks, t.carries n = true) ∨ ∃ r, (st.dev.request r).Outstanding ∧ (st.dev.request r).seqnum = n := by
  simp only [State.inUse, Bool.or_eq_true, List.any_eq_true, beq_iff_eq] at h
  obtain ⟨r, hr, hn⟩ | ⟨t, ht, huses⟩ := h
  · exact .inr ⟨r, hi.listed r hr, hn⟩
  · have hopen : ∀ r, t.owns r = true → (st.dev.request r).Outstanding := fun r => hi.outstanding_of_owner ht
    cases t with
    | drawn | sendSubmit | sent | refused => exact .inl ⟨_, ht, huses⟩
    | cancelRequest r => exact .inr ⟨r, hopen r (by simp [Task.owns]), by simpa [Task.uses] using huses⟩
    | unlink thread r => exact .inr ⟨r, hopen r (by simp [Task.owns]), by simpa [Task.uses] using huses⟩
    | sendUnlink thread r s => exact .inr ⟨r, hopen r (by simp [Task.owns]), by simpa [Task.uses] using huses⟩
    | complete thread r => exact .inr ⟨r, hopen r (by simp [Task.owns]), by simpa [Task.uses] using huses⟩
    | endpointPurge => simp [Task.uses] at huses

theorem inUse_of_carries {t : Task} (ht : t ∈ st.tasks) {n : Seqnum} (h : t.carries n = true) :
    st.inUse n = true := by
  by_contra hn
  have huses := (not_inUse (Bool.eq_false_iff.mpr hn)).2 t ht
  rw [carries_of_not_uses huses] at h
  cases h

theorem Inv.inUse_of_outstanding (hi : Inv st) {r : Handle} (h : (st.dev.request r).Outstanding) :
    st.inUse (st.dev.request r).seqnum = true := by
  by_contra hn
  exact hi.new_seqnum (Bool.eq_false_iff.mpr hn) h rfl

-- A number comes into use when it is drawn.
theorem Inv.step_inUse (hi : Inv st) (hi' : Inv st') (hstep : Device.step st a = some st') {n : Seqnum}
    (h : st'.inUse n = true) : st.inUse n = true ∨ ∃ dirIn, a = .draw dirIn ∧ n = (nextSeqnum st.seqnum dirIn).2 := by
  obtain ⟨t, ht, hcarries⟩ | ⟨r, hopen, rfl⟩ := hi'.inUse_cases h
  · rcases step_tasks hstep ht with hnew | hold
    · cases step_cases hstep with
      | draw dirIn =>
          obtain rfl := List.mem_singleton.mp hnew
          exact .inr ⟨dirIn, rfl, (by simpa [Task.carries] using hcarries : _ = n).symm⟩
      | submit r e s _ hdrawn =>
          obtain rfl := List.mem_singleton.mp hnew
          exact .inl (inUse_of_carries hdrawn hcarries)
      | wskSend r s hmem =>
          obtain rfl := List.mem_singleton.mp hnew
          refine .inl (inUse_of_carries hmem ?_)
          split_ifs at hcarries <;> exact hcarries
      | drop | close => simp [spawned] at hnew
      | sendComplete r s success _ =>
          cases success <;> simp only [spawned] at hnew <;> split_ifs at hnew <;> simp_all [Task.carries]
      | receive s _ =>
          rw [spawned, Option.mem_toList, Option.map_eq_some_iff] at hnew
          obtain ⟨x, _, rfl⟩ := hnew
          simp [Task.carries] at hcarries
      | purgeNext e _ =>
          rw [spawned, Option.mem_toList, Option.map_eq_some_iff] at hnew
          obtain ⟨x, _, rfl⟩ := hnew
          simp [Task.carries] at hcarries
      | cancel r _ => simp only [spawned] at hnew; split_ifs at hnew <;> simp_all [Task.carries]
      | unlink thread r skip _ => cases skip <;> simp_all [spawned, Task.carries]
      | complete thread r _ => cases thread <;> simp_all [spawned, Thread.resume, Task.carries]
      | cancelRequest | endpointPurge | sendUnlink => simp_all [spawned, Task.carries]
    · exact .inl (inUse_of_carries hold hcarries)
  · rcases step_delivery hstep with ⟨x, e, s, rfl, _, hdrawn, rfl⟩ | ⟨_, hsame⟩
    · by_cases hr : r = x
      · rw [hr, submitted_request.2]
        exact .inl (inUse_of_carries hdrawn (by simp [Task.carries]))
      · rw [submitted_request_ne hr] at hopen ⊢
        exact .inl (hi.inUse_of_outstanding hopen)
    · rw [(hsame r).seqnum]
      exact .inl (hi.inUse_of_outstanding ((hsame r).outstanding hopen))

theorem numbered_init {s : State} (h : machine.init s) : Numbered (following s.seqnum - 1) (s, {}) := by
  obtain ⟨counter, rfl⟩ := h
  constructor
  · obtain ⟨hpos, hle⟩ := following_pos counter
    change following counter = (following counter - 1 + 0) % NUMBERS + 1
    rw [Nat.add_zero, Nat.mod_eq_of_lt (by omega)]
    omega
  · simp [State.inUse]

-- A step draws a number and counts it, or does neither.
theorem Numbered.next_step {first : Nat} (h : Numbered first (st, draws)) (hstep : Device.step st a = some st') :
    following st'.seqnum = (first + (draws.record st a).count) % NUMBERS + 1 := by
  have hdraw : ∀ dirIn, following (nextSeqnum st.seqnum dirIn).1 = (first + (draws.count + 1)) % NUMBERS + 1 := by
    intro dirIn
    rw [following_nextSeqnum, h.next, ← Nat.add_assoc, Nat.mod_add_mod]
  cases step_cases hstep with
  | draw dirIn => exact hdraw dirIn
  | unlink thread r skip _ =>
      cases skip with
      | true => exact h.next
      | false => exact hdraw false
  | wskSend r s _ => split_ifs <;> exact h.next
  | sendComplete r s success _ => cases success <;> exact h.next
  | cancel r _ =>
      simp only [cancelledByUpper]
      cases (st.dev.request r).cancellation <;> exact h.next
  | drop | submit | receive | cancelRequest | endpointPurge | purgeNext | sendUnlink | complete | close => exact h.next

theorem Draws.le_record (st : State) (draws : Draws) (a : Action) : draws.count ≤ (draws.record st a).count := by
  cases a with
  | draw dirIn => exact Nat.le_succ _
  | unlink thread r skip => cases skip <;> simp [Draws.record]
  | _ => exact Nat.le_refl _

theorem Draws.record_last (hdraw : ∀ dirIn, a ≠ .draw dirIn) : (draws.record st a).last = draws.last := by
  cases a with
  | draw dirIn => exact absurd rfl (hdraw dirIn)
  | unlink thread r skip => cases skip <;> rfl
  | _ => rfl

theorem Numbered.step {first : Nat} (h : Numbered first (st, draws)) (hi : Inv st) (hi' : Inv st')
    (hstep : Device.step st a = some st') : Numbered first (st', draws.record st a) := by
  refine ⟨h.next_step hstep, fun n hn => ?_⟩
  have hle := draws.le_record st a
  by_cases hdraw : ∃ dirIn, a = .draw dirIn
  · obtain ⟨dirIn, rfl⟩ := hdraw
    by_cases hnew : n = (nextSeqnum st.seqnum dirIn).2
    · subst hnew
      have hlast : (draws.record st (.draw dirIn)).last (nextSeqnum st.seqnum dirIn).2 = draws.count :=
        update_self _ _ _
      rw [hlast, extractNum_nextSeqnum]
      exact ⟨Nat.lt_succ_self _, h.next⟩
    · have hold : st.inUse n = true := by
        refine (hi.step_inUse hi' hstep hn).resolve_right ?_
        rintro ⟨d, hd, hn⟩
        cases hd
        exact hnew hn
      simp only [Draws.record, update_of_ne hnew]
      exact ⟨Nat.lt_succ_of_lt (h.number n hold).1, (h.number n hold).2⟩
  · rw [not_exists] at hdraw
    have hold := (hi.step_inUse hi' hstep hn).resolve_right fun ⟨d, hd, _⟩ => hdraw d hd
    rw [show (draws.record st a).last = draws.last from Draws.record_last hdraw]
    exact ⟨Nat.lt_of_lt_of_le (h.number n hold).1 hle, (h.number n hold).2⟩

theorem Numbered.fresh {first : Nat} (h : Numbered first (st, draws)) (hwindow : InWindow (st, draws)) (a : Action) :
    FreshSeqnum st a := by
  cases a with
  | draw dirIn =>
      by_contra hnot
      have huse : st.inUse (nextSeqnum st.seqnum dirIn).2 = true := by simpa [FreshSeqnum] using hnot
      obtain ⟨hlt, hnum⟩ := h.number _ huse
      have hnear := hwindow _ huse
      rw [extractNum_nextSeqnum, h.next] at hnum
      simp only [NUMBERS] at hnum hlt hnear
      omega
  | _ => trivial

end Window

-- Within the window no number is drawn that a transfer still has, whatever else is asked of the runs.
theorem reachable_fresh {ok : State → Action → Prop}
    (hinv : ∀ st, machine.Reachable (fun st a => ok st a ∧ FreshSeqnum st a) st → Inv st) {s : State × Draws}
    (h : (machine.recorded {} fun st a draws => draws.record st a).Reachable (fun s a => ok s.1 a ∧ InWindow s) s) :
    machine.Reachable (fun st a => ok st a ∧ FreshSeqnum st a) s.1 := by
  refine (h.of_recorded (I := fun s => ∃ first, Numbered first s) ?_ ?_ ?_).1
  · exact fun st hst => ⟨_, numbered_init hst⟩
  · rintro ⟨st, draws⟩ a _ ⟨first, hnumbered⟩ ⟨hok, hwindow⟩
    exact ⟨hok, hnumbered.fresh hwindow a⟩
  · rintro ⟨st, draws⟩ a st' hr ⟨first, hnumbered⟩ ⟨hok, hwindow⟩ hstep
    have hnext := hr.step ⟨hok, hnumbered.fresh hwindow a⟩ hstep
    exact ⟨first, hnumbered.step (hinv _ hr) (hinv _ hnext) hstep⟩

end Usbip.Device

import Usbip.Filter.Pnp

namespace Usbip.Filter.Pnp

open Usbip.Library.Novelty
open Usbip.Library.Runs

variable {st : State} {env : Nat → AddEnv} {r : List Pdo}

theorem isKnown_iff {previous : Option (List Pdo)} {pdo : Pdo} :
    isKnown previous pdo = true ↔ pdo ∈ previous.getD [] := by
  cases previous <;> simp [isKnown]

-- What a call of `do_add_device` leaves behind: the attempt, and at most one device object for the PDO.
structure Adds (pdos : List Pdo) (st st' : State) : Prop where
  previous : st'.previous = st.previous
  history : st'.history = st.history
  attempted : st'.attempted = st.attempted ++ pdos
  created : ∃ given, st'.created = st.created ++ given ∧ given.Sublist pdos

theorem Adds.nothing (st : State) : Adds [] st st :=
  ⟨rfl, rfl, (List.append_nil _).symm, [], (List.append_nil _).symm, .slnil⟩

theorem Adds.trans {first second : List Pdo} {st₁ st₂ : State} (h : Adds first st st₁) (h' : Adds second st₁ st₂) :
    Adds (first ++ second) st st₂ := by
  obtain ⟨given, hgiven, hsub⟩ := h.created
  obtain ⟨given', hgiven', hsub'⟩ := h'.created
  refine ⟨h'.previous.trans h.previous, h'.history.trans h.history, ?_, given ++ given', ?_, hsub.append hsub'⟩
  · rw [h'.attempted, h.attempted, List.append_assoc]
  · rw [hgiven', hgiven, List.append_assoc]

theorem doAddDevice_adds (env : AddEnv) (pdo : Pdo) (st : State) : Adds [pdo] st (doAddDevice env pdo st).2 := by
  unfold doAddDevice
  split_ifs
  · exact ⟨rfl, rfl, rfl, [], (List.append_nil _).symm, List.nil_sublist _⟩
  · exact ⟨rfl, rfl, rfl, [pdo], rfl, .refl _⟩
  · exact ⟨rfl, rfl, rfl, [pdo], rfl, .refl _⟩
  · exact ⟨rfl, rfl, rfl, [pdo], rfl, .refl _⟩

theorem addLoop_adds (env : Nat → AddEnv) (i : Nat) (r : List Pdo) (st : State) :
    Adds (r.filter fun pdo => !isKnown st.previous pdo) st (addLoop env i r st) := by
  induction r generalizing i st with
  | nil => exact .nothing st
  | cons pdo rest ih =>
      rw [addLoop, List.filter_cons]
      by_cases hknown : isKnown st.previous pdo = true
      · rw [if_pos hknown, if_neg (by simp [hknown])]
        exact ih (i + 1) st
      · have hadd := doAddDevice_adds (env i) pdo st
        rw [if_neg hknown, if_pos (by simpa using hknown)]
        have hrest := ih (i + 1) (doAddDevice (env i) pdo st).2
        rw [hadd.previous] at hrest
        exact hadd.trans hrest

-- The copy has the members of the relations that the last query has shown.
structure Inv (st : State) : Prop where
  previous : ∀ p, p ∈ st.previous.getD [] ↔ p ∈ lastMembers st.history
  history : Differences st.history

theorem Inv.queryBusRelations {env : QueryEnv} (hi : Inv st) (h : Remembers st.previous env r) :
    Inv (queryBusRelations env r st) := by
  obtain ⟨hnodup, hclone⟩ := h
  obtain ⟨st', hloop⟩ : ∃ st', addLoop env.add 0 r { st with attempted := [], created := [] } = st' := ⟨_, rfl⟩
  have hadds := addLoop_adds env.add 0 r { st with attempted := [], created := [] }
  rw [hloop] at hadds
  have hprevious : st'.previous = st.previous := hadds.previous
  have hhistory : st'.history = st.history := hadds.history
  have hattempted : st'.attempted = r.filter fun pdo => !isKnown st.previous pdo := hadds.attempted
  obtain ⟨given, hgiven, hsub⟩ := hadds.created
  have hgiven : st'.created = given := hgiven
  rw [Pnp.queryBusRelations, hloop]
  refine ⟨fun p => ?_, ?_⟩
  · change p ∈ (if r = [] then none else if env.clone = true then some r else st'.previous).getD [] ↔ p ∈ r
    split_ifs with hempty hcopied
    · rw [hempty]
      rfl
    · rfl
    · rw [hprevious]
      obtain hnil | hdone | ⟨hsubset, hsuperset⟩ := hclone
      · exact absurd hnil hempty
      · exact absurd hdone hcopied
      · exact ⟨hsuperset p, hsubset p⟩
  · rw [hhistory, hattempted, hgiven]
    refine .cons hi.history (fun p => ?_) hnodup hsub
    rw [List.mem_filter, ← hi.previous, ← isKnown_iff]
    simp

theorem Inv.step {st' : State} {a : Action} (hi : Inv st) (hok : Remembered st a) (hs : step st a = some st') :
    Inv st' := by
  cases a with
  | query status relations env =>
      cases relations with
      | none =>
          cases hs
          exact hi
      | some r =>
          cases hs
          split
          · exact hi.queryBusRelations (hok ‹_› r rfl)
          · exact hi
  | removeDevice fltr =>
      rw [Pnp.step] at hs
      split at hs
      · cases hs
        exact ⟨hi.previous, hi.history⟩
      · cases hs

theorem reachable_inv (h : machine.Reachable Remembered st) : Inv st := by
  refine h.invariant ?_ fun _ _ _ hi hok hs => hi.step hok hs
  rintro _ rfl
  exact ⟨fun _ => Iff.rfl, .nil⟩

-- A PDO gets one filter device while it stays, and every new one gets an attempt, as long as the copy keeps up.
theorem one_filter_per_pdo (h : machine.Reachable Remembered st) :
    OncePerStay st.history ∧ NewAttempted st.history :=
  ⟨(reachable_inv h).history.oncePerStay, (reachable_inv h).history.newAttempted⟩

-- The copy fails for relations that have not changed, and then for one that is told again to be empty.
def steady : List Action :=
  [.query .STATUS_SUCCESS (some [1, 2]) {}, .query .STATUS_SUCCESS (some [2, 1]) { clone := false },
    .query .STATUS_SUCCESS (some []) { clone := false }, .query .STATUS_SUCCESS (some [1]) {}]

theorem one_filter_per_pdo_steady :
    ∃ st : State, st.history.map Look.given = [[1], [], [], [1, 2]] ∧ OncePerStay st.history ∧
      NewAttempted st.history := by
  have hrun : (machine.run Remembered {} steady).any
      (fun st : State => st.history.map Look.given == [[1], [], [], [1, 2]]) = true := by
    decide
  obtain ⟨st, hr, hgiven⟩ := (Machine.Reachable.init rfl).exists_run hrun
  exact ⟨st, by simpa using hgiven, one_filter_per_pdo hr⟩

-- There is no memory for the first copy, so the next query takes the same device for a new one.
theorem second_filter_after_clone :
    ¬ ∀ st, machine.Reachable (fun _ _ => True) st → OncePerStay st.history ∧ NewAttempted st.history := by
  intro h
  have hrun : (machine.run (fun _ _ => True) {}
      [.query .STATUS_SUCCESS (some [1]) { clone := false }, .query .STATUS_SUCCESS (some [1]) {}]).any
      (fun st : State => st.history == [⟨[1], [1], [1]⟩, ⟨[1], [1], [1]⟩]) = true := by
    decide
  obtain ⟨st, hr, hhistory⟩ := (Machine.Reachable.init rfl).exists_run hrun
  have honce := (h st hr).1 [] st.history [] 1 (by simp)
  rw [beq_iff_eq.mp hhistory] at honce
  exact absurd (honce (by simp)) (by decide)

end Usbip.Filter.Pnp

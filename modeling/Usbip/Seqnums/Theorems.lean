import Usbip.Proto.Theorems
import Usbip.RequestList.Theorems
import Usbip.Seqnums

namespace Usbip.Device.Seqnums

open Usbip.Library.Pool
open Usbip.Library.Runs

-- How many numbers there are besides the invalid one.
def NUMBERS : Nat := 2 ^ 31 - 1

-- The number that is handed out next: after the last one comes zero, which is skipped.
def following (counter : UInt32) : Nat :=
  if (counter.toNat + 1) % 2 ^ 31 = 0 then 1 else (counter.toNat + 1) % 2 ^ 31

def directionOf (dirIn : Bool) : UInt32 := if dirIn then directionIn else directionOut

section Counter

variable (counter : UInt32)

theorem toNat_succ : (counter + 1).toNat = (counter.toNat + 1) % 2 ^ 32 := by
  rw [UInt32.toNat_add]
  rfl

theorem shift_eq_zero : counter <<< 1 = 0 ↔ counter.toNat % 2 ^ 31 = 0 := by
  have hnat : (counter <<< 1).toNat = 2 * (counter.toNat % 2 ^ 31) := by
    rw [UInt32.toNat_shiftLeft]
    simp only [UInt32.toNat_one, Nat.one_mod, Nat.shiftLeft_eq]
    omega
  rw [← UInt32.toNat_inj, hnat]
  simp

theorem following_of_skip (h : (counter + 1) <<< 1 = 0) : following (counter + 1) = following counter := by
  rw [shift_eq_zero, toNat_succ] at h
  unfold following
  rw [toNat_succ]
  split_ifs <;> omega

theorem extractNum_handedOut {bit : UInt32} (hbit : bit = 0 ∨ bit = 1) (h : (counter + 1) <<< 1 ≠ 0) :
    (extractNum ((counter + 1) <<< 1 ||| bit)).toNat = following counter := by
  rw [ne_eq, shift_eq_zero, toNat_succ] at h
  rw [toNat_extractNum_shift _ _ hbit, toNat_succ]
  unfold following
  split_ifs <;> omega

theorem following_of_handedOut (h : (counter + 1) <<< 1 ≠ 0) :
    following (counter + 1) = following counter % NUMBERS + 1 := by
  rw [ne_eq, shift_eq_zero, toNat_succ] at h
  unfold following NUMBERS
  rw [toNat_succ]
  split_ifs <;> omega

theorem following_pos : 0 < following counter ∧ following counter ≤ NUMBERS := by
  unfold following NUMBERS
  split_ifs <;> omega

-- After the skipped number comes one that is not skipped.
theorem handedOut_of_skip (h : (counter + 1) <<< 1 = 0) : (counter + 1 + 1) <<< 1 ≠ 0 := by
  rw [shift_eq_zero, toNat_succ] at h
  rw [ne_eq, shift_eq_zero, toNat_succ, toNat_succ]
  omega

end Counter

-- The numbers go round: the `i`-th of them is determined by the one that the counter started before.
structure Numbered (first : Nat) (st : State) : Prop where
  next : following st.counter = (first + st.results.length) % NUMBERS + 1
  number : ∀ (i : Nat) (h : i < st.results.length),
    (extractNum st.results[i].seqnum).toNat = (first + i) % NUMBERS + 1
  direction : ∀ res ∈ st.results, extractDir res.seqnum = directionOf res.dirIn

theorem numbered_init (counter : UInt32) : Numbered (following counter - 1) { counter := counter } where
  next := by
    obtain ⟨hpos, hle⟩ := following_pos counter
    change following counter = (following counter - 1 + 0) % NUMBERS + 1
    rw [Nat.add_zero, Nat.mod_eq_of_lt (by omega)]
    omega
  number i h := absurd h (Nat.not_lt_zero i)
  direction res h := absurd h List.not_mem_nil

section Increment

variable {first : Nat} {st : State} {dirIn : Bool}

theorem incremented_of_skip (h : (st.counter + 1) <<< 1 = 0) :
    incremented st dirIn = { st with counter := st.counter + 1 } := by
  simp [incremented, incrementSeqnum, h]

-- The result of a caller that leaves the loop.
def handedOut (counter : UInt32) (dirIn : Bool) : Result :=
  { dirIn := dirIn, seqnum := (counter + 1) <<< 1 ||| (if dirIn then 1 else 0) }

theorem incremented_of_handedOut (h : (st.counter + 1) <<< 1 ≠ 0) :
    incremented st dirIn =
      { st with
        counter := st.counter + 1
        calls := advance st.calls (.looping dirIn) [.returned st.results.length]
        results := st.results ++ [handedOut st.counter dirIn] } := by
  simp [incremented, incrementSeqnum, handedOut, h]

theorem bit_cases (dirIn : Bool) : (if dirIn then 1 else 0 : UInt32) = 0 ∨ (if dirIn then 1 else 0 : UInt32) = 1 := by
  cases dirIn
  · exact .inl rfl
  · exact .inr rfl

theorem Numbered.incremented (h : Numbered first st) : Numbered first (incremented st dirIn) := by
  by_cases hskip : (st.counter + 1) <<< 1 = 0
  · rw [incremented_of_skip hskip]
    exact ⟨(following_of_skip _ hskip).trans h.next, h.number, h.direction⟩
  · rw [incremented_of_handedOut hskip]
    have hnext := h.next
    constructor
    case next =>
      have hpos : 0 < NUMBERS := by decide
      simp only [List.length_append, List.length_singleton]
      rw [following_of_handedOut _ hskip, hnext, ← Nat.add_assoc, Nat.mod_add_mod]
    case number =>
      intro i hi
      by_cases hold : i < st.results.length
      · simp only [List.getElem_append_left hold]
        exact h.number i hold
      · obtain rfl : i = st.results.length := by
          simp only [List.length_append, List.length_singleton] at hi
          omega
        simp only [List.getElem_append_right (le_refl _), Nat.sub_self, List.getElem_singleton, handedOut]
        rw [extractNum_handedOut _ (bit_cases dirIn) hskip, hnext]
    case direction =>
      intro res hres
      obtain hres | hres := List.mem_append.mp hres
      · exact h.direction res hres
      · obtain rfl := List.mem_singleton.mp hres
        exact extractDir_shift _ _ (bit_cases dirIn)

-- A whole round of numbers passes before one of them comes again.
theorem Numbered.ne (h : Numbered first st) {i j : Nat} (hi : i < st.results.length) (hj : j < st.results.length)
    (hij : i < j) (hnear : j < i + NUMBERS) :
    extractNum st.results[i].seqnum ≠ extractNum st.results[j].seqnum := by
  intro heq
  have hnat := congrArg UInt32.toNat heq
  rw [h.number i hi, h.number j hj] at hnat
  unfold NUMBERS at hnat hnear
  omega

theorem Numbered.valid (h : Numbered first st) {res : Result} (hres : res ∈ st.results) :
    isValidSeqnum res.seqnum = true := by
  obtain ⟨i, hi, rfl⟩ := List.getElem_of_mem hres
  have hnumber := h.number i hi
  simp only [isValidSeqnum, bne_iff_ne, ne_eq]
  intro hzero
  rw [hzero] at hnumber
  exact absurd hnumber (by simp)

end Increment

-- Each entry carries a number of its own, and nobody else holds it.
structure Carried (st : State) : Prop where
  nodup : st.dev.entries.Nodup
  entry : ∀ r ∈ st.dev.entries, ∃ res, st.results[st.result r]? = some res ∧ (st.dev.request r).seqnum = res.seqnum
  apart : ∀ r ∈ st.dev.entries, ∀ q ∈ st.dev.entries, st.result r = st.result q → r = q
  held : ∀ i, .returned i ∈ st.calls → i < st.results.length ∧ ∀ r ∈ st.dev.entries, st.result r ≠ i
  once : ∀ i, st.calls.count (.returned i) ≤ 1

section Carried

variable {st : State}

theorem carried_init (counter : UInt32) : Carried { counter := counter } := by
  constructor <;> simp

-- Entries are taken out, and of the others nothing but the cancellation changes.
structure Thinned (dev left : RequestList) : Prop where
  sublist : left.entries.Sublist dev.entries
  seqnum : ∀ r, (left.request r).seqnum = (dev.request r).seqnum

theorem Carried.thinned (h : Carried st) {left : RequestList} (hleft : Thinned st.dev left) :
    Carried { st with dev := left } where
  nodup := h.nodup.sublist hleft.sublist
  entry r hr := by
    rw [hleft.seqnum r]
    exact h.entry r (hleft.sublist.subset hr)
  apart r hr q hq := h.apart r (hleft.sublist.subset hr) q (hleft.sublist.subset hq)
  held i hi := ⟨(h.held i hi).1, fun r hr => (h.held i hi).2 r (hleft.sublist.subset hr)⟩
  once := h.once

theorem thinned_set (dev : RequestList) (r : Handle) (req : Request) (h : req.seqnum = (dev.request r).seqnum) :
    Thinned dev (dev.set r req) where
  sublist := List.Sublist.refl _
  seqnum q := by
    by_cases hq : q = r
    · subst hq
      rw [RequestList.set_request_self, h]
    · rw [RequestList.set_request_ne _ _ hq]

theorem thinned_mark (dev : RequestList) (s : Seqnum) : Thinned dev (markRequestCancelable dev s).2 := by
  obtain ⟨hmark, -⟩ | ⟨r, -, -, -, hmark⟩ | ⟨r, -, -, -, hmark⟩ := markRequestCancelable_cases dev s <;> rw [hmark]
  · exact ⟨List.Sublist.refl _, fun _ => rfl⟩
  · exact thinned_set dev r _ rfl
  · exact ⟨List.erase_sublist, fun _ => rfl⟩

theorem thinned_remove (dev : RequestList) (crit : RequestSearch) (unmarks : Bool) (hnodup : dev.entries.Nodup) :
    Thinned dev (removeRequest dev crit unmarks).1 :=
  have hremoval := removeRequest_removal dev crit unmarks hnodup
  ⟨hremoval.sublist, hremoval.seqnum_eq⟩

theorem Carried.call (h : Carried st) (dirIn : Bool) : Carried { st with calls := .looping dirIn :: st.calls } where
  nodup := h.nodup
  entry := h.entry
  apart := h.apart
  held i hi := h.held i (by simpa using hi)
  once i := by simpa using h.once i

theorem Carried.incremented (h : Carried st) {dirIn : Bool} (hcall : .looping dirIn ∈ st.calls) :
    Carried (incremented st dirIn) := by
  by_cases hskip : (st.counter + 1) <<< 1 = 0
  · rw [incremented_of_skip hskip]
    exact ⟨h.nodup, h.entry, h.apart, h.held, h.once⟩
  · rw [incremented_of_handedOut hskip]
    have hlt : ∀ r ∈ st.dev.entries, st.result r < st.results.length := by
      intro r hr
      obtain ⟨res, hres, -⟩ := h.entry r hr
      exact (List.getElem?_eq_some_iff.mp hres).1
    constructor
    case nodup => exact h.nodup
    case entry =>
      intro r hr
      obtain ⟨res, hres, hs⟩ := h.entry r hr
      exact ⟨res, by rwa [List.getElem?_append_left (hlt r hr)], hs⟩
    case apart => exact h.apart
    case held =>
      intro i hi
      simp only [List.length_append, List.length_singleton]
      obtain hnew | hold := mem_advance hi
      · obtain rfl : i = st.results.length := by simpa using hnew
        exact ⟨Nat.lt_succ_self _, fun r hr => (hlt r hr).ne⟩
      · obtain ⟨hi, hfree⟩ := h.held i hold
        exact ⟨by omega, hfree⟩
    case once =>
      intro i
      have hcount := count_advance hcall [.returned st.results.length] (.returned i)
      by_cases hi : i = st.results.length
      · subst hi
        have hfresh : st.calls.count (.returned st.results.length) = 0 :=
          List.count_eq_zero.mpr fun hmem => absurd (h.held _ hmem).1 (lt_irrefl _)
        simpa [hfresh] using hcount.le
      · have hone := h.once i
        have hne : ¬ st.results.length = i := fun he => hi he.symm
        simp only [reduceCtorEq, if_false, List.count_singleton, beq_iff_eq, Call.returned.injEq, hne] at hcount
        dsimp only
        omega

theorem Carried.dropped (h : Carried st) {i : Nat} (hcall : .returned i ∈ st.calls) :
    Carried { st with calls := advance st.calls (.returned i) [] } where
  nodup := h.nodup
  entry := h.entry
  apart := h.apart
  held j hj := h.held j ((mem_advance hj).resolve_left List.not_mem_nil)
  once j := by
    have hcount := count_advance hcall [] (.returned j)
    have hone := h.once j
    rw [List.count_nil] at hcount
    change (advance st.calls (.returned i) []).count (.returned j) ≤ 1
    omega

theorem Carried.not_held (h : Carried st) {i : Nat} (hcall : .returned i ∈ st.calls) :
    .returned i ∉ advance st.calls (.returned i) [] := by
  have hcount := count_advance hcall [] (.returned i)
  have hone := h.once i
  rw [if_pos rfl, List.count_nil] at hcount
  exact List.count_eq_zero.mp (by omega)

theorem Carried.appended (h : Carried st) {i : Nat} {r : Handle} (e : Endpoint) {res : Result}
    (hcall : .returned i ∈ st.calls) (hr : r ∉ st.dev.entries) (hres : st.results[i]? = some res) :
    Carried (appended st i r e res) := by
  have hmem : ∀ q ∈ (appendRequest st.dev r res.seqnum e).entries, q ≠ r → q ∈ st.dev.entries := by
    intro q hq hne
    simpa [appendRequest, hne] using hq
  have hother : ∀ q ∈ st.dev.entries, q ≠ r := fun q hq he => hr (he ▸ hq)
  have hdropped := h.dropped hcall
  have hlive := (h.held i hcall).2
  constructor
  case nodup =>
    simp only [Seqnums.appended, appendRequest, RequestList.set_entries]
    exact List.nodup_append.mpr ⟨h.nodup, by simp, by simpa using hother⟩
  case entry =>
    intro q hq
    by_cases he : q = r
    · subst he
      exact ⟨res, by simpa [Seqnums.appended] using hres, by simp [Seqnums.appended, appendRequest]⟩
    · obtain ⟨old, hold, hs⟩ := h.entry q (hmem q hq he)
      refine ⟨old, by simpa [Seqnums.appended, he] using hold, ?_⟩
      simpa [Seqnums.appended, appendRequest, RequestList.set_request_ne, he] using hs
  case apart =>
    intro q hq p hp
    simp only [Seqnums.appended]
    by_cases he : q = r <;> by_cases hpe : p = r
    · exact fun _ => he.trans hpe.symm
    · rw [if_pos he, if_neg hpe]
      exact fun heq => absurd heq.symm (hlive p (hmem p hp hpe))
    · rw [if_neg he, if_pos hpe]
      exact fun heq => absurd heq (hlive q (hmem q hq he))
    · rw [if_neg he, if_neg hpe]
      exact h.apart q (hmem q hq he) p (hmem p hp hpe)
  case held =>
    intro j hj
    obtain ⟨hlt, hfree⟩ := hdropped.held j hj
    refine ⟨hlt, fun q hq => ?_⟩
    by_cases he : q = r
    · simp only [Seqnums.appended, if_pos he]
      rintro rfl
      exact h.not_held hcall hj
    · simp only [Seqnums.appended, if_neg he]
      exact hfree q (hmem q hq he)
  case once => exact hdropped.once

end Carried

structure Inv (st : State) : Prop where
  numbered : ∃ first, Numbered first st
  carried : Carried st

section Step

variable {st t : State}

-- Only an increment moves the counter and the numbers that were handed out.
theorem Numbered.congr {first : Nat} (h : Numbered first st) (hcounter : t.counter = st.counter)
    (hresults : t.results = st.results) : Numbered first t := by
  obtain ⟨counter, calls, results, dev, result⟩ := t
  subst hcounter hresults
  exact ⟨h.next, h.number, h.direction⟩

theorem step_inv {a : Action} (h : Inv st) (hs : step st a = some t) : Inv t := by
  obtain ⟨⟨first, hnumbered⟩, hcarried⟩ := h
  cases a with
  | call dirIn =>
      obtain rfl := Option.some.inj hs
      exact ⟨⟨first, hnumbered.congr rfl rfl⟩, hcarried.call dirIn⟩
  | increment dirIn =>
      simp only [step, Option.ite_none_right_eq_some, Option.some.injEq] at hs
      obtain ⟨hcall, rfl⟩ := hs
      exact ⟨⟨first, hnumbered.incremented⟩, hcarried.incremented hcall⟩
  | append i r e =>
      simp only [step, Option.ite_none_right_eq_some, Option.map_eq_some_iff] at hs
      obtain ⟨⟨hcall, hr⟩, res, hres, rfl⟩ := hs
      exact ⟨⟨first, hnumbered.congr rfl rfl⟩, hcarried.appended e hcall hr hres⟩
  | drop i =>
      simp only [step, Option.ite_none_right_eq_some, Option.some.injEq] at hs
      obtain ⟨hcall, rfl⟩ := hs
      exact ⟨⟨first, hnumbered.congr rfl rfl⟩, hcarried.dropped hcall⟩
  | mark s =>
      obtain rfl := Option.some.inj hs
      exact ⟨⟨first, hnumbered.congr rfl rfl⟩, hcarried.thinned (thinned_mark _ s)⟩
  | remove crit unmarks =>
      obtain rfl := Option.some.inj hs
      exact ⟨⟨first, hnumbered.congr rfl rfl⟩, hcarried.thinned (thinned_remove _ crit unmarks hcarried.nodup)⟩
  | cancellation r c =>
      obtain rfl := Option.some.inj hs
      exact ⟨⟨first, hnumbered.congr rfl rfl⟩, hcarried.thinned (thinned_set _ r _ rfl)⟩

theorem inv_of_reachable (h : machine.Reachable (fun _ _ => True) st) : Inv st :=
  h.invariant (I := Inv)
    (by
      rintro s ⟨counter, rfl⟩
      exact ⟨⟨_, numbered_init counter⟩, carried_init counter⟩)
    (fun _ _ _ hI _ hs => step_inv hI hs)

end Step

section Unique

variable {st : State}

-- How many numbers were handed out since the one that an entry carries.
def State.since (st : State) (r : Handle) : Nat := st.results.length - (st.result r + 1)

-- `remove_request` by a sequence number has no choice.
theorem matches_le_one (h : Inv st) (hsince : ∀ r ∈ st.dev.entries, st.since r < NUMBERS) (s : Seqnum) :
    (st.dev.entries.filter fun r => (RequestSearch.seqnum s).matches r (st.dev.request r)).length ≤ 1 := by
  obtain ⟨⟨first, hnumbered⟩, hcarried⟩ := h
  have hne : ∀ r ∈ st.dev.entries, ∀ q ∈ st.dev.entries, (st.dev.request r).seqnum = (st.dev.request q).seqnum →
      st.result r < st.result q → False := by
    intro r hr q hq heq hlt
    obtain ⟨res, hres, hrs⟩ := hcarried.entry r hr
    obtain ⟨qes, hqes, hqs⟩ := hcarried.entry q hq
    obtain ⟨hi, rfl⟩ := List.getElem?_eq_some_iff.mp hres
    obtain ⟨hj, rfl⟩ := List.getElem?_eq_some_iff.mp hqes
    have hnear := hsince r hr
    unfold State.since at hnear
    refine hnumbered.ne hi hj hlt (by omega) ?_
    rw [← hrs, ← hqs, heq]
  have hsame : ∀ r ∈ st.dev.entries, ∀ q ∈ st.dev.entries, (st.dev.request r).seqnum = (st.dev.request q).seqnum →
      r = q := by
    intro r hr q hq heq
    obtain hlt | hresult | hgt := lt_trichotomy (st.result r) (st.result q)
    · exact (hne r hr q hq heq hlt).elim
    · exact hcarried.apart r hr q hq hresult
    · exact (hne q hq r hr heq.symm hgt).elim
  have hnodup := hcarried.nodup.filter fun r => (RequestSearch.seqnum s).matches r (st.dev.request r)
  have hmem : ∀ r ∈ st.dev.entries.filter fun r => (RequestSearch.seqnum s).matches r (st.dev.request r),
      r ∈ st.dev.entries ∧ s = (st.dev.request r).seqnum := by
    intro r hr
    simpa [RequestSearch.matches] using List.mem_filter.mp hr
  generalize (st.dev.entries.filter fun r => (RequestSearch.seqnum s).matches r (st.dev.request r)) = found at *
  rcases found with _ | ⟨r, _ | ⟨q, rest⟩⟩
  · exact Nat.zero_le _
  · exact le_refl _
  · obtain ⟨hr, hrs⟩ := hmem r List.mem_cons_self
    obtain ⟨hq, hqs⟩ := hmem q (List.mem_cons_of_mem _ List.mem_cons_self)
    have heq := hsame r hr q hq (hrs.symm.trans hqs)
    exact absurd (heq ▸ List.mem_cons_self) (List.nodup_cons.mp hnodup).1

end Unique

section Alone

variable {st : State} {dirIn : Bool}

theorem step_increment (hcall : .looping dirIn ∈ st.calls) : step st (.increment dirIn) = some (incremented st dirIn) :=
  if_pos hcall

theorem nextSeqnum_of_handedOut (counter : UInt32) (dirIn : Bool) (h : (counter + 1) <<< 1 ≠ 0) :
    nextSeqnum counter dirIn = (counter + 1, (handedOut counter dirIn).seqnum) := by
  simp [nextSeqnum, incrementSeqnum, handedOut, h]

theorem nextSeqnum_of_skip (counter : UInt32) (dirIn : Bool) (h : (counter + 1) <<< 1 = 0) :
    nextSeqnum counter dirIn = nextSeqnum (counter + 1) dirIn := by
  have hagain := handedOut_of_skip _ h
  simp [nextSeqnum, incrementSeqnum, h, hagain]

theorem extractNum_nextSeqnum (counter : UInt32) (dirIn : Bool) :
    (extractNum (nextSeqnum counter dirIn).2).toNat = following counter := by
  by_cases hskip : (counter + 1) <<< 1 = 0
  · have hagain := handedOut_of_skip _ hskip
    rw [nextSeqnum_of_skip _ _ hskip, nextSeqnum_of_handedOut _ _ hagain, ← following_of_skip _ hskip]
    exact extractNum_handedOut _ (bit_cases dirIn) hagain
  · rw [nextSeqnum_of_handedOut _ _ hskip]
    exact extractNum_handedOut _ (bit_cases dirIn) hskip

theorem extractDir_nextSeqnum (counter : UInt32) (dirIn : Bool) :
    extractDir (nextSeqnum counter dirIn).2 = directionOf dirIn := by
  by_cases hskip : (counter + 1) <<< 1 = 0
  · rw [nextSeqnum_of_skip _ _ hskip, nextSeqnum_of_handedOut _ _ (handedOut_of_skip _ hskip)]
    exact extractDir_shift _ _ (bit_cases dirIn)
  · rw [nextSeqnum_of_handedOut _ _ hskip]
    exact extractDir_shift _ _ (bit_cases dirIn)

theorem following_nextSeqnum (counter : UInt32) (dirIn : Bool) :
    following (nextSeqnum counter dirIn).1 = following counter % NUMBERS + 1 := by
  by_cases hskip : (counter + 1) <<< 1 = 0
  · have hagain := handedOut_of_skip _ hskip
    rw [nextSeqnum_of_skip _ _ hskip, nextSeqnum_of_handedOut _ _ hagain, following_of_handedOut _ hagain,
      following_of_skip _ hskip]
  · rw [nextSeqnum_of_handedOut _ _ hskip, following_of_handedOut _ hskip]

-- The caller has left the loop with the number that the sequential function gives.
structure Returns (st : State) (dirIn : Bool) (t : State) : Prop where
  counter : t.counter = (nextSeqnum st.counter dirIn).1
  results : t.results = st.results ++ [{ dirIn := dirIn, seqnum := (nextSeqnum st.counter dirIn).2 }]
  call : .returned st.results.length ∈ t.calls

theorem returns_of_handedOut (h : (st.counter + 1) <<< 1 ≠ 0) : Returns st dirIn (incremented st dirIn) := by
  rw [incremented_of_handedOut h]
  constructor
  case counter => rw [nextSeqnum_of_handedOut _ _ h]
  case results =>
    rw [nextSeqnum_of_handedOut _ _ h]
    rfl
  case call => exact mem_advance_of_next List.mem_cons_self

theorem returns_of_skip (h : (st.counter + 1) <<< 1 = 0) :
    Returns st dirIn (incremented (incremented st dirIn) dirIn) := by
  rw [incremented_of_skip h]
  have hnext : Returns { st with counter := st.counter + 1 } dirIn _ := returns_of_handedOut (handedOut_of_skip _ h)
  have hsame := nextSeqnum_of_skip st.counter dirIn h
  exact ⟨by rw [hnext.counter, hsame], by rw [hnext.results, hsame], hnext.call⟩

-- Without others in between a call ends after one increment or two.
theorem run_alone (hcall : .looping dirIn ∈ st.calls) : ∃ n ≤ 2, ∃ t,
    machine.run (fun _ _ => True) st (List.replicate n (.increment dirIn)) = some t ∧ Returns st dirIn t := by
  by_cases hskip : (st.counter + 1) <<< 1 = 0
  · have hagain : .looping dirIn ∈ (incremented st dirIn).calls := by
      rw [incremented_of_skip hskip]
      exact hcall
    refine ⟨2, le_refl 2, _, ?_, returns_of_skip hskip⟩
    simp only [List.replicate, Machine.run, if_true, machine, step_increment hcall, step_increment hagain,
      Option.bind_some]
  · refine ⟨1, by omega, _, ?_, returns_of_handedOut hskip⟩
    simp only [List.replicate, Machine.run, if_true, machine, step_increment hcall, Option.bind_some]

-- The sequential function gives a number that no entry carries.
theorem nextSeqnum_fresh (h : Inv st) {r : Handle} (hr : r ∈ st.dev.entries) (hsince : st.since r + 1 < NUMBERS) :
    (nextSeqnum st.counter dirIn).2 ≠ (st.dev.request r).seqnum := by
  obtain ⟨⟨first, hnumbered⟩, hcarried⟩ := h
  obtain ⟨res, hres, hs⟩ := hcarried.entry r hr
  obtain ⟨hi, rfl⟩ := List.getElem?_eq_some_iff.mp hres
  have hnext := extractNum_nextSeqnum st.counter dirIn
  rw [hs]
  intro heq
  rw [heq, hnumbered.number _ hi, hnumbered.next] at hnext
  unfold State.since NUMBERS at hsince
  unfold NUMBERS at hnext
  omega

end Alone

theorem seqnums_unique {st : State} (h : machine.Reachable (fun _ _ => True) st) :
    (∀ (i j : Nat) (hi : i < st.results.length) (hj : j < st.results.length), i < j → j < i + NUMBERS →
      extractNum st.results[i].seqnum ≠ extractNum st.results[j].seqnum) ∧
    (∀ res ∈ st.results, isValidSeqnum res.seqnum = true ∧ extractDir res.seqnum = directionOf res.dirIn) ∧
    (∀ dirIn, .looping dirIn ∈ st.calls → ∃ n ≤ 2, ∃ t,
      machine.run (fun _ _ => True) st (List.replicate n (.increment dirIn)) = some t ∧ Returns st dirIn t) ∧
    ((∀ r ∈ st.dev.entries, st.since r < NUMBERS) → ∀ s,
      (st.dev.entries.filter fun r => (RequestSearch.seqnum s).matches r (st.dev.request r)).length ≤ 1) := by
  have hinv := inv_of_reachable h
  obtain ⟨first, hnumbered⟩ := hinv.numbered
  refine ⟨?_, ?_, fun dirIn hcall => run_alone hcall, matches_le_one hinv⟩
  · intro i j hi hj hij hnear
    exact hnumbered.ne hi hj hij hnear
  · intro res hres
    exact ⟨hnumbered.valid hres, hnumbered.direction res hres⟩

-- The last number is taken by a request, the invalid one is skipped and the first one follows.
def wrapping : List Action :=
  [.call true, .increment true, .append 0 7 1, .call false, .increment false, .increment false]

def State.wrapped (st : State) : Bool :=
  st.results.map Result.seqnum == [0xFFFFFFFF, 2] && st.dev.entries == [7] && decide (st.since 7 < NUMBERS)

theorem seqnums_unique_wrapped :
    ∃ st : State, st.wrapped = true ∧ ∀ s,
      (st.dev.entries.filter fun r => (RequestSearch.seqnum s).matches r (st.dev.request r)).length ≤ 1 := by
  have hinit : machine.Reachable (fun _ _ => True) { counter := 0x7FFFFFFE } := .init ⟨_, rfl⟩
  have hrun : (machine.run (fun _ _ => True) { counter := 0x7FFFFFFE } wrapping).any State.wrapped = true := by decide
  obtain ⟨st, hst, hwrapped⟩ := hinit.exists_run hrun
  refine ⟨st, hwrapped, (seqnums_unique hst).2.2.2 fun r hr => ?_⟩
  simp only [State.wrapped, Bool.and_eq_true, beq_iff_eq, decide_eq_true_eq] at hwrapped
  obtain ⟨⟨-, hentries⟩, hsince⟩ := hwrapped
  rw [hentries, List.mem_singleton] at hr
  exact hr ▸ hsince

end Usbip.Device.Seqnums

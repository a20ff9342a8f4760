import Usbip.RequestList.Links
import Usbip.Transfers.Invariant

namespace Usbip.Device.Links

open Function
open Usbip.Library
open Usbip.Library.Runs

-- The head of the list and the entries behind it.
def nodes (entries : List Handle) : List Node := none :: entries.map some

variable {memory : Memory} {request : Handle → Request} {front back entries : List Handle}

theorem nodes_append_cons (front back : List Handle) (r : Handle) :
    nodes (front ++ r :: back) = none :: (front.map some ++ some r :: back.map some) := by
  rw [nodes, List.map_append, List.map_cons]

theorem head?_nodes (entries : List Handle) : (entries.map some ++ [none]).head? = some entries.head? := by
  cases entries with
  | nil => rfl
  | cons r rest => rfl

-- Behind the last entry is the head again.
theorem flink_entry {r : Handle} (h : Ring.IsRing memory (nodes (front ++ r :: back))) :
    Ring.flink memory (some r) = some back.head? := by
  rw [nodes_append_cons] at h
  rw [h.flink_entry, head?_nodes]

theorem flink_none (h : Ring.IsRing memory (nodes entries)) : Ring.flink memory none = some entries.head? := by
  rw [h.flink_head, head?_nodes]

-- An entry that is taken out still leads to those behind it, and no context comes or goes.
theorem exists_removeEntryList {r : Handle} (h : Ring.IsRing memory (nodes (front ++ r :: back))) :
    ∃ memory', Ring.removeEntryList memory (some r) = some memory' ∧ Ring.IsRing memory' (nodes (front ++ back)) ∧
      Ring.flink memory' (some r) = some back.head? ∧ ∀ p, (memory' p).isSome = (memory p).isSome := by
  have hlink := flink_entry h
  rw [nodes_append_cons, ← List.cons_append] at h
  obtain ⟨memory', hm, hring, hframe⟩ := h.removeEntry (by simp)
  have hout : some r ∉ none :: front.map some ++ back.map some := by
    have hnodup := h.nodup
    rw [List.nodup_middle, List.nodup_cons] at hnodup
    exact hnodup.1
  refine ⟨memory', hm, ?_, ?_, fun p => ?_⟩
  · rw [nodes, List.map_append]
    exact hring
  · rw [← hlink, Ring.flink, Ring.flink, hframe _ hout]
  · by_cases hp : p ∈ none :: front.map some ++ back.map some
    · have hpr : p ∈ none :: front.map some ++ some r :: back.map some := by
        simp only [List.mem_append, List.mem_cons] at hp ⊢
        tauto
      rw [hring.isSome hp, h.isSome hpr]
    · rw [hframe p hp]

-- The loop meets the entries that are ahead, also when it has just removed the one it goes on from.
theorem removeFrom_eq (crit : RequestSearch) (unmarks : Bool) (h : Ring.IsRing memory (nodes (front ++ back)))
    {fuel : Nat} (hfuel : back.length < fuel) :
    ∃ memory', removeFrom request crit unmarks fuel memory back.head? =
        some (memory', (removeLoop request crit unmarks back).2) ∧
      Ring.IsRing memory' (nodes (front ++ (removeLoop request crit unmarks back).1)) ∧
      ∀ p, (memory' p).isSome = (memory p).isSome := by
  induction back generalizing front fuel memory with
  | nil =>
      obtain ⟨fuel, rfl⟩ : ∃ n, fuel = n + 1 := ⟨fuel - 1, by simp at hfuel; omega⟩
      exact ⟨memory, rfl, h, fun _ => rfl⟩
  | cons r rest ih =>
      obtain ⟨fuel, rfl⟩ : ∃ n, fuel = n + 1 := ⟨fuel - 1, by simp at hfuel; omega⟩
      have hrest : rest.length < fuel := by simpa using hfuel
      rw [List.head?_cons, removeFrom, removeLoop]
      by_cases hmatch : crit.matches r (request r) = false
      · have hbehind : Ring.IsRing memory (nodes ((front ++ [r]) ++ rest)) := by simpa using h
        obtain ⟨memory', hm, hring, hlive⟩ := ih hbehind hrest
        refine ⟨memory', ?_, ?_, hlive⟩
        · rw [if_pos hmatch, if_pos hmatch, flink_entry h, Option.bind_some, hm]
        · rw [if_pos hmatch]
          simpa using hring
      · obtain ⟨memory₁, hm₁, hring₁, hlink, hlive₁⟩ := exists_removeEntryList h
        rw [if_neg hmatch, if_neg hmatch, hm₁, Option.bind_some]
        by_cases hfired : unmarks ∧ (request r).cancelable ∧ (request r).cancellation = .fired
        · rw [if_pos hfired, if_pos hfired]
          by_cases hmulti : crit.multimatch
          · obtain ⟨memory', hm, hring, hlive⟩ := ih hring₁ hrest
            refine ⟨memory', ?_, ?_, fun p => (hlive p).trans (hlive₁ p)⟩
            · rw [if_pos hmulti, if_pos hmulti, hlink, Option.bind_some, hm]
            · rw [if_pos hmulti]
              exact hring
          · exact ⟨memory₁, by rw [if_neg hmulti, if_neg hmulti], by rwa [if_neg hmulti], hlive₁⟩
        · exact ⟨memory₁, by rw [if_neg hfired, if_neg hfired], by rwa [if_neg hfired], hlive₁⟩

theorem removeRequest_loop (dev : RequestList) (crit : RequestSearch) (unmarks : Bool) :
    (Device.removeRequest dev crit unmarks).1.entries = (removeLoop dev.request crit unmarks dev.entries).1 ∧
    (Device.removeRequest dev crit unmarks).2 = (removeLoop dev.request crit unmarks dev.entries).2 := by
  rw [Device.removeRequest]
  obtain ⟨left, picked⟩ := removeLoop dev.request crit unmarks dev.entries
  cases picked with
  | none => exact ⟨rfl, rfl⟩
  | some r =>
      cases unmarks with
      | false => exact ⟨rfl, rfl⟩
      | true => exact ⟨rfl, rfl⟩

theorem removeRequest_eq (dev : RequestList) (crit : RequestSearch) (unmarks : Bool)
    (h : Ring.IsRing memory (nodes dev.entries)) {fuel : Nat} (hfuel : dev.entries.length < fuel) :
    ∃ memory', removeRequest dev.request memory crit unmarks fuel =
        some (memory', (Device.removeRequest dev crit unmarks).2) ∧
      Ring.IsRing memory' (nodes (Device.removeRequest dev crit unmarks).1.entries) ∧
      ∀ p, (memory' p).isSome = (memory p).isSome := by
  have hfront : Ring.IsRing memory (nodes ([] ++ dev.entries)) := h
  obtain ⟨memory', hm, hring, hlive⟩ := removeFrom_eq crit unmarks hfront hfuel
  obtain ⟨hentries, hpicked⟩ := removeRequest_loop dev crit unmarks
  refine ⟨memory', ?_, by rwa [hentries], hlive⟩
  rw [removeRequest, flink_none h, Option.bind_some, hm, hpicked]

theorem markRequestCancelable_eq (dev : RequestList) (s : Seqnum) (h : Ring.IsRing memory (nodes dev.entries))
    {fuel : Nat} (hfuel : dev.entries.length < fuel) :
    ∃ memory', markRequestCancelable dev.request memory s fuel =
        some ((Device.markRequestCancelable dev s).1, memory') ∧
      Ring.IsRing memory' (nodes (Device.markRequestCancelable dev s).2.entries) ∧
      ∀ p, (memory' p).isSome = (memory p).isSome := by
  have hfind : (dev.entries.map some).find? (fun node : Node => node.any fun r => (dev.request r).seqnum == s) =
      (dev.entries.find? fun r => (dev.request r).seqnum == s).map some := by
    rw [List.find?_map]
    rfl
  have hfront : Ring.IsRing memory (none :: ([] ++ dev.entries.map some)) := h
  have hrounds : (dev.entries.map some).length < fuel := by simpa using hfuel
  have hloop := hfront.findFrom_eq (fun node : Node => node.any fun r => (dev.request r).seqnum == s) hrounds
    (head?_nodes dev.entries)
  rw [hfind] at hloop
  rw [markRequestCancelable, flink_none h, Device.markRequestCancelable]
  simp only [Option.bind_eq_bind, Option.bind_some, hloop]
  cases hr : dev.entries.find? (fun r => (dev.request r).seqnum == s) with
  | none => exact ⟨memory, rfl, h, fun _ => rfl⟩
  | some r =>
      simp only [Option.map_some, Option.join_some, markCancelable]
      by_cases hidle : (dev.request r).cancellation = .idle
      · simp only [if_pos hidle, if_true]
        exact ⟨memory, rfl, h, fun _ => rfl⟩
      · obtain ⟨front, back, hsplit⟩ := List.append_of_mem (List.mem_of_find?_eq_some hr)
        rw [hsplit] at h
        obtain ⟨memory', hm, hring, -, hlive⟩ := exists_removeEntryList h
        have herase : dev.entries.erase r = front ++ back := by
          have hfront : r ∉ front := by
            intro hmem
            have hnodup := h.nodup
            rw [nodes_append_cons, ← List.cons_append] at hnodup
            refine (List.nodup_append.mp hnodup).2.2 (some r) ?_ (some r) List.mem_cons_self rfl
            exact List.mem_cons_of_mem _ (List.mem_map_of_mem hmem)
          rw [hsplit, List.erase_append_right _ hfront, List.erase_cons_head]
        simp only [if_neg hidle, reduceCtorEq, if_false, hm, Option.bind_some]
        exact ⟨memory', rfl, by rwa [herase], hlive⟩

theorem appendRequest_eq {r : Handle} (h : Ring.IsRing memory (nodes entries)) (hr : r ∉ entries)
    (hlive : (memory (some r)).isSome = true) :
    ∃ memory', appendRequest memory r = some memory' ∧ Ring.IsRing memory' (nodes (entries ++ [r])) ∧
      ∀ p, (memory' p).isSome = (memory p).isSome := by
  have hout : some r ∉ nodes entries := by simpa [nodes] using hr
  obtain ⟨memory', hm, hring, hframe⟩ := h.insertTail hout hlive
  have hnodes : nodes (entries ++ [r]) = none :: (entries.map some ++ [some r]) := by simp [nodes]
  rw [← hnodes] at hring hframe
  refine ⟨memory', hm, hring, fun p => ?_⟩
  by_cases hp : p ∈ nodes (entries ++ [r])
  · rw [hring.isSome hp]
    by_cases hpr : p = some r
    · rw [hpr, hlive]
    · rw [h.isSome (p := p)]
      simpa [nodes, hpr] using hp
  · rw [hframe p hp]

-- The list on its links is that of the device, and the contexts are those of the requests not completed yet.
structure Inv (st : State) (memory : Memory) : Prop where
  device : Device.Inv st
  ring : Ring.IsRing memory (nodes st.dev.entries)
  live : ∀ r, (memory (some r)).isSome = true ↔ (st.dev.request r).Outstanding

section Steps

variable {st st' : State} {a : Action}

-- A step that keeps all contexts.
theorem Inv.of_links {memory' : Memory} (hi : Inv st memory) (hdevice : Device.Inv st')
    (hring : Ring.IsRing memory' (nodes st'.dev.entries)) (hlive : ∀ p, (memory' p).isSome = (memory p).isSome)
    (hrequest : ∀ r, (st'.dev.request r).Outstanding ↔ (st.dev.request r).Outstanding) : Inv st' memory' := by
  refine ⟨hdevice, hring, fun r => ?_⟩
  rw [hlive, hi.live r, hrequest r]

theorem Inv.removeRequest (hi : Inv st memory) (hdevice : Device.Inv st') (crit : RequestSearch) (unmarks : Bool)
    (hdev : st'.dev = (Device.removeRequest st.dev crit unmarks).1) :
    ∃ memory', (removeRequest st.dev.request memory crit unmarks (st.dev.entries.length + 1)).map Prod.fst =
        some memory' ∧ Inv st' memory' := by
  obtain ⟨memory', hm, hring, hlive⟩ := removeRequest_eq st.dev crit unmarks hi.ring (Nat.lt_succ_self _)
  have hremoval := removeRequest_removal st.dev crit unmarks hi.device.nodup
  rw [← hdev] at hring hremoval
  exact ⟨memory', by rw [hm]; rfl, hi.of_links hdevice hring hlive hremoval.outstanding_iff⟩

theorem Inv.markRequestCancelable (hi : Inv st memory) (hdevice : Device.Inv st') (s : Seqnum)
    (hdev : st'.dev = (Device.markRequestCancelable st.dev s).2) :
    ∃ memory', (markRequestCancelable st.dev.request memory s (st.dev.entries.length + 1)).map Prod.snd =
        some memory' ∧ Inv st' memory' := by
  obtain ⟨memory', hm, hring, hlive⟩ := markRequestCancelable_eq st.dev s hi.ring (Nat.lt_succ_self _)
  rw [← hdev] at hring
  refine ⟨memory', by rw [hm]; rfl, hi.of_links hdevice hring hlive fun r => ?_⟩
  rw [hdev]
  obtain ⟨hmark, -⟩ | ⟨h, -, -, -, hmark⟩ | ⟨h, -, -, -, hmark⟩ := markRequestCancelable_cases st.dev s
  · rw [hmark]
  · rw [hmark]
    by_cases hr : r = h
    · rw [hr, RequestList.set_request_self]
      exact Iff.rfl
    · rw [RequestList.set_request_ne _ _ hr]
  · rw [hmark]

theorem Inv.submit (hi : Inv st memory) {r : Handle} {e : Endpoint} {s : Seqnum}
    (hdevice : Device.Inv (submitted st r e s)) (hfree : (st.dev.request r).isFree = true) :
    ∃ memory', appendRequest (update memory (some r) (some { flink := none, blink := none })) r = some memory' ∧
      Inv (submitted st r e s) memory' := by
  have hr : r ∉ st.dev.entries := by
    intro hmem
    have hopen := hi.device.listed r hmem
    simp [Request.isFree, hopen.1, hopen.2] at hfree
  have hring : Ring.IsRing (update memory (some r) (some { flink := none, blink := none })) (nodes st.dev.entries) := by
    refine hi.ring.congr fun p hp => update_of_ne ?_ _ _
    rintro rfl
    exact hr (by simpa [nodes] using hp)
  obtain ⟨memory', hm, hring', hlive⟩ := appendRequest_eq hring hr (by simp)
  refine ⟨memory', hm, hdevice, hring', fun h => ?_⟩
  rw [hlive]
  by_cases hh : h = r
  · subst hh
    simp [submitted, Device.appendRequest, Request.Outstanding, Request.deliver]
  · have hne : some h ≠ some r := by simpa using hh
    rw [update_of_ne hne, hi.live h]
    simp [submitted, Device.appendRequest, RequestList.set_request_ne _ _ hh]

theorem Inv.complete (hi : Inv st memory) {thread : Thread} {r : Handle}
    (hdevice : Device.Inv (completedBy st thread r)) (ht : .complete thread r ∈ st.tasks) :
    Inv (completedBy st thread r) (update memory (some r) none) := by
  have hr : r ∉ st.dev.entries := hi.device.held r _ ht (by simp [Task.holds])
  refine ⟨hdevice, hi.ring.congr fun p hp => update_of_ne ?_ _ _, fun h => ?_⟩
  · rintro rfl
    exact hr (by simpa [nodes, completedBy] using hp)
  · by_cases hh : h = r
    · subst hh
      simp [completedBy, Request.Outstanding]
    · have hne : some h ≠ some r := by simpa using hh
      rw [update_of_ne hne, hi.live h]
      simp [completedBy, RequestList.set_request_ne _ _ hh]

theorem Inv.cancel (hi : Inv st memory) {r : Handle} (hdevice : Device.Inv (cancelledByUpper st r)) :
    Inv (cancelledByUpper st r) memory := by
  -- only what WDF knows of the cancellation changes
  obtain ⟨hentries, hrequest⟩ : (cancelledByUpper st r).dev.entries = st.dev.entries ∧
      ∀ h, ((cancelledByUpper st r).dev.request h).Outstanding ↔ (st.dev.request h).Outstanding := by
    cases hc : (st.dev.request r).cancellation with
    | idle | armed =>
        simp only [cancelledByUpper, hc]
        refine ⟨rfl, fun h => ?_⟩
        by_cases hh : h = r
        · rw [hh, RequestList.set_request_self]
          exact Iff.rfl
        · rw [RequestList.set_request_ne _ _ hh]
    | cancelled | fired =>
        simp only [cancelledByUpper, hc]
        simp
  exact hi.of_links hdevice (by rw [hentries]; exact hi.ring) (fun _ => rfl) hrequest

theorem Inv.step (hi : Inv st memory) (hok : KeepsApart st a) (hstep : Device.step st a = some st') :
    ∃ memory', step st memory (st.dev.entries.length + 1) a = some memory' ∧ Inv st' memory' := by
  have hdevice := hi.device.step hok hstep
  -- no link is touched, and the requests stay
  have hkeep : st'.dev = st.dev → ∃ memory', some memory = some memory' ∧ Inv st' memory' := by
    intro hdev
    exact ⟨memory, rfl, hi.of_links hdevice (by rw [hdev]; exact hi.ring) (fun _ => rfl) fun r => by rw [hdev]⟩
  cases a with
  | draw dirIn =>
      cases hstep
      exact hkeep rfl
  | drop s =>
      obtain ⟨-, ⟨rfl⟩⟩ := Option.ite_none_right_eq_some.mp hstep
      exact hkeep rfl
  | submit r e s =>
      obtain ⟨⟨hfree, -⟩, ⟨rfl⟩⟩ := Option.ite_none_right_eq_some.mp hstep
      exact hi.submit hdevice hfree
  | wskSend r s =>
      obtain ⟨-, ⟨rfl⟩⟩ := Option.ite_none_right_eq_some.mp hstep
      exact hkeep (by split <;> rfl)
  | sendComplete r s success =>
      obtain ⟨-, ⟨rfl⟩⟩ := Option.ite_none_right_eq_some.mp hstep
      cases success with
      | true => exact hi.markRequestCancelable hdevice s rfl
      | false => exact hi.removeRequest hdevice (.request r) false rfl
  | receive s =>
      obtain ⟨-, ⟨rfl⟩⟩ := Option.ite_none_right_eq_some.mp hstep
      exact hi.removeRequest hdevice (.seqnum s) true rfl
  | cancel r =>
      obtain ⟨-, ⟨rfl⟩⟩ := Option.ite_none_right_eq_some.mp hstep
      exact ⟨memory, rfl, hi.cancel hdevice⟩
  | cancelRequest r =>
      obtain ⟨-, ⟨rfl⟩⟩ := Option.ite_none_right_eq_some.mp hstep
      exact hi.removeRequest hdevice (.request r) false rfl
  | endpointPurge e =>
      cases hstep
      exact hkeep rfl
  | purgeNext e =>
      obtain ⟨-, ⟨rfl⟩⟩ := Option.ite_none_right_eq_some.mp hstep
      exact hi.removeRequest hdevice (.endpoint e) true rfl
  | unlink thread r skip =>
      obtain ⟨-, ⟨rfl⟩⟩ := Option.ite_none_right_eq_some.mp hstep
      exact hkeep (unlinking_dev st thread r skip)
  | sendUnlink thread r s =>
      obtain ⟨-, ⟨rfl⟩⟩ := Option.ite_none_right_eq_some.mp hstep
      exact hkeep rfl
  | complete thread r =>
      obtain ⟨ht, hdone⟩ := Option.ite_none_right_eq_some.mp hstep
      cases hdone
      exact ⟨_, rfl, hi.complete hdevice ht⟩
  | close =>
      cases hstep
      exact hkeep rfl

end Steps

theorem reachable_inv {s : State × Memory} (h : machine.Reachable (fun s a => KeepsApart s.1 a) s) :
    Inv s.1 s.2 := by
  refine h.invariant (I := fun s => Inv s.1 s.2) (fun s hs => ?_) (fun s a s' hs hok hstep => ?_)
  · obtain ⟨st, memory⟩ := s
    obtain ⟨⟨counter, rfl⟩, rfl⟩ := hs
    refine ⟨inv_init ⟨counter, rfl⟩, ?_, fun r => ?_⟩
    · exact Ring.isRing_singleton.mpr ⟨by simp [Ring.flink], by simp [Ring.blink]⟩
    · simp [Request.Outstanding]
  · obtain ⟨st', hst', hrest⟩ := Option.bind_eq_some_iff.mp hstep
    obtain ⟨memory', hmemory', ⟨rfl⟩⟩ := Option.bind_eq_some_iff.mp hrest
    obtain ⟨memory'', hlinks, hinv⟩ := hs.step hok hst'
    obtain rfl : memory'' = memory' := Option.some.inj (hlinks.symm.trans hmemory')
    exact hinv

-- The links hold out whatever the order of the steps: none of them leads to a request that was completed, the
-- loops end, and they return what they return for the list.
theorem request_list_links {s : State × Memory} (h : machine.Reachable (fun s a => KeepsApart s.1 a) s) :
    (∀ a st', KeepsApart s.1 a → Device.step s.1 a = some st' → ∃ memory', machine.step s a = some (st', memory')) ∧
    (∀ crit unmarks fuel, s.1.dev.entries.length < fuel →
      (removeRequest s.1.dev.request s.2 crit unmarks fuel).map Prod.snd =
        some (Device.removeRequest s.1.dev crit unmarks).2) ∧
    ∀ n fuel, s.1.dev.entries.length < fuel →
      (markRequestCancelable s.1.dev.request s.2 n fuel).map Prod.fst =
        some (Device.markRequestCancelable s.1.dev n).1 := by
  have hinv := reachable_inv h
  refine ⟨fun a st' hok hstep => ?_, fun crit unmarks fuel hfuel => ?_, fun n fuel hfuel => ?_⟩
  · obtain ⟨memory', hlinks, -⟩ := hinv.step hok hstep
    refine ⟨memory', ?_⟩
    simp only [machine, Option.bind_eq_bind, hstep, hlinks, Option.bind_some]
  · obtain ⟨memory', hm, -, -⟩ := removeRequest_eq s.1.dev crit unmarks hinv.ring hfuel
    rw [hm]
    rfl
  · obtain ⟨memory', hm, -, -⟩ := markRequestCancelable_eq s.1.dev n hinv.ring hfuel
    rw [hm]
    rfl

-- A purge meets a request that the upper driver has cancelled, and the one behind it.
def purgedSchedule : List Action :=
  [.draw true, .draw true, .draw true, .submit 7 1 3, .submit 8 2 5, .submit 9 1 7, .wskSend 7 3,
    .sendComplete 7 3 true, .cancel 7, .endpointPurge 1]

theorem request_list_links_purged : ∃ s, machine.Reachable (fun s a => KeepsApart s.1 a) s ∧
    s.1.dev.entries = [7, 8, 9] ∧
    (removeRequest s.1.dev.request s.2 (.endpoint 1) true 4).map Prod.snd = some (some 9) := by
  have hinit : machine.Reachable (fun s a => KeepsApart s.1 a)
      ({}, update (fun _ => none) none (some { flink := none, blink := none })) := .init ⟨⟨0, rfl⟩, rfl⟩
  have hrun : (machine.run (fun s a => KeepsApart s.1 a)
      ({}, update (fun _ => none) none (some { flink := none, blink := none })) purgedSchedule).any
      (fun s => s.1.dev.entries == [7, 8, 9] && (Device.removeRequest s.1.dev (.endpoint 1) true).2 == some 9) =
      true := by
    decide +kernel
  obtain ⟨s, hs, hp⟩ := hinit.exists_run hrun
  simp only [Bool.and_eq_true, beq_iff_eq] at hp
  refine ⟨s, hs, hp.1, ?_⟩
  rw [(request_list_links hs).2.1 (.endpoint 1) true 4 (by simp [hp.1]), hp.2]

end Usbip.Device.Links

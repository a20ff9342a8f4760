import Usbip.EndpointList

namespace Usbip.EndpointList

open Function
open Usbip.Library
open Usbip.Library.Runs
open Usbip.Filter (EndpointSearch matchesSearch)

variable {st st' : State} {endp head : Endpoint}

-- The entries of the endpoints that exist are rings, one of them with the listed endpoints behind `ep0`.
structure Inv (st : State) : Prop where
  rings : ∃ rings, Ring.Partition st.memory rings ∧
    ∀ head, st.ep0 = some head → (st.memory head).isSome = true → head :: st.listed ∈ rings

theorem Inv.endpointAdd {epd : Option Send.EndpointDescriptor} (h : Inv st)
    (hen : enabled st (.endpointAdd endp epd) = true) :
    ∃ st', endpointAdd st endp epd = some st' ∧ Inv st' := by
  obtain ⟨rings, hrings, hhead⟩ := h.rings
  simp only [enabled, Bool.and_eq_true, Option.isNone_iff_eq_none, Bool.or_eq_true] at hen
  obtain ⟨hfree, hep0⟩ := hen
  obtain ⟨memory, hmemory, hrings'⟩ := hrings.create hfree { flink := 0, blink := 0 }
  cases epd with
  | none =>
      refine ⟨_, by rw [EndpointList.endpointAdd, hmemory]; rfl, ⟨_, hrings', fun head hh _ => ?_⟩⟩
      cases hh
      exact List.mem_cons_self
  | some epd =>
      obtain ⟨head, hh, hlive⟩ : ∃ head, st.ep0 = some head ∧ (st.memory head).isSome = true := by
        cases hc : st.ep0 with
        | none => simp [hc] at hep0
        | some head => exact ⟨head, rfl, by simpa [hc] using hep0⟩
      obtain ⟨rest, hperm⟩ : ∃ rest, rings.Perm ((head :: st.listed) :: rest) :=
        ⟨_, List.perm_cons_erase (hhead head hh hlive)⟩
      obtain ⟨memory', hmemory', hrings''⟩ := (hrings'.perm (hperm.cons [endp])).insertHead
      refine ⟨{ st with
        memory := memory'
        descriptor := update st.descriptor endp epd
        pipeHandle := update st.pipeHandle endp 0
        listed := endp :: st.listed }, ?_, ?_⟩
      · rw [EndpointList.endpointAdd, hmemory]
        simp only [Option.bind_eq_bind, Option.bind_some, Option.isSome_some, if_true, Option.getD_some,
          insertEndpointList, hh, hmemory']
      · refine ⟨_, hrings'', fun head' hh' _ => ?_⟩
        obtain rfl : head = head' := Option.some.inj (hh.symm.trans hh')
        exact List.mem_cons_self

-- Whatever is cleaned up first, the default control pipe, too, the others are linked to each other.
theorem Inv.endpointCleanup (h : Inv st) (hen : enabled st (.endpointCleanup endp) = true) :
    ∃ st', endpointCleanup st endp = some st' ∧ Inv st' := by
  obtain ⟨rings, hrings, hhead⟩ := h.rings
  obtain ⟨ring, hring, hmem⟩ := List.mem_flatten.mp ((hrings.node_iff endp).mp hen)
  obtain ⟨front, back, rfl⟩ := List.append_of_mem hmem
  obtain ⟨rest, hperm⟩ : ∃ rest, rings.Perm ((front ++ endp :: back) :: rest) := ⟨_, List.perm_cons_erase hring⟩
  have hparted := hrings.perm hperm
  obtain ⟨m₁, m₂, hm₁, hm₂, hrings'⟩ := hparted.removeEntry
  refine ⟨{ st with memory := update m₂ endp none, listed := st.listed.erase endp }, ?_, ?_⟩
  · rw [EndpointList.endpointCleanup, removeEndpointList, hm₁]
    simp only [Option.bind_eq_bind, Option.bind_some, hm₂]
  · refine ⟨_, hrings'.delete, fun head hh hlive => ?_⟩
    have hne : head ≠ endp := by
      rintro rfl
      simp at hlive
    have hnodup := hparted.nodup
    rw [List.flatten_cons, List.nodup_append] at hnodup
    have hlisted : head :: st.listed ∈ rings := by
      apply hhead head hh
      rw [hparted.node_iff]
      rw [hrings'.delete.node_iff] at hlive
      simp only [List.flatten_cons, List.mem_append, List.mem_cons] at hlive ⊢
      tauto
    cases List.mem_cons.mp (hperm.mem_iff.mp hlisted) with
    | inl heq =>
        cases front with
        | nil =>
            cases heq
            exact absurd rfl hne
        | cons p front =>
            simp only [List.cons_append, List.cons.injEq] at heq
            obtain ⟨rfl, hl⟩ := heq
            have hfront : endp ∉ front := by
              have hring := hnodup.1
              simp only [List.cons_append, List.nodup_cons, List.nodup_append, List.mem_cons] at hring
              exact fun hmem => hring.2.2.2 endp hmem endp (.inl rfl) rfl
            dsimp only
            rw [hl, List.erase_append_right _ hfront, List.erase_cons_head]
            exact List.mem_cons_self
    | inr hother =>
        have hnot : endp ∉ st.listed := by
          intro hmem
          refine hnodup.2.2 endp (by simp) endp ?_ rfl
          exact List.mem_flatten_of_mem hother (List.mem_cons_of_mem _ hmem)
        dsimp only
        rw [List.erase_of_not_mem hnot]
        exact List.mem_cons_of_mem _ hother

theorem Inv.perform (h : Inv st) {a : Action} (hen : enabled st a = true) :
    ∃ st', perform st a = some st' ∧ Inv st' := by
  cases a with
  | endpointAdd endp epd => exact h.endpointAdd hen
  | endpointCleanup endp => exact h.endpointCleanup hen
  | setPipeHandle endp pipeHandle => exact ⟨_, rfl, ⟨h.rings⟩⟩

theorem reachable_inv (h : machine.Reachable (fun _ _ => True) st) : Inv st := by
  refine h.invariant (I := Inv) (fun st hst => ?_) (fun st a st' hst _ hstep => ?_)
  · cases hst
    exact ⟨[], Ring.Partition.empty, fun head hh => by cases hh⟩
  · simp only [machine] at hstep
    split at hstep
    · obtain ⟨st'', hst'', hinv⟩ := hst.perform ‹_›
      rw [hst''] at hstep
      cases hstep
      exact hinv
    · cases hstep

-- The search ends, and goes through the listed endpoints from the last one added to the first one.
theorem Inv.findEndpoint (h : Inv st) (hh : st.ep0 = some head) (hlive : (st.memory head).isSome = true)
    (crit : EndpointSearch) {fuel : Nat} (hfuel : st.listed.length < fuel) :
    findEndpoint st crit fuel = some (Filter.findEndpoint st.endpoints crit) := by
  obtain ⟨rings, hrings, hhead⟩ := h.rings
  have hring := hrings.ring _ (hhead head hh hlive)
  obtain ⟨entry, hentry⟩ : ∃ entry, (st.listed ++ [head]).head? = some entry := by
    cases st.listed with
    | nil => exact ⟨head, rfl⟩
    | cons endp rest => exact ⟨endp, rfl⟩
  have hfirst := hring.flink_head
  rw [hentry] at hfirst
  rw [EndpointList.findEndpoint, hh]
  simp only [Option.bind_eq_bind, Option.bind_some, hfirst]
  have hbehind : Ring.IsRing st.memory (head :: ([] ++ st.listed)) := hring
  exact hbehind.findFrom_eq _ hfuel hentry

end Usbip.EndpointList

import Usbip.RequestList

namespace Usbip.Device

@[simp] theorem RequestList.set_entries (dev : RequestList) (r : Handle) (req : Request) :
    (dev.set r req).entries = dev.entries := rfl

@[simp] theorem RequestList.set_request_self (dev : RequestList) (r : Handle) (req : Request) :
    (dev.set r req).request r = req :=
  if_pos rfl

theorem RequestList.set_request_ne (dev : RequestList) {r h : Handle} (req : Request) (hne : h ≠ r) :
    (dev.set r req).request h = dev.request h :=
  if_neg hne

-- A request whose cancel callback owns it.
def Withheld (req : Request) : Prop := req.cancelable = true ∧ req.cancellation = .fired

-- What `remove_request` takes out: the request it returns and, if it unmarks, requests
-- that their cancel callback owns. Nothing else changes.
structure Removal (dev : RequestList) (crit : RequestSearch) (unmarks : Bool) (left : RequestList)
    (picked : Option Handle) : Prop where
  sublist : left.entries.Sublist dev.entries
  gone : ∀ r ∈ dev.entries, r ∉ left.entries →
    picked = some r ∨ (unmarks = true ∧ Withheld (dev.request r) ∧ crit.matches r (dev.request r) = true)
  picked_mem : ∀ r, picked = some r → r ∈ dev.entries ∧ r ∉ left.entries
  picked_matches : ∀ r, picked = some r → crit.matches r (dev.request r) = true
  picked_free : ∀ r, picked = some r → unmarks = true → ¬Withheld (dev.request r)
  request_ne : ∀ r, picked ≠ some r → left.request r = dev.request r
  request_picked : ∀ r, picked = some r →
    left.request r = if unmarks then unmark (dev.request r) else dev.request r

section Removal

variable {dev left : RequestList} {crit : RequestSearch} {unmarks : Bool} {picked : Option Handle}

-- At most the cancellation of the request returned differs afterwards.
theorem Removal.request_eq (h : Removal dev crit unmarks left picked) (r : Handle) :
    left.request r = dev.request r ∨ left.request r = { dev.request r with cancellation := .idle } := by
  by_cases hp : picked = some r
  · rw [h.request_picked r hp]
    unfold unmark
    split_ifs
    · exact .inr rfl
    · exact .inl rfl
    · exact .inl rfl
  · exact .inl (h.request_ne r hp)

theorem Removal.seqnum_eq (h : Removal dev crit unmarks left picked) (r : Handle) :
    (left.request r).seqnum = (dev.request r).seqnum := by
  rcases h.request_eq r with he | he <;> rw [he]

theorem Removal.deliveries_eq (h : Removal dev crit unmarks left picked) (r : Handle) :
    (left.request r).deliveries = (dev.request r).deliveries := by
  rcases h.request_eq r with he | he <;> rw [he]

theorem Removal.completed_eq (h : Removal dev crit unmarks left picked) (r : Handle) :
    (left.request r).completed = (dev.request r).completed := by
  rcases h.request_eq r with he | he <;> rw [he]

theorem Removal.mem (h : Removal dev crit unmarks left picked) {r : Handle} (hr : r ∈ left.entries) :
    r ∈ dev.entries :=
  h.sublist.subset hr

-- What is still in the list was not touched at all.
theorem Removal.request_of_mem (h : Removal dev crit unmarks left picked) {r : Handle}
    (hr : r ∈ left.entries) : left.request r = dev.request r :=
  h.request_ne r fun hp => (h.picked_mem r hp).2 hr

end Removal

theorem removeLoop_spec (request : Handle → Request) (crit : RequestSearch) (unmarks : Bool)
    (entries : List Handle) (hnodup : entries.Nodup) :
    (removeLoop request crit unmarks entries).1.Sublist entries ∧
    (∀ r ∈ entries, r ∉ (removeLoop request crit unmarks entries).1 →
      (removeLoop request crit unmarks entries).2 = some r ∨
        (unmarks = true ∧ Withheld (request r) ∧ crit.matches r (request r) = true)) ∧
    (∀ r, (removeLoop request crit unmarks entries).2 = some r →
      r ∈ entries ∧ r ∉ (removeLoop request crit unmarks entries).1 ∧
      crit.matches r (request r) = true ∧ (unmarks = true → ¬Withheld (request r))) := by
  induction entries with
  | nil => simp [removeLoop]
  | cons first rest ih =>
      obtain ⟨hfirst, hrest⟩ := List.nodup_cons.mp hnodup
      obtain ⟨hsub, hgone, hpick⟩ := ih hrest
      unfold removeLoop
      by_cases hm : crit.matches first (request first) = false
      · simp only [if_pos hm]
        refine ⟨hsub.cons_cons first, ?_, ?_⟩
        · intro r hr hout
          simp only [List.mem_cons, not_or] at hr hout
          exact hgone r (hr.resolve_left hout.1) hout.2
        · intro r hr
          obtain ⟨hmem, hout, hmatch, hfree⟩ := hpick r hr
          refine ⟨List.mem_cons_of_mem _ hmem, ?_, hmatch, hfree⟩
          simp only [List.mem_cons, not_or]
          exact ⟨fun h => hfirst (h ▸ hmem), hout⟩
      · have hmatch : crit.matches first (request first) = true := by simpa using hm
        simp only [if_neg hm]
        by_cases hw : unmarks ∧ (request first).cancelable ∧ (request first).cancellation = .fired
        · have hheld : unmarks = true ∧ Withheld (request first) ∧ crit.matches first (request first) = true :=
            ⟨hw.1, hw.2, hmatch⟩
          rw [if_pos hw]
          by_cases hmulti : crit.multimatch
          · rw [if_pos hmulti]
            refine ⟨hsub.cons first, ?_, fun r hr => ?_⟩
            · intro r hr hout
              rcases List.mem_cons.mp hr with rfl | hr
              · exact .inr hheld
              · exact hgone r hr hout
            · obtain ⟨hmem, hout, hrest⟩ := hpick r hr
              exact ⟨List.mem_cons_of_mem _ hmem, hout, hrest⟩
          · rw [if_neg hmulti]
            refine ⟨List.sublist_cons_self first rest, ?_, by simp⟩
            intro r hr hout
            rcases List.mem_cons.mp hr with rfl | hr
            · exact .inr hheld
            · exact absurd hr hout
        · rw [if_neg hw]
          refine ⟨List.sublist_cons_self first rest, ?_, ?_⟩
          · intro r hr hout
            rcases List.mem_cons.mp hr with rfl | hr
            · exact .inl rfl
            · exact absurd hr hout
          · intro r hr
            obtain rfl : first = r := by simpa using hr
            exact ⟨List.mem_cons_self, hfirst, hmatch, fun hu hheld => hw ⟨hu, hheld⟩⟩

theorem removeRequest_removal (dev : RequestList) (crit : RequestSearch) (unmarks : Bool)
    (hnodup : dev.entries.Nodup) :
    Removal dev crit unmarks (removeRequest dev crit unmarks).1 (removeRequest dev crit unmarks).2 := by
  obtain ⟨hsub, hgone, hpick⟩ := removeLoop_spec dev.request crit unmarks dev.entries hnodup
  unfold removeRequest
  cases hloop : removeLoop dev.request crit unmarks dev.entries with
  | mk left picked =>
      rw [hloop] at hsub hgone hpick
      cases picked with
      | none => exact ⟨hsub, hgone, by simp, by simp, by simp, fun _ _ => rfl, by simp⟩
      | some found =>
          have hfound := hpick found rfl
          cases unmarks with
          | true =>
              refine ⟨hsub, hgone, ?_, ?_, ?_, ?_, ?_⟩
              · rintro r ⟨rfl⟩; exact ⟨hfound.1, hfound.2.1⟩
              · rintro r ⟨rfl⟩; exact hfound.2.2.1
              · rintro r ⟨rfl⟩; exact hfound.2.2.2
              · intro r hr
                exact RequestList.set_request_ne _ _ fun h => hr (h ▸ rfl)
              · rintro r ⟨rfl⟩; simp
          | false =>
              refine ⟨hsub, hgone, ?_, ?_, by simp, fun _ _ => rfl, ?_⟩
              · rintro r ⟨rfl⟩; exact ⟨hfound.1, hfound.2.1⟩
              · rintro r ⟨rfl⟩; exact hfound.2.2.1
              · rintro r ⟨rfl⟩; simp

-- A search by handle finds its request wherever it stands, and only that one.
theorem removeLoop_request (request : Handle → Request) (r : Handle) (entries : List Handle) :
    removeLoop request (.request r) false entries =
      (entries.erase r, if r ∈ entries then some r else none) := by
  induction entries with
  | nil => simp [removeLoop]
  | cons first rest ih =>
      unfold removeLoop
      by_cases he : r = first
      · subst he
        simp [RequestSearch.matches]
      · have hm : (RequestSearch.request r).matches first (request first) = false := by
          simp [RequestSearch.matches, he]
        simp only [if_pos hm, ih, List.mem_cons, he, false_or]
        rw [List.erase_cons_tail (by simpa using fun h => he h.symm)]

theorem removeRequest_request (dev : RequestList) (r : Handle) :
    removeRequest dev (.request r) false =
      ({ dev with entries := dev.entries.erase r }, if r ∈ dev.entries then some r else none) := by
  simp only [removeRequest, removeLoop_request]
  by_cases hr : r ∈ dev.entries <;> simp [hr]

-- The three ways `mark_request_cancelable` can go.
theorem markRequestCancelable_cases (dev : RequestList) (s : Seqnum) :
    (markRequestCancelable dev s = (.STATUS_SUCCESS, dev) ∧
      ∀ r ∈ dev.entries, (dev.request r).seqnum ≠ s) ∨
    (∃ r ∈ dev.entries, (dev.request r).seqnum = s ∧ (dev.request r).cancellation = .idle ∧
      markRequestCancelable dev s = (.STATUS_SUCCESS,
        dev.set r { dev.request r with cancelable := true, cancellation := .armed })) ∨
    (∃ r ∈ dev.entries, (dev.request r).seqnum = s ∧ (dev.request r).cancellation ≠ .idle ∧
      markRequestCancelable dev s =
        (.STATUS_CANCELLED, { dev with entries := dev.entries.erase r })) := by
  unfold markRequestCancelable
  cases hfind : dev.entries.find? (fun r => (dev.request r).seqnum == s) with
  | none =>
      refine .inl ⟨rfl, fun r hr he => ?_⟩
      exact absurd (List.find?_eq_none.mp hfind r hr) (by simp [he])
  | some r =>
      have hs : (dev.request r).seqnum = s := by simpa using List.find?_some hfind
      have hr := List.mem_of_find?_eq_some hfind
      by_cases hc : (dev.request r).cancellation = .idle
      · refine .inr (.inl ⟨r, hr, hs, hc, ?_⟩)
        simp [markCancelable, hc]
      · refine .inr (.inr ⟨r, hr, hs, hc, ?_⟩)
        simp [markCancelable, hc]

theorem removal_erase (dev : RequestList) {r : Handle} (crit : RequestSearch) (hnodup : dev.entries.Nodup)
    (hr : r ∈ dev.entries) (hm : crit.matches r (dev.request r) = true) :
    Removal dev crit false { dev with entries := dev.entries.erase r } (some r) := by
  refine ⟨List.erase_sublist, ?_, ?_, ?_, by simp, fun _ _ => rfl, fun _ _ => rfl⟩
  · intro h hh hout
    by_contra hne
    have hne : h ≠ r := fun he => hne (.inl (he ▸ rfl))
    exact hout ((List.mem_erase_of_ne hne).mpr hh)
  · rintro h ⟨rfl⟩
    exact ⟨hr, hnodup.not_mem_erase⟩
  · rintro h ⟨rfl⟩
    exact hm

end Usbip.Device

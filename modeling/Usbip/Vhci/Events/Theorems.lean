import Usbip.Vhci.Events
import Mathlib.Data.List.Nodup

namespace Usbip.Vhci.Events

open Function
open Usbip.Library.Runs

-- The event that `process_event` has under way and still has to show to a file object.
def upcoming (loop : Option (Event × List FileObject)) (f : FileObject) : List Event :=
  match loop with
  | some (evt, rest) => if f ∈ rest then [evt] else []
  | none => []

def FileobjectCtx.droppedEvents (fobj : FileobjectCtx) : List Event := fobj.dropped.map Drop.event

-- What a subscriber has been shown of the events is delivered, queued or dropped, in the order of the events.
structure Subscription (fobj : FileobjectCtx) (emitted upcoming : List Event) : Prop where
  started : fobj.firstRead ≤ emitted.length
  account : fobj.delivered ++ fobj.events ++ upcoming =
    (emitted.drop fobj.firstRead).filter fun e => decide (e ∉ fobj.droppedEvents)
  dropped : ∀ e ∈ fobj.droppedEvents, e ∈ emitted

-- What stays true of the file after its cleanup, too.
structure Delivery (fobj : FileobjectCtx) (emitted : List Event) (devicesCnt : Nat) : Prop where
  started : fobj.firstRead ≤ emitted.length
  sublist : (fobj.delivered ++ fobj.events).Sublist (emitted.drop fobj.firstRead)
  overflow : ∀ drop ∈ fobj.dropped, drop.queue.head? = some drop.event ∧ 4 * devicesCnt < drop.queue.length
  bounded : fobj.events.length ≤ 4 * devicesCnt

section File

variable {fobj : FileobjectCtx} {emitted : List Event} {evt : Event} {devicesCnt : Nat}

theorem Subscription.sublist {upcoming : List Event} (h : Subscription fobj emitted upcoming) :
    (fobj.delivered ++ fobj.events).Sublist (emitted.drop fobj.firstRead) := by
  have hall : (fobj.delivered ++ fobj.events ++ upcoming).Sublist (emitted.drop fobj.firstRead) := by
    rw [h.account]
    exact List.filter_sublist
  exact (List.sublist_append_left _ _).trans hall

-- A new event is one more that is to be shown.
theorem Subscription.emit (h : Subscription fobj emitted []) (hfresh : evt ∉ emitted) :
    Subscription fobj (emitted ++ [evt]) [evt] := by
  have hkept : evt ∉ fobj.droppedEvents := fun he => hfresh (h.dropped evt he)
  refine ⟨?_, ?_, fun e he => List.mem_append_left _ (h.dropped e he)⟩
  · rw [List.length_append]
    exact Nat.le_add_right_of_le h.started
  · have haccount := h.account
    rw [List.append_nil] at haccount
    rw [List.drop_append_of_le_length h.started, List.filter_append, ← haccount]
    simp [hkept]

-- A file object that is not shown the event: it has been cleaned up.
theorem Delivery.emit (h : Delivery fobj emitted devicesCnt) : Delivery fobj (emitted ++ [evt]) devicesCnt := by
  refine ⟨?_, ?_, h.overflow, h.bounded⟩
  · rw [List.length_append]
    exact Nat.le_add_right_of_le h.started
  · rw [List.drop_append_of_le_length h.started]
    exact h.sublist.trans (List.sublist_append_left _ _)

theorem Subscription.completeRead (h : Subscription fobj emitted [evt]) (hempty : fobj.events = []) :
    Subscription (completeRead fobj evt) emitted [] := by
  refine ⟨h.started, ?_, h.dropped⟩
  have haccount := h.account
  rw [hempty, List.append_nil] at haccount
  simp only [Events.completeRead, hempty, List.append_nil]
  exact haccount

-- The oldest event of a queue is in it once.
theorem filter_ne_head {head : Event} {delivered rest : List Event} (h : (delivered ++ head :: rest).Nodup) :
    (delivered ++ head :: rest).filter (fun e => decide (e ≠ head)) = delivered ++ rest := by
  obtain ⟨-, hrest, hdisjoint⟩ := List.nodup_append.mp h
  have hkeep : ∀ list : List Event, head ∉ list → list.filter (fun e => decide (e ≠ head)) = list := by
    intro list hhead
    refine List.filter_eq_self.mpr fun e he => decide_eq_true ?_
    rintro rfl
    exact hhead he
  have hdelivered : head ∉ delivered := fun hmem => hdisjoint head hmem head List.mem_cons_self rfl
  rw [List.filter_append, hkeep _ hdelivered, List.filter_cons_of_neg (by simp), hkeep _ (List.nodup_cons.mp hrest).1]

theorem queueEvent_cases (fobj : FileobjectCtx) (evt : Event) (maxEvents : Nat) :
    ∃ head rest, fobj.events ++ [evt] = head :: rest ∧
      (maxEvents < (head :: rest).length ∧
          queueEvent fobj evt maxEvents =
            { fobj with events := rest, dropped := fobj.dropped ++ [{ event := head, queue := head :: rest }] } ∨
        (head :: rest).length ≤ maxEvents ∧ queueEvent fobj evt maxEvents = { fobj with events := head :: rest }) := by
  unfold queueEvent
  split
  case h_1 hnil => simp at hnil
  case h_2 head rest hqueue =>
    refine ⟨head, rest, hqueue, ?_⟩
    split
    case isTrue hmany => exact .inl ⟨hmany, rfl⟩
    case isFalse hfew => exact .inr ⟨Nat.not_lt.mp hfew, rfl⟩

-- Dropping the oldest one takes just that event out of the account.
theorem Subscription.queueEvent (h : Subscription fobj emitted [evt]) (hnodup : emitted.Nodup) (maxEvents : Nat) :
    Subscription (queueEvent fobj evt maxEvents) emitted [] := by
  have haccount := h.account
  rw [List.append_assoc] at haccount
  obtain ⟨head, rest, hqueue, ⟨-, hdrop⟩ | ⟨-, hkeep⟩⟩ := queueEvent_cases fobj evt maxEvents
  · rw [hqueue] at haccount
    have hshown : (fobj.delivered ++ head :: rest).Nodup := by
      rw [haccount]
      exact (hnodup.sublist (List.drop_sublist _ _)).filter _
    have hhead : head ∈ emitted := by
      have hmem : head ∈ fobj.delivered ++ head :: rest := by simp
      rw [haccount] at hmem
      exact List.mem_of_mem_drop (List.mem_filter.mp hmem).1
    rw [hdrop]
    refine ⟨h.started, ?_, fun e he => ?_⟩
    · have hfilter := filter_ne_head hshown
      rw [haccount, List.filter_filter] at hfilter
      simp only [List.append_nil]
      rw [← hfilter]
      apply List.filter_congr
      intro e _
      by_cases he : e = head <;> simp [FileobjectCtx.droppedEvents, he]
    · simp only [FileobjectCtx.droppedEvents, List.map_append, List.map_cons, List.map_nil, List.mem_append,
        List.mem_singleton] at he
      obtain he | rfl := he
      · exact h.dropped e he
      · exact hhead
  · rw [hkeep]
    refine ⟨h.started, ?_, h.dropped⟩
    rw [List.append_nil, ← hqueue]
    exact haccount

theorem Delivery.completeRead (h : Delivery fobj emitted devicesCnt)
    (hnext : Subscription (completeRead fobj evt) emitted []) : Delivery (completeRead fobj evt) emitted devicesCnt :=
  ⟨h.started, hnext.sublist, h.overflow, h.bounded⟩

theorem Delivery.queueEvent (h : Delivery fobj emitted devicesCnt)
    (hnext : Subscription (queueEvent fobj evt (4 * devicesCnt)) emitted []) :
    Delivery (queueEvent fobj evt (4 * devicesCnt)) emitted devicesCnt := by
  have hbounded := h.bounded
  have hsublist := hnext.sublist
  have hstarted := hnext.started
  obtain ⟨head, rest, hqueue, ⟨hmany, hdrop⟩ | ⟨hfew, hkeep⟩⟩ := queueEvent_cases fobj evt (4 * devicesCnt)
  · rw [hdrop] at hstarted hsublist ⊢
    have hlength : rest.length = fobj.events.length := by simpa using congrArg List.length hqueue.symm
    refine ⟨hstarted, hsublist, fun drop hmem => ?_, hlength ▸ hbounded⟩
    obtain hmem | hmem := List.mem_append.mp hmem
    · exact h.overflow drop hmem
    · obtain rfl := List.mem_singleton.mp hmem
      exact ⟨rfl, hmany⟩
  · rw [hkeep] at hstarted hsublist ⊢
    exact ⟨hstarted, hsublist, h.overflow, hfew⟩

end File

structure FileInv (st : State) (f : FileObject) : Prop where
  idle : (st.file f).processEvents = false → st.file f = {} ∧ ∀ r, (f, r) ∉ st.reads
  exclusive : (st.file f).events = [] ∨ ∀ r, (f, r) ∉ st.reads
  subscription : (st.file f).processEvents = true → f ∈ st.fileobjects →
    Subscription (st.file f) st.emitted (upcoming st.loop f)
  delivery : Delivery (st.file f) st.emitted st.devicesCnt
  opened : (st.file f).processEvents = true → f ∈ st.opened

structure Inv (st : State) : Prop where
  files : ∀ f, FileInv st f
  nodup : st.fileobjects.Nodup
  opened : ∀ f ∈ st.fileobjects, f ∈ st.opened
  subscribers : st.eventsSubscribers = st.fileobjects.countP fun f => (st.file f).processEvents
  unprocessed : (st.unprocessed ++ st.emitted).Nodup
  made : ∀ e ∈ st.unprocessed ++ st.emitted, e < st.made
  loop : ∀ evt rest, st.loop = some (evt, rest) → rest.Sublist st.fileobjects

theorem delivery_default (emitted : List Event) (devicesCnt : Nat) : Delivery {} emitted devicesCnt := by
  constructor <;> simp

theorem inv_init {st : State} (h : machine.init st) : Inv st := by
  obtain ⟨devicesCnt, rfl⟩ := h
  refine ⟨fun f => ⟨fun _ => ⟨rfl, by simp⟩, .inl rfl, by simp, delivery_default _ _, by simp⟩, ?_, ?_, ?_, ?_, ?_, ?_⟩
  all_goals simp

section Step

variable {st t : State}

-- Nothing has happened to a file object.
theorem FileInv.frame {f : FileObject} (h : FileInv st f) (hfile : t.file f = st.file f)
    (hreads : ∀ r, (f, r) ∈ t.reads → (f, r) ∈ st.reads) (hlisted : f ∈ t.fileobjects → f ∈ st.fileobjects)
    (hopened : f ∈ st.opened → f ∈ t.opened) (hemitted : t.emitted = st.emitted)
    (hcnt : t.devicesCnt = st.devicesCnt) (hupcoming : f ∈ t.fileobjects → upcoming t.loop f = upcoming st.loop f) :
    FileInv t f := by
  refine ⟨?_, ?_, ?_, ?_, ?_⟩
  all_goals rw [hfile]
  · intro hidle
    exact ⟨(h.idle hidle).1, fun r hr => (h.idle hidle).2 r (hreads r hr)⟩
  · exact h.exclusive.imp id fun hnone r hr => hnone r (hreads r hr)
  · intro hsub hmem
    rw [hemitted, hupcoming hmem]
    exact h.subscription hsub (hlisted hmem)
  · rw [hemitted, hcnt]
    exact h.delivery
  · exact fun hsub => hopened (h.opened hsub)

theorem Inv.fileCreate (hi : Inv st) {f : FileObject} (hloop : st.loop = none) (hnew : f ∉ st.opened) :
    Inv { st with fileobjects := st.fileobjects ++ [f], opened := f :: st.opened } := by
  have hidle : (st.file f).processEvents = false := by
    by_contra hsub
    exact hnew ((hi.files f).opened (by simpa using hsub))
  refine ⟨fun g => ?_, ?_, fun g hg => ?_, ?_, hi.unprocessed, hi.made, fun evt rest hrest => ?_⟩
  · have hg := hi.files g
    refine ⟨hg.idle, hg.exclusive, fun hsub hmem => ?_, hg.delivery, fun hsub => .tail _ (hg.opened hsub)⟩
    obtain hmem | hmem := List.mem_append.mp hmem
    · exact hg.subscription hsub hmem
    · rw [List.mem_singleton.mp hmem, hidle] at hsub
      cases hsub
  · refine List.nodup_append.mpr ⟨hi.nodup, List.nodup_singleton f, fun g hg e he => ?_⟩
    rintro rfl
    rw [List.mem_singleton.mp he] at hg
    exact hnew (hi.opened f hg)
  · obtain hg | hg := List.mem_append.mp hg
    · exact .tail _ (hi.opened g hg)
    · rw [List.mem_singleton.mp hg]
      exact .head _
  · simp only [List.countP_append, List.countP_singleton, hidle]
    simpa using hi.subscribers
  · rw [hloop] at hrest
    cases hrest

theorem Inv.canceledOnQueue (hi : Inv st) (read : FileObject × Request) :
    Inv { st with reads := st.reads.erase read } :=
  ⟨fun f => (hi.files f).frame rfl (fun _ => List.mem_of_mem_erase) id id rfl rfl fun _ => rfl,
    hi.nodup, hi.opened, hi.subscribers, hi.unprocessed, hi.made, hi.loop⟩

theorem Inv.fileCleanup (hi : Inv st) {f : FileObject} (hloop : st.loop = none) (hf : f ∈ st.fileobjects) :
    Inv { st with
      fileobjects := st.fileobjects.erase f
      eventsSubscribers := if (st.file f).processEvents then st.eventsSubscribers - 1 else st.eventsSubscribers } := by
  have hcount := (List.perm_cons_erase hf).countP_eq fun g => (st.file g).processEvents
  rw [List.countP_cons] at hcount
  refine ⟨fun g => ?_, hi.nodup.erase f, fun g hg => hi.opened g (List.mem_of_mem_erase hg), ?_, hi.unprocessed,
    hi.made, fun evt rest hrest => ?_⟩
  · exact (hi.files g).frame rfl (fun _ => id) List.mem_of_mem_erase id rfl rfl fun _ => rfl
  · rw [hi.subscribers, hcount]
    dsimp only
    split <;> simp
  · rw [hloop] at hrest
    cases hrest

theorem Inv.checking (hi : Inv st) (n : Nat) : Inv { st with checking := n } :=
  ⟨fun f => (hi.files f).frame rfl (fun _ => id) id id rfl rfl fun _ => rfl, hi.nodup, hi.opened, hi.subscribers,
    hi.unprocessed, hi.made, hi.loop⟩

theorem Inv.makeDeviceState (hi : Inv st) : Inv (makeDeviceState st) := by
  have hnew : st.made ∉ st.unprocessed ++ st.emitted := fun hmem => lt_irrefl _ (hi.made _ hmem)
  refine ⟨fun f => (hi.files f).frame rfl (fun _ => id) id id rfl rfl fun _ => rfl, hi.nodup, hi.opened,
    hi.subscribers, List.nodup_cons.mpr ⟨hnew, hi.unprocessed⟩, fun e he => ?_, hi.loop⟩
  obtain rfl | he := List.mem_cons.mp he
  · exact Nat.lt_succ_self _
  · exact Nat.lt_succ_of_lt (hi.made e he)

theorem Inv.processEvent (hi : Inv st) {evt : Event} (hloop : st.loop = none) (hevt : evt ∈ st.unprocessed) :
    Inv { st with
      unprocessed := st.unprocessed.erase evt
      emitted := st.emitted ++ [evt]
      loop := some (evt, st.fileobjects) } := by
  have hfresh : evt ∉ st.emitted := by
    intro hmem
    exact (List.nodup_append.mp hi.unprocessed).2.2 evt hevt evt hmem rfl
  have hperm : (st.unprocessed.erase evt ++ (st.emitted ++ [evt])).Perm (st.unprocessed ++ st.emitted) := by
    rw [← List.append_assoc]
    refine List.perm_append_singleton _ _ |>.trans ?_
    exact ((List.perm_cons_erase hevt).append_right st.emitted).symm
  refine ⟨fun f => ?_, hi.nodup, hi.opened, hi.subscribers, hperm.nodup_iff.mpr hi.unprocessed,
    fun e he => hi.made e (hperm.mem_iff.mp he), fun e rest hrest => ?_⟩
  · have hf := hi.files f
    refine ⟨hf.idle, hf.exclusive, fun hsub hmem => ?_, hf.delivery.emit, hf.opened⟩
    have hold := hf.subscription hsub hmem
    rw [hloop] at hold
    simpa [upcoming, hmem] using hold.emit hfresh
  · cases hrest
    exact List.Sublist.refl _

theorem retrieveRequest_eq_some {reads : List (FileObject × Request)} {f : FileObject}
    {read : FileObject × Request} (h : retrieveRequest reads f = some read) : (f, read.2) ∈ reads := by
  have hf : read.1 = f := by simpa using List.find?_some h
  rw [← hf]
  exact List.mem_of_find?_eq_some h

theorem retrieveRequest_eq_none {reads : List (FileObject × Request)} {f : FileObject}
    (h : retrieveRequest reads f = none) (r : Request) : (f, r) ∉ reads := by
  intro hmem
  simpa using List.find?_eq_none.mp h _ hmem

-- A subscriber has been dealt with; the others have not been touched.
theorem Inv.update (hi : Inv st) {f : FileObject} {fobj : FileobjectCtx} {reads : List (FileObject × Request)}
    {loop : Option (Event × List FileObject)} (hf : f ∈ st.fileobjects)
    (hwas : (st.file f).processEvents = true) (hkept : fobj.processEvents = true)
    (hsub : Subscription fobj st.emitted []) (hdelivery : Delivery fobj st.emitted st.devicesCnt)
    (hexclusive : fobj.events = [] ∨ ∀ r, (f, r) ∉ reads)
    (hreads : ∀ read ∈ reads, read ∈ st.reads ∨ read.1 = f)
    (hupcoming : ∀ g, upcoming loop g = if g = f then [] else upcoming st.loop g)
    (hloop : ∀ evt rest, loop = some (evt, rest) → rest.Sublist st.fileobjects) :
    Inv { st with reads := reads, file := update st.file f fobj, loop := loop } := by
  refine ⟨fun g => ?_, hi.nodup, hi.opened, ?_, hi.unprocessed, hi.made, hloop⟩
  · by_cases hgf : g = f
    · subst hgf
      constructor
      all_goals simp only [update_self]
      · intro hidle
        rw [hkept] at hidle
        cases hidle
      · exact hexclusive
      · intro _ _
        rw [hupcoming, if_pos rfl]
        exact hsub
      · exact hdelivery
      · exact fun _ => hi.opened g hf
    · refine (hi.files g).frame (update_of_ne hgf _ _) (fun r hr => ?_) id id rfl rfl fun _ => ?_
      · exact (hreads _ hr).resolve_right hgf
      · exact (hupcoming g).trans (if_neg hgf)
  · rw [hi.subscribers]
    refine congrArg _ (List.countP_congr fun g _ => ?_)
    by_cases hgf : g = f
    · subst hgf
      simp [hwas, hkept]
    · simp [update_of_ne hgf]

theorem Inv.nextFile (hi : Inv st) {evt : Event} {f : FileObject} {rest : List FileObject}
    (hloop : st.loop = some (evt, f :: rest)) (hs : step st .nextFile = some t) : Inv t := by
  simp only [step, hloop, Option.some_inj] at hs
  subst hs
  have hsublist := hi.loop evt _ hloop
  have hf : f ∈ st.fileobjects := hsublist.subset List.mem_cons_self
  have hnotin : f ∉ rest := (List.nodup_cons.mp (hi.nodup.sublist hsublist)).1
  have hupcoming : ∀ g, upcoming (some (evt, rest)) g = if g = f then [] else upcoming st.loop g := by
    intro g
    by_cases hgf : g = f
    · subst hgf
      simp [upcoming, hnotin]
    · simp [upcoming, hloop, hgf]
  have hrest : ∀ e list, some (evt, rest) = some (e, list) → list.Sublist st.fileobjects := by
    rintro e list ⟨⟩
    exact (List.sublist_cons_self f rest).trans hsublist
  split
  case isTrue hsubscriber =>
    have hfile := hi.files f
    have hsub := hfile.subscription hsubscriber hf
    have hdelivery := hfile.delivery
    rw [hloop] at hsub
    simp only [upcoming, List.mem_cons_self, if_true] at hsub
    unfold Events.processEvent
    split
    case h_1 read hread =>
      have hempty := hfile.exclusive.resolve_right fun hnone => hnone _ (retrieveRequest_eq_some hread)
      have hnext := hsub.completeRead hempty
      exact hi.update hf hsubscriber hsubscriber hnext (hdelivery.completeRead hnext) (.inl hempty)
        (fun read' hread' => .inl (List.mem_of_mem_erase hread')) hupcoming hrest
    case h_2 hnone =>
      have hnext := hsub.queueEvent (List.nodup_append.mp hi.unprocessed).2.1 (4 * st.devicesCnt)
      have hkept : (queueEvent (st.file f) evt (4 * st.devicesCnt)).processEvents = true := by
        obtain ⟨_, _, -, ⟨-, hdrop⟩ | ⟨-, hkeep⟩⟩ := queueEvent_cases (st.file f) evt (4 * st.devicesCnt)
        · rw [hdrop]
          exact hsubscriber
        · rw [hkeep]
          exact hsubscriber
      exact hi.update hf hsubscriber hkept hnext (hdelivery.queueEvent hnext)
        (.inr fun r => retrieveRequest_eq_none hnone r) (fun _ => .inl) hupcoming hrest
  case isFalse hidle =>
    refine ⟨fun g => ?_, hi.nodup, hi.opened, hi.subscribers, hi.unprocessed, hi.made, hrest⟩
    have hg := hi.files g
    refine ⟨hg.idle, hg.exclusive, fun hsub hmem => ?_, hg.delivery, hg.opened⟩
    have hgf : g ≠ f := by
      rintro rfl
      exact hidle hsub
    rw [hupcoming, if_neg hgf]
    exact hg.subscription hsub hmem

-- The first read subscribes to what is emitted from then on.
theorem Inv.subscribe (hi : Inv st) {f : FileObject} (hloop : st.loop = none) (hf : f ∈ st.fileobjects) :
    Inv (Events.subscribe st f) := by
  unfold Events.subscribe
  split
  case isTrue => exact hi
  case isFalse hnew =>
    have hidle : (st.file f).processEvents = false := by simpa using hnew
    obtain ⟨hdefault, hreads⟩ := (hi.files f).idle hidle
    refine ⟨fun g => ?_, hi.nodup, hi.opened, ?_, hi.unprocessed, hi.made, hi.loop⟩
    · by_cases hgf : g = f
      · subst hgf
        constructor
        all_goals simp only [update_self, hdefault]
        · rintro ⟨⟩
        · exact .inl trivial
        · intro _ _
          constructor <;> simp [upcoming, hloop, FileobjectCtx.droppedEvents]
        · constructor <;> simp
        · exact fun _ => hi.opened g hf
      · exact (hi.files g).frame (update_of_ne hgf _ _) (fun _ => id) id id rfl rfl fun _ => rfl
    · have hperm := List.perm_cons_erase hf
      have hrest : (st.fileobjects.erase f).countP (fun g => (Function.update st.file f
            { st.file f with processEvents := true, firstRead := st.emitted.length } g).processEvents) =
          (st.fileobjects.erase f).countP fun g => (st.file g).processEvents := by
        refine List.countP_congr fun g hg => ?_
        have hgf : g ≠ f := ((hi.nodup.mem_erase_iff).mp hg).1
        rw [update_of_ne hgf]
      rw [hi.subscribers, hperm.countP_eq, hperm.countP_eq, List.countP_cons, List.countP_cons, hrest]
      simp [hidle]

theorem subscribe_processEvents (st : State) (f : FileObject) : ((subscribe st f).file f).processEvents = true := by
  unfold subscribe
  split
  case isTrue h => exact h
  case isFalse => simp

theorem Inv.deviceRead (hi : Inv st) {f : FileObject} {request : Request} (hloop : st.loop = none)
    (hf : f ∈ st.fileobjects) : Inv (Events.deviceRead st f request) := by
  have hnext := hi.subscribe hloop hf
  have hsubscriber := subscribe_processEvents st f
  have hrest : (Events.subscribe st f).loop = none ∧ f ∈ (Events.subscribe st f).fileobjects := by
    unfold Events.subscribe
    split <;> exact ⟨hloop, hf⟩
  obtain ⟨hloop, hf⟩ := hrest
  have hsub := (hnext.files f).subscription hsubscriber hf
  have hdelivery := (hnext.files f).delivery
  have hupcoming : ∀ g, upcoming (Events.subscribe st f).loop g =
      if g = f then [] else upcoming (Events.subscribe st f).loop g := by
    simp [upcoming, hloop]
  rw [hloop] at hsub
  simp only [upcoming] at hsub
  unfold Events.deviceRead
  dsimp only
  split
  case h_1 evt rest hevents =>
    have hreads : ∀ r, (f, r) ∉ (Events.subscribe st f).reads := by
      refine (hnext.files f).exclusive.resolve_left ?_
      rw [hevents]
      exact List.cons_ne_nil _ _
    have haccount := hsub.account
    have hkept : ((Events.subscribe st f).file f).delivered ++ [evt] ++ rest =
        ((Events.subscribe st f).file f).delivered ++ ((Events.subscribe st f).file f).events := by
      rw [hevents, List.append_assoc, List.singleton_append]
    have hnew : Subscription { completeRead ((Events.subscribe st f).file f) evt with events := rest }
        (Events.subscribe st f).emitted [] := by
      refine ⟨hsub.started, ?_, hsub.dropped⟩
      simp only [Events.completeRead, hkept]
      exact haccount
    have hbounded := hdelivery.bounded
    rw [hevents, List.length_cons] at hbounded
    exact hnext.update hf hsubscriber hsubscriber hnew
      ⟨hsub.started, hnew.sublist, hdelivery.overflow, Nat.le_of_succ_le hbounded⟩ (.inr hreads) (fun _ => .inl)
      hupcoming hnext.loop
  case h_2 hevents =>
    have hreads : ∀ read ∈ (Events.subscribe st f).reads ++ [(f, request)],
        read ∈ (Events.subscribe st f).reads ∨ read.1 = f := by
      intro read hread
      obtain hread | hread := List.mem_append.mp hread
      · exact .inl hread
      · rw [List.mem_singleton.mp hread]
        exact .inr rfl
    have hupdated := hnext.update hf hsubscriber hsubscriber hsub hdelivery (.inl hevents) hreads hupcoming hnext.loop
    rw [update_eq_self] at hupdated
    exact hupdated

theorem Inv.step {a : Action} (hi : Inv st) (hs : step st a = some t) : Inv t := by
  cases a with
  | fileCreate f =>
      obtain ⟨h, hs⟩ := Option.ite_none_right_eq_some.mp hs
      cases hs
      exact hi.fileCreate h.1 h.2
  | read f request fits =>
      simp only [Events.step] at hs
      split at hs
      case isTrue => cases hs
      case isFalse hf =>
        split at hs
        case isTrue =>
          cases hs
          exact hi
        case isFalse =>
          split at hs
          case isTrue hloop =>
            cases hs
            exact hi.deviceRead hloop (not_not.mp hf)
          case isFalse => cases hs
  | canceledOnQueue read =>
      obtain ⟨_, hs⟩ := Option.ite_none_right_eq_some.mp hs
      cases hs
      exact hi.canceledOnQueue read
  | fileCleanup f =>
      obtain ⟨h, hs⟩ := Option.ite_none_right_eq_some.mp hs
      cases hs
      exact hi.fileCleanup h.1 h.2
  | stateChanged =>
      simp only [Events.step, Option.some_inj] at hs
      subst hs
      split
      · exact hi.checking _
      · exact hi.makeDeviceState
  | recheck =>
      obtain ⟨_, hs⟩ := Option.ite_none_right_eq_some.mp hs
      cases hs
      split
      · exact hi.checking _
      · exact (hi.checking _).makeDeviceState
  | processEvent evt =>
      obtain ⟨h, hs⟩ := Option.ite_none_right_eq_some.mp hs
      cases hs
      exact hi.processEvent h.1 h.2
  | nextFile =>
      have hloop : ∃ evt f rest, st.loop = some (evt, f :: rest) := by
        simp only [Events.step] at hs
        split at hs
        case h_1 evt f rest hloop => exact ⟨evt, f, rest, hloop⟩
        case h_2 => cases hs
      obtain ⟨evt, f, rest, hloop⟩ := hloop
      exact hi.nextFile hloop hs
  | release =>
      simp only [Events.step] at hs
      split at hs
      case h_1 evt hloop =>
        cases hs
        refine ⟨fun f => (hi.files f).frame rfl (fun _ => id) id id rfl rfl fun _ => ?_, hi.nodup, hi.opened,
          hi.subscribers, hi.unprocessed, hi.made, fun evt rest hrest => by cases hrest⟩
        rw [hloop]
        rfl
      case h_2 => cases hs

end Step

-- In every state, also while `process_event` goes through the file objects.
theorem event_delivery (st : State) (h : machine.Reachable (fun _ _ => True) st) :
    (∀ f, (st.file f).delivered.Sublist (st.emitted.drop (st.file f).firstRead) ∧
      (st.file f).delivered.Nodup) ∧
    (∀ f ∈ st.fileobjects, (st.file f).processEvents = true →
      (st.file f).delivered ++ (st.file f).events ++ upcoming st.loop f =
        (st.emitted.drop (st.file f).firstRead).filter fun e => decide (e ∉ (st.file f).droppedEvents)) ∧
    (∀ f, ∀ drop ∈ (st.file f).dropped,
      drop.queue.head? = some drop.event ∧ 4 * st.devicesCnt < drop.queue.length) ∧
    (∀ f, (st.file f).events = [] ∨ ∀ r, (f, r) ∉ st.reads) ∧
    st.eventsSubscribers = st.fileobjects.countP fun f => (st.file f).processEvents := by
  have hi : Inv st := h.invariant (fun _ => inv_init) (fun _ _ _ hi _ hs => hi.step hs)
  have hnodup := (List.nodup_append.mp hi.unprocessed).2.1
  refine ⟨fun f => ?_, fun f hf hsub => ((hi.files f).subscription hsub hf).account,
    fun f => (hi.files f).delivery.overflow, fun f => (hi.files f).exclusive, hi.subscribers⟩
  have hsublist : (st.file f).delivered.Sublist (st.emitted.drop (st.file f).firstRead) :=
    (List.sublist_append_left _ _).trans (hi.files f).delivery.sublist
  exact ⟨hsublist, hnodup.sublist (hsublist.trans (List.drop_sublist _ _))⟩

-- The next event goes to all file objects of a single subscriber.
def emitSchedule (evt : Event) : List Action := [.stateChanged, .processEvent evt, .nextFile, .release]

-- One event is waited for; of the five that nobody waits for the first has to go.
def overflowSchedule : List Action :=
  [.fileCreate 0, .read 0 0 true] ++ emitSchedule 0 ++ emitSchedule 1 ++ emitSchedule 2 ++ emitSchedule 3 ++
  emitSchedule 4 ++ emitSchedule 5 ++ [.read 0 1 true]

theorem event_delivery_overflow :
    ∃ st, machine.Reachable (fun _ _ => True) st ∧ (st.file 0).delivered = [0, 2] ∧
      (st.file 0).droppedEvents = [1] ∧ (st.file 0).events = [3, 4, 5] ∧ (st.file 0).delivered.Nodup := by
  have hinit : machine.Reachable (fun _ _ => True) { devicesCnt := 1 } := .init ⟨1, rfl⟩
  have hrun : (machine.run (fun _ _ => True) { devicesCnt := 1 } overflowSchedule).any
      (fun st => decide ((st.file 0).delivered = [0, 2] ∧ (st.file 0).droppedEvents = [1] ∧
        (st.file 0).events = [3, 4, 5])) = true := by
    decide +kernel
  obtain ⟨st, hst, hfile⟩ := hinit.exists_run hrun
  obtain ⟨hdelivered, hdropped, hevents⟩ := of_decide_eq_true hfile
  exact ⟨st, hst, hdelivered, hdropped, hevents, ((event_delivery st hst).1 0).2⟩

end Usbip.Vhci.Events

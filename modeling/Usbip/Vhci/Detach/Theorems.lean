import Usbip.Vhci.Detach
import Usbip.Vhci.Theorems

namespace Usbip.Vhci

open Usbip.Library.Pool
open Usbip.Library.Runs

-- The port and the device of a plug-out message that has not been looked up yet.
def Task.names : Task → Option (Int × Device)
  | .sending _ d port => some (port, d)
  | .handling port _ (some d) => some (port, d)
  | _ => none

def Ioctl.names : Ioctl → Option (Int × Device)
  | .plugoutHardware port _ (some d) => some (port, d)
  | _ => none

def State.names (st : State) : List (Int × Device) :=
  st.tasks.filterMap Task.names ++ st.queue.filterMap Ioctl.names

theorem mem_names {st : State} {m : Int × Device} :
    m ∈ st.names ↔ (∃ task ∈ st.tasks, task.names = some m) ∨ ∃ ioctl ∈ st.queue, ioctl.names = some m := by
  simp [State.names, List.mem_filterMap]

-- A plug-out message made for a device has detached that device or nothing.
def Effect.own : Effect → Bool
  | .detached (some s) d => d == s
  | .detachedAll (some _) => false
  | _ => true

def Task.own : Task → Bool
  | .detachAll (some _) _ _ => false
  | .detach (.plugoutHardware (some s)) d _ _ => d == s
  | .detach (.detachAllDevices (some _) _ _) _ _ _ => false
  | _ => true

-- A message is made while its device has a port, and nobody else takes a port
-- that a message still names.
def KeepsPort (st : State) : Action → Prop
  | .readPort _ d => (st.vhci.device d).port ≠ 0
  | .claim d => ∀ i ∈ freeSlot st.vhci d, ∀ m ∈ st.names, m.1 = i + 1 → m.2 = d
  | _ => True

instance : ∀ (st : State) (a : Action), Decidable (KeepsPort st a)
  | st, .readPort _ d => inferInstanceAs (Decidable ((st.vhci.device d).port ≠ 0))
  | st, .claim d =>
    inferInstanceAs (Decidable (∀ i ∈ freeSlot st.vhci d, ∀ m ∈ st.names, m.1 = i + 1 → m.2 = d))
  | _, .requestPlugin | _, .requestPlugout .. | _, .attachTimer | _, .dispatch | _, .connected _
  | _, .plugIn .. | _, .recvExit _ | _, .forcedClosed _ | _, .send .. | _, .handle .. | _, .detachNext ..
  | _, .detach .. | _, .cleanup _ => isTrue trivial

structure Inv (st : State) : Prop where
  held : Held st.vhci
  named : ∀ m ∈ st.names, 0 < m.1 ∧ ∀ d, st.vhci.devices[(m.1 - 1).toNat]? = some (some d) → d = m.2
  tasks : ∀ task ∈ st.tasks, task.own = true
  effects : ∀ effect ∈ st.effects, effect.own = true

theorem inv_init {st : State} (h : machine.init st) : Inv st := by
  obtain ⟨usb2, usb3, rfl⟩ := h
  exact ⟨fun d hd => absurd rfl hd, by simp [State.names], by simp, by simp⟩

section Step

variable {st t : State}

-- Steps that leave the ports alone and bring in no message.
theorem Inv.frame (hi : Inv st) (hdevices : t.vhci.devices = st.vhci.devices)
    (hport : ∀ d, (t.vhci.device d).port = (st.vhci.device d).port)
    (hnames : ∀ m ∈ t.names, m ∈ st.names) (htasks : ∀ task ∈ t.tasks, task ∈ st.tasks ∨ task.own = true)
    (heffects : ∀ effect ∈ t.effects, effect ∈ st.effects ∨ effect.own = true) : Inv t := by
  refine ⟨?_, ?_, ?_, ?_⟩
  · intro d hd
    rw [hport] at hd ⊢
    rw [hdevices]
    exact hi.held d hd
  · intro m hm
    rw [hdevices]
    exact hi.named m (hnames m hm)
  · intro task ht
    exact (htasks task ht).elim (hi.tasks task) id
  · intro effect he
    exact (heffects effect he).elim (hi.effects effect) id

-- Of the tasks, a step usually takes one away and brings in some that name no port.
theorem names_advance {vhci : VhciCtx} {created : Nat} {plugged : List Device} {busy : Bool} {task : Task}
    {next : List Task} {effects : List Effect} {m : Int × Device}
    (hnext : ∀ x ∈ next, x.names = none)
    (hm : m ∈ State.names ⟨vhci, created, plugged, st.queue, busy, advance st.tasks task next, effects⟩) :
    m ∈ st.names := by
  obtain ⟨x, hx, hxm⟩ | hq := mem_names.mp hm
  · obtain hn | ht := mem_advance hx
    · rw [hnext x hn] at hxm
      cases hxm
    · exact mem_names.mpr (.inl ⟨x, ht, hxm⟩)
  · exact mem_names.mpr (.inr hq)

theorem own_advance {tasks next : List Task} {task : Task} (hnext : ∀ x ∈ next, x.own = true) :
    ∀ x ∈ advance tasks task next, x ∈ tasks ∨ x.own = true := by
  intro x hx
  exact (mem_advance hx).elim (fun h => .inr (hnext x h)) .inl

theorem own_cons {tasks : List Task} {task : Task} (hown : task.own = true) :
    ∀ x ∈ task :: tasks, x ∈ tasks ∨ x.own = true := by
  intro x hx
  obtain rfl | hx := List.mem_cons.mp hx
  · exact .inr hown
  · exact .inl hx

theorem Inv.moved (hi : Inv st) {task : Task} {next : List Task} {plugged : List Device} {busy : Bool}
    (hnext : ∀ x ∈ next, x.names = none ∧ x.own = true) :
    Inv { st with plugged := plugged, busy := busy, tasks := advance st.tasks task next } :=
  hi.frame rfl (fun _ => rfl) (fun _ hm => names_advance (fun x hx => (hnext x hx).1) hm)
    (own_advance fun x hx => (hnext x hx).2) (fun _ h => .inl h)

theorem Inv.started (hi : Inv st) {task : Task} (hnames : task.names = none) (hown : task.own = true) :
    Inv { st with tasks := task :: st.tasks } := by
  refine hi.frame rfl (fun _ => rfl) (fun m hm => ?_) (own_cons hown) (fun _ h => .inl h)
  obtain ⟨x, hx, hxm⟩ | hq := mem_names.mp hm
  · obtain rfl | hx := List.mem_cons.mp hx
    · rw [hnames] at hxm
      cases hxm
    · exact mem_names.mpr (.inl ⟨x, hx, hxm⟩)
  · exact mem_names.mpr (.inr hq)

-- Every stage of a call of `detach` is about the same device for the same caller.
theorem Task.own_stage (caller : Caller) (d : Device) (stage next : Stage) (reattach : Bool) :
    (Task.detach caller d stage reattach).own = (Task.detach caller d next reattach).own := by
  rcases caller with (_ | _) | ⟨_ | _, _, _⟩ | _ | _ <;> rfl

theorem Inv.claim (hi : Inv st) {d : Device} (hok : KeepsPort st (.claim d)) (hs : step st (.claim d) = some t) :
    Inv t := by
  obtain ⟨ht, hs⟩ := Option.ite_none_right_eq_some.mp hs
  cases hs
  have hnext : ∀ x ∈ [if (claimRoothubPort st.vhci d).2 = 0 then Task.detach .connected d .setFlag false
      else .plugIn d], x.names = none ∧ x.own = true := by
    refine List.forall_mem_singleton.mpr ?_
    split <;> exact ⟨rfl, rfl⟩
  refine ⟨hi.held.claim d, fun m hm => ?_, fun x hx => ?_, hi.effects⟩
  · have hold := names_advance (fun x hx => (hnext x hx).1) hm
    obtain ⟨hpos, hslot⟩ := hi.named m hold
    refine ⟨hpos, fun e he => ?_⟩
    obtain hbefore | ⟨hfree, rfl⟩ := claim_slot he
    · exact hslot e hbefore
    · exact (hok _ hfree m hold (by omega)).symm
  · exact (own_advance (fun x hx => (hnext x hx).2) x hx).elim (hi.tasks x) id

theorem Inv.readPort (hi : Inv st) {cause : Cause} {d : Device} (hok : KeepsPort st (.readPort cause d))
    (hs : step st (.readPort cause d) = some t) : Inv t := by
  obtain ⟨ht, hs⟩ := Option.ite_none_right_eq_some.mp hs
  cases hs
  obtain ⟨hpos, hslot⟩ := hi.held d hok
  refine ⟨hi.held, fun m hm => ?_, fun x hx => ?_, hi.effects⟩
  · obtain ⟨x, hx, hxm⟩ | hq := mem_names.mp hm
    · obtain hn | hx := mem_advance hx
      · rw [List.mem_singleton] at hn
        subst hn
        cases hxm
        refine ⟨hpos, fun e he => ?_⟩
        rw [hslot] at he
        simpa using he.symm
      · exact hi.named m (mem_names.mpr (.inl ⟨x, hx, hxm⟩))
    · exact hi.named m (mem_names.mpr (.inr hq))
  · exact (own_advance (List.forall_mem_singleton.mpr rfl) x hx).elim (hi.tasks x) id

theorem Inv.send (hi : Inv st) {cause : Cause} {d : Device} {port : Int} {sent : Bool}
    (hs : step st (.send cause d port sent) = some t) : Inv t := by
  obtain ⟨ht, hs⟩ := Option.ite_none_right_eq_some.mp hs
  cases hs
  refine hi.frame rfl (fun _ => rfl) (fun m hm => ?_) (own_advance (by simp)) (fun _ h => .inl h)
  obtain ⟨x, hx, hxm⟩ | ⟨q, hq, hqm⟩ := mem_names.mp hm
  · obtain hn | hx := mem_advance hx
    · cases hn
    · exact mem_names.mpr (.inl ⟨x, hx, hxm⟩)
  · dsimp only at hq
    split at hq
    case isTrue =>
      obtain hq | hq := List.mem_append.mp hq
      · exact mem_names.mpr (.inr ⟨q, hq, hqm⟩)
      · rw [List.mem_singleton] at hq
        subst hq
        exact mem_names.mpr (.inl ⟨_, ht, hqm⟩)
    case isFalse => exact mem_names.mpr (.inr ⟨q, hq, hqm⟩)

theorem Inv.dispatch (hi : Inv st) (hs : step st .dispatch = some t) : Inv t := by
  simp only [step] at hs
  split at hs
  case isTrue => cases hs
  case isFalse =>
    cases hq : st.queue with
    | nil =>
        rw [hq] at hs
        cases hs
    | cons ioctl rest =>
        cases ioctl with
        | pluginHardware =>
            rw [hq] at hs
            cases hs
            refine hi.frame rfl (fun _ => rfl) (fun m hm => ?_) (own_cons rfl) (fun _ h => .inl h)
            refine mem_names.mpr ((mem_names.mp hm).imp ?_ ?_)
            · rintro ⟨x, hx, hxm⟩
              obtain rfl | hx := List.mem_cons.mp hx
              · cases hxm
              · exact ⟨x, hx, hxm⟩
            · rintro ⟨q, hmem, hqm⟩
              exact ⟨q, hq ▸ List.mem_cons_of_mem _ hmem, hqm⟩
        | plugoutHardware port reattach source =>
            rw [hq] at hs
            cases hs
            refine hi.frame rfl (fun _ => rfl) (fun m hm => ?_) (own_cons rfl) (fun _ h => .inl h)
            obtain ⟨x, hx, hxm⟩ | ⟨q, hmem, hqm⟩ := mem_names.mp hm
            · obtain rfl | hx := List.mem_cons.mp hx
              · refine mem_names.mpr (.inr ⟨.plugoutHardware port reattach source, hq ▸ List.mem_cons_self, ?_⟩)
                cases source <;> exact hxm
              · exact mem_names.mpr (.inl ⟨x, hx, hxm⟩)
            · exact mem_names.mpr (.inr ⟨q, hq ▸ List.mem_cons_of_mem _ hmem, hqm⟩)

-- The device in the slot of the port is the one the message was made for.
theorem Inv.handle (hi : Inv st) {port : Int} {reattach : Bool} {source : Option Device}
    (hs : step st (.handle port reattach source) = some t) : Inv t := by
  obtain ⟨ht, hs⟩ := Option.ite_none_right_eq_some.mp hs
  cases hs
  have hsource : ∀ s, source = some s →
      0 < port ∧ ∀ d, st.vhci.devices[(port - 1).toNat]? = some (some d) → d = s := by
    rintro s rfl
    exact hi.named (port, s) (mem_names.mpr (.inl ⟨_, ht, rfl⟩))
  unfold plugoutHardware
  dsimp only
  split
  case isTrue hall =>
    obtain rfl : source = none := by
      cases source with
      | none => rfl
      | some s =>
          have := (hsource s rfl).1
          omega
    refine hi.frame rfl (fun _ => rfl) (fun m hm => names_advance (by simp [Task.names]) hm)
      (own_advance (by simp [Task.own])) (fun e he => ?_)
    obtain rfl | he := List.mem_cons.mp he
    · exact .inr rfl
    · exact .inl he
  case isFalse =>
    split
    · exact hi.moved (by simp)
    · split
      case h_1 d hd =>
        refine hi.moved (List.forall_mem_singleton.mpr ⟨rfl, ?_⟩)
        cases source with
        | none => rfl
        | some s => exact beq_iff_eq.mpr ((hsource s rfl).2 d (getDevice_eq_some hd))
      case h_2 => exact hi.moved (by simp)

theorem Inv.detachNext (hi : Inv st) {source : Option Device} {port : Int} {plugoutAndDelete : Bool}
    (hs : step st (.detachNext source port plugoutAndDelete) = some t) : Inv t := by
  obtain ⟨ht, hs⟩ := Option.ite_none_right_eq_some.mp hs
  cases hs
  obtain rfl : source = none := by
    cases source with
    | none => rfl
    | some s => exact absurd (hi.tasks _ ht) (by simp [Task.own])
  unfold Vhci.detachNext
  dsimp only
  split
  · split
    all_goals exact hi.moved (by simp [Task.names, Task.own])
  · exact hi.moved (by simp)

section Caller

variable {caller : Caller} {d : Device} {stage : Stage} {reattach : Bool}

-- What goes on after `detach`, and what it has done, is for the same caller too.
theorem Caller.resume_own (hown : (Task.detach caller d stage reattach).own = true) :
    ∀ x ∈ caller.resume, x.names = none ∧ x.own = true := by
  cases caller with
  | detachAllDevices source port plugoutAndDelete =>
      refine List.forall_mem_singleton.mpr ⟨rfl, ?_⟩
      cases source with
      | none => rfl
      | some s => exact hown
  | plugoutHardware | connected | deviceCleanup => exact List.forall_mem_nil _

theorem Caller.effect_own (hown : (Task.detach caller d stage reattach).own = true) :
    ∀ e ∈ caller.effect d, e.own = true := by
  cases caller with
  | plugoutHardware source =>
      refine List.forall_mem_singleton.mpr ?_
      cases source with
      | none => rfl
      | some s => exact hown
  | detachAllDevices source port plugoutAndDelete =>
      refine List.forall_mem_singleton.mpr ?_
      cases source with
      | none => rfl
      | some s => exact absurd hown (by simp [Task.own])
  | connected | deviceCleanup => exact List.forall_mem_nil _

end Caller

theorem Inv.detach (hi : Inv st) {caller : Caller} {d : Device} {stage : Stage} {reattach timeout : Bool}
    (hs : step st (.detach caller d stage reattach timeout) = some t) : Inv t := by
  obtain ⟨ht, hs⟩ := Option.ite_none_right_eq_some.mp hs
  have hown := hi.tasks _ ht
  have hstage : ∀ next, ∀ x ∈ [Task.detach caller d next reattach], x.names = none ∧ x.own = true :=
    fun next => List.forall_mem_singleton.mpr ⟨rfl, (Task.own_stage ..).trans hown⟩
  cases stage with
  | setFlag =>
      simp only [Vhci.detach, Option.some_inj] at hs
      subst hs
      split
      · exact hi.moved (Caller.resume_own hown)
      · refine hi.frame rfl (fun e => ?_) (fun m hm => names_advance (by simp [Task.names]) hm)
          (own_advance fun x hx => (hstage .join x hx).2) (fun e he => ?_)
        · simp only [VhciCtx.set]
          split
          case isTrue hed => rw [hed]
          case isFalse => rfl
        · obtain he | he := List.mem_append.mp he
          · exact .inr (Caller.effect_own hown e he)
          · exact .inl he
  | join =>
      simp only [Vhci.detach] at hs
      split at hs
      · cases hs
        exact hi.moved (hstage .reclaim)
      · cases hs
  | reclaim =>
      simp only [Vhci.detach, Option.some_inj] at hs
      subst hs
      refine ⟨hi.held.reclaim d, fun m hm => ?_, fun x hx => ?_, hi.effects⟩
      · obtain ⟨hpos, hslot⟩ := hi.named m (names_advance (by simp [Task.names]) hm)
        exact ⟨hpos, fun e he => hslot e (reclaim_slot he)⟩
      · exact (own_advance (fun x hx => (hstage .plugout x hx).2) x hx).elim (hi.tasks x) id
  | plugout =>
      simp only [Vhci.detach, Option.some_inj] at hs
      subst hs
      have hnext : ∀ x ∈ caller.resume ++ (if reattach then [Task.attachTimer] else []),
          x.names = none ∧ x.own = true := by
        refine List.forall_mem_append.mpr ⟨Caller.resume_own hown, ?_⟩
        split
        · exact List.forall_mem_singleton.mpr ⟨rfl, rfl⟩
        · exact List.forall_mem_nil _
      exact hi.moved hnext

theorem Inv.connected (hi : Inv st) {speed : Option Int} (hs : step st (.connected speed) = some t) : Inv t := by
  obtain ⟨-, hs⟩ := Option.ite_none_right_eq_some.mp hs
  cases hs
  cases speed with
  | none => exact hi.moved (by simp)
  | some speed =>
      have hnext : ∀ x ∈ [Task.claim st.created], x.names = none ∧ x.own = true :=
        List.forall_mem_singleton.mpr ⟨rfl, rfl⟩
      refine ⟨fun d hd => ?_, fun m hm => ?_, fun x hx => ?_, hi.effects⟩
      · by_cases hnew : d = st.created
        · simp [VhciCtx.set, hnew] at hd
        · simp only [VhciCtx.set, if_neg hnew] at hd ⊢
          exact hi.held d hd
      · exact hi.named m (names_advance (fun x hx => (hnext x hx).1) hm)
      · exact (own_advance (fun x hx => (hnext x hx).2) x hx).elim (hi.tasks x) id

-- A request of a user or of a timer is not made for a device.
theorem Inv.requested (hi : Inv st) {ioctl : Ioctl} (hnames : ioctl.names = none) :
    Inv { st with queue := st.queue ++ [ioctl] } := by
  refine hi.frame rfl (fun _ => rfl) (fun m hm => ?_) (fun _ h => .inl h) (fun _ h => .inl h)
  obtain ht | ⟨q, hq, hqm⟩ := mem_names.mp hm
  · exact mem_names.mpr (.inl ht)
  · obtain hq | hq := List.mem_append.mp hq
    · exact mem_names.mpr (.inr ⟨q, hq, hqm⟩)
    · rw [List.mem_singleton] at hq
      subst hq
      rw [hnames] at hqm
      cases hqm

theorem Inv.step {a : Action} (hi : Inv st) (hok : KeepsPort st a) (hs : step st a = some t) : Inv t := by
  cases a with
  | requestPlugin =>
      cases hs
      exact hi.requested rfl
  | requestPlugout port reattach =>
      cases hs
      exact hi.requested rfl
  | attachTimer =>
      obtain ⟨_, hs⟩ := Option.ite_none_right_eq_some.mp hs
      cases hs
      exact (hi.requested rfl).moved (by simp)
  | dispatch => exact hi.dispatch hs
  | connected speed => exact hi.connected hs
  | claim d => exact hi.claim hok hs
  | plugIn d plugged started =>
      obtain ⟨_, hs⟩ := Option.ite_none_right_eq_some.mp hs
      cases hs
      refine hi.moved (List.forall_mem_singleton.mpr ?_)
      split <;> exact ⟨rfl, rfl⟩
  | recvExit d =>
      obtain ⟨_, hs⟩ := Option.ite_none_right_eq_some.mp hs
      cases hs
      refine hi.moved ?_
      split
      · exact List.forall_mem_nil _
      · exact List.forall_mem_singleton.mpr ⟨rfl, rfl⟩
  | forcedClosed d =>
      obtain ⟨_, hs⟩ := Option.ite_none_right_eq_some.mp hs
      cases hs
      exact hi.started rfl rfl
  | readPort cause d => exact hi.readPort hok hs
  | send cause d port sent => exact hi.send hs
  | handle port reattach source => exact hi.handle hs
  | detachNext source port plugoutAndDelete => exact hi.detachNext hs
  | detach caller d stage reattach timeout => exact hi.detach hs
  | cleanup d =>
      obtain ⟨_, hs⟩ := Option.ite_none_right_eq_some.mp hs
      cases hs
      exact hi.started rfl rfl

end Step

-- In every run in which messages keep naming the port of their own device.
theorem plugout_own_device (st : State) (h : machine.Reachable KeepsPort st) :
    ∀ effect ∈ st.effects, effect.own = true := by
  have hi : Inv st := h.invariant (fun _ => inv_init) (fun _ _ _ hi hok hs => hi.step hok hs)
  exact hi.effects

def emptyVhci : State := { vhci := { usb2Ports := 2, devices := [none, none] } }

-- A device is plugged in: the next one to be created.
def plugInSchedule (d : Device) : List Action :=
  [.requestPlugin, .dispatch, .connected (some 3), .claim d, .plugIn d true true]

-- The call of `detach` for the IOCTL of a given source, up to and with its last stage.
def detachSchedule (caller : Caller) (d : Device) (reattach : Bool) : List Action :=
  [.detach caller d .setFlag reattach false, .recvExit d, .detach caller d .join reattach false,
   .detach caller d .reclaim reattach false, .detach caller d .plugout reattach false]

-- A send of device 0 fails while a user plugs it out: the port is read when it is 0 already.
def unpluggedSchedule : List Action :=
  plugInSchedule 0 ++ plugInSchedule 1 ++
  [.forcedClosed 0, .requestPlugout 1 false, .dispatch, .handle 1 false none] ++
  detachSchedule (.plugoutHardware none) 0 false ++
  [.readPort .sendComplete 0, .send .sendComplete 0 0 true, .dispatch, .handle 0 true (some 0),
   .detachNext (some 0) 1 true, .detachNext (some 0) 2 true,
   .detach (.detachAllDevices (some 0) 2 true) 1 .setFlag false false]

-- A send of device 0 fails and its port is read; a user plugs the device out and device 1 takes the port before
-- the message is sent.
def takenPortSchedule : List Action :=
  plugInSchedule 0 ++
  [.forcedClosed 0, .readPort .sendComplete 0, .requestPlugout 1 false, .dispatch, .handle 1 false none] ++
  detachSchedule (.plugoutHardware none) 0 false ++ plugInSchedule 1 ++
  [.send .sendComplete 0 1 true, .dispatch, .handle 1 true (some 0),
   .detach (.plugoutHardware (some 0)) 1 .setFlag true false]

theorem init_emptyVhci : machine.init emptyVhci := ⟨2, 0, rfl⟩

theorem plugout_other_device :
    (∃ st, machine.Reachable (fun _ _ => True) st ∧ .detachedAll (some 0) ∈ st.effects ∧
      .detached (some 0) 1 ∈ st.effects) ∧
    ∃ st, machine.Reachable (fun _ _ => True) st ∧ .detachedAll (some 0) ∉ st.effects ∧
      .detached (some 0) 1 ∈ st.effects := by
  have hinit : machine.Reachable (fun _ _ => True) emptyVhci := .init init_emptyVhci
  constructor
  · have hrun : (machine.run (fun _ _ => True) emptyVhci unpluggedSchedule).any
        (fun st => decide (.detachedAll (some 0) ∈ st.effects ∧ .detached (some 0) 1 ∈ st.effects)) = true := by
      decide +kernel
    obtain ⟨st, hst, heffects⟩ := hinit.exists_run hrun
    exact ⟨st, hst, of_decide_eq_true heffects⟩
  · have hrun : (machine.run (fun _ _ => True) emptyVhci takenPortSchedule).any
        (fun st => decide (.detachedAll (some 0) ∉ st.effects ∧ .detached (some 0) 1 ∈ st.effects)) = true := by
      decide +kernel
    obtain ⟨st, hst, heffects⟩ := hinit.exists_run hrun
    exact ⟨st, hst, of_decide_eq_true heffects⟩

-- The port is free again when device 1 comes, and no message names it any more.
def keptPortSchedule : List Action :=
  plugInSchedule 0 ++
  [.forcedClosed 0, .readPort .sendComplete 0, .send .sendComplete 0 1 true, .dispatch, .handle 1 true (some 0)] ++
  detachSchedule (.plugoutHardware (some 0)) 0 true ++ plugInSchedule 1

theorem plugout_own_device_kept :
    ∃ st, machine.Reachable KeepsPort st ∧ (st.vhci.device 1).port = 1 ∧ .detached (some 0) 0 ∈ st.effects ∧
      ∀ effect ∈ st.effects, effect.own = true := by
  have hinit : machine.Reachable KeepsPort emptyVhci := .init init_emptyVhci
  have hrun : (machine.run KeepsPort emptyVhci keptPortSchedule).any
      (fun st => decide ((st.vhci.device 1).port = 1 ∧ .detached (some 0) 0 ∈ st.effects)) = true := by
    decide +kernel
  obtain ⟨st, hst, hkept⟩ := hinit.exists_run hrun
  obtain ⟨hport, heffect⟩ := of_decide_eq_true hkept
  exact ⟨st, hst, hport, heffect, plugout_own_device st hst⟩

end Usbip.Vhci

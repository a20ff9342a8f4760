import Usbip.Attach.Theorems

namespace Usbip.Attach

open Usbip.Library.Runs

def State.deletions (s : State) : Nat := s.ext.elim 0 DeviceCtxExt.deletions

-- The handles to the memory: that of the work item and that of the device.
def State.owners (s : State) : Nat := (s.workitem.any (·.ctxExt)).toNat + (s.device.any (·.ctxExt)).toNat

-- Who owns the memory and how often it has been deleted. Of a device: does it own, is it deleted.
structure Ledger where
  deletions : Option Nat
  workitem : Bool
  device : Option (Bool × Bool)

def State.ledger (s : State) : Ledger where
  deletions := s.ext.map DeviceCtxExt.deletions
  workitem := s.workitem.any (·.ctxExt)
  device := s.device.map fun dev => (dev.ctxExt, dev.deleted)

-- Memory that is there has one owner until it is deleted. A device that is not deleted is one.
structure Ledger.Balanced (l : Ledger) : Prop where
  count : l.deletions.getD 0 + (l.workitem.toNat + (l.device.any Prod.fst).toNat) = l.deletions.isSome.toNat
  live : ∀ dev ∈ l.device, dev.2 = !dev.1

-- `complete` is going to read the memory after its answer.
def State.reading (s : State) : Bool :=
  match s.request.control with
  | .answered _ => !s.workitem.any (·.oneAttempt)
  | .reattaching => true
  | _ => false

-- The device is deleted by a call of `detach` as a whole, or by one step of it.
def DetachEnv.deletesDevice (env : DetachEnv) : Bool :=
  env.plugOutAndDelete.isNone && (env.deleted || !env.ep0Added)

def Detach.deletesDevice (env : DetachEnv) (task : Detach) : Bool :=
  match task.stage with
  | .unplugging => env.plugOutAndDelete.isNone && env.deleted
  | .forceDelete => !env.ep0Added
  | _ => false

-- `plugin` fails, and the device is deleted on that path of `connected`.
def CompleteEnv.deletesDevice (env : CompleteEnv) : Bool :=
  env.port == 0 || env.usbDevicePlugIn.isSome || (env.recvThreadStart.isSome && env.detach.deletesDevice)

-- `init_device` is successful, and the device is not deleted while `complete` is going to read the memory.
def KeepsExt (s : State) : Action → Prop
  | .complete env => env.initDevice.isNone ∧ (env.deletesDevice = true → s.workitem.any (·.oneAttempt) = true)
  | .detachStep env => s.isLive ∧ s.detaching.any (Detach.deletesDevice env) → s.reading = false
  | .deleteDevice _ => s.reading = false
  | _ => True

instance : ∀ (s : State) (a : Action), Decidable (KeepsExt s a)
  | s, .complete env => inferInstanceAs (Decidable
      (env.initDevice.isNone ∧ (env.deletesDevice = true → s.workitem.any (·.oneAttempt) = true)))
  | s, .detachStep env => inferInstanceAs (Decidable
      (s.isLive ∧ s.detaching.any (Detach.deletesDevice env) → s.reading = false))
  | s, .deleteDevice _ => inferInstanceAs (Decidable (s.reading = false))
  | _, .dispatch .. | _, .irpComplete .. | _, .afterAnswer _ | _, .startAttachAttempts | _, .deleteWorkitem _
  | _, .queryRemove | _, .detach .. => isTrue trivial

section Detach

variable (env : DetachEnv) (s : State)

@[simp] theorem ledger_mapExt {f : DeviceCtxExt → DeviceCtxExt} (hf : ∀ ext, (f ext).deletions = ext.deletions) :
    (s.mapExt f).ledger = s.ledger := by
  simp [State.ledger, State.mapExt, Function.comp_def, hf]

@[simp] theorem ledger_mapDevice {f : DeviceCtx → DeviceCtx}
    (hf : ∀ dev, (f dev).ctxExt = dev.ctxExt ∧ (f dev).deleted = dev.deleted) :
    (s.mapDevice f).ledger = s.ledger := by
  simp [State.ledger, State.mapDevice, Function.comp_def, hf]

@[simp] theorem ledger_deviceStateChanged (state : DeviceState) : (s.deviceStateChanged state).ledger = s.ledger := rfl

theorem settled_deletions (ext : DeviceCtxExt) : ext.settled.deletions = ext.deletions := by
  unfold DeviceCtxExt.settled
  split <;> rfl

@[simp] theorem ledger_closeSocket (closing : Outcome) : (closeSocket closing s).2.ledger = s.ledger := by
  unfold closeSocket
  split
  · exact ledger_mapExt s fun _ => rfl
  · rfl

@[simp] theorem ledger_disconnect : (disconnect env s).ledger = s.ledger := by
  have hflag : (s.mapDevice fun dev => { dev with unplugged := true }).ledger = s.ledger :=
    ledger_mapDevice s fun _ => ⟨rfl, rfl⟩
  unfold disconnect
  dsimp only
  split
  · rw [ledger_deviceStateChanged, ledger_closeSocket, hflag]
  · rw [ledger_closeSocket, hflag]

@[simp] theorem ledger_reclaim : (reclaim s).ledger = s.ledger := by
  unfold reclaim
  refine (ledger_mapExt _ ?_).trans (ledger_mapDevice s ?_)
  · exact fun _ => rfl
  · exact fun _ => ⟨rfl, rfl⟩

@[simp] theorem ledger_release : s.release.ledger = s.ledger :=
  ledger_mapExt s fun _ => settled_deletions _

@[simp] theorem ledger_detachOnly : (detachOnly env s).ledger = s.ledger := by
  unfold detachOnly
  split
  · rfl
  · rw [ledger_release, ledger_reclaim, ledger_disconnect]

-- The owner deletes the memory and gives up its handle.
def Ledger.deleted (l : Ledger) : Ledger :=
  { l with deletions := l.deletions.map (· + 1), device := l.device.map fun _ => (false, true) }

theorem Ledger.Balanced.deleted {l : Ledger} (h : l.Balanced) (howns : l.device.any Prod.fst = true) :
    l.deleted.Balanced := by
  obtain ⟨hcount, hlive⟩ := h
  rw [howns] at hcount
  refine ⟨?_, fun dev hdev => ?_⟩
  · cases hdel : l.deletions with
    | none => simp [hdel] at hcount
    | some n =>
        rw [hdel] at hcount
        simp only [Option.getD_some, Option.isSome_some, Bool.toNat_true] at hcount
        cases hdev : l.device <;> simp [Ledger.deleted, hdel, hdev] <;> omega
  · obtain ⟨_, _, rfl⟩ := Option.map_eq_some_iff.mp hdev
    rfl

theorem owns_eq : s.device.any (·.ctxExt) = s.ledger.device.any Prod.fst := by
  cases hdev : s.device <;> simp [State.ledger, hdev]

theorem isLive_eq (h : s.ledger.Balanced) : s.isLive = s.device.any (·.ctxExt) := by
  cases hdev : s.device with
  | none => simp [State.isLive, hdev]
  | some dev =>
      have := h.live (dev.ctxExt, dev.deleted) (by simp [State.ledger, hdev])
      simp_all [State.isLive]

theorem ledger_deleteDevice (h : s.ledger.Balanced) :
    (deleteDevice env s).ledger = if s.isLive then s.ledger.deleted else s.ledger := by
  unfold deleteDevice
  split
  case isFalse => rfl
  case isTrue hlive =>
    have howns : (detachOnly env s).device.any (·.ctxExt) = true := by
      rw [owns_eq, ledger_detachOnly, ← owns_eq, ← isLive_eq s h]
      exact hlive
    unfold deviceCleanup
    dsimp only
    rw [if_pos howns, ← ledger_detachOnly env s]
    simp [State.ledger, Ledger.deleted, State.mapExt, State.mapDevice, Function.comp_def, DeviceCtxExt.delete,
      settled_deletions]

-- A device that is not deleted owns the memory and deletes it.
theorem deleteDevice_balanced (h : s.ledger.Balanced) : (deleteDevice env s).ledger.Balanced := by
  rw [ledger_deleteDevice env s h]
  split
  case isFalse => exact h
  case isTrue hlive =>
    refine h.deleted ?_
    rw [← owns_eq, ← isLive_eq s h]
    exact hlive

theorem plugoutAndDelete_balanced (h : s.ledger.Balanced) : (plugoutAndDelete env s).ledger.Balanced := by
  unfold plugoutAndDelete
  dsimp only
  split
  · exact h
  · have hdeleted : (State.deviceStateChanged .unplugged (if env.deleted then
        deleteDevice env (s.deviceStateChanged .unplugging) else s.deviceStateChanged .unplugging)).ledger.Balanced := by
      split
      · exact deleteDevice_balanced env _ h
      · exact h
    split
    · exact hdeleted
    · exact deleteDevice_balanced env _ hdeleted

theorem detach_balanced (plugout : Bool) (h : s.ledger.Balanced) : (detach env plugout s).ledger.Balanced := by
  have hreclaimed : (reclaim (disconnect env s)).ledger.Balanced := by
    rw [ledger_reclaim, ledger_disconnect]
    exact h
  unfold detach
  dsimp only
  split
  · exact h
  · rw [ledger_release]
    split
    · exact plugoutAndDelete_balanced env _ hreclaimed
    · exact hreclaimed

theorem detachStage_balanced (task : Detach) (h : s.ledger.Balanced) :
    (detachStage env task s).1.ledger.Balanced := by
  unfold detachStage
  split
  · rw [ledger_reclaim]
    exact h
  · split <;> exact h
  · split
    · exact h
    · dsimp only
      split
      · exact deleteDevice_balanced env s h
      · exact h
  · exact h
  · dsimp only
    split
    · exact h
    · exact deleteDevice_balanced env s h
  · rw [ledger_release]
    exact h

variable {env s}

theorem ledger_detach_kept {plugout : Bool} (hkeep : env.deletesDevice = false) :
    (detach env plugout s).ledger = s.ledger := by
  unfold detach
  dsimp only
  split
  · rfl
  · rw [ledger_release]
    split
    · unfold plugoutAndDelete
      dsimp only
      split
      case h_1 => rw [ledger_deviceStateChanged, ledger_reclaim, ledger_disconnect]
      case h_2 hplug =>
        obtain ⟨hdeleted, hep0⟩ : env.deleted = false ∧ env.ep0Added = true := by
          simpa [DetachEnv.deletesDevice, hplug] using hkeep
        rw [if_pos hep0, hdeleted, if_neg Bool.false_ne_true, ledger_deviceStateChanged, ledger_deviceStateChanged,
          ledger_reclaim, ledger_disconnect]
    · rw [ledger_reclaim, ledger_disconnect]

theorem ledger_detachStage_kept {task : Detach} (hbal : s.ledger.Balanced)
    (hkeep : s.isLive = true → task.deletesDevice env = false) : (detachStage env task s).1.ledger = s.ledger := by
  have hdelete : (task.deletesDevice env = true → (deleteDevice env s).ledger = s.ledger) := by
    intro hdel
    rw [ledger_deleteDevice env s hbal, if_neg]
    intro hlive
    rw [hkeep hlive] at hdel
    cases hdel
  unfold detachStage
  unfold Detach.deletesDevice at hdelete
  cases hstage : task.stage with
  | closed => exact ledger_reclaim s
  | reclaimed =>
      dsimp only
      split <;> rfl
  | unplugging =>
      rw [hstage] at hdelete
      cases hplug : env.plugOutAndDelete with
      | some err => rfl
      | none =>
          dsimp only
          split
          case isTrue hdel => exact hdelete (by simp [hplug, hdel])
          case isFalse => rfl
  | unplugged => rfl
  | forceDelete =>
      rw [hstage] at hdelete
      dsimp only
      split
      case isTrue => rfl
      case isFalse hep0 => exact hdelete (by simpa using hep0)
  | done => exact ledger_release s

end Detach

theorem deletions_eq (s : State) : s.deletions = s.ledger.deletions.getD 0 := by
  cases hext : s.ext <;> simp [State.deletions, State.ledger, hext]

theorem deletions_congr {s t : State} (h : t.ledger = s.ledger) : t.deletions = s.deletions := by
  rw [deletions_eq, deletions_eq, h]

theorem deletions_zero {s : State} (h : s.ledger.Balanced) (howns : s.workitem.any (·.ctxExt) = true) :
    s.deletions = 0 := by
  have hcount := h.count
  have hwork : s.ledger.workitem = true := howns
  rw [deletions_eq]
  cases hdel : s.ledger.deletions with
  | none => rfl
  | some n =>
      rw [hdel, hwork] at hcount
      simp only [Option.getD_some, Option.isSome_some, Bool.toNat_true] at hcount ⊢
      omega

-- Before the request is answered the work item owns the memory.
structure OwnerInv (s : State) : Prop where
  balanced : s.ledger.Balanced
  fresh : s.request.control = .dispatched → ∃ removing, s = { removing := removing }
  early : s.request.control = .armed ∨ (∃ st, s.request.control = .queued st) →
    s.workitem.any (·.ctxExt) = true
  finished : s.request.control = .finished → s.workitem = none
  readable : s.reading = true → s.deletions = 0
  unused : s.usedAfterDelete = false

section Complete

variable {s : State}

theorem handedOver_balanced (h : s.ledger.Balanced) (howns : s.workitem.any (·.ctxExt) = true) (port : Int) :
    (s.handedOver port).ledger.Balanced := by
  have hcount := h.count
  have hwork : s.ledger.workitem = true := howns
  have hgiven : (s.handedOver port).ledger = { s.ledger with workitem := false, device := some (true, false) } := by
    cases hctx : s.workitem <;>
      simp [State.ledger, State.handedOver, State.mapWorkitem, State.deviceStateChanged, hctx]
  rw [hgiven]
  refine ⟨?_, fun dev hdev => ?_⟩
  · rw [hwork] at hcount
    simp only [Bool.toNat_true, Bool.toNat_false, Option.any_some] at hcount ⊢
    cases hdel : s.ledger.deletions <;> simp [hdel] at hcount ⊢
    omega
  · cases hdev
    rfl

-- The request has just been answered.
theorem OwnerInv.answer (hbal : s.ledger.Balanced) (hread : s.workitem.any (·.oneAttempt) = false → s.deletions = 0)
    (hunused : s.usedAfterDelete = false) (r : NTSTATUS) : OwnerInv (s.answer r) where
  balanced := hbal
  fresh h := by cases h
  early h := by
    obtain h | ⟨st, h⟩ := h <;> cases h
  finished h := by cases h
  readable h := hread (by simpa [State.reading, State.answer] using h)
  unused := hunused

theorem Connected.balanced {env : CompleteEnv} {t : State} (h : Connected env s t) (hinit : env.initDevice.isNone)
    (hbal : s.ledger.Balanced) (howns : s.workitem.any (·.ctxExt) = true) : t.ledger.Balanced := by
  cases h with
  | imported => exact hbal
  | created hfail =>
      rw [Option.isNone_iff_eq_none.mp hinit] at hfail
      exact absurd rfl hfail
  | refused => exact deleteDevice_balanced _ _ (detach_balanced _ _ _ (handedOver_balanced hbal howns _))
  | started => exact detach_balanced _ _ _ (handedOver_balanced hbal howns _)

-- The memory is still there if the attach goes on to read it.
theorem Connected.readable {env : CompleteEnv} {t : State} (h : Connected env s t)
    (hkeep : env.deletesDevice = true → s.workitem.any (·.oneAttempt) = true) (hbal : s.ledger.Balanced)
    (howns : s.workitem.any (·.ctxExt) = true) (honce : s.workitem.any (·.oneAttempt) = false) :
    t.deletions = 0 := by
  have hdel : env.deletesDevice = false := by
    by_contra h
    rw [hkeep (by simpa using h)] at honce
    cases honce
  simp only [CompleteEnv.deletesDevice, Bool.or_eq_false_iff, beq_eq_false_iff_ne] at hdel
  obtain ⟨⟨hport, hplug⟩, hthread⟩ := hdel
  have hzero := deletions_zero hbal howns
  cases h with
  | imported => exact hzero
  | created => exact hzero
  | refused port hwhy =>
      obtain h | h := hwhy
      · exact absurd h hport
      · rw [Option.isSome_eq_false_iff, Option.isNone_iff_eq_none] at hplug
        exact absurd hplug h
  | started h =>
      have hkept : env.detach.deletesDevice = false := by
        obtain ⟨e, he⟩ := Option.ne_none_iff_exists'.mp h
        simpa [he] using hthread
      exact (deletions_congr (ledger_detach_kept hkept)).trans hzero

theorem handedOver_once (port : Int) :
    (s.handedOver port).workitem.any (·.oneAttempt) = s.workitem.any (·.oneAttempt) := by
  cases hctx : s.workitem <;> simp [State.handedOver, State.mapWorkitem, State.deviceStateChanged, hctx]

theorem Connected.rest {env : CompleteEnv} {t : State} (h : Connected env s t) :
    t.workitem.any (·.oneAttempt) = s.workitem.any (·.oneAttempt) ∧ t.usedAfterDelete = s.usedAfterDelete := by
  cases h with
  | imported | created => exact ⟨rfl, rfl⟩
  | refused port =>
      have h := (detach_deviceOnly env.detach (s.handedOver port) false).trans (deleteDevice_deviceOnly env.detach _)
      exact ⟨by rw [h.workitem, handedOver_once], h.used⟩
  | started =>
      have h := detach_deviceOnly env.detach (s.handedOver env.port) true
      exact ⟨by rw [h.workitem, handedOver_once], h.used⟩

end Complete

section Step

variable {s t : State}

theorem OwnerInv.complete {env : CompleteEnv} {st : Outcome} (hi : OwnerInv s)
    (hok : KeepsExt s (.complete env)) (hc : s.request.control = .queued st) : OwnerInv (complete env st s) := by
  have howns := hi.early (.inr ⟨st, hc⟩)
  have hzero := deletions_zero hi.balanced howns
  generalize hd : Attach.complete env st s = t
  have hspec := complete_spec env st s
  rw [hd] at hspec
  cases hspec with
  | failed r hf =>
      rename_i f
      have hledger := ledger_mapExt s fun ext => (hf ext).1
      exact .answer (s := s.mapExt f) (by rw [hledger]; exact hi.balanced)
        (fun _ => (deletions_congr hledger).trans hzero) hi.unused r
  | connecting hnext =>
      have hledger : (s.mapExt fun ext => { ext with sock := .opened }).ledger = s.ledger :=
        ledger_mapExt s fun _ => rfl
      refine ⟨?_, fun h => (by cases h), fun _ => howns, fun h => (by cases h), fun h => (by cases h), hi.unused⟩
      have hbal := hi.balanced
      rw [← hledger] at hbal
      exact hbal
  | refused r hai hu =>
      obtain ⟨honce, hused⟩ := hu.rest
      refine .answer (hu.balanced hok.1 hi.balanced howns) (fun h => ?_) (hused.trans hi.unused) r
      exact hu.readable hok.2 hi.balanced howns (honce.symm.trans h)
  | connected hai =>
      have hbal := handedOver_balanced hi.balanced howns env.port
      exact .answer (s := (s.handedOver env.port).deviceStateChanged .plugged) hbal (fun _ => hzero) hi.unused _

theorem OwnerInv.dispatch {env : PluginEnv} {once : Bool} (hi : OwnerInv s)
    (hc : s.request.control = .dispatched) : OwnerInv (dispatch env once s) := by
  obtain ⟨removing, rfl⟩ := hi.fresh hc
  generalize hd : Attach.dispatch env once { removing := removing } = t
  have hspec := dispatch_spec env once (s := { removing := removing }) rfl rfl
  rw [hd] at hspec
  cases hspec with
  | refused r =>
      refine ⟨⟨rfl, fun _ h => (by cases h)⟩, fun h => (by cases h), ?_, fun _ => rfl, fun h => (by cases h), rfl⟩
      rintro (h | ⟨st, h⟩) <;> cases h
  | undone r =>
      refine ⟨⟨rfl, fun _ h => (by cases h)⟩, fun h => (by cases h), ?_, fun _ => rfl, fun h => (by cases h), rfl⟩
      rintro (h | ⟨st, h⟩) <;> cases h
  | started =>
      refine ⟨⟨rfl, fun _ h => (by cases h)⟩, fun h => ?_, fun _ => rfl, fun h => ?_, fun h => ?_, rfl⟩
      all_goals
        dsimp only at h
        split at h <;> cases h

-- What happens to the device leaves the request and the work item alone.
theorem OwnerInv.device (hi : OwnerInv s) (hnew : s.request.control ≠ .dispatched) {d : Option Detach}
    (honly : DeviceOnly s t) (hbal : t.ledger.Balanced) (hread : s.reading = true → t.deletions = 0) :
    OwnerInv { t with detaching := d } where
  balanced := hbal
  fresh h := absurd (honly.request ▸ h) hnew
  early h := by
    have hearly := hi.early (honly.request ▸ h)
    rwa [← honly.workitem] at hearly
  finished h := honly.workitem.trans (hi.finished (honly.request ▸ h))
  readable h := by
    refine hread ?_
    unfold State.reading at h ⊢
    rwa [honly.request, honly.workitem] at h
  unused := honly.used.trans hi.unused

theorem OwnerInv.not_dispatched (hi : OwnerInv s) (h : s.request.completed ≠ [] ∨ s.detaching ≠ none) :
    s.request.control ≠ .dispatched := by
  intro hc
  obtain ⟨removing, rfl⟩ := hi.fresh hc
  exact h.elim (absurd rfl) (absurd rfl)

theorem useExt_unused (h : s.deletions = 0) : s.useExt.usedAfterDelete = s.usedAfterDelete := by
  unfold State.deletions at h
  unfold State.useExt
  cases hext : s.ext with
  | none => simp
  | some ext =>
      rw [hext] at h
      have hzero : ext.deletions = 0 := h
      simp [hzero]

theorem OwnerInv.afterAnswer {canReattach : Bool} {st : NTSTATUS} (hi : OwnerInv s)
    (hc : s.request.control = .answered st) : OwnerInv (afterAnswer canReattach st s) := by
  unfold Attach.afterAnswer
  split
  case isTrue =>
    refine ⟨hi.balanced, fun h => (by cases h), ?_, fun h => (by cases h), fun h => (by cases h), hi.unused⟩
    rintro (h | ⟨st, h⟩) <;> cases h
  case isFalse honce =>
    have hread : s.reading = true := by
      simpa [State.reading, hc] using honce
    have hzero := hi.readable hread
    dsimp only
    split
    · refine ⟨hi.balanced, fun h => (by cases h), ?_, fun h => (by cases h), fun _ => hzero, ?_⟩
      · rintro (h | ⟨st, h⟩) <;> cases h
      · exact (useExt_unused hzero).trans hi.unused
    · refine ⟨hi.balanced, fun h => (by cases h), ?_, fun h => (by cases h), fun h => (by cases h), ?_⟩
      · rintro (h | ⟨st, h⟩) <;> cases h
      · exact (useExt_unused hzero).trans hi.unused

-- The work item that still owns the memory deletes it.
theorem deleteWorkitem_balanced {closing : Outcome} (h : s.ledger.Balanced) :
    (deleteWorkitem closing s).ledger.Balanced := by
  have hcount := h.count
  unfold deleteWorkitem workitemCleanup
  dsimp only
  split
  case isTrue howns =>
    have hwork : s.ledger.workitem = true := howns
    have hledger : State.ledger { ((((closeSocket closing s).2).deviceStateChanged .disconnected).mapExt
        DeviceCtxExt.delete).mapWorkitem (fun ctx => { ctx with ctxExt := false }) with workitem := none } =
        { s.ledger with deletions := s.ledger.deletions.map (· + 1), workitem := false } := by
      rw [← ledger_closeSocket s closing]
      simp [State.ledger, State.mapExt, State.mapWorkitem, State.deviceStateChanged, Function.comp_def,
        DeviceCtxExt.delete, settled_deletions]
    rw [hledger]
    refine ⟨?_, h.live⟩
    rw [hwork] at hcount
    cases hdel : s.ledger.deletions <;> simp [hdel] at hcount ⊢
    omega
  case isFalse howns =>
    have hwork : s.ledger.workitem = false := Bool.eq_false_iff.mpr howns
    have hledger : State.ledger { s with workitem := none } = s.ledger :=
      congrArg (fun w => { s.ledger with workitem := w }) hwork.symm
    rw [hledger]
    exact h

theorem OwnerInv.step {a : Action} (hi : OwnerInv s) (hok : KeepsExt s a) (hs : step s a = some t) :
    OwnerInv t := by
  cases step_cases hs with
  | dispatch hc => exact hi.dispatch hc
  | @irpComplete st first rest hc =>
      have howns := hi.early (.inl hc)
      unfold irpComplete
      dsimp only
      split
      · have hledger : (s.mapWorkitem fun ctx => { ctx with addrinfo := first :: rest }).ledger = s.ledger := by
          cases hctx : s.workitem <;> simp [State.ledger, State.mapWorkitem, hctx]
        have hbal := hi.balanced
        rw [← hledger] at hbal
        have hwork : (s.mapWorkitem fun ctx => { ctx with addrinfo := first :: rest }).ledger.workitem = true := by
          rw [hledger]
          exact howns
        exact ⟨hbal, fun h => (by cases h), fun _ => hwork, fun h => (by cases h), fun h => (by cases h), hi.unused⟩
      · exact ⟨hi.balanced, fun h => (by cases h), fun _ => howns, fun h => (by cases h), fun h => (by cases h),
          hi.unused⟩
  | complete hc => exact hi.complete hok hc
  | afterAnswer hc => exact hi.afterAnswer hc
  | startAttachAttempts hc =>
      have hread : s.reading = true := by
        rw [State.reading, hc]
      have hunused := useExt_unused (hi.readable hread)
      refine ⟨hi.balanced, fun h => (by cases h), ?_, fun h => (by cases h), fun h => (by cases h),
        hunused.trans hi.unused⟩
      rintro (h | ⟨st, h⟩) <;> cases h
  | @deleteWorkitem closing hc =>
      have hused : (workitemCleanup closing s).usedAfterDelete = s.usedAfterDelete := by
        unfold workitemCleanup
        split
        · exact (closeSocket_deviceOnly s closing).used
        · rfl
      refine ⟨deleteWorkitem_balanced hi.balanced, fun h => (by cases h), ?_, fun _ => rfl, fun h => (by cases h),
        hused.trans hi.unused⟩
      rintro (h | ⟨st, h⟩) <;> cases h
  | queryRemove =>
      exact ⟨hi.balanced, fun h => (by obtain ⟨_, rfl⟩ := hi.fresh h; exact ⟨true, rfl⟩), hi.early, hi.finished,
        hi.readable, hi.unused⟩
  | unplugged => exact hi
  | @detach env plugout hcompleted =>
      have hledger := ledger_disconnect env s
      exact hi.device (hi.not_dispatched (.inl hcompleted)) (disconnect_deviceOnly env s)
        (by rw [hledger]; exact hi.balanced) fun hread => (deletions_congr hledger).trans (hi.readable hread)
  | @detachStep env task htask =>
      have hnew := hi.not_dispatched (.inr (by rw [htask]; exact Option.some_ne_none task))
      refine hi.device hnew (detachStage_deviceOnly env s task) (detachStage_balanced env s task hi.balanced)
        fun hread => ?_
      refine (deletions_congr (ledger_detachStage_kept hi.balanced fun hlive => ?_)).trans (hi.readable hread)
      by_contra hdel
      rw [hok ⟨hlive, by rw [htask]; simpa using hdel⟩] at hread
      cases hread
  | @deleteDevice env hcompleted =>
      have hnew := hi.not_dispatched (.inl hcompleted)
      refine hi.device hnew (deleteDevice_deviceOnly env s) (deleteDevice_balanced env s hi.balanced) fun hread => ?_
      rw [hok] at hread
      cases hread

end Step

theorem reachable_owners {s : State} (h : machine.Reachable KeepsExt s) : OwnerInv s := by
  refine h.invariant (fun s hs => ?_) fun _ _ _ hi hok hs => hi.step hok hs
  obtain ⟨removing, rfl⟩ := hs
  refine ⟨⟨rfl, fun _ h => (by cases h)⟩, fun _ => ⟨removing, rfl⟩, ?_, fun h => (by cases h), fun _ => rfl, rfl⟩
  rintro (h | ⟨st, h⟩) <;> cases h

theorem Ledger.Balanced.owners {s : State} (h : s.ledger.Balanced) {ext : DeviceCtxExt} (hext : s.ext = some ext) :
    ext.deletions + s.owners = 1 := by
  have hcount := h.count
  rw [← owns_eq] at hcount
  simpa [State.ledger, State.owners, hext] using hcount

-- Until the memory is deleted, one of the work item and the device owns it; then nobody refers to it, it is not
-- deleted again and `complete` does not read it. It is deleted when the work item and the device are gone.
theorem ext_single_owner {s : State} (h : machine.Reachable KeepsExt s) :
    (∀ ext, s.ext = some ext → ext.deletions + s.owners = 1) ∧
      (s.ext = none → s.owners = 0) ∧
      s.usedAfterDelete = false ∧
      (s.request.control = .finished → s.isLive = false → ∀ ext, s.ext = some ext → ext.deletions = 1) := by
  have hi := reachable_owners h
  refine ⟨fun ext => hi.balanced.owners, fun hext => ?_, hi.unused, fun hc hlive ext hext => ?_⟩
  · have hcount := hi.balanced.count
    rw [← owns_eq] at hcount
    simpa [State.ledger, hext, State.owners] using hcount
  · have howners := hi.balanced.owners hext
    rw [isLive_eq s hi.balanced] at hlive
    simpa [State.owners, hi.finished hc, hlive] using howners

-- The device is attached, the work item is deleted, and a user plugs the device out.
def plugoutSchedule : List Action :=
  connectSchedule false ++ [.complete {}, .afterAnswer true, .deleteWorkitem none, .detach {} true] ++
    List.replicate 6 (.detachStep {})

theorem ext_single_owner_plugout :
    ∃ s, machine.Reachable KeepsExt s ∧ s.deletions = 1 ∧
      (∀ ext, s.ext = some ext → ext.deletions + s.owners = 1) ∧
      (s.ext = none → s.owners = 0) ∧
      s.usedAfterDelete = false ∧
      (s.request.control = .finished → s.isLive = false → ∀ ext, s.ext = some ext → ext.deletions = 1) := by
  have hrun : (machine.run KeepsExt newRequest plugoutSchedule).any (fun s => s.deletions == 1) = true := by
    decide +kernel
  obtain ⟨s, hs, hdel⟩ := (newRequest_reachable _).exists_run hrun
  exact ⟨s, hs, eq_of_beq hdel, ext_single_owner hs⟩

-- All ports are occupied, and the device that could not be plugged in is deleted before `complete` reads the
-- hash. If `init_device` fails, the device still refers to the memory that the work item has deleted.
theorem ext_read_after_delete :
    (∃ s, machine.Reachable (fun _ _ => True) s ∧ s.usedAfterDelete = true) ∧
      ∃ s, machine.Reachable (fun _ _ => True) s ∧ s.deletions = 1 ∧ s.device.any (·.ctxExt) = true := by
  constructor
  · have hrun : (machine.run (fun _ _ => True) newRequest
        (connectSchedule false ++ [.complete { port := 0 }, .afterAnswer true])).any (·.usedAfterDelete) = true := by
      decide +kernel
    exact (newRequest_reachable _).exists_run hrun
  · have hrun : (machine.run (fun _ _ => True) newRequest
        (connectSchedule true ++
          [.complete { initDevice := some ⟨.STATUS_INSUFFICIENT_RESOURCES, by decide, by decide⟩ }, .afterAnswer true,
            .deleteWorkitem none])).any (fun s => s.deletions == 1 && s.device.any (·.ctxExt)) = true := by
      decide +kernel
    obtain ⟨s, hs, hboth⟩ := (newRequest_reachable _).exists_run hrun
    obtain ⟨hdel, howns⟩ := Bool.and_eq_true_iff.mp hboth
    exact ⟨s, hs, eq_of_beq hdel, howns⟩

end Usbip.Attach

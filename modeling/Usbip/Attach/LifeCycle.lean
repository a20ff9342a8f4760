import Usbip.Attach.Theorems

namespace Usbip.Attach

open Usbip.Library.Runs

-- What is told about an attach that fails before the import, one that fails later, and one that succeeds.
def lifeCycles : List (List DeviceState) :=
  [[.connecting, .disconnected, .unplugging, .unplugged],
    [.connecting, .connected, .disconnected, .unplugging, .unplugged],
    [.connecting, .connected, .plugged, .disconnected, .unplugging, .unplugged]]

-- The beginnings of life cycles that end with a given state.
def endings (state : DeviceState) : List (List DeviceState) :=
  (lifeCycles.filter (state ∈ ·)).map fun word => word.take (word.idxOf state + 1)

def DeviceState.follows : DeviceState → DeviceState → Bool
  | .connecting, .connected | .connecting, .disconnected | .connected, .plugged | .connected, .disconnected
  | .plugged, .disconnected | .disconnected, .unplugging | .unplugging, .unplugged => true
  | _, _ => false

theorem endings_next {last next : DeviceState} (hnext : last.follows next = true) {events : List DeviceState}
    (h : events ∈ endings last) : events ++ [next] ∈ endings next := by
  have hall : ∀ word ∈ endings last, word ++ [next] ∈ endings next := by
    cases last <;> cases next <;> first | (cases hnext; done) | decide
  exact hall events h

theorem connecting_ending : [DeviceState.connecting] ∈ endings .connecting := by
  decide

theorem endings_prefix {last : DeviceState} {events : List DeviceState} (h : events ∈ endings last) :
    ∃ word ∈ lifeCycles, events <+: word := by
  obtain ⟨word, hword, rfl⟩ := List.mem_map.mp h
  exact ⟨word, List.mem_of_mem_filter hword, List.take_prefix _ word⟩

theorem lifeCycles_nodup : ∀ word ∈ lifeCycles, word.Nodup := by
  decide

-- The device is not to be told about any more but for its end.
def ended : List DeviceState := [.disconnected, .unplugging, .unplugged]

theorem endings_ended {last : DeviceState} (hlast : last ∈ ended) {events : List DeviceState}
    (h : events ∈ endings last) : .disconnected ∈ events := by
  have hall : ∀ last ∈ ended, ∀ word ∈ endings last, .disconnected ∈ word := by decide
  exact hall last hlast events h

def Control.isEarly : Control → Bool
  | .dropped | .armed | .queued _ => true
  | _ => false

def Control.isLast : Control → Bool
  | .answered _ | .reattaching | .deleting => true
  | _ => false

-- The last state that has been told when `detach` is at a stage.
def DetachStage.told : DetachStage → List DeviceState
  | .closed | .reclaimed => [.disconnected]
  | .unplugging | .unplugged => [.unplugging]
  | .forceDelete => [.unplugged]
  | .done => ended

def State.opened (s : State) : Bool := s.ext.any fun ext => ext.sock = .opened

-- Nobody has deleted the memory or refers to it for a while.
def DeviceCtxExt.idle (ext : DeviceCtxExt) : Bool := decide (ext.deletions = 0 ∧ ext.references = 0)

-- Where an attach stands, with what has been told about it. `failed` and `closed`: the work item reports the
-- end, also if there is a device without a port that `init_device` has left behind.
inductive Life (s : State) : Prop
  | fresh (removing : Bool) : s = { removing := removing } → Life s
  | refused : s.request.control = .finished → s.ext = none → s.device = none → s.detaching = none →
      s.events = [] → Life s
  | waiting : s.request.control.isEarly = true → s.ext.any DeviceCtxExt.idle = true →
      s.workitem.any (·.ctxExt) = true → s.device = none → s.detaching = none →
      (s.request.ai ≠ [] → s.opened = true) → s.events ∈ endings .connecting → Life s
  | failed {last : DeviceState} : s.request.control.isLast = true → s.ext.any DeviceCtxExt.idle = true →
      s.workitem.any (·.ctxExt) = true → s.device.all (fun dev => dev.port = 0) = true → s.detaching = none →
      last.follows .disconnected = true → s.events ∈ endings last → Life s
  | closed : s.request.control = .finished → s.workitem = none → s.opened = false →
      s.device.all (fun dev => dev.port = 0) = true → s.detaching = none → s.events ∈ endings .disconnected → Life s
  | attached : (s.request.control.isLast = true ∨ s.request.control = .finished) →
      s.ext.any DeviceCtxExt.idle = true → s.workitem.any (·.ctxExt) = false → s.isUnplugged = false → s.isLive = true →
      s.detaching = none → s.opened = true → s.events ∈ endings .plugged → Life s
  | detached {last : DeviceState} : (s.request.control.isLast = true ∨ s.request.control = .finished) →
      s.workitem.any (·.ctxExt) = false → s.isUnplugged = true →
      last ∈ s.detaching.elim ended (·.stage.told) → s.events ∈ endings last → Life s

section Detach

variable (env : DetachEnv) {s : State}

theorem isUnplugged_mapDevice {f : DeviceCtx → DeviceCtx} (hf : ∀ dev, (f dev).unplugged = dev.unplugged) :
    (s.mapDevice f).isUnplugged = s.isUnplugged := by
  simp [State.isUnplugged, State.mapDevice, Option.any_map, hf]

theorem disconnect_isUnplugged (hdev : s.device.isSome) : (disconnect env s).isUnplugged = true := by
  obtain ⟨dev, hdev⟩ := Option.isSome_iff_exists.mp hdev
  have hflag : (s.mapDevice fun dev => { dev with unplugged := true }).isUnplugged = true := by
    simp [State.isUnplugged, State.mapDevice, hdev]
  unfold disconnect closeSocket
  dsimp only
  split
  · split <;> exact hflag
  · exact hflag

theorem closeSocket_opened {closing : Outcome} (hopened : s.opened = true) :
    closeSocket closing s = (closing.isNone, s.mapExt fun ext => { ext with sock := .closed }) :=
  if_pos hopened

theorem closeSocket_not_opened {closing : Outcome} (hopened : s.opened = false) :
    closeSocket closing s = (false, s) :=
  if_neg (Bool.eq_false_iff.mp hopened)

theorem disconnect_events (hopened : s.opened = true) (hclose : env.closing = none) :
    (disconnect env s).events = s.events ++ [.disconnected] := by
  unfold disconnect
  rw [closeSocket_opened (s := s.mapDevice _) hopened, hclose]
  rfl

theorem disconnect_not_opened (hopened : s.opened = false) :
    disconnect env s = s.mapDevice fun dev => { dev with unplugged := true } := by
  unfold disconnect
  rw [closeSocket_not_opened (s := s.mapDevice _) hopened]
  rfl

theorem reclaim_isUnplugged : (reclaim s).isUnplugged = s.isUnplugged :=
  isUnplugged_mapDevice (f := fun dev => { dev with port := 0 }) fun _ => rfl

theorem deviceCleanup_unplugged (h : s.isUnplugged = true) :
    (deviceCleanup env s).events = s.events ∧ (deviceCleanup env s).isUnplugged = true := by
  have honly : detachOnly env s = s := if_pos h
  unfold deviceCleanup
  rw [honly]
  dsimp only
  split
  · refine ⟨rfl, (isUnplugged_mapDevice ?_).trans h⟩
    exact fun _ => rfl
  · exact ⟨rfl, h⟩

-- Nothing is told about the deletion of a device that is unplugged.
theorem deleteDevice_unplugged (h : s.isUnplugged = true) :
    (deleteDevice env s).events = s.events ∧ (deleteDevice env s).isUnplugged = true := by
  unfold deleteDevice
  split
  · obtain ⟨hevents, hunplugged⟩ := deviceCleanup_unplugged env h
    refine ⟨hevents, (isUnplugged_mapDevice ?_).trans hunplugged⟩
    exact fun _ => rfl
  · exact ⟨rfl, h⟩

theorem plugoutAndDelete_told (h : s.isUnplugged = true) (hevents : s.events ∈ endings .disconnected) :
    (plugoutAndDelete env s).isUnplugged = true ∧ ∃ last ∈ ended, (plugoutAndDelete env s).events ∈ endings last := by
  have hunplugging : (s.deviceStateChanged .unplugging).events ∈ endings .unplugging := endings_next rfl hevents
  unfold plugoutAndDelete
  dsimp only
  split
  · exact ⟨h, .unplugging, by decide, hunplugging⟩
  · have hdeleted : ∀ b : Bool, (if b then deleteDevice env (s.deviceStateChanged .unplugging)
        else s.deviceStateChanged .unplugging).isUnplugged = true ∧
        (if b then deleteDevice env (s.deviceStateChanged .unplugging)
          else s.deviceStateChanged .unplugging).events ∈ endings .unplugging := by
      intro b
      cases b with
      | false => exact ⟨h, hunplugging⟩
      | true =>
          obtain ⟨hsame, hflag⟩ := deleteDevice_unplugged env (s := s.deviceStateChanged .unplugging) h
          exact ⟨hflag, hsame ▸ hunplugging⟩
    obtain ⟨hflag, hevents⟩ := hdeleted env.deleted
    generalize (if env.deleted then deleteDevice env (s.deviceStateChanged .unplugging)
      else s.deviceStateChanged .unplugging) = t at hflag hevents ⊢
    have hunplugged : (t.deviceStateChanged .unplugged).events ∈ endings .unplugged := endings_next rfl hevents
    split
    · exact ⟨hflag, .unplugged, by decide, hunplugged⟩
    · obtain ⟨hsame, hflag⟩ := deleteDevice_unplugged env (s := t.deviceStateChanged .unplugged) hflag
      exact ⟨hflag, .unplugged, by decide, hsame ▸ hunplugged⟩

-- A device that `connected` could not plug in, and one that is detached later: its end is told in one go.
theorem detach_told (plugout : Bool) {last : DeviceState} (hflag : s.isUnplugged = false) (hdev : s.device.isSome)
    (hopened : s.opened = true) (hclose : env.closing = none) (hlast : last.follows .disconnected = true)
    (hevents : s.events ∈ endings last) :
    (detach env plugout s).isUnplugged = true ∧ ∃ last ∈ ended, (detach env plugout s).events ∈ endings last := by
  have hunplugged : (reclaim (disconnect env s)).isUnplugged = true :=
    reclaim_isUnplugged.trans (disconnect_isUnplugged env hdev)
  have hdisconnected : (reclaim (disconnect env s)).events ∈ endings .disconnected := by
    rw [show (reclaim (disconnect env s)).events = _ from disconnect_events env hopened hclose]
    exact endings_next hlast hevents
  unfold detach
  rw [if_neg (Bool.eq_false_iff.mp hflag)]
  dsimp only
  split
  · exact plugoutAndDelete_told env hunplugged hdisconnected
  · exact ⟨hunplugged, .disconnected, by decide, hdisconnected⟩

-- The controller deletes a device.
theorem deleteDevice_told {last : DeviceState} (hlive : s.isLive = true) (hflag : s.isUnplugged = false)
    (hopened : s.opened = true) (hclose : env.closing = none) (hlast : last.follows .disconnected = true)
    (hevents : s.events ∈ endings last) :
    (deleteDevice env s).isUnplugged = true ∧ (deleteDevice env s).events ∈ endings .disconnected := by
  have hdev : s.device.isSome := by
    obtain ⟨dev, hdev, _⟩ := (Option.any_eq_true _ _).mp hlive
    exact Option.isSome_iff_exists.mpr ⟨dev, hdev⟩
  have hunplugged : (detachOnly env s).isUnplugged = true := by
    unfold detachOnly
    rw [if_neg (Bool.eq_false_iff.mp hflag)]
    exact reclaim_isUnplugged.trans (disconnect_isUnplugged env hdev)
  have hdisconnected : (detachOnly env s).events ∈ endings .disconnected := by
    unfold detachOnly
    rw [if_neg (Bool.eq_false_iff.mp hflag)]
    rw [show (reclaim (disconnect env s)).release.events = _ from disconnect_events env hopened hclose]
    exact endings_next hlast hevents
  unfold deleteDevice deviceCleanup
  rw [if_pos hlive]
  dsimp only
  refine ⟨(isUnplugged_mapDevice ?_).trans ?_, ?_⟩
  · exact fun _ => rfl
  · split
    · refine (isUnplugged_mapDevice ?_).trans hunplugged
      exact fun _ => rfl
    · exact hunplugged
  · change (if _ then _ else _ : State).events ∈ _
    split <;> exact hdisconnected

end Detach

-- `create_device_ctx_ext` does not fail once it has the memory; sockets can be closed; and the controller does
-- not delete a device that `init_device` has left behind while the work item owns the memory.
def Reports (s : State) : Action → Prop
  | .dispatch env _ => env.memoryCreate.isNone → env.attributes.isNone
  | .complete env => env.detach.closing.isNone
  | .detach env _ | .detachStep env => env.closing.isNone
  | .deleteDevice env => env.closing.isNone ∧ s.workitem.any (·.ctxExt) = false
  | _ => True

instance : ∀ (s : State) (a : Action), Decidable (Reports s a)
  | _, .dispatch env _ => inferInstanceAs (Decidable (env.memoryCreate.isNone → env.attributes.isNone))
  | _, .complete env => inferInstanceAs (Decidable env.detach.closing.isNone)
  | _, .detach env _ | _, .detachStep env => inferInstanceAs (Decidable env.closing.isNone)
  | s, .deleteDevice env =>
    inferInstanceAs (Decidable (env.closing.isNone ∧ s.workitem.any (·.ctxExt) = false))
  | _, .irpComplete .. | _, .afterAnswer _ | _, .startAttachAttempts | _, .deleteWorkitem _ | _, .queryRemove =>
    isTrue trivial

section Step

variable {s t : State}

theorem idle_mapExt {f : DeviceCtxExt → DeviceCtxExt}
    (hf : ∀ ext, (f ext).deletions = ext.deletions ∧ (f ext).references = ext.references)
    (h : s.ext.any DeviceCtxExt.idle = true) : (s.mapExt f).ext.any DeviceCtxExt.idle = true := by
  have hidle : ∀ ext, (f ext).idle = ext.idle := by
    intro ext
    rw [DeviceCtxExt.idle, (hf ext).1, (hf ext).2, DeviceCtxExt.idle]
  simpa [State.mapExt, Option.any_map, hidle] using h

theorem handedOver_owns (port : Int) : (s.handedOver port).workitem.any (·.ctxExt) = false := by
  cases hctx : s.workitem <;> simp [State.handedOver, State.mapWorkitem, State.deviceStateChanged, hctx]

-- Steps of the work item after its answer.
theorem Life.proceed (hi : Life s) (hc : s.request.control.isLast = true) {control : Control} {used : Bool}
    (hnext : control.isLast = true) :
    Life { s with request := { s.request with control := control }, usedAfterDelete := used } := by
  cases hi with
  | fresh removing h =>
      rw [h] at hc
      cases hc
  | refused hfin =>
      rw [hfin] at hc
      cases hc
  | waiting hearly =>
      cases hctl : s.request.control <;> simp_all [Control.isEarly, Control.isLast]
  | failed _ hidle howns hdev hdet hlast hevents => exact .failed hnext hidle howns hdev hdet hlast hevents
  | closed hfin =>
      rw [hfin] at hc
      cases hc
  | attached _ hidle howns hflag hlive hdet hopened hevents =>
      exact .attached (.inl hnext) hidle howns hflag hlive hdet hopened hevents
  | detached _ howns hflag hlast hevents => exact .detached (.inl hnext) howns hflag hlast hevents

theorem Life.dispatch {env : PluginEnv} {once : Bool} (hi : Life s) (hok : Reports s (.dispatch env once))
    (hc : s.request.control = .dispatched) : Life (dispatch env once s) := by
  obtain ⟨removing, rfl⟩ : ∃ removing, s = { removing := removing } := by
    cases hi with
    | fresh removing h => exact ⟨removing, h⟩
    | refused h | waiting h | failed h | closed h => simp [hc, Control.isEarly, Control.isLast] at h
    | attached h | detached h => simp [hc, Control.isLast] at h
  generalize hd : Attach.dispatch env once { removing := removing } = t
  have hspec := dispatch_spec env once (s := { removing := removing }) rfl rfl
  rw [hd] at hspec
  cases hspec with
  | refused r => exact .refused rfl rfl rfl rfl rfl
  | undone r hmem hattr =>
      have h := hok (by rw [hmem]; rfl)
      exact absurd (Option.isNone_iff_eq_none.mp h) hattr
  | started =>
      refine .waiting ?_ rfl rfl rfl rfl (fun h => absurd rfl h) connecting_ending
      dsimp only
      split <;> rfl

theorem Life.waits (hi : Life s) (hc : s.request.control.isEarly = true) :
    s.ext.any DeviceCtxExt.idle = true ∧ s.workitem.any (·.ctxExt) = true ∧ s.device = none ∧ s.detaching = none ∧
      (s.request.ai ≠ [] → s.opened = true) ∧ s.events ∈ endings .connecting := by
  cases hi with
  | fresh removing h =>
      rw [h] at hc
      cases hc
  | waiting _ hidle howns hdev hdet hopened hevents => exact ⟨hidle, howns, hdev, hdet, hopened, hevents⟩
  | refused h | closed h =>
      rw [h] at hc
      cases hc
  | failed h => cases hctl : s.request.control <;> simp_all [Control.isEarly, Control.isLast]
  | attached h | detached h =>
      cases hctl : s.request.control <;> simp_all [Control.isEarly, Control.isLast]

theorem Life.irpComplete {st : Outcome} {first : Address} {rest : List Address} (hi : Life s)
    (hc : s.request.control = .armed) : Life (irpComplete st first rest s) := by
  obtain ⟨hidle, howns, hdev, hdet, hopened, hevents⟩ := hi.waits (by rw [hc]; rfl)
  unfold Attach.irpComplete
  dsimp only
  split
  · refine .waiting rfl hidle ?_ hdev hdet hopened hevents
    simpa [State.mapWorkitem, Option.any_map] using howns
  · exact .waiting rfl hidle howns hdev hdet hopened hevents

-- `connected` has detached the device itself.
theorem Life.notPlugged {port : Int} {r : NTSTATUS} {last : DeviceState} (hdet : s.detaching = none)
    (honly : DeviceOnly (s.handedOver port) t) (hflag : t.isUnplugged = true) (hlast : last ∈ ended)
    (hevents : t.events ∈ endings last) : Life (t.answer r) := by
  refine .detached (.inl rfl) ?_ hflag ?_ hevents
  · rw [State.answer, honly.workitem]
    exact handedOver_owns port
  · have hnone : t.detaching = none := honly.detaching.trans hdet
    rw [State.answer, hnone]
    exact hlast

theorem Life.complete {env : CompleteEnv} {st : Outcome} (hi : Life s) (hok : Reports s (.complete env))
    (hc : s.request.control = .queued st) : Life (complete env st s) := by
  obtain ⟨hidle, howns, hdev, hdet, hopened, hevents⟩ := hi.waits (by rw [hc]; rfl)
  have hclose : env.detach.closing = none := Option.isNone_iff_eq_none.mp hok
  have hconnected : (s.deviceStateChanged .connected).events ∈ endings .connected := endings_next rfl hevents
  generalize hd : Attach.complete env st s = t
  have hspec := complete_spec env st s
  rw [hd] at hspec
  cases hspec with
  | failed r hf =>
      exact .failed rfl (idle_mapExt hf hidle) howns (by simp [State.answer, State.mapExt, hdev]) hdet rfl hevents
  | connecting hnext =>
      refine .waiting rfl (idle_mapExt (fun _ => ⟨rfl, rfl⟩) hidle) howns hdev hdet (fun _ => ?_) hevents
      obtain ⟨ext, hext, _⟩ := (Option.any_eq_true _ _).mp hidle
      simp [State.opened, State.mapExt, hext]
  | refused r hai hu =>
      cases hu with
      | imported =>
          exact .failed rfl hidle howns (by simp [State.answer, State.deviceStateChanged, hdev]) hdet rfl hconnected
      | created => exact .failed rfl hidle howns rfl hdet rfl hconnected
      | refused port =>
          obtain ⟨hflag, last, hlast, htold⟩ := detach_told env.detach false (s := s.handedOver port) rfl rfl
            (hopened hai) hclose rfl hconnected
          obtain ⟨hsame, hflag⟩ := deleteDevice_unplugged env.detach hflag
          have honly := (detach_deviceOnly env.detach (s.handedOver port) false).trans
            (deleteDevice_deviceOnly env.detach _)
          exact .notPlugged hdet honly hflag hlast (hsame ▸ htold)
      | started =>
          obtain ⟨hflag, last, hlast, htold⟩ := detach_told env.detach true (s := s.handedOver env.port) rfl rfl
            (hopened hai) hclose rfl hconnected
          exact .notPlugged hdet (detach_deviceOnly env.detach (s.handedOver env.port) true) hflag hlast htold
  | connected hai =>
      exact .attached (.inl rfl) hidle (handedOver_owns env.port) rfl rfl hdet (hopened hai)
        (endings_next rfl hconnected)

theorem closeSocket_frame (closing : Outcome) (s : State) :
    (closeSocket closing s).2.events = s.events ∧ (closeSocket closing s).2.device = s.device ∧
      (s.ext.any DeviceCtxExt.idle = true → (closeSocket closing s).2.ext.any DeviceCtxExt.idle = true) := by
  unfold closeSocket
  split
  · refine ⟨rfl, rfl, idle_mapExt ?_⟩
    exact fun _ => ⟨rfl, rfl⟩
  · exact ⟨rfl, rfl, id⟩

-- The last one to delete the memory has its socket freed.
theorem delete_not_opened (h : s.ext.any DeviceCtxExt.idle = true) : (s.mapExt DeviceCtxExt.delete).opened = false := by
  obtain ⟨ext, hext, hidle⟩ := (Option.any_eq_true _ _).mp h
  obtain ⟨_, hrefs⟩ := of_decide_eq_true hidle
  simp [State.opened, State.mapExt, hext, DeviceCtxExt.delete, DeviceCtxExt.settled, hrefs]

theorem Life.deleteWorkitem {closing : Outcome} (hi : Life s) (hc : s.request.control = .deleting) :
    Life { deleteWorkitem closing s with request := { s.request with control := .finished } } := by
  cases hi with
  | fresh removing h =>
      rw [h] at hc
      cases hc
  | refused h | closed h =>
      rw [hc] at h
      cases h
  | waiting h =>
      rw [hc] at h
      cases h
  | failed _ hidle howns hdev hdet hlast hevents =>
      obtain ⟨hsame, hdevice, hidle'⟩ := closeSocket_frame closing s
      have hdet' : (closeSocket closing s).2.detaching = none := (closeSocket_deviceOnly s closing).detaching.trans hdet
      unfold Attach.deleteWorkitem workitemCleanup
      rw [if_pos howns]
      refine .closed rfl rfl (delete_not_opened (s := (closeSocket closing s).2) (hidle' hidle)) ?_ hdet' ?_
      · change (closeSocket closing s).2.device.all _ = true
        rw [hdevice]
        exact hdev
      · change (closeSocket closing s).2.events ++ [.disconnected] ∈ _
        rw [hsame]
        exact endings_next hlast hevents
  | attached _ hidle howns hflag hlive hdet hopened hevents =>
      have hsame : workitemCleanup closing s = s := if_neg (Bool.eq_false_iff.mp howns)
      unfold Attach.deleteWorkitem
      rw [hsame]
      exact .attached (.inr rfl) hidle rfl hflag hlive hdet hopened hevents
  | detached _ howns hflag hlast hevents =>
      have hsame : workitemCleanup closing s = s := if_neg (Bool.eq_false_iff.mp howns)
      unfold Attach.deleteWorkitem
      rw [hsame]
      exact .detached (.inr rfl) rfl hflag hlast hevents

-- The device has been detached at once, or is going to be step by step.
theorem Life.detach {env : DetachEnv} {plugout : Bool} (hi : Life s) (hclose : env.closing = none)
    (hport : s.device.any (fun dev => dev.port ≠ 0) = true)
    (hflag : s.isUnplugged = false) (hcompleted : s.request.completed ≠ []) :
    Life { disconnect env s with detaching := some { stage := .closed, plugoutAndDelete := plugout } } := by
  cases hi with
  | fresh removing h =>
      rw [h] at hcompleted
      exact absurd rfl hcompleted
  | refused _ _ h =>
      rw [h] at hport
      cases hport
  | waiting _ _ _ h =>
      rw [h] at hport
      cases hport
  | failed _ _ _ h | closed _ _ _ h =>
      obtain ⟨dev, hdev, hne⟩ := (Option.any_eq_true _ _).mp hport
      simp [hdev] at h hne
      exact absurd h hne
  | attached hc _ howns _ hlive _ hopened hevents =>
      have honly := disconnect_deviceOnly env s
      obtain ⟨dev, hdev, _⟩ := (Option.any_eq_true _ _).mp hlive
      have htold : DeviceState.disconnected ∈ DetachStage.closed.told := by decide
      refine .detached ?_ ?_ (disconnect_isUnplugged env (Option.isSome_iff_exists.mpr ⟨dev, hdev⟩)) htold ?_
      · change (disconnect env s).request.control.isLast = true ∨ (disconnect env s).request.control = .finished
        rw [honly.request]
        exact hc
      · change (disconnect env s).workitem.any (·.ctxExt) = false
        rw [honly.workitem]
        exact howns
      · change (disconnect env s).events ∈ _
        rw [disconnect_events env hopened hclose]
        exact endings_next rfl hevents
  | detached _ _ h =>
      rw [h] at hflag
      cases hflag

theorem told_unplugging : DeviceState.unplugging ∈ DetachStage.unplugging.told := by decide

theorem told_unplugged : DeviceState.unplugged ∈ DetachStage.forceDelete.told := by decide

theorem ended_all :
    DeviceState.disconnected ∈ ended ∧ DeviceState.unplugging ∈ ended ∧ DeviceState.unplugged ∈ ended := by
  decide

theorem told_ended (stage : DetachStage) : ∀ last ∈ stage.told, last ∈ ended := by
  cases stage <;> decide

-- What a step of `detach` tells, and the stage that comes next.
theorem detachStage_told {env : DetachEnv} {task : Detach} {last : DeviceState} (hflag : s.isUnplugged = true)
    (hlast : last ∈ task.stage.told) (hevents : s.events ∈ endings last) :
    (detachStage env task s).1.isUnplugged = true ∧
      ∃ next ∈ (detachStage env task s).2.elim ended DetachStage.told,
        (detachStage env task s).1.events ∈ endings next := by
  obtain ⟨hdeleted, hdeletedFlag⟩ := deleteDevice_unplugged env hflag
  unfold detachStage
  cases hstage : task.stage with
  | closed =>
      rw [hstage] at hlast
      exact ⟨reclaim_isUnplugged.trans hflag, last, hlast, hevents⟩
  | reclaimed =>
      rw [hstage] at hlast
      obtain rfl := List.mem_singleton.mp hlast
      dsimp only
      split
      · exact ⟨hflag, .unplugging, told_unplugging, endings_next rfl hevents⟩
      · exact ⟨hflag, .disconnected, ended_all.1, hevents⟩
  | unplugging =>
      rw [hstage] at hlast
      obtain rfl := List.mem_singleton.mp hlast
      cases env.plugOutAndDelete with
      | some err => exact ⟨hflag, .unplugging, ended_all.2.1, hevents⟩
      | none =>
          dsimp only
          split
          · exact ⟨hdeletedFlag, .unplugging, told_unplugging, hdeleted ▸ hevents⟩
          · exact ⟨hflag, .unplugging, told_unplugging, hevents⟩
  | unplugged =>
      rw [hstage] at hlast
      obtain rfl := List.mem_singleton.mp hlast
      exact ⟨hflag, .unplugged, told_unplugged, endings_next rfl hevents⟩
  | forceDelete =>
      rw [hstage] at hlast
      obtain rfl := List.mem_singleton.mp hlast
      dsimp only
      split
      · exact ⟨hflag, .unplugged, ended_all.2.2, hevents⟩
      · exact ⟨hdeletedFlag, .unplugged, ended_all.2.2, hdeleted ▸ hevents⟩
  | done =>
      rw [hstage] at hlast
      exact ⟨hflag, last, hlast, hevents⟩

theorem Life.detachStep {env : DetachEnv} {task : Detach} (hi : Life s) (htask : s.detaching = some task) :
    Life (detachStep env task s) := by
  have hsome : s.detaching ≠ none := by
    rw [htask]
    exact Option.some_ne_none task
  cases hi with
  | fresh removing h =>
      rw [h] at htask
      cases htask
  | refused _ _ _ h => exact absurd h hsome
  | waiting _ _ _ _ h => exact absurd h hsome
  | failed _ _ _ _ h => exact absurd h hsome
  | closed _ _ _ _ h => exact absurd h hsome
  | attached _ _ _ _ _ h => exact absurd h hsome
  | detached hc howns hflag hlast hevents =>
      rw [htask] at hlast
      have honly := detachStage_deviceOnly env s task
      obtain ⟨hflag', next, hnext, htold⟩ := detachStage_told hflag hlast hevents
      refine .detached ?_ ?_ hflag' ?_ htold
      · change (detachStage env task s).1.request.control.isLast = true ∨
          (detachStage env task s).1.request.control = .finished
        rw [honly.request]
        exact hc
      · change (detachStage env task s).1.workitem.any (·.ctxExt) = false
        rw [honly.workitem]
        exact howns
      · cases hstage : (detachStage env task s).2 <;> simp_all [Attach.detachStep]

-- A device that never got a port, and whose socket is not open any more: its deletion tells nothing.
structure Silent (events : List DeviceState) (s : State) : Prop where
  opened : s.opened = false
  port : s.device.all (fun dev => dev.port = 0) = true
  events : s.events = events

theorem Silent.mapExt {events : List DeviceState} (h : Silent events s) {f : DeviceCtxExt → DeviceCtxExt}
    (hf : ∀ ext, (f ext).sock = ext.sock ∨ (f ext).sock = .null) : Silent events (s.mapExt f) := by
  refine ⟨?_, h.port, h.events⟩
  have hopened := h.opened
  unfold State.opened State.mapExt at *
  cases hext : s.ext with
  | none => rfl
  | some ext =>
      rw [hext] at hopened
      have hne : ext.sock ≠ .opened := by simpa using hopened
      obtain hsock | hsock := hf ext <;> simp [hsock, hne]

theorem Silent.mapDevice {events : List DeviceState} (h : Silent events s) {f : DeviceCtx → DeviceCtx}
    (hf : ∀ dev, dev.port = 0 → (f dev).port = 0) : Silent events (s.mapDevice f) := by
  refine ⟨h.opened, ?_, h.events⟩
  have hport := h.port
  unfold State.mapDevice
  cases hdev : s.device with
  | none => rfl
  | some dev =>
      rw [hdev] at hport
      simpa using hf dev (by simpa using hport)

theorem settled_sock (ext : DeviceCtxExt) : ext.settled.sock = ext.sock ∨ ext.settled.sock = .null := by
  unfold DeviceCtxExt.settled
  split
  · exact .inr rfl
  · exact .inl rfl

theorem Silent.deleteDevice {events : List DeviceState} (h : Silent events s) (env : DetachEnv) :
    Silent events (deleteDevice env s) := by
  have honly : Silent events (detachOnly env s) := by
    unfold detachOnly
    split
    · exact h
    · rw [disconnect_not_opened env h.opened]
      have hflag : Silent events (s.mapDevice fun dev => { dev with unplugged := true }) := h.mapDevice fun _ hp => hp
      have hreclaim : Silent events (reclaim (s.mapDevice fun dev => { dev with unplugged := true })) :=
        (hflag.mapDevice fun _ _ => rfl).mapExt fun _ => .inl rfl
      exact hreclaim.mapExt fun ext => settled_sock _
  unfold Attach.deleteDevice deviceCleanup
  dsimp only
  split
  · refine Silent.mapDevice ?_ fun _ hp => hp
    split
    · have hdeleted : Silent events ((detachOnly env s).mapExt DeviceCtxExt.delete) :=
        honly.mapExt fun ext => settled_sock _
      refine hdeleted.mapDevice ?_
      exact fun _ hp => hp
    · exact honly
  · exact h

theorem Life.deleteDevice {env : DetachEnv} (hi : Life s) (hok : Reports s (.deleteDevice env))
    (hcompleted : s.request.completed ≠ []) (hlive : s.isLive = true) : Life (deleteDevice env s) := by
  obtain ⟨hclose, howns⟩ := hok
  have honly := deleteDevice_deviceOnly env s
  cases hi with
  | fresh removing h =>
      rw [h] at hcompleted
      exact absurd rfl hcompleted
  | refused _ _ h =>
      rw [State.isLive, h] at hlive
      cases hlive
  | waiting _ _ h | failed _ _ h =>
      rw [howns] at h
      cases h
  | closed hc hwork hopened hport hdet hevents =>
      have hsilent := Silent.deleteDevice ⟨hopened, hport, rfl⟩ env
      refine .closed ?_ ?_ hsilent.opened hsilent.port ?_ ?_
      · rw [honly.request]
        exact hc
      · rw [honly.workitem]
        exact hwork
      · rw [honly.detaching]
        exact hdet
      · rw [hsilent.events]
        exact hevents
  | attached hc _ _ hflag _ hdet hopened hevents =>
      obtain ⟨hunplugged, htold⟩ := deleteDevice_told env hlive hflag hopened
        (Option.isNone_iff_eq_none.mp hclose) rfl hevents
      refine .detached ?_ ?_ hunplugged ?_ htold
      · rw [honly.request]
        exact hc
      · rw [honly.workitem]
        exact howns
      · rw [honly.detaching, hdet]
        exact ended_all.1
  | detached hc _ hflag hlast hevents =>
      obtain ⟨hsame, hunplugged⟩ := deleteDevice_unplugged env hflag
      refine .detached ?_ ?_ hunplugged ?_ (hsame ▸ hevents)
      · rw [honly.request]
        exact hc
      · rw [honly.workitem]
        exact howns
      · rw [honly.detaching]
        exact hlast

theorem Life.queryRemove (hi : Life s) : Life { s with removing := true } := by
  cases hi with
  | fresh removing h =>
      subst h
      exact .fresh true rfl
  | refused hc hext hdev hdet hevents => exact .refused hc hext hdev hdet hevents
  | waiting hc hidle howns hdev hdet hopened hevents => exact .waiting hc hidle howns hdev hdet hopened hevents
  | failed hc hidle howns hdev hdet hlast hevents => exact .failed hc hidle howns hdev hdet hlast hevents
  | closed hc hwork hopened hport hdet hevents => exact .closed hc hwork hopened hport hdet hevents
  | attached hc hidle howns hflag hlive hdet hopened hevents =>
      exact .attached hc hidle howns hflag hlive hdet hopened hevents
  | detached hc howns hflag hlast hevents => exact .detached hc howns hflag hlast hevents

theorem Life.step {a : Action} (hi : Life s) (hok : Reports s a) (hs : step s a = some t) : Life t := by
  cases step_cases hs with
  | dispatch hc => exact hi.dispatch hok hc
  | irpComplete hc => exact hi.irpComplete hc
  | complete hc => exact hi.complete hok hc
  | afterAnswer hc =>
      have hlast : s.request.control.isLast = true := by
        rw [hc]
        rfl
      unfold afterAnswer State.useExt
      split
      · exact hi.proceed hlast rfl
      · refine hi.proceed hlast ?_
        split <;> rfl
  | startAttachAttempts hc => exact hi.proceed (by rw [hc]; rfl) rfl
  | deleteWorkitem hc => exact hi.deleteWorkitem hc
  | queryRemove => exact hi.queryRemove
  | unplugged => exact hi
  | detach hcompleted hport hflag => exact hi.detach (Option.isNone_iff_eq_none.mp hok) hport hflag hcompleted
  | detachStep htask => exact hi.detachStep htask
  | deleteDevice hcompleted hlive => exact hi.deleteDevice hok hcompleted hlive

end Step

theorem reachable_life {s : State} (h : machine.Reachable Reports s) : Life s := by
  refine h.invariant (fun s hs => ?_) fun _ _ _ hi hok hs => hi.step hok hs
  obtain ⟨removing, rfl⟩ := hs
  exact .fresh removing rfl

-- What has been told about the attach is where in its life cycle.
theorem Life.told {s : State} (h : Life s) : s.events = [] ∨ ∃ last, s.events ∈ endings last := by
  cases h with
  | fresh removing h =>
      rw [h]
      exact .inl rfl
  | refused _ _ _ _ h => exact .inl h
  | waiting _ _ _ _ _ _ h | failed _ _ _ _ _ _ h | closed _ _ _ _ _ h | attached _ _ _ _ _ _ _ h | detached _ _ _ _ h =>
      exact .inr ⟨_, h⟩

theorem Life.deleted {s : State} (h : Life s) {ext : DeviceCtxExt} (hext : s.ext = some ext)
    (hdel : 0 < ext.deletions) : .disconnected ∈ s.events := by
  have hnot : s.ext.any DeviceCtxExt.idle = true → False := by
    intro hidle
    rw [hext] at hidle
    obtain ⟨hzero, _⟩ := of_decide_eq_true hidle
    omega
  cases h with
  | fresh removing h =>
      rw [h] at hext
      cases hext
  | refused _ h =>
      rw [h] at hext
      cases hext
  | waiting _ hidle | failed _ hidle | attached _ hidle => exact (hnot hidle).elim
  | closed _ _ _ _ _ hevents => exact endings_ended ended_all.1 hevents
  | detached _ _ _ hlast hevents =>
      refine endings_ended ?_ hevents
      cases hdet : s.detaching with
      | none =>
          rw [hdet] at hlast
          exact hlast
      | some task =>
          rw [hdet] at hlast
          exact told_ended task.stage _ hlast

-- The states told about one attach are the beginning of a life cycle, each of them once, and the end of the
-- connection has been told when the memory is deleted.
theorem events_lifeCycle {s : State} (h : machine.Reachable Reports s) :
    (∃ word ∈ lifeCycles, s.events <+: word) ∧ s.events.Nodup ∧
      ∀ ext, s.ext = some ext → 0 < ext.deletions → .disconnected ∈ s.events := by
  have hi := reachable_life h
  have hprefix : ∃ word ∈ lifeCycles, s.events <+: word := by
    obtain hnil | ⟨last, hlast⟩ := hi.told
    · rw [hnil]
      exact ⟨_, List.mem_cons_self, List.nil_prefix⟩
    · exact endings_prefix hlast
  obtain ⟨word, hword, hle⟩ := hprefix
  exact ⟨⟨word, hword, hle⟩, (lifeCycles_nodup word hword).sublist hle.sublist, fun ext => hi.deleted⟩

-- A device is attached, and detached while the work item is not yet deleted.
def attachDetachSchedule : List Action :=
  connectSchedule true ++ [.complete {}, .detach {} true] ++ List.replicate 6 (.detachStep {}) ++
    [.afterAnswer true, .deleteWorkitem none]

theorem events_lifeCycle_detach :
    ∃ s, machine.Reachable Reports s ∧ s.events.length = 6 ∧
      (∃ word ∈ lifeCycles, s.events <+: word) ∧ s.events.Nodup ∧
      ∀ ext, s.ext = some ext → 0 < ext.deletions → .disconnected ∈ s.events := by
  have hrun : (machine.run Reports newRequest attachDetachSchedule).any (fun s => s.events.length == 6) = true := by
    decide +kernel
  obtain ⟨s, hs, hlen⟩ := (newRequest_reachable _).exists_run hrun
  exact ⟨s, hs, eq_of_beq hlen, events_lifeCycle hs⟩

-- The memory has been allocated, but its attributes cannot be set up: the end of an attach is told that has not
-- begun.
theorem events_only_disconnected :
    ¬ ∀ s, machine.Reachable (fun _ _ => True) s → ∃ word ∈ lifeCycles, s.events <+: word := by
  intro h
  have hrun : (machine.run (fun _ _ => True) newRequest
      [.dispatch { attributes := some ⟨.STATUS_INVALID_PARAMETER, by decide, by decide⟩ } false]).any
      (fun s => s.events == [.disconnected]) = true := by
    decide +kernel
  obtain ⟨s, hs, hevents⟩ := (newRequest_reachable _).exists_run hrun
  obtain ⟨word, hword, hle⟩ := h s hs
  rw [eq_of_beq hevents] at hle
  have hnone : ∀ word ∈ lifeCycles, ¬[DeviceState.disconnected] <+: word := by decide
  exact hnone word hword hle

end Usbip.Attach

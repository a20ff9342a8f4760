import Usbip.Library.Hoare
import Usbip.Attach

namespace Usbip.Attach

open Usbip.Library.Hoare
open Usbip.Library.Runs

section Calls

variable {s t : State} {α : Type} {Q : α → State → Prop} {E : Failure → State → Prop}

theorem check_bind {err : Outcome} {f : Unit → AttachM α} (hok : err = none → From s (f ()) Q E)
    (herr : ∀ e, err = some e → E e s) : From s (check err >>= f) Q E := by
  cases err with
  | none => exact hok rfl
  | some e => exact From.bind (Q := fun _ _ => False) (From.throw e (herr e rfl)) fun _ _ h => h.elim

theorem check_spec {err : Outcome} {Q : Unit → State → Prop} (hok : err = none → Q () s)
    (herr : ∀ e, err = some e → E e s) : From s (check err) Q E := by
  cases err with
  | none => exact From.pure () (hok rfl)
  | some e => exact From.throw e (herr e rfl)

end Calls

-- The device has been created and owns the memory.
def State.handedOver (port : Int) (s : State) : State :=
  { (s.deviceStateChanged .connected).mapWorkitem fun ctx => { ctx with ctxExt := false } with
    device := some { port := port } }

-- What `connected` leaves behind, with the stage at which it has failed.
inductive Connected (env : CompleteEnv) (s : State) : State → Prop
  | imported : Connected env s (s.deviceStateChanged .connected)
  | created : env.initDevice ≠ none →
      Connected env s { s.deviceStateChanged .connected with device := some {} }
  | refused (port : Int) : env.port = 0 ∨ env.usbDevicePlugIn ≠ none →
      Connected env s (deleteDevice env.detach (detach env.detach false (s.handedOver port)))
  | started : env.recvThreadStart ≠ none → Connected env s (detach env.detach true (s.handedOver env.port))

theorem create_spec {env : CompleteEnv} {s : State} :
    From s (create env) (fun _ t => t = { s with device := some {} })
      (fun _ t => t = s ∨ env.initDevice ≠ none ∧ t = { s with device := some {} }) := by
  refine check_bind (fun _ => ?_) fun _ _ => .inl rfl
  refine check_bind (fun _ => ?_) fun _ _ => .inl rfl
  refine check_bind (fun _ => ?_) fun _ _ => .inl rfl
  refine From.modify_bind (check_spec (fun _ => rfl) fun e he => .inr ⟨?_, rfl⟩)
  rw [he]
  exact Option.some_ne_none e

theorem plugin_spec (env : CompleteEnv) (s : State) (port : Int) {E : Failure → State → Prop} :
    From (s.handedOver port) (plugin env)
      (fun r t => (r.1 = none ∧ t = s.handedOver env.port) ∨
        (r.1 ≠ none ∧ r.2 = false ∧ (env.port = 0 ∨ env.usbDevicePlugIn ≠ none) ∧ ∃ p, t = s.handedOver p) ∨
        (r.1 ≠ none ∧ r.2 = true ∧ env.recvThreadStart ≠ none ∧ t = s.handedOver env.port)) E := by
  unfold plugin
  refine From.ite (fun hport => ?_) fun hport => ?_
  · exact From.pure _ (.inr (.inl ⟨by simp, rfl, .inl hport, port, rfl⟩))
  · refine From.modify_bind ?_
    cases hplug : env.usbDevicePlugIn with
    | some err => exact From.pure _ (.inr (.inl ⟨by simp, rfl, .inr (by simp), env.port, rfl⟩))
    | none =>
        cases hthread : env.recvThreadStart with
        | some err => exact From.pure _ (.inr (.inr ⟨by simp, rfl, by simp, rfl⟩))
        | none => exact From.pure _ (.inl ⟨rfl, rfl⟩)

theorem connected_spec {env : CompleteEnv} {s : State} :
    From s (connected env) (fun _ t => t = (s.handedOver env.port).deviceStateChanged .plugged)
      (fun _ t => Connected env s t) := by
  refine From.modify_bind (check_bind (fun _ => ?_) fun _ _ => .imported)
  refine From.bind (create_spec.mono (fun _ _ h => h) fun _ t ht => ?_) fun _ t ht => ?_
  · obtain rfl | ⟨hinit, rfl⟩ := ht
    · exact .imported
    · exact .created hinit
  · subst ht
    refine From.modify_bind (From.bind (plugin_spec env s 0) fun r t ht => ?_)
    obtain ⟨err, plugged⟩ := r
    obtain ⟨herr, rfl⟩ | ⟨herr, hplugged, hwhy, port, rfl⟩ | ⟨herr, hplugged, hthread, rfl⟩ := ht
    · subst herr
      exact From.update rfl
    · obtain ⟨e, rfl⟩ := Option.ne_none_iff_exists'.mp herr
      subst hplugged
      exact From.modify_bind (From.modify_bind (From.throw e (.refused port hwhy)))
    · obtain ⟨e, rfl⟩ := Option.ne_none_iff_exists'.mp herr
      subst hplugged
      exact From.modify_bind (From.throw e (.started hthread))

-- What `complete` has done: it has answered the request or is waiting for a connection. Only in the first
-- case it is not known how far it has come with the socket.
inductive Completed (env : CompleteEnv) (st : Outcome) (s : State) : State → Prop
  | failed {f : DeviceCtxExt → DeviceCtxExt} (r : NTSTATUS) :
      (∀ ext, (f ext).deletions = ext.deletions ∧ (f ext).references = ext.references) →
      Completed env st s ((s.mapExt f).answer r)
  | connecting {next : List Address} :
      (s.request.ai = [] ∧ st = none ∧ next = s.addrinfo) ∨
        (∃ a, s.request.ai = a :: next ∧ next ≠ []) →
      Completed env st s { s.mapExt fun ext => { ext with sock := .opened } with
        request := { s.request with ai := next, control := .armed } }
  | refused {t : State} (r : NTSTATUS) : s.request.ai ≠ [] → Connected env s t → Completed env st s (t.answer r)
  | connected : s.request.ai ≠ [] →
      Completed env st s (((s.handedOver env.port).deviceStateChanged .plugged).answer .STATUS_SUCCESS)

theorem createSocket_spec {env : CompleteEnv} {s : State} :
    From s (createSocket env) (fun _ t => t = s.mapExt fun ext => { ext with sock := .opened })
      (fun _ t => t = s ∨ t = s.mapExt fun ext => { ext with sock := .opened }) := by
  refine check_bind (fun _ => ?_) fun _ _ => .inl rfl
  refine From.modify_bind (check_bind (fun _ => ?_) fun _ _ => .inr rfl)
  exact check_spec (fun _ => rfl) fun _ _ => .inr rfl

theorem mapExt_mapExt (f g : DeviceCtxExt → DeviceCtxExt) (s : State) :
    (s.mapExt f).mapExt g = s.mapExt (g ∘ f) := by
  simp [State.mapExt, Option.map_map]

theorem mapExt_id (s : State) : s.mapExt id = s := by
  simp [State.mapExt]

section Proceed

variable {env : CompleteEnv} {s : State}

theorem connect_spec {ai : List Address} {f : DeviceCtxExt → DeviceCtxExt}
    (hf : ∀ ext, { f ext with sock := .opened } = { ext with sock := .opened }) :
    From (s.mapExt f) (connect env ai)
      (fun r t => r = .STATUS_PENDING ∧ t = { s.mapExt fun ext => { ext with sock := .opened } with
        request := { s.request with ai := ai, control := .armed } })
      (fun _ t => ∃ g : DeviceCtxExt → DeviceCtxExt,
        (∀ ext, (g ext).deletions = ext.deletions ∧ (g ext).references = ext.references) ∧ t = s.mapExt g) := by
  have hopened : (s.mapExt f).mapExt (fun ext => { ext with sock := .opened }) =
      s.mapExt fun ext => { ext with sock := .opened } := by
    rw [mapExt_mapExt]
    congr 1
    exact funext hf
  refine From.bind (createSocket_spec.mono (fun _ _ h => h) fun _ t ht => ?_) fun _ t ht => ?_
  · obtain rfl | rfl := ht
    · refine ⟨f, fun ext => ?_, rfl⟩
      have h := hf ext
      simp only [DeviceCtxExt.mk.injEq, true_and] at h
      exact h
    · exact ⟨fun ext => { ext with sock := .opened }, fun _ => ⟨rfl, rfl⟩, hopened⟩
  · rw [hopened] at ht
    subst ht
    exact From.modify_bind (From.pure _ ⟨rfl, rfl⟩)

-- The socket is opened in a later try too; what the one before has left is null.
theorem connect_completed {st : Outcome} {ai : List Address} {f : DeviceCtxExt → DeviceCtxExt}
    (hf : ∀ ext, { f ext with sock := .opened } = { ext with sock := .opened })
    (hai : (s.request.ai = [] ∧ st = none ∧ ai = s.addrinfo) ∨
      (∃ a, s.request.ai = a :: ai ∧ ai ≠ [])) :
    From (s.mapExt f) (connect env ai)
      (fun r t => Completed env st s (if r = .STATUS_PENDING then t else t.answer r))
      (fun e t => Completed env st s (t.answer e.st)) := by
  refine (connect_spec hf).mono (fun r t ht => ?_) fun e t ht => ?_
  · obtain ⟨rfl, rfl⟩ := ht
    exact .connecting hai
  · obtain ⟨g, hg, rfl⟩ := ht
    exact .failed e.st hg

-- What `proceed` returns or throws is what the request is completed with, unless it is STATUS_PENDING.
theorem proceed_spec {st : Outcome} :
    From s (proceed env st)
      (fun r t => Completed env st s (if r = .STATUS_PENDING then t else t.answer r))
      (fun e t => Completed env st s (t.answer e.st)) := by
  have hfailed : ∀ r, Completed env st s (s.answer r) := by
    intro r
    have hid : Completed env st s ((s.mapExt id).answer r) := .failed r fun _ => ⟨rfl, rfl⟩
    rwa [mapExt_id] at hid
  refine From.get_bind (From.ite (fun _ => ?_) fun _ => ?_)
  · exact From.throw _ (hfailed _)
  · cases hai : s.request.ai with
    | nil =>
        refine check_bind (fun hst => ?_) fun e _ => hfailed _
        have hconnect : From (s.mapExt id) (connect env s.addrinfo) _ _ :=
          connect_completed (fun ext => rfl) (.inl ⟨hai, hst, rfl⟩)
        rwa [mapExt_id] at hconnect
    | cons a next =>
        have hne : s.request.ai ≠ [] := by
          rw [hai]
          exact List.cons_ne_nil a next
        cases st with
        | none =>
            refine From.bind (connected_spec.mono (fun _ _ h => h) fun e t ht => .refused _ hne ht) fun _ t ht => ?_
            subst ht
            exact From.pure _ (.connected hne)
        | some err =>
            refine From.modify_bind ?_
            cases next with
            | nil => exact From.throw _ (.failed _ fun _ => ⟨rfl, rfl⟩)
            | cons b rest =>
                refine From.ite (fun _ => From.throw _ (.failed _ fun _ => ⟨rfl, rfl⟩)) fun _ => ?_
                exact connect_completed (fun ext => rfl) (.inr ⟨a, hai, List.cons_ne_nil b rest⟩)

end Proceed

theorem complete_spec (env : CompleteEnv) (st : Outcome) (s : State) : Completed env st s (complete env st s) := by
  have h : From s (proceed env st) _ _ := proceed_spec
  unfold complete
  cases hr : proceed env st s with
  | ok r t => exact h.ok hr
  | error e t => exact h.error hr

-- What `plugin_hardware` leaves behind for a request that has just come.
inductive Dispatched (env : PluginEnv) (once : Bool) (s : State) : State → Prop
  | refused (r : NTSTATUS) : Dispatched env once s
      { s with request := { s.request with completed := s.request.completed ++ [r], control := .finished } }
  | undone (r : NTSTATUS) : env.memoryCreate = none → env.attributes ≠ none → Dispatched env once s
      { s.deviceStateChanged .disconnected with
        ext := some { deletions := 1 }
        request := { s.request with completed := s.request.completed ++ [r], control := .finished } }
  | started : Dispatched env once s
      { s.deviceStateChanged .connecting with
        workitem := some { ctxExt := true, oneAttempt := once }
        ext := some {}
        request := { s.request with control := if env.provider then .armed else .dropped, pending := true } }

theorem dispatch_spec (env : PluginEnv) (once : Bool) {s : State} (hwork : s.workitem = none) (hext : s.ext = none) :
    Dispatched env once s (dispatch env once s) := by
  cases s with
  | mk request workitem ext device detaching removing events used =>
      obtain rfl : workitem = none := hwork
      obtain rfl : ext = none := hext
      cases hitem : env.workItemCreate with
      | some err =>
          rw [dispatch, pluginHardware, hitem]
          exact .refused err.st
      | none =>
          cases hmem : env.memoryCreate with
          | some err =>
              rw [dispatch, pluginHardware, hitem]
              unfold createDeviceCtxExt
              rw [hmem]
              exact .refused err.st
          | none =>
              cases hattr : env.attributes with
              | some err =>
                  rw [dispatch, pluginHardware, hitem]
                  unfold createDeviceCtxExt
                  rw [hmem, hattr]
                  exact .undone err.st hmem (by simp [hattr])
              | none =>
                  rw [dispatch, pluginHardware, hitem]
                  unfold createDeviceCtxExt
                  rw [hmem, hattr]
                  exact .started

-- The functions under `detach` touch the device, the memory and the events.
def DeviceOnly (s t : State) : Prop := t = { s with ext := t.ext, device := t.device, events := t.events }

namespace DeviceOnly

variable {s t u : State}

theorem trans (h : DeviceOnly s t) (h' : DeviceOnly t u) : DeviceOnly s u :=
  calc
    u = { t with ext := u.ext, device := u.device, events := u.events } := h'
    _ = { s with ext := u.ext, device := u.device, events := u.events } := by rw [h]

theorem request (h : DeviceOnly s t) : t.request = s.request := by
  rw [h]

theorem workitem (h : DeviceOnly s t) : t.workitem = s.workitem := by
  rw [h]

theorem detaching (h : DeviceOnly s t) : t.detaching = s.detaching := by
  rw [h]

theorem used (h : DeviceOnly s t) : t.usedAfterDelete = s.usedAfterDelete := by
  rw [h]

end DeviceOnly

section Detach

variable (env : DetachEnv) (s : State)

theorem closeSocket_deviceOnly (closing : Outcome) : DeviceOnly s (closeSocket closing s).2 := by
  unfold closeSocket
  split <;> rfl

theorem disconnect_deviceOnly : DeviceOnly s (disconnect env s) := by
  have hclose := closeSocket_deviceOnly (s.mapDevice fun dev => { dev with unplugged := true }) env.closing
  unfold disconnect
  dsimp only
  split
  · exact DeviceOnly.trans (t := s.mapDevice _) rfl (hclose.trans rfl)
  · exact DeviceOnly.trans (t := s.mapDevice _) rfl hclose

theorem detachOnly_deviceOnly : DeviceOnly s (detachOnly env s) := by
  unfold detachOnly
  split
  · rfl
  · exact (disconnect_deviceOnly env s).trans (DeviceOnly.trans (t := reclaim (disconnect env s)) rfl rfl)

theorem deviceCleanup_deviceOnly : DeviceOnly s (deviceCleanup env s) := by
  unfold deviceCleanup
  dsimp only
  split
  · exact (detachOnly_deviceOnly env s).trans rfl
  · exact detachOnly_deviceOnly env s

theorem deleteDevice_deviceOnly : DeviceOnly s (deleteDevice env s) := by
  unfold deleteDevice
  split
  · exact (deviceCleanup_deviceOnly env s).trans rfl
  · rfl

theorem plugoutAndDelete_deviceOnly : DeviceOnly s (plugoutAndDelete env s) := by
  unfold plugoutAndDelete
  dsimp only
  split
  · rfl
  · have hdeleted : DeviceOnly s (State.deviceStateChanged .unplugged
        (if env.deleted then deleteDevice env (s.deviceStateChanged .unplugging) else s.deviceStateChanged .unplugging)) := by
      split
      · exact DeviceOnly.trans (t := s.deviceStateChanged .unplugging) rfl ((deleteDevice_deviceOnly env _).trans rfl)
      · rfl
    split
    · exact hdeleted
    · exact hdeleted.trans (deleteDevice_deviceOnly env _)

theorem detach_deviceOnly (plugout : Bool) : DeviceOnly s (detach env plugout s) := by
  unfold detach
  dsimp only
  split
  · rfl
  · refine (disconnect_deviceOnly env s).trans (DeviceOnly.trans (t := reclaim (disconnect env s)) rfl ?_)
    split
    · exact (plugoutAndDelete_deviceOnly env _).trans rfl
    · rfl

theorem detachStage_deviceOnly (task : Detach) : DeviceOnly s (detachStage env task s).1 := by
  unfold detachStage
  split
  · rfl
  · split <;> rfl
  · split
    · rfl
    · dsimp only
      split
      · exact deleteDevice_deviceOnly env s
      · rfl
  · rfl
  · dsimp only
    split
    · rfl
    · exact deleteDevice_deviceOnly env s
  · rfl

end Detach

-- When each action can be taken, and what it does then.
inductive Steps (s : State) : Action → State → Prop
  | dispatch {env : PluginEnv} {once : Bool} : s.request.control = .dispatched →
      Steps s (.dispatch env once) (dispatch env once s)
  | irpComplete {st : Outcome} {first : Address} {rest : List Address} : s.request.control = .armed →
      Steps s (.irpComplete st first rest) (irpComplete st first rest s)
  | complete {env : CompleteEnv} {st : Outcome} : s.request.control = .queued st →
      Steps s (.complete env) (complete env st s)
  | afterAnswer {canReattach : Bool} {st : NTSTATUS} : s.request.control = .answered st →
      Steps s (.afterAnswer canReattach) (afterAnswer canReattach st s)
  | startAttachAttempts : s.request.control = .reattaching →
      Steps s .startAttachAttempts { s.useExt with request := { s.request with control := .deleting } }
  | deleteWorkitem {closing : Outcome} : s.request.control = .deleting →
      Steps s (.deleteWorkitem closing)
        { deleteWorkitem closing s with request := { s.request with control := .finished } }
  | queryRemove : Steps s .queryRemove { s with removing := true }
  | unplugged {env : DetachEnv} {plugout : Bool} : s.request.completed ≠ [] → s.isUnplugged = true →
      Steps s (.detach env plugout) s
  | detach {env : DetachEnv} {plugout : Bool} : s.request.completed ≠ [] →
      s.device.any (fun dev => dev.port ≠ 0) = true → s.isUnplugged = false →
      Steps s (.detach env plugout)
        { disconnect env s with detaching := some { stage := .closed, plugoutAndDelete := plugout } }
  | detachStep {env : DetachEnv} {task : Detach} : s.detaching = some task →
      Steps s (.detachStep env) (detachStep env task s)
  | deleteDevice {env : DetachEnv} : s.request.completed ≠ [] → s.isLive = true →
      Steps s (.deleteDevice env) (deleteDevice env s)

theorem step_cases {s t : State} {a : Action} (h : step s a = some t) : Steps s a t := by
  cases a with
  | dispatch env once =>
      simp only [step] at h
      split at h
      · exact Option.some.inj h ▸ .dispatch ‹_›
      · cases h
  | irpComplete st first rest =>
      simp only [step] at h
      split at h
      · exact Option.some.inj h ▸ .irpComplete ‹_›
      · cases h
  | complete env =>
      simp only [step] at h
      split at h
      · exact Option.some.inj h ▸ .complete ‹_›
      · cases h
  | afterAnswer canReattach =>
      simp only [step] at h
      split at h
      · exact Option.some.inj h ▸ .afterAnswer ‹_›
      · cases h
  | startAttachAttempts =>
      simp only [step] at h
      split at h
      · exact Option.some.inj h ▸ .startAttachAttempts ‹_›
      · cases h
  | deleteWorkitem closing =>
      simp only [step] at h
      split at h
      · exact Option.some.inj h ▸ .deleteWorkitem ‹_›
      · cases h
  | queryRemove => exact Option.some.inj h ▸ .queryRemove
  | detach env plugout =>
      simp only [step] at h
      split at h
      case isTrue hc =>
        obtain rfl := Option.some.inj h
        cases hflag : s.isUnplugged with
        | true => exact .unplugged hc.1 hflag
        | false => exact .detach hc.1 hc.2.2.1 hflag
      case isFalse => cases h
  | detachStep env =>
      obtain ⟨task, htask, rfl⟩ := Option.map_eq_some_iff.mp h
      exact .detachStep htask
  | deleteDevice env =>
      simp only [step] at h
      split at h
      case isTrue hc => exact Option.some.inj h ▸ .deleteDevice hc.1 hc.2.1
      case isFalse => cases h

theorem Connected.request {env : CompleteEnv} {s t : State} (h : Connected env s t) : t.request = s.request := by
  cases h with
  | imported | created => rfl
  | refused => exact (deleteDevice_deviceOnly _ _).request.trans (detach_deviceOnly _ _ _).request
  | started => exact (detach_deviceOnly _ _ _).request

def newRequest : State := {}

theorem newRequest_reachable (ok : State → Action → Prop) : machine.Reachable ok newRequest := .init ⟨false, rfl⟩

-- The server of the request has been found and is connected.
def connectSchedule (once : Bool) : List Action :=
  [.dispatch {} once, .irpComplete none 0 [], .complete {}, .irpComplete none 0 []]

end Usbip.Attach

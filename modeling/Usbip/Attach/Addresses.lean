import Usbip.Attach.Completion

namespace Usbip.Attach

open Usbip.Library.Hoare
open Usbip.Library.Runs

-- The addresses from which on `complete` calls `connect`, none if it does not call it.
def State.connects (s : State) : List Address :=
  match s.request.control with
  | .queued st =>
    if s.removing then []
    else
      match s.request.ai, st with
      | [], none => s.addrinfo
      | _ :: next, some err => if err.st = .STATUS_CANCELLED then [] else next
      | _, _ => []
  | _ => []

-- The list is there, and no connection has been made.
def State.isConnecting (s : State) : Bool :=
  match s.request.control with
  | .queued st => s.request.ai.isEmpty == st.isNone
  | _ => false

-- The attach ends in this stage, and not because it was cancelled or the controller is removed.
def State.failsToConnect (env : CompleteEnv) (s : State) : Bool :=
  match s.request.control with
  | .queued st =>
    s.isConnecting && !s.removing &&
      match proceed env st s with
      | .error err _ => err.st != .STATUS_CANCELLED
      | .ok .. => false
  | _ => false

-- A run with the list that was resolved, the addresses that `connect` was called for and how the attach has ended.
structure Trace where
  state : State
  resolved : List Address := []
  tried : List Address := []
  failed : Bool := false

def Trace.next (t : Trace) (s : State) : Action → Trace
  | .irpComplete st first rest =>
    { t with
      state := s
      resolved := if t.state.request.ai = [] ∧ st.isNone then first :: rest else t.resolved }
  | .complete env =>
    { t with
      state := s
      tried := t.tried ++ t.state.connects.take 1
      failed := t.failed || t.state.failsToConnect env }
  | _ => { t with state := s }

def tracing : Machine Trace Action where
  init t := ∃ s, machine.init s ∧ t = { state := s }
  step t a := (step t.state a).map fun s => t.next s a

theorem tracing_step {t u : Trace} {a : Action} :
    tracing.step t a = some u ↔ ∃ s, step t.state a = some s ∧ u = t.next s a := by
  simp [tracing, eq_comm]

@[simp] theorem next_state (t : Trace) (s : State) (a : Action) : (t.next s a).state = s := by
  cases a <;> rfl

-- The trace does not change what the attach does.
theorem reachable_state {t : Trace} (h : tracing.Reachable (fun _ _ => True) t) :
    machine.Reachable (fun _ _ => True) t.state := by
  induction h with
  | init ht =>
      obtain ⟨s, hs, rfl⟩ := ht
      exact .init hs
  | step _ _ hs ih =>
      obtain ⟨s, hstep, rfl⟩ := tracing_step.mp hs
      rw [next_state]
      exact ih.step trivial hstep

section Connect

def CompleteEnv.makesSocket (env : CompleteEnv) : Bool := env.socket.isNone && env.setOptions.isNone && env.bind.isNone

variable {env : CompleteEnv}

theorem connect_of_socket (h : env.makesSocket = true) (ai : List Address) (s : State) :
    ∃ t, connect env ai s = .ok .STATUS_PENDING t ∧ t.request = { s.request with ai := ai, control := .armed } ∧
      t.workitem = s.workitem := by
  simp only [CompleteEnv.makesSocket, Bool.and_eq_true, Option.isNone_iff_eq_none] at h
  obtain ⟨⟨hsocket, hoptions⟩, hbind⟩ := h
  unfold connect createSocket
  rw [hsocket, hoptions, hbind]
  exact ⟨_, rfl, rfl, rfl⟩

theorem connect_of_no_socket (h : env.makesSocket = false) (ai : List Address) (s : State) :
    ∃ err t, connect env ai s = .error err t := by
  unfold connect createSocket
  cases hsocket : env.socket with
  | some err => exact ⟨err, s, rfl⟩
  | none =>
      cases hoptions : env.setOptions with
      | some err => exact ⟨err, _, rfl⟩
      | none =>
          cases hbind : env.bind with
          | some err => exact ⟨err, _, rfl⟩
          | none => simp [CompleteEnv.makesSocket, hsocket, hoptions, hbind] at h

end Connect

-- What `complete` does about the addresses: it waits for the first of them, or the attach is over.
inductive Tries (env : CompleteEnv) (s t : State) : Prop
  | waits : s.connects ≠ [] → env.makesSocket = true → s.failsToConnect env = false →
      t.request = { s.request with ai := s.connects, control := .armed } → t.workitem = s.workitem → Tries env s t
  | noSocket : s.connects ≠ [] → env.makesSocket = false → t.request.control.isLate = true → Tries env s t
  | exhausted : s.connects = [] → t.request.control.isLate = true →
      (s.failsToConnect env = true → ∃ a, s.request.ai = [a]) → Tries env s t

section Complete

variable {env : CompleteEnv} {s : State} {st : Outcome}

theorem complete_of_error {err : Failure} {t : State} (h : proceed env st s = .error err t) :
    complete env st s = t.answer err.st := by
  rw [complete, h]

theorem tries_of_connect (hc : s.request.control = .queued st) (hne : s.connects ≠ []) {before : State}
    (hrequest : before.request = s.request) (hworkitem : before.workitem = s.workitem)
    (h : proceed env st s = connect env s.connects before) : Tries env s (complete env st s) := by
  cases hsocket : env.makesSocket with
  | true =>
      obtain ⟨t, hconnect, hrt, hwt⟩ := connect_of_socket hsocket s.connects before
      rw [hconnect] at h
      refine .waits hne hsocket ?_ ?_ ?_
      · simp [State.failsToConnect, hc, h]
      · rw [complete, h]
        exact hrt.trans (by rw [hrequest])
      · rw [complete, h]
        exact hwt.trans hworkitem
  | false =>
      obtain ⟨err, t, hconnect⟩ := connect_of_no_socket hsocket s.connects before
      rw [hconnect] at h
      refine .noSocket hne hsocket ?_
      rw [complete_of_error h]
      rfl

theorem tries_of_error (hc : s.request.control = .queued st) (hnil : s.connects = []) {err : Failure} {t : State}
    (h : proceed env st s = .error err t)
    (hlast : s.isConnecting = true → s.removing = false → err.st ≠ .STATUS_CANCELLED → ∃ a, s.request.ai = [a]) :
    Tries env s (complete env st s) := by
  refine .exhausted hnil ?_ fun hfails => ?_
  · rw [complete_of_error h]
    rfl
  · simp only [State.failsToConnect, hc, h, Bool.and_eq_true, Bool.not_eq_true', bne_iff_ne, ne_eq] at hfails
    exact hlast hfails.1.1 hfails.1.2 hfails.2

theorem proceed_eq : proceed env st s =
    (if s.removing then throw CANCELLED
     else
      match s.request.ai with
      | [] => check st >>= fun _ => connect env s.addrinfo
      | ai => onConnect env st ai : AttachM NTSTATUS) s :=
  rfl

-- After a connection is made the attach ends, in whatever way.
theorem complete_connected (hremoving : s.removing = false) {a : Address} {next : List Address}
    (hai : s.request.ai = a :: next) : (complete env none s).request.control.isLate = true := by
  have hproceed : proceed env none s = (connected env >>= fun _ => pure .STATUS_SUCCESS : AttachM NTSTATUS) s := by
    rw [proceed_eq, hremoving, hai]
    rfl
  have hsuccess : From s (connected env >>= fun _ => pure .STATUS_SUCCESS) (fun r _ => r = NTSTATUS.STATUS_SUCCESS)
      (fun _ _ => True) :=
    From.bind (connected_spec.mono (fun _ _ h => h) fun _ _ _ => trivial) fun _ _ _ => From.pure _ rfl
  unfold complete
  cases hresult : proceed env none s with
  | error err t => rfl
  | ok r t =>
      obtain rfl := hsuccess.ok (hproceed.symm.trans hresult)
      rfl

theorem complete_tries (env : CompleteEnv) (hc : s.request.control = .queued st)
    (haddrinfo : st = none → s.request.ai = [] → s.addrinfo ≠ []) : Tries env s (complete env st s) := by
  cases hremoving : s.removing with
  | true =>
      have hproceed : proceed env st s = .error CANCELLED s := by
        rw [proceed_eq, hremoving]
        rfl
      refine tries_of_error hc (by simp [State.connects, hc, hremoving]) hproceed fun _ hnot => ?_
      rw [hremoving] at hnot
      cases hnot
  | false =>
      match hai : s.request.ai, st with
      | [], none =>
          have hconnects : s.connects = s.addrinfo := by simp [State.connects, hc, hremoving, hai]
          refine tries_of_connect hc (by simpa [hconnects] using haddrinfo rfl hai) rfl rfl ?_
          rw [proceed_eq, hremoving, hai, hconnects]
          rfl
      | [], some err =>
          have hproceed : proceed env (some err) s = .error err s := by
            rw [proceed_eq, hremoving, hai]
            rfl
          refine tries_of_error hc (by simp [State.connects, hc, hremoving, hai]) hproceed fun hconnecting => ?_
          simp [State.isConnecting, hc, hai] at hconnecting
      | a :: next, none =>
          refine .exhausted (by simp [State.connects, hc, hremoving, hai])
            (complete_connected hremoving hai) fun hfails => ?_
          simp [State.failsToConnect, State.isConnecting, hc, hai] at hfails
      | [a], some err =>
          have hproceed : ∃ t, proceed env (some err) s = .error err t := by
            rw [proceed_eq, hremoving, hai]
            exact ⟨_, rfl⟩
          obtain ⟨t, hproceed⟩ := hproceed
          exact tries_of_error hc (by simp [State.connects, hc, hremoving, hai]) hproceed fun _ _ _ => ⟨a, hai⟩
      | a :: b :: rest, some err =>
          have hproceed : proceed env (some err) s =
              (if err.st = .STATUS_CANCELLED then throw err else connect env (b :: rest) : AttachM NTSTATUS)
                (s.mapExt fun ext => { ext with sock := .null }) := by
            rw [proceed_eq, hremoving, hai]
            rfl
          by_cases hcancelled : err.st = .STATUS_CANCELLED
          · rw [if_pos hcancelled] at hproceed
            have hnil : s.connects = [] := by simp [State.connects, hc, hremoving, hai, hcancelled]
            exact tries_of_error hc hnil hproceed fun _ _ hnot => absurd hcancelled hnot
          · rw [if_neg hcancelled] at hproceed
            have hconnects : s.connects = b :: rest := by simp [State.connects, hc, hremoving, hai, hcancelled]
            rw [← hconnects] at hproceed
            have hfreed : (s.mapExt fun ext => { ext with sock := .null }).request = s.request := rfl
            exact tries_of_connect hc (by simp [hconnects]) hfreed rfl hproceed

end Complete

-- Behind the addresses that were tried comes the rest of the list.
structure Waits (ai resolved tried : List Address) : Prop where
  resolving : ai = [] → tried = []
  connecting : ∀ a rest, ai = a :: rest → ∃ before, tried = before ++ [a] ∧ resolved = before ++ a :: rest

-- `next` comes after what was tried: it is the whole list or what follows the current address.
def Follows (ai resolved next : List Address) : Prop := ai = [] ∧ resolved = next ∨ ∃ a, ai = a :: next

theorem Waits.split {ai resolved tried next : List Address} (h : Waits ai resolved tried)
    (hfollows : Follows ai resolved next) : resolved = tried ++ next := by
  obtain ⟨hai, rfl⟩ | ⟨a, hai⟩ := hfollows
  · rw [h.resolving hai, List.nil_append]
  · obtain ⟨before, rfl, rfl⟩ := h.connecting a next hai
    rw [List.append_assoc, List.singleton_append]

theorem Waits.next {ai resolved tried next : List Address} (h : Waits ai resolved tried)
    (hfollows : Follows ai resolved next) (hne : next ≠ []) : Waits next resolved (tried ++ next.take 1) where
  resolving hnil := absurd hnil hne
  connecting a rest hnext := by
    subst hnext
    exact ⟨tried, rfl, h.split hfollows⟩

theorem Waits.tried_eq_iff {ai resolved tried next : List Address} (h : Waits ai resolved tried)
    (hfollows : Follows ai resolved next) : tried ++ next.take 1 = resolved ↔ next.tail = [] := by
  rw [h.split hfollows, List.append_cancel_left_eq]
  cases next with
  | nil => simp
  | cons a rest => simp [eq_comm]

def Tracks (t : Trace) : Prop :=
  match t.state.request.control with
  | .dispatched => t.state.request.ai = [] ∧ t.tried = []
  | .armed => Waits t.state.request.ai t.resolved t.tried
  | .queued st =>
    Waits t.state.request.ai t.resolved t.tried ∧ (st = none → t.state.request.ai = [] → t.resolved = t.state.addrinfo)
  | _ => True

section Tracks

theorem connects_follows {s : State} {st : Outcome} {resolved : List Address} (hc : s.request.control = .queued st)
    (hresolved : st = none → s.request.ai = [] → resolved = s.addrinfo) (hne : s.connects ≠ []) :
    Follows s.request.ai resolved s.connects := by
  unfold State.connects at hne ⊢
  rw [hc] at hne ⊢
  dsimp only at hne ⊢
  split at hne
  · exact absurd rfl hne
  · rename_i hremoving
    rw [if_neg hremoving]
    match hai : s.request.ai, st with
    | [], none => exact .inl ⟨rfl, hresolved rfl hai⟩
    | [], some err =>
        rw [hai] at hne
        exact absurd rfl hne
    | a :: next, none =>
        rw [hai] at hne
        exact absurd rfl hne
    | a :: next, some err =>
        rw [hai] at hne
        dsimp only at hne ⊢
        by_cases hcancelled : err.st = .STATUS_CANCELLED
        · rw [if_pos hcancelled] at hne
          exact absurd rfl hne
        · rw [if_neg hcancelled]
          exact .inr ⟨a, rfl⟩

variable {t u : Trace} {s : State} {a : Action}

theorem Tracks.of_late (h : t.state.request.control.isLate = true) : Tracks t := by
  unfold Tracks
  cases hc : t.state.request.control <;> simp_all [Control.isLate]

theorem Tracks.congr (h : Tracks t) (hrequest : s.request = t.state.request)
    (hworkitem : s.workitem = t.state.workitem) :
    Tracks { t with state := s } := by
  unfold Tracks State.addrinfo at *
  rw [hrequest, hworkitem]
  exact h

theorem next_of_other (ha : ¬ a.goesOn) : t.next s a = { t with state := s } := by
  cases a with
  | dispatch | irpComplete | complete => exact absurd trivial ha
  | _ => rfl

theorem Tracks.other (h : Tracks t) (ha : ¬ a.goesOn) (hs : step t.state a = some s) : Tracks (t.next s a) := by
  rw [next_of_other ha]
  obtain ⟨hrequest, hworkitem, -⟩ | ⟨-, hlate, -⟩ := other_step ha hs
  · exact h.congr hrequest hworkitem
  · exact .of_late hlate

theorem Tracks.dispatch (h : Tracks t) (hi : Answers t.state) {env : PluginEnv} {once : Bool}
    (hs : step t.state (.dispatch env once) = some s) : Tracks (t.next s (.dispatch env once)) := by
  obtain ⟨state, resolved, tried, failed⟩ := t
  cases step_cases hs with
  | dispatch hc =>
      unfold Answers at hi
      unfold Tracks at h
      dsimp only at h hi
      rw [hc] at h hi
      obtain ⟨removing, rfl⟩ := hi
      have hspec := dispatch_spec env once (s := { removing := removing }) rfl rfl
      change Tracks { state := dispatch env once { removing := removing }, resolved, tried, failed }
      generalize Attach.dispatch env once { removing := removing } = next at hspec
      cases hspec with
      | refused | undone => exact .of_late rfl
      | started =>
          cases hprovider : env.provider with
          | true => exact ⟨fun _ => h.2, fun a rest hai => absurd hai (List.cons_ne_nil a rest).symm⟩
          | false => trivial

theorem addrinfo_irpComplete {st : Outcome} {first : Address} {rest : List Address} (hwork : s.workitem.isSome)
    (hst : st = none) (hai : s.request.ai = []) : (irpComplete st first rest s).addrinfo = first :: rest := by
  obtain ⟨ctx, hctx⟩ := Option.isSome_iff_exists.mp hwork
  subst hst
  simp [Attach.irpComplete, hai, State.addrinfo, State.mapWorkitem, hctx]

theorem Tracks.irpComplete (h : Tracks t) (hi : Answers t.state) {st : Outcome} {first : Address} {rest : List Address}
    (hs : step t.state (.irpComplete st first rest) = some s) : Tracks (t.next s (.irpComplete st first rest)) := by
  cases step_cases hs with
  | irpComplete hc =>
      unfold Answers at hi
      unfold Tracks at h
      rw [hc] at h hi
      have hrequest := irpComplete_request st first rest t.state
      unfold Tracks
      rw [next_state, hrequest]
      constructor
      · refine ⟨h.resolving, fun a next hai => ?_⟩
        obtain ⟨before, htried, hresolved⟩ := h.connecting a next hai
        refine ⟨before, htried, ?_⟩
        dsimp only at hai
        simp [Trace.next, hai, hresolved]
      · intro hst hai
        dsimp only at hai
        rw [addrinfo_irpComplete hi.2.2 hst hai]
        simp [Trace.next, hai, hst]

theorem Tracks.complete (h : Tracks t) (hi : Answers t.state) {env : CompleteEnv}
    (hs : step t.state (.complete env) = some s) : Tracks (t.next s (.complete env)) := by
  cases step_cases hs with
  | @complete _ st hc =>
      unfold Answers at hi
      unfold Tracks at h
      rw [hc] at h hi
      generalize hnext : Attach.complete env st t.state = s
      cases hnext ▸ complete_tries env hc hi.2.2.2 with
      | waits hne _ _ hrequest _ =>
          unfold Tracks
          rw [next_state, hrequest]
          exact h.1.next (connects_follows hc h.2 hne) hne
      | noSocket _ _ hlate => exact .of_late (by rwa [next_state])
      | exhausted _ hlate _ => exact .of_late (by rwa [next_state])

end Tracks

theorem reachable_tracks {t : Trace} (h : tracing.Reachable (fun _ _ => True) t) : Tracks t := by
  refine h.invariant_under (J := Tracks) (fun _ ht => reachable_answers (reachable_state ht)) ?_ ?_
  · rintro t ⟨s, ⟨removing, rfl⟩, rfl⟩
    exact ⟨rfl, rfl⟩
  · intro t a u hi htracks _ hs
    obtain ⟨s, hstep, rfl⟩ := tracing_step.mp hs
    cases a with
    | dispatch => exact htracks.dispatch hi hstep
    | irpComplete => exact htracks.irpComplete hi hstep
    | complete => exact htracks.complete hi hstep
    | _ => exact htracks.other (fun h => h) hstep

-- A socket is made for every address that is not the last one.
def SocketsMade (t : Trace) : Action → Prop
  | .complete env => t.state.connects.tail ≠ [] → env.makesSocket = true
  | _ => True

instance : ∀ (t : Trace) (a : Action), Decidable (SocketsMade t a)
  | t, .complete env => inferInstanceAs (Decidable (t.state.connects.tail ≠ [] → env.makesSocket = true))
  | _, .dispatch .. | _, .irpComplete .. | _, .afterAnswer _ | _, .startAttachAttempts | _, .deleteWorkitem _
  | _, .queryRemove | _, .detach .. | _, .detachStep _ | _, .deleteDevice _ => isTrue trivial

section Failure

variable {t u : Trace} {a : Action}

theorem failed_next {s : State} (hfailed : t.failed = false) (hu : (t.next s a).failed = true) :
    ∃ env, a = .complete env ∧ t.state.failsToConnect env = true := by
  cases a with
  | complete env => exact ⟨env, rfl, by simpa [Trace.next, hfailed] using hu⟩
  | _ => exact absurd (hfailed.symm.trans hu) Bool.false_ne_true

-- The attach has tried all addresses when it fails, or it has not made a socket for one of the others.
theorem tried_iff (htracks : Tracks t) (hi : Answers t.state) (hs : tracing.step t a = some u)
    (hfailed : t.failed = false) (hu : u.failed = true) : u.tried = u.resolved ↔ SocketsMade t a := by
  obtain ⟨s, hstep, rfl⟩ := tracing_step.mp hs
  obtain ⟨env, rfl, hfails⟩ := failed_next hfailed hu
  cases step_cases hstep with
  | @complete _ st hc =>
      unfold Answers at hi
      unfold Tracks at htracks
      rw [hc] at htracks hi
      obtain ⟨hwaits, hresolved⟩ := htracks
      change t.tried ++ t.state.connects.take 1 = t.resolved ↔ (t.state.connects.tail ≠ [] → env.makesSocket = true)
      cases complete_tries env hc hi.2.2.2 with
      | waits _ _ hgoesOn _ _ => exact absurd (hgoesOn.symm.trans hfails) Bool.false_ne_true
      | noSocket hne hsocket _ =>
          rw [hwaits.tried_eq_iff (connects_follows hc hresolved hne), hsocket]
          simp
      | exhausted hnil _ hlast =>
          obtain ⟨b, hb⟩ := hlast hfails
          obtain ⟨before, htried, hresolved⟩ := hwaits.connecting b [] hb
          simp [hnil, htried, hresolved]

theorem failed_late (hi : Answers t.state) (hs : tracing.step t a = some u) (hfailed : t.failed = false)
    (hu : u.failed = true) : u.state.request.control.isLate = true := by
  obtain ⟨s, hstep, rfl⟩ := tracing_step.mp hs
  obtain ⟨env, rfl, hfails⟩ := failed_next hfailed hu
  cases step_cases hstep with
  | @complete _ st hc =>
      unfold Answers at hi
      rw [hc] at hi
      rw [next_state]
      cases complete_tries env hc hi.2.2.2 with
      | waits _ _ hgoesOn _ _ => exact absurd (hgoesOn.symm.trans hfails) Bool.false_ne_true
      | noSocket _ _ hlate => exact hlate
      | exhausted _ hlate _ => exact hlate

theorem not_goesOn_of_late (hlate : t.state.request.control.isLate = true) (hs : tracing.step t a = some u) :
    ¬ a.goesOn := by
  obtain ⟨s, hstep, -⟩ := tracing_step.mp hs
  intro hgoes
  cases step_cases hstep with
  | dispatch hc | irpComplete hc | complete hc =>
      rw [hc] at hlate
      cases hlate
  | _ => exact hgoes

-- Nothing is tried any more after the attach has failed.
theorem failed_stays (hlate : t.state.request.control.isLate = true) (hs : tracing.step t a = some u) :
    u.state.request.control.isLate = true ∧ u.tried = t.tried ∧ u.resolved = t.resolved := by
  have hother := not_goesOn_of_late hlate hs
  obtain ⟨s, hstep, rfl⟩ := tracing_step.mp hs
  rw [next_of_other hother]
  refine ⟨?_, rfl, rfl⟩
  obtain ⟨hrequest, -, -⟩ | ⟨-, hstill, -⟩ := other_step hother hstep
  · exact hrequest ▸ hlate
  · exact hstill

end Failure

theorem reachable_any {ok : Trace → Action → Prop} {t : Trace} (h : tracing.Reachable ok t) :
    tracing.Reachable (fun _ _ => True) t :=
  h.mono fun _ _ _ => trivial

theorem tried_of_failed {t : Trace} (h : tracing.Reachable SocketsMade t) :
    t.failed = true → t.state.request.control.isLate = true ∧ t.tried = t.resolved := by
  induction h with
  | init ht =>
      obtain ⟨s, -, rfl⟩ := ht
      exact fun hfailed => absurd hfailed Bool.false_ne_true
  | step hr hok hs ih =>
      rename_i t u a
      intro hu
      have hi := reachable_answers (reachable_state (reachable_any hr))
      cases hfailed : t.failed with
      | true =>
          obtain ⟨hlate, htried⟩ := ih hfailed
          obtain ⟨hstill, hsame, hlist⟩ := failed_stays hlate hs
          exact ⟨hstill, by rw [hsame, htried, hlist]⟩
      | false =>
          have htracks := reachable_tracks (reachable_any hr)
          exact ⟨failed_late hi hs hfailed hu, (tried_iff htracks hi hs hfailed hu).mpr hok⟩

-- In runs in which a socket can be made for every address but the last, an attach that fails to connect has
-- tried all of them; in any run it is the step in which it fails that decides.
theorem all_addresses_tried (t : Trace) :
    (tracing.Reachable SocketsMade t → t.failed = true → t.tried = t.resolved) ∧
      ∀ (u : Trace) (a : Action), tracing.Reachable (fun _ _ => True) t → tracing.step t a = some u →
        t.failed = false → u.failed = true → (u.tried = u.resolved ↔ SocketsMade t a) := by
  constructor
  · intro h hfailed
    exact (tried_of_failed h hfailed).2
  · intro u a h hs hfailed hu
    exact tried_iff (reachable_tracks h) (reachable_answers (reachable_state h)) hs hfailed hu

def NETWORK_UNREACHABLE : Failure := ⟨.failure 0xC000023C, by decide, by decide⟩

-- Two addresses, and no server answers at either of them.
def unreachableSchedule : List Action :=
  [.dispatch {} true, .irpComplete none 0 [1], .complete {}, .irpComplete (some NETWORK_UNREACHABLE) 0 [],
    .complete {}, .irpComplete (some NETWORK_UNREACHABLE) 0 [], .complete {}]

theorem newTrace_reachable (ok : Trace → Action → Prop) : tracing.Reachable ok { state := newRequest } :=
  .init ⟨newRequest, ⟨false, rfl⟩, rfl⟩

theorem all_addresses_tried_unreachable :
    ∃ t : Trace, t.failed = true ∧ t.resolved = [0, 1] ∧ t.tried = t.resolved := by
  have hrun : (tracing.run SocketsMade { state := newRequest } unreachableSchedule).any
      (fun t => t.failed && t.resolved == [0, 1]) = true := by
    decide +kernel
  obtain ⟨t, ht, hfailed⟩ := (newTrace_reachable _).exists_run hrun
  obtain ⟨hfailed, hresolved⟩ := Bool.and_eq_true_iff.mp hfailed
  exact ⟨t, hfailed, eq_of_beq hresolved, (all_addresses_tried t).1 ht hfailed⟩

-- There is no socket for the family of the first address, and the second one is never tried.
theorem second_address_not_tried :
    ¬ ∀ t, tracing.Reachable (fun _ _ => True) t → t.failed = true → t.tried = t.resolved := by
  intro h
  have hrun : (tracing.run (fun _ _ => True) { state := newRequest }
      [.dispatch {} true, .irpComplete none 0 [1], .complete { socket := some NETWORK_UNREACHABLE }]).any
        (fun t => t.failed && t.resolved == [0, 1] && t.tried == [0]) = true := by
    decide +kernel
  obtain ⟨t, ht, hends⟩ := (newTrace_reachable _).exists_run hrun
  simp only [Bool.and_eq_true, beq_iff_eq] at hends
  obtain ⟨⟨hfailed, hresolved⟩, htried⟩ := hends
  have hall := h t ht hfailed
  rw [hresolved, htried] at hall
  cases hall

end Usbip.Attach

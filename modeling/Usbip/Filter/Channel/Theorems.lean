import Usbip.Filter.Channel
import Usbip.Filter.Request.Theorems
import Usbip.Library.Ledger

namespace Usbip.Filter.Channel

open Select
open Usbip.Library.Heap
open Usbip.Library.Ledger
open Usbip.Library.Runs
open Usbip.Send
open Usbip.Wsk

section Handles

variable {endpoints : Endpoints} {owner : PipeHandle → Option Byte} {pipe other : PipeInfo}

-- One round of the loop of `update_pipe_properties`.
def setPipe (endpoints : Endpoints) (pipe : PipeInfo) : Endpoints :=
  match findEndpoint endpoints (.address pipe.endpointAddress) with
  | some endp => endpoints.setPipeHandle endp pipe.pipeHandle
  | none => endpoints

-- Each endpoint that has a handle is the one that the handle was given to last.
def Owned (endpoints : Endpoints) (owner : PipeHandle → Option Byte) : Prop :=
  ∀ endp ∈ endpoints.list, endpoints.pipeHandle endp ≠ 0 →
    owner (endpoints.pipeHandle endp) = some (endpoints.descriptor endp).bEndpointAddress

theorem setPipe_list (endpoints : Endpoints) (pipe : PipeInfo) :
    (setPipe endpoints pipe).list = endpoints.list ∧
      (setPipe endpoints pipe).descriptor = endpoints.descriptor := by
  unfold setPipe
  split <;> exact ⟨rfl, rfl⟩

-- An endpoint has the handle it had, or it is that of the pipe and has its handle.
theorem setPipe_handle (endpoints : Endpoints) (pipe : PipeInfo) (endp : Nat) :
    (setPipe endpoints pipe).pipeHandle endp = endpoints.pipeHandle endp ∨
      (setPipe endpoints pipe).pipeHandle endp = pipe.pipeHandle ∧
        (endpoints.descriptor endp).bEndpointAddress = pipe.endpointAddress := by
  unfold setPipe
  split
  · next found hfind =>
      by_cases heq : endp = found
      · subst heq
        have hmatch := (List.find?_eq_some_iff_append.mp hfind).1
        exact .inr ⟨Function.update_self .., (beq_iff_eq.mp hmatch).symm⟩
      · exact .inl (Function.update_of_ne heq ..)
  · exact .inl rfl

theorem Owned.tell_of_unused (h : Owned endpoints owner) (hunused : Unused endpoints pipe) :
    Owned endpoints (tell owner pipe) := by
  intro endp hendp hne
  by_cases heq : endpoints.pipeHandle endp = pipe.pipeHandle
  · rw [tell, heq, Function.update_self, hunused endp hendp heq]
  · rw [tell, Function.update_of_ne heq]
    exact h endp hendp hne

theorem Owned.setPipe (h : Owned endpoints owner) (hunused : Unused endpoints pipe) :
    Owned (setPipe endpoints pipe) (tell owner pipe) := by
  obtain ⟨hlist, hdescriptor⟩ := setPipe_list endpoints pipe
  intro endp hendp hne
  rw [hlist] at hendp
  rw [hdescriptor]
  obtain hsame | ⟨hset, haddress⟩ := setPipe_handle endpoints pipe endp
  · rw [hsame] at hne ⊢
    exact h.tell_of_unused hunused endp hendp hne
  · rw [hset, tell, Function.update_self, haddress]

theorem Unused.setPipe (h : Unused endpoints other)
    (hpipe : pipe.pipeHandle = other.pipeHandle → pipe.endpointAddress = other.endpointAddress) :
    Unused (setPipe endpoints pipe) other := by
  obtain ⟨hlist, hdescriptor⟩ := setPipe_list endpoints pipe
  intro endp hendp heq
  rw [hlist] at hendp
  rw [hdescriptor]
  obtain hsame | ⟨hset, haddress⟩ := setPipe_handle endpoints pipe endp
  · exact h endp hendp (hsame.symm.trans heq)
  · exact haddress.trans (hpipe (hset.symm.trans heq))

theorem foldl_setPipe (pipes : List PipeInfo) (h : Owned endpoints owner) (htold : Told endpoints pipes) :
    Owned (pipes.foldl setPipe endpoints) (pipes.foldl tell owner) := by
  induction pipes generalizing endpoints owner with
  | nil => exact h
  | cons pipe pipes ih =>
      obtain ⟨hunused, hpairwise⟩ := htold
      obtain ⟨⟨-, hpipe⟩, hrest⟩ := List.forall_mem_cons.mp hunused
      obtain ⟨hfirst, hpairs⟩ := List.pairwise_cons.mp hpairwise
      refine ih (h.setPipe hpipe) ⟨fun q hq => ?_, hpairs⟩
      exact ⟨(hrest q hq).1, (hrest q hq).2.setPipe (hfirst q hq)⟩

end Handles

section Accept

variable {st st' : Filter.State} {r' : ControlUrb} {err : NTSTATUS}

theorem foldl_updatePipeProperties (pipes : Nat → InterfaceInfo) (steps : List Nat) (endpoints : Endpoints) :
    steps.foldl (fun endpoints i => updatePipeProperties endpoints (pipes i)) endpoints =
      (steps.flatMap fun i => (pipes i).pipes).foldl setPipe endpoints := by
  rw [List.foldl_flatMap]
  rfl

theorem selectConfiguration_endpoints (st : Filter.State) (p : Pointer) :
    (selectConfiguration st p).2.endpoints =
      (SelectConfiguration.pipes (st.urbAt p).selectConfiguration).foldl setPipe st.endpoints := by
  unfold selectConfiguration SelectConfiguration.pipes
  dsimp only
  cases (st.urbAt p).selectConfiguration.configurationDescriptor with
  | none => rfl
  | some cd => exact foldl_updatePipeProperties _ _ _

-- Whatever the function is, the handles of the endpoints change by the pipes that the URB tells of.
theorem unpackFunction_endpoints (st : Filter.State) (p : Pointer) (function : Nat) :
    (unpackFunction st p function).2.endpoints = (pipesOf function (st.urbAt p)).foldl setPipe st.endpoints := by
  unfold unpackFunction pipesOf
  split_ifs with hpipe hinterface hconfiguration
  · rw [hinterface] at hpipe
    exact absurd hpipe (by decide)
  · rw [hconfiguration] at hpipe
    exact absurd hpipe (by decide)
  · unfold clearEndpointStall
    split <;> rfl
  · rfl
  · exact selectConfiguration_endpoints st p
  · rfl

theorem unpackFunction_urbAt {p q : Pointer} (function : Nat) (hne : q ≠ p) :
    (unpackFunction st p function).2.urbAt q = st.urbAt q := by
  unfold unpackFunction
  split_ifs
  · unfold clearEndpointStall
    split
    · rfl
    · exact Function.update_of_ne hne _ _
  · rfl
  · unfold selectConfiguration
    dsimp only
    split <;> rfl
  · rfl

-- A request as the filter has made it, and the memory it points to.
structure IsCopy (st : Filter.State) (posted : Posted) : Prop where
  packed : posted.1 = packRequest { function := .other } posted.1.bufferAddress posted.2.function
  copy : st.urbAt posted.1.bufferAddress = (copyOf posted.1.bufferAddress posted.2).toUnion
  fresh : Fresh posted.1.bufferAddress posted.2

theorem IsCopy.function {posted : Posted} (h : IsCopy st posted) :
    getFunction posted.1 = posted.2.function.toNat := by
  rw [h.packed]
  exact getFunction_packRequest _ _ _

theorem unpackRequest_state (st : Filter.State) (r : ControlUrb) (function : Nat) :
    (unpackRequest st r function).2.2 = (unpackFunction st r.bufferAddress function).2 ∧
      (unpackRequest st r function).2.1.bufferAddress = r.bufferAddress := by
  unfold unpackRequest
  dsimp only
  split
  · rename_i hunpack
    exact ⟨(congrArg Prod.snd hunpack).symm, rfl⟩
  · rename_i hunpack
    refine ⟨(congrArg Prod.snd hunpack).symm, ?_⟩
    dsimp only
    split <;> rfl

-- What the handler of control transfers does with the drivers' memory when it gets such a request.
structure Accepts (st : Filter.State) (posted : Posted) (st' : Filter.State) (r' : ControlUrb) : Prop where
  buffer : r'.bufferAddress = posted.1.bufferAddress
  endpoints : st'.endpoints = (toldBy st posted.1).foldl setPipe st.endpoints
  urbAt : ∀ q ≠ posted.1.bufferAddress, st'.urbAt q = st.urbAt q

theorem IsCopy.accepts {posted : Posted} (h : IsCopy st posted)
    (haccept : acceptUrb st ep0 posted.1 = (err, r', st')) : Accepts st posted st' r' := by
  have htold : toldBy st posted.1 = pipesOf posted.2.function.toNat (st.urbAt posted.1.bufferAddress) := by
    rw [toldBy, h.function]
  rw [h.packed, acceptUrb_packed] at haccept
  obtain ⟨hstate, hbuffer⟩ := unpackRequest_state st
    { packRequest { function := .other } posted.1.bufferAddress posted.2.function with timeout := 0 }
    posted.2.function.toNat
  rw [haccept] at hstate hbuffer
  dsimp only at hstate hbuffer
  subst hstate
  refine ⟨hbuffer, ?_, fun q hq => unpackFunction_urbAt _ hq⟩
  rw [htold]
  exact unpackFunction_endpoints st posted.1.bufferAddress _

theorem IsCopy.standard {posted : Posted} (h : IsCopy st posted) (hwhole : posted.2.Whole)
    (haccept : acceptUrb st ep0 posted.1 = (.STATUS_SUCCESS, r', st')) :
    StandardRequest st.endpoints posted.2.toUnion (SetupPacket.ofBytes r'.setupPacket) := by
  have hsame := hwhole.sameRequest h.fresh
  have hfunction : (copyOf posted.1.bufferAddress posted.2).toUnion.function = posted.2.function := hsame.function
  rw [h.packed, ← hfunction] at haccept
  obtain ⟨pkt, hunpacked⟩ := unpackRequest_packed h.copy haccept
  rw [hunpacked.setup]
  exact hunpacked.standard.of_same hsame

theorem isPipeFunction_iff {function : Nat} :
    isPipeFunction function = true ↔ function = URB_FUNCTION_SYNC_RESET_PIPE_AND_CLEAR_STALL ∨
      function = URB_FUNCTION_SYNC_RESET_PIPE ∨ function = URB_FUNCTION_SYNC_CLEAR_STALL := by
  simp [isPipeFunction, or_assoc]

theorem unpackRequest_pipe {r : ControlUrb} {function : Nat} (hpipe : isPipeFunction function = true) :
    (unpackRequest st r function).1 = .STATUS_SUCCESS ↔
      ∃ endp ∈ st.endpoints.list, st.endpoints.pipeHandle endp = (st.urbAt r.bufferAddress).pipeRequest := by
  have hfunction : unpackFunction st r.bufferAddress function = clearEndpointStall st r.bufferAddress :=
    if_pos (isPipeFunction_iff.mp hpipe)
  cases hfind : findEndpoint st.endpoints (.handle (st.urbAt r.bufferAddress).pipeRequest) with
  | some endp =>
      have hhandle := (List.find?_eq_some_iff_append.mp hfind).1
      simp only [unpackRequest, hfunction, clearEndpointStall, hfind, true_iff]
      exact ⟨endp, List.mem_of_find?_eq_some hfind, (beq_iff_eq.mp hhandle).symm⟩
  | none =>
      simp only [unpackRequest, hfunction, clearEndpointStall, hfind, reduceCtorEq, false_iff]
      rintro ⟨endp, hendp, hhandle⟩
      have hnot := List.find?_eq_none.mp hfind endp hendp
      rw [matchesSearch, hhandle] at hnot
      simp at hnot

-- The handle of a pipe request is all that has to be copied of it.
theorem whole_of_pipe {urb : RawUrb} (hpipe : isPipeFunction urb.function.toNat = true)
    (h : offsetPointer + 8 ≤ urb.length) : urb.Whole := by
  rw [isPipeFunction_iff] at hpipe
  constructor
  · rwa [fixedLength, if_neg]
    intro hinterface
    rw [hinterface] at hpipe
    exact absurd hpipe (by decide)
  · intro hconfiguration
    rw [hconfiguration] at hpipe
    exact absurd hpipe (by decide)

theorem IsCopy.pipeRequest {posted : Posted} (h : IsCopy st posted)
    (hpipe : isPipeFunction posted.2.function.toNat = true) (hlength : offsetPointer + 8 ≤ posted.2.length) :
    (st.urbAt posted.1.bufferAddress).pipeRequest = posted.2.pipeRequest := by
  have hne : posted.2.function.toNat ≠ URB_FUNCTION_SELECT_CONFIGURATION := by
    intro hconfiguration
    rw [hconfiguration] at hpipe
    exact absurd hpipe (by decide)
  rw [h.copy]
  exact copyOf_pipeRequest hlength hne

-- A stall is cleared if an endpoint has the handle.
theorem IsCopy.pipe {posted : Posted} (h : IsCopy st posted) (hpipe : isPipeFunction posted.2.function.toNat = true)
    (hlength : offsetPointer + 8 ≤ posted.2.length) :
    (acceptUrb st ep0 posted.1).1 = .STATUS_SUCCESS ↔
      ∃ endp ∈ st.endpoints.list, st.endpoints.pipeHandle endp = posted.2.pipeRequest := by
  rw [h.packed, acceptUrb_packed, unpackRequest_pipe hpipe]
  change (∃ endp ∈ _, _ = (st.urbAt posted.1.bufferAddress).pipeRequest) ↔ _
  rw [h.pipeRequest hpipe hlength]

-- The stall is cleared on the endpoint that had the handle given to it last.
theorem Owned.standardRequest {endpoints : Endpoints} {owner : PipeHandle → Option Byte} {urb : UrbUnion}
    {pkt : SetupPacket} (howned : Owned endpoints owner) (h : StandardRequest endpoints urb pkt)
    (hpipe : isPipeFunction urb.function.toNat = true) (hne : urb.pipeRequest ≠ 0) :
    owner urb.pipeRequest = some pkt.wIndexLow := by
  rw [isPipeFunction_iff] at hpipe
  cases h with
  | setConfiguration hfunction =>
      rw [hfunction] at hpipe
      exact absurd hpipe (by decide)
  | setInterface hfunction =>
      rw [hfunction] at hpipe
      exact absurd hpipe (by decide)
  | clearHalt _ hlist hhandle _ =>
      rw [← hhandle] at hne ⊢
      refine howned _ ?_ hne
      rw [hlist]
      exact List.mem_append_right _ List.mem_cons_self

end Accept

section Memory

variable {c c' : State} {posted : Posted}

def bufferOf (posted : Posted) : Pointer := posted.1.bufferAddress

-- The copies in the pool are those of the requests that have not been completed.
structure Inv (c : State) : Prop where
  fault : c.fault = false
  ledger : Balanced bufferOf c.allocated (c.sent ++ c.taken)
  copies : ∀ posted ∈ c.sent, IsCopy c.shared posted

-- Memory that is not one of the copies may change.
theorem IsCopy.frame {st st' : Filter.State} (h : IsCopy st posted)
    (hurb : st'.urbAt (bufferOf posted) = st.urbAt (bufferOf posted)) : IsCopy st' posted :=
  ⟨h.packed, hurb.trans h.copy, h.fresh⟩

theorem Inv.post (h : Inv c) {urb : RawUrb} {buffer : Option Pointer}
    (hnew : ∀ p ∈ buffer, p ∉ c.allocated ∧ Fresh p urb) (sendable : Bool) : Inv (post c urb buffer sendable) := by
  unfold Channel.post
  split
  · rename_i copy r shared hpost
    obtain ⟨rfl, rfl⟩ := postProcessUrb_eq_some hpost
    obtain ⟨hcopy, hfresh⟩ := hnew copy rfl
    have hothers : ∀ posted ∈ c.sent,
        IsCopy { c.shared with urbAt := Function.update c.shared.urbAt copy (copyOf copy urb).toUnion } posted := by
      intro posted hposted
      refine (h.copies posted hposted).frame (Function.update_of_ne ?_ _ _)
      intro heq
      exact hcopy (heq ▸ h.ledger.mem (List.mem_append_left _ hposted))
    split
    · refine ⟨h.fault, ?_, ?_⟩
      · have hposted : Balanced bufferOf _
            ((packRequest { function := .other } copy urb.function, urb) :: (c.sent ++ c.taken)) :=
          h.ledger.add hcopy
        refine hposted.of_perm (List.Perm.map _ ?_)
        rw [List.append_assoc]
        exact List.perm_middle.symm
      · intro posted hposted
        obtain hold | hposted := List.mem_append.mp hposted
        · exact hothers posted hold
        · obtain rfl := List.mem_singleton.mp hposted
          exact ⟨rfl, Function.update_self _ _ _, hfresh⟩
    · exact ⟨h.fault, h.ledger, hothers⟩
  · exact h

theorem Inv.take (h : Inv c) {i : Nat} (hi : c.sent[i]? = some posted) :
    Inv (take c posted (c.sent.eraseIdx i)) := by
  obtain ⟨⟨err, r', shared⟩, haccept⟩ : ∃ a, acceptUrb c.shared ep0 posted.1 = a := ⟨_, rfl⟩
  have hmem := List.mem_of_getElem? hi
  have haccepts := (h.copies posted hmem).accepts haccept
  have hledger := h.ledger.pick_left hi
  rw [Channel.take, haccept]
  refine ⟨?_, ?_, fun other hother => ?_⟩
  · have hread : posted.1.bufferAddress ∈ c.allocated := h.ledger.mem (List.mem_append_left _ hmem)
    simp [h.fault, reads, hread]
  · refine hledger.of_perm ?_
    have hsame : bufferOf (r', posted.2) = bufferOf posted := haccepts.buffer
    simp only [List.map_cons, List.map_append, List.map_nil, hsame]
    rw [← List.append_assoc]
    exact (List.perm_append_singleton _ _).symm
  · exact (h.copies other (List.mem_of_mem_eraseIdx hother)).frame
      (haccepts.urbAt _ (hledger.ne (List.mem_append_left _ hother)))

theorem Inv.transfer (h : Inv c) {endp : Nat} {r : ControlUrb} (hforeign : isRequest r = false) :
    Inv (transfer c endp r) := by
  have hurb : (savePipeHandle c.shared endp r).urbAt = c.shared.urbAt := by
    unfold savePipeHandle
    split <;> rfl
  rw [Channel.transfer, acceptUrb_foreign hforeign]
  refine ⟨by simp [h.fault, reads, hforeign], h.ledger, fun posted hposted => ?_⟩
  exact (h.copies posted hposted).frame (congrFun hurb _)

-- A request is freed once, when it is completed, wherever it was until then.
theorem Inv.cancel (h : Inv c) {i : Nat} (hi : c.sent[i]? = some posted) :
    Inv { free c posted with sent := c.sent.eraseIdx i } := by
  have hmem := List.mem_of_getElem? hi
  have hledger := h.ledger.pick_left hi
  have hallocated : posted.1.bufferAddress ∈ c.allocated := h.ledger.mem (List.mem_append_left _ hmem)
  refine ⟨by simp [free, h.fault, hallocated], hledger.drop, fun other hother => ?_⟩
  exact h.copies other (List.mem_of_mem_eraseIdx hother)

theorem Inv.complete (h : Inv c) {i : Nat} (hi : c.taken[i]? = some posted) :
    Inv { free c posted with taken := c.taken.eraseIdx i } := by
  have hmem := List.mem_of_getElem? hi
  have hledger := h.ledger.pick_right hi
  have hallocated : posted.1.bufferAddress ∈ c.allocated := h.ledger.mem (List.mem_append_right _ hmem)
  exact ⟨by simp [free, h.fault, hallocated], hledger.drop, h.copies⟩

theorem step_add {endp : Nat} {descriptor : EndpointDescriptor}
    (hstep : machine.step c (.add endp descriptor) = some c') :
    endp ∉ c.shared.endpoints.list ∧
      c' = { c with shared := { c.shared with endpoints := addEndpoint c.shared.endpoints endp descriptor } } := by
  change step c (.add endp descriptor) = some c' at hstep
  rw [step] at hstep
  split_ifs at hstep with hused
  exact ⟨fun hmem => hused (.inr hmem), (Option.some_inj.mp hstep).symm⟩

theorem inv_step {a : Action} (h : Inv c) (hok : FreshMemory c a) (hstep : machine.step c a = some c') : Inv c' := by
  cases a with
  | post urb buffer sendable =>
      cases hstep
      exact h.post hok sendable
  | take i =>
      obtain ⟨posted, hi, rfl⟩ := Option.map_eq_some_iff.mp hstep
      exact h.take hi
  | cancel i =>
      obtain ⟨posted, hi, rfl⟩ := Option.map_eq_some_iff.mp hstep
      exact h.cancel hi
  | complete i =>
      obtain ⟨posted, hi, rfl⟩ := Option.map_eq_some_iff.mp hstep
      exact h.complete hi
  | transfer endp r =>
      cases hstep
      exact h.transfer hok
  | dataTransfer endp handle =>
      cases hstep
      refine ⟨h.fault, h.ledger, fun posted hposted => (h.copies posted hposted).frame ?_⟩
      unfold dataTransfer
      dsimp only
      split <;> rfl
  | add endp descriptor =>
      obtain ⟨-, rfl⟩ := step_add hstep
      exact ⟨h.fault, h.ledger, fun posted hposted => (h.copies posted hposted).frame rfl⟩
  | remove endp =>
      cases hstep
      exact ⟨h.fault, h.ledger, fun posted hposted => (h.copies posted hposted).frame rfl⟩

theorem reachable_inv (h : machine.Reachable FreshMemory c) : Inv c := by
  refine Machine.Reachable.invariant (fun s hs => ?_) (fun s a t hi hok hstep => inv_step hi hok hstep) h
  obtain ⟨hallocated, hsent, htaken, hfault, -, -⟩ := hs
  refine ⟨hfault, ?_, ?_⟩
  · rw [hallocated, hsent, htaken]
    exact balanced_nil _
  · simp [hsent]

-- A device with two endpoints whose interface gets its other setting.
def boot : State where
  shared := { urbAt := fun _ => { function := 0 }, endpoints := {} }

def clearStall : RawUrb where
  heap := ofBytes [(256, 40), (258, 49), (280, 6)]
  address := 256

def setup : List Action :=
  [.add 1 { bEndpointAddress := 0x81 }, .add 2 { bEndpointAddress := 0x02 }, .post setAlternate (some 7) true,
    .take 0]

theorem boot_reachable (ok : State → Action → Prop) : machine.Reachable ok boot :=
  .init ⟨rfl, rfl, rfl, rfl, rfl, rfl⟩

end Memory

section Stalls

variable {c c' : State} {posted : Posted} {rest : List Posted}

structure HandleInv (c : State) : Prop where
  owned : Owned c.shared.endpoints c.owner
  cleared : ∀ stall ∈ c.cleared, stall.handle ≠ 0 → stall.owner = some stall.address
  sent : ∀ posted ∈ c.sent, isPipeFunction posted.2.function.toNat = true → offsetPointer + 8 ≤ posted.2.length

theorem post_endpoints (c : State) (urb : RawUrb) (buffer : Option Pointer) (sendable : Bool) :
    (post c urb buffer sendable).shared.endpoints = c.shared.endpoints ∧
      (post c urb buffer sendable).owner = c.owner ∧ (post c urb buffer sendable).cleared = c.cleared ∧
      ∀ posted ∈ (post c urb buffer sendable).sent, posted ∈ c.sent ∨ posted.2 = urb := by
  unfold post
  split
  · rename_i hpost
    obtain ⟨-, rfl⟩ := postProcessUrb_eq_some hpost
    split
    · refine ⟨rfl, rfl, rfl, fun posted hposted => ?_⟩
      obtain hold | hposted := List.mem_append.mp hposted
      · exact .inl hold
      · exact .inr (congrArg Prod.snd (List.mem_singleton.mp hposted))
    · exact ⟨rfl, rfl, rfl, fun posted hposted => .inl hposted⟩
  · exact ⟨rfl, rfl, rfl, fun posted hposted => .inl hposted⟩

theorem mem_clearedBy {stall : ClearedStall} (hmem : stall ∈ clearedBy c posted.1) (hcopy : IsCopy c.shared posted)
    (hlength : isPipeFunction posted.2.function.toNat = true → offsetPointer + 8 ≤ posted.2.length)
    (howned : Owned c.shared.endpoints c.owner) (hne : stall.handle ≠ 0) : stall.owner = some stall.address := by
  obtain ⟨⟨err, r', shared⟩, haccept⟩ : ∃ a, acceptUrb c.shared ep0 posted.1 = a := ⟨_, rfl⟩
  rw [clearedBy, haccept, hcopy.function] at hmem
  dsimp only at hmem
  split_ifs at hmem with hpipe
  · obtain ⟨hpipe, rfl⟩ := hpipe
    obtain rfl := List.mem_singleton.mp hmem
    rw [hcopy.pipeRequest hpipe (hlength hpipe)] at hne ⊢
    exact howned.standardRequest (hcopy.standard (whole_of_pipe hpipe (hlength hpipe)) haccept) hpipe hne
  · cases hmem

theorem HandleInv.take (h : HandleInv c) (hcopy : IsCopy c.shared posted) (hmem : posted ∈ c.sent)
    (hrest : ∀ other ∈ rest, other ∈ c.sent) (htold : Told c.shared.endpoints (toldBy c.shared posted.1)) :
    HandleInv (take c posted rest) := by
  obtain ⟨⟨err, r', shared⟩, haccept⟩ : ∃ a, acceptUrb c.shared ep0 posted.1 = a := ⟨_, rfl⟩
  rw [Channel.take, haccept]
  refine ⟨?_, fun stall hstall hne => ?_, fun other hother => h.sent other (hrest other hother)⟩
  · dsimp only
    rw [(hcopy.accepts haccept).endpoints]
    exact foldl_setPipe _ h.owned htold
  · obtain hnew | hold := List.mem_append.mp hstall
    · exact mem_clearedBy hnew hcopy (h.sent posted hmem) h.owned hne
    · exact h.cleared stall hold hne

theorem Owned.tellEndpoint {endp : Nat} {handle : PipeHandle} (h : Owned c.shared.endpoints c.owner)
    (hfresh : FreshHandle c endp handle) : Owned c.shared.endpoints (tellEndpoint c endp handle) := by
  unfold Channel.tellEndpoint
  split_ifs with hzero
  · exact h
  · exact h.tell_of_unused (hfresh hzero)

-- The endpoint that a URB comes to gets the handle of the URB.
theorem Owned.setPipeHandle {endp : Nat} {handle : PipeHandle} (h : Owned c.shared.endpoints c.owner)
    (hfresh : FreshHandle c endp handle) :
    Owned (c.shared.endpoints.setPipeHandle endp handle) (Channel.tellEndpoint c endp handle) := by
  have htold := h.tellEndpoint hfresh
  intro other hother hne
  by_cases heq : other = endp
  · subst heq
    have hhandle : (c.shared.endpoints.setPipeHandle other handle).pipeHandle other = handle :=
      Function.update_self _ _ _
    rw [hhandle] at hne ⊢
    rw [Channel.tellEndpoint, if_neg hne, tell, Function.update_self]
    rfl
  · have hhandle : (c.shared.endpoints.setPipeHandle endp handle).pipeHandle other =
        c.shared.endpoints.pipeHandle other := Function.update_of_ne heq _ _
    rw [hhandle] at hne ⊢
    exact htold other hother hne

theorem HandleInv.transfer (h : HandleInv c) {endp : Nat} {r : ControlUrb} (hforeign : isRequest r = false)
    (hfresh : FreshHandle c endp r.pipeHandle) : HandleInv (transfer c endp r) := by
  rw [Channel.transfer, acceptUrb_foreign hforeign]
  refine ⟨?_, h.cleared, h.sent⟩
  unfold savePipeHandle
  dsimp only
  split_ifs
  · exact h.owned.setPipeHandle hfresh
  · exact h.owned.tellEndpoint hfresh

theorem HandleInv.dataTransfer (h : HandleInv c) {endp : Nat} {handle : PipeHandle}
    (hfresh : FreshHandle c endp handle) : HandleInv (dataTransfer c endp handle) := by
  refine ⟨?_, h.cleared, h.sent⟩
  unfold Channel.dataTransfer
  dsimp only
  split_ifs
  · exact h.owned.setPipeHandle hfresh
  · exact h.owned.tellEndpoint hfresh

-- A new endpoint has no handle yet.
theorem Owned.addEndpoint {endpoints : Endpoints} {owner : PipeHandle → Option Byte} {endp : Nat}
    (h : Owned endpoints owner) (hnew : endp ∉ endpoints.list) (descriptor : EndpointDescriptor) :
    Owned (addEndpoint endpoints endp descriptor) owner := by
  intro other hother hne
  obtain rfl | hother := List.mem_cons.mp hother
  · exact absurd (Function.update_self _ _ _) hne
  · have heq : other ≠ endp := fun heq => hnew (heq ▸ hother)
    have hhandle : (Channel.addEndpoint endpoints endp descriptor).pipeHandle other = endpoints.pipeHandle other :=
      Function.update_of_ne heq _ _
    have hdescriptor : (Channel.addEndpoint endpoints endp descriptor).descriptor other = endpoints.descriptor other :=
      Function.update_of_ne heq _ _
    rw [hhandle] at hne ⊢
    rw [hdescriptor]
    exact h other hother hne

theorem handleInv_step {a : Action} (hi : Inv c) (h : HandleInv c) (hok : Allowed c a)
    (hstep : machine.step c a = some c') : HandleInv c' := by
  obtain ⟨hmemory, hhandles⟩ := hok
  cases a with
  | post urb buffer sendable =>
      cases hstep
      obtain ⟨hendpoints, howner, hcleared, hsent⟩ := post_endpoints c urb buffer sendable
      refine ⟨?_, ?_, fun posted hposted => ?_⟩
      · rw [hendpoints, howner]
        exact h.owned
      · rw [hcleared]
        exact h.cleared
      · obtain hold | hnew := hsent posted hposted
        · exact h.sent posted hold
        · rw [hnew]
          exact hhandles
  | take i =>
      obtain ⟨posted, hposted, rfl⟩ := Option.map_eq_some_iff.mp hstep
      have hmem := List.mem_of_getElem? hposted
      exact h.take (hi.copies posted hmem) hmem (fun _ => List.mem_of_mem_eraseIdx) (hhandles posted hposted)
  | cancel i =>
      obtain ⟨posted, -, rfl⟩ := Option.map_eq_some_iff.mp hstep
      exact ⟨h.owned, h.cleared, fun other hother => h.sent other (List.mem_of_mem_eraseIdx hother)⟩
  | complete i =>
      obtain ⟨posted, -, rfl⟩ := Option.map_eq_some_iff.mp hstep
      exact ⟨h.owned, h.cleared, h.sent⟩
  | transfer endp r =>
      cases hstep
      exact h.transfer hmemory hhandles
  | dataTransfer endp handle =>
      cases hstep
      exact h.dataTransfer hhandles
  | add endp descriptor =>
      obtain ⟨hnew, rfl⟩ := step_add hstep
      exact ⟨h.owned.addEndpoint hnew descriptor, h.cleared, h.sent⟩
  | remove endp =>
      cases hstep
      exact ⟨fun other hother => h.owned other (List.mem_of_mem_erase hother), h.cleared, h.sent⟩

theorem reachable_handleInv (h : machine.Reachable Allowed c) : HandleInv c := by
  refine Machine.Reachable.invariant_under (fun s hs => reachable_inv (hs.mono fun _ _ hok => hok.1)) (fun s hs => ?_)
    (fun s a t hi hh hok hstep => handleInv_step hi hh hok hstep) h
  obtain ⟨-, hsent, -, -, hcleared, hlist⟩ := hs
  refine ⟨?_, ?_, ?_⟩
  · simp [Owned, hlist]
  · simp [hcleared]
  · simp [hsent]

-- Whatever came in between, a stall is cleared if an endpoint has the handle, and on the one that it was given to last.
theorem stalls_cleared (h : machine.Reachable Allowed c) :
    (∀ stall ∈ c.cleared, stall.handle ≠ 0 → stall.owner = some stall.address) ∧
      ∀ posted ∈ c.sent, isPipeFunction posted.2.function.toNat = true →
        ((acceptUrb c.shared ep0 posted.1).1 = .STATUS_SUCCESS ↔
          ∃ endp ∈ c.shared.endpoints.list, c.shared.endpoints.pipeHandle endp = posted.2.pipeRequest) := by
  have hi := reachable_inv (h.mono fun _ _ hok => hok.1)
  have hhandles := reachable_handleInv h
  refine ⟨hhandles.cleared, fun posted hposted hpipe => ?_⟩
  exact (hi.copies posted hposted).pipe hpipe (hhandles.sent posted hposted hpipe)

theorem stalls_cleared_input :
    ∃ c, machine.Reachable Allowed c ∧ c.cleared = [{ handle := 6, address := 0x81, owner := some 0x81 }] ∧
      ∀ stall ∈ c.cleared, stall.handle ≠ 0 → stall.owner = some stall.address := by
  have hrun : (machine.run Allowed boot
      (setup ++ [.dataTransfer 2 5, .post clearStall (some 8) true, .take 0])).any
      (fun c : State => c.cleared == [{ handle := 6, address := 0x81, owner := some 0x81 }]) = true := by
    decide +kernel
  obtain ⟨c, hr, hcleared⟩ := (boot_reachable Allowed).exists_run hrun
  exact ⟨c, hr, beq_iff_eq.mp hcleared, (stalls_cleared hr).1⟩

end Stalls

end Usbip.Filter.Channel

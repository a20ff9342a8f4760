import Usbip.Filter.Request
import Usbip.Filter.Urb.Theorems
import Usbip.Send.System.Theorems

namespace Usbip.Filter

open Usbip.Library.Heap
open Usbip.Library.Hoare
open Usbip.Library.Runs
open Usbip.Library.Stream
open Usbip.Library.Words
open Usbip.Send
open Usbip.Wsk

section Mark

theorem or_and_self (a b : UInt32) : (a ||| b) &&& a = a := by
  apply UInt32.toNat_inj.mp
  apply Nat.eq_of_testBit_eq
  intro i
  simp only [UInt32.toNat_and, UInt32.toNat_or, Nat.testBit_and, Nat.testBit_or]
  cases a.toNat.testBit i <;> simp

theorem constPart_or (function : UInt16) : (CONST_PART ||| function.toUInt32).toNat % 2 ^ 16 = function.toNat := by
  have hadd : 2 ^ 16 * 0xFFFF + function.toNat = 2 ^ 16 * 0xFFFF ||| function.toNat :=
    Nat.two_pow_add_eq_or_of_lt function.toNat_lt _
  have hlt := function.toNat_lt
  rw [UInt32.toNat_or, UInt16.toNat_toUInt32]
  change (2 ^ 16 * 0xFFFF ||| function.toNat) % 2 ^ 16 = _
  rw [← hadd]
  omega

theorem isRequest_packRequest (r : ControlUrb) (buffer : Pointer) (function : UInt16) :
    isRequest (packRequest r buffer function) = true := by
  have hmark : (packRequest r buffer function).timeout &&& CONST_PART = CONST_PART := or_and_self _ _
  rw [isRequest, hmark]
  rfl

theorem getFunction_packRequest (r : ControlUrb) (buffer : Pointer) (function : UInt16) :
    getFunction (packRequest r buffer function) = function.toNat :=
  constPart_or function

end Mark

-- The standard request for a URB. Of the endpoints with the handle it is the newest one whose stall is cleared.
inductive StandardRequest (endpoints : Endpoints) (urb : UrbUnion) : SetupPacket → Prop
  | setConfiguration : urb.function.toNat = URB_FUNCTION_SELECT_CONFIGURATION →
      StandardRequest endpoints urb
        { bmRequestType := 0
          bRequest := 9
          wValueLow := (urb.selectConfiguration.configurationDescriptor.map
            ConfigurationDescriptor.bConfigurationValue).getD 0 }
  | setInterface : urb.function.toNat = URB_FUNCTION_SELECT_INTERFACE →
      StandardRequest endpoints urb
        { bmRequestType := 1
          bRequest := 11
          wValueLow := urb.selectInterface.alternateSetting
          wIndexLow := urb.selectInterface.interfaceNumber }
  | clearHalt {newer older : List Nat} {endp : Nat} :
      urb.function.toNat = URB_FUNCTION_SYNC_RESET_PIPE_AND_CLEAR_STALL ∨
        urb.function.toNat = URB_FUNCTION_SYNC_RESET_PIPE ∨ urb.function.toNat = URB_FUNCTION_SYNC_CLEAR_STALL →
      endpoints.list = newer ++ endp :: older → endpoints.pipeHandle endp = urb.pipeRequest →
      (∀ e ∈ newer, endpoints.pipeHandle e ≠ urb.pipeRequest) →
      StandardRequest endpoints urb
        { bmRequestType := 2, bRequest := 1, wIndexLow := (endpoints.descriptor endp).bEndpointAddress }

-- The value of the configuration that a URB selects
def configurationValue (urb : UrbUnion) : Byte :=
  (urb.selectConfiguration.configurationDescriptor.map ConfigurationDescriptor.bConfigurationValue).getD 0

theorem StandardRequest.select {endpoints : Endpoints} {urb : UrbUnion} {pkt : SetupPacket}
    (hfunction : urb.function.toNat = URB_FUNCTION_SELECT_CONFIGURATION) (h : StandardRequest endpoints urb pkt) :
    pkt.wValueLow = configurationValue urb := by
  cases h with
  | setConfiguration => rfl
  | setInterface hinterface =>
      rw [hfunction] at hinterface
      exact absurd hinterface (by decide)
  | clearHalt hpipe _ _ _ =>
      rw [hfunction] at hpipe
      exact absurd hpipe (by decide)

-- No data goes with the request, and it is not one for a string.
structure NoData (pkt : SetupPacket) : Prop where
  dirOut : pkt.dirOut = true
  wLength : pkt.wLength = 0
  string : getDeviceStringDescr pkt = 0

section Unpack

variable {st st' : State} {r : Pointer} {pkt : SetupPacket}

theorem StandardRequest.noData {endpoints : Endpoints} {urb : UrbUnion} (h : StandardRequest endpoints urb pkt) :
    NoData pkt := by
  cases h <;> constructor <;> rfl

-- URBs that have in common what a standard request is made of.
theorem StandardRequest.of_same {endpoints : Endpoints} {urb urb' : UrbUnion} (hsame : SameRequest urb urb')
    (h : StandardRequest endpoints urb' pkt) : StandardRequest endpoints urb pkt := by
  have hfunction := hsame.function
  cases h with
  | setConfiguration hconfiguration =>
      rw [hfunction] at hconfiguration
      rw [hsame.configuration hconfiguration]
      exact .setConfiguration hconfiguration
  | setInterface hinterface =>
      rw [hfunction] at hinterface
      rw [hsame.interfaceNumber hinterface, hsame.alternateSetting hinterface]
      exact .setInterface hinterface
  | clearHalt hpipe hlist hhandle hnewer =>
      rw [hfunction] at hpipe
      have hne : urb.function.toNat ≠ URB_FUNCTION_SELECT_CONFIGURATION := by
        intro hconfiguration
        rw [hconfiguration] at hpipe
        exact absurd hpipe (by decide)
      rw [hsame.pipeRequest hne] at hhandle hnewer
      exact .clearHalt hpipe hlist hhandle hnewer

theorem findEndpoint_handle {endpoints : Endpoints} {handle : PipeHandle} {endp : Nat}
    (h : findEndpoint endpoints (.handle handle) = some endp) :
    ∃ newer older, endpoints.list = newer ++ endp :: older ∧ endpoints.pipeHandle endp = handle ∧
      ∀ e ∈ newer, endpoints.pipeHandle e ≠ handle := by
  obtain ⟨hmatch, newer, older, hlist, hnewer⟩ := List.find?_eq_some_iff_append.mp h
  refine ⟨newer, older, hlist, (beq_iff_eq.mp hmatch).symm, fun e he heq => ?_⟩
  have hnot := hnewer e he
  rw [matchesSearch, heq] at hnot
  simp at hnot

theorem unpackFunction_ok (h : unpackFunction st r (st.urbAt r).function.toNat = (.ok pkt, st')) :
    StandardRequest st.endpoints (st.urbAt r) pkt := by
  unfold unpackFunction at h
  split_ifs at h with hpipe hinterface hconfiguration
  · unfold clearEndpointStall at h
    split at h
    · rename_i endp hfind
      obtain ⟨newer, older, hlist, hhandle, hnewer⟩ := findEndpoint_handle hfind
      cases h
      exact .clearHalt hpipe hlist hhandle hnewer
    · cases h
  · cases h
    exact .setInterface hinterface
  · have hstandard : StandardRequest st.endpoints (st.urbAt r) _ := .setConfiguration hconfiguration
    unfold selectConfiguration at h
    dsimp only at h
    split at h
    · rename_i hnone
      cases h
      rw [hnone] at hstandard
      exact hstandard
    · rename_i cd hsome
      cases h
      rw [hsome] at hstandard
      exact hstandard
  · cases h

theorem updatePipeProperties_descriptor (endpoints : Endpoints) (intf : InterfaceInfo) :
    (updatePipeProperties endpoints intf).descriptor = endpoints.descriptor := by
  unfold updatePipeProperties
  induction intf.pipes generalizing endpoints with
  | nil => rfl
  | cons pipe pipes ih =>
      rw [List.foldl_cons, ih]
      split <;> rfl

theorem foldl_updatePipeProperties_descriptor (interface : Nat → InterfaceInfo) (steps : List Nat)
    (endpoints : Endpoints) :
    (steps.foldl (fun endpoints i => updatePipeProperties endpoints (interface i)) endpoints).descriptor =
      endpoints.descriptor := by
  induction steps generalizing endpoints with
  | nil => rfl
  | cons i steps ih =>
      rw [List.foldl_cons, ih]
      exact updatePipeProperties_descriptor _ _

-- Only handles of endpoints change.
theorem unpackFunction_descriptor (st : State) (r : Pointer) (function : Nat) :
    (unpackFunction st r function).2.endpoints.descriptor = st.endpoints.descriptor := by
  unfold unpackFunction
  split_ifs
  · unfold clearEndpointStall
    split <;> rfl
  · exact updatePipeProperties_descriptor _ _
  · unfold selectConfiguration
    dsimp only
    split
    · rfl
    · exact foldl_updatePipeProperties_descriptor _ _ _
  · rfl

end Unpack

section Send

variable {s : Wsk.State} {env : SendEnv} {dev : DeviceCtx} {epd : EndpointDescriptor} {urb : Urb}

theorem allocWskContext_success (request : Option UdeRequest) :
    From s (allocWskContext env request 0) (fun err _ => err = .STATUS_SUCCESS) (fun _ _ => True) := by
  have hreuse : From s (reuse env.toEnv 0) (fun err _ => err = .STATUS_SUCCESS) (fun _ _ => True) :=
    From.get_bind (From.modify_bind (From.modify_bind (From.modify_bind (From.pure _ rfl))))
  exact hreuse.bind fun err t herr => From.modify_bind (From.pure _ herr)

-- A transfer without data needs no MDL for its buffer.
theorem send_nothing {t : Wsk.State} (hf : Filled t 0) (hzero : urb.transferBufferLength = 0) :
    From t (send env dev (some urb)) (fun out _ => out.buf.isSome) (fun _ _ => True) := by
  have hmake : From t (makeBuf env (some urb)) (fun err u => err = .STATUS_SUCCESS ∧ u = t) (fun _ _ => True) := by
    refine From.get_bind (From.ite (fun _ => ?_) fun _ => From.pure _ ⟨rfl, rfl⟩)
    have hnothing : makeTransferBufferMdl env.toEnv URB_BUF_LEN .IoReadAccess urb = pure .STATUS_SUCCESS := by
      simp [makeTransferBufferMdl, hzero]
    rw [hnothing]
    exact From.pure _ ⟨rfl, rfl⟩
  have hprepare : From t (prepareWskBuf env (some urb)) (fun r _ => ∃ buf, r = .ok buf) (fun _ _ => True) := by
    refine hmake.bind fun err u hu => ?_
    obtain ⟨rfl, rfl⟩ := hu
    refine From.get_bind ?_
    have hmapped : Mapped u .transferBuffer 0 := .inl ⟨rfl, hf.buf⟩
    refine ((linkHeader_spec hf.inv (.inl rfl) hmapped).safe).bind fun _ v hv => ?_
    have hflag : u.ctx.isIsoc = false := hf.flag
    rw [hflag]
    exact From.pure _ ⟨_, rfl⟩
  refine hprepare.bind fun r u hr => ?_
  obtain ⟨buf, rfl⟩ := hr
  exact From.modify_bind (From.pure _ rfl)

-- The flag for the default pipe is refused on any other endpoint.
theorem sendControl_nothing (hi : Inv s.heap s.ctx) (hflag : urb.transferFlags &&& USBD_DEFAULT_PIPE_TRANSFER ≠ 0)
    (hzero : urb.transferBufferLength = 0) :
    From s (sendControl env dev epd urb) (fun out _ => out.buf.isSome = usbDefaultControlPipe epd)
      (fun _ _ => True) := by
  have halloc : From s (allocWskContext env (some { urb := some urb }) 0) _ _ :=
    (allocWskContext_spec hi (Nat.zero_le _)).and (allocWskContext_success _)
  refine (halloc.mono (fun _ _ h => h) fun _ _ _ => trivial).bind fun err t ht => ?_
  obtain ⟨⟨_, _, halloc⟩, rfl⟩ := ht
  refine From.ite (fun h => absurd rfl h) fun _ => From.get_bind ?_
  cases hpipe : usbDefaultControlPipe epd with
  | false =>
      rw [setCmdSubmitUsbipHeader, if_pos ⟨hflag, hpipe⟩]
      exact From.pure _ rfl
  | true =>
      rw [setCmdSubmitUsbipHeader, if_neg (by simp [hpipe])]
      exact From.modify_bind (send_nothing (setHdr_allocated (halloc rfl) _).filled hzero)

end Send

section Accept

variable {st st' : State} {endp : Nat} {r r' : ControlUrb} {err : NTSTATUS}

theorem savePipeHandle_descriptor : (savePipeHandle st endp r).endpoints.descriptor = st.endpoints.descriptor := by
  unfold savePipeHandle
  split <;> rfl

theorem unpackRequest_ok {function : Nat} {pkt : SetupPacket}
    (h : unpackFunction st r.bufferAddress function = (.ok pkt, st')) :
    unpackRequest st r function =
      (.STATUS_SUCCESS,
        { r with transferFlags := r.transferFlags ^^^ USBD_TRANSFER_DIRECTION_IN, setupPacket := pkt.bytes }, st') := by
  simp only [unpackRequest, h]

theorem unpackFunction_error {function : Nat} {buffer : Pointer}
    (h : unpackFunction st buffer function = (.error err, st')) : err ≠ .STATUS_SUCCESS := by
  unfold unpackFunction at h
  split_ifs at h
  · unfold clearEndpointStall at h
    split at h
    · cases h
    · cases h
      decide
  · cases h
  · unfold selectConfiguration at h
    dsimp only at h
    split at h <;> cases h
  · cases h
    decide

theorem acceptUrb_descriptor (h : acceptUrb st endp r = (err, r', st')) :
    st'.endpoints.descriptor = st.endpoints.descriptor := by
  unfold acceptUrb at h
  dsimp only at h
  split at h
  · have hdescriptor := unpackFunction_descriptor (savePipeHandle st endp r) r.bufferAddress (getFunction r)
    rw [savePipeHandle_descriptor] at hdescriptor
    unfold unpackRequest at h
    dsimp only at h
    split at h
    all_goals
      rename_i hunpack
      rw [hunpack] at hdescriptor
      cases h
      exact hdescriptor
  · cases h
    exact savePipeHandle_descriptor

end Accept

section Sent

variable {s : Wsk.State} {env : SendEnv} {dev : DeviceCtx} {st st' : State} {endp : Nat} {r r' : ControlUrb}
  {bytes : List Byte}

-- What is sent is the transfer that the setup packet asks for in the end.
theorem controlTransfer_spec (hi : Inv s.heap s.ctx) :
    From s (controlTransfer env dev st endp r)
      (fun result t => ∀ buf, result.1.buf = some buf → ∃ r' st', acceptUrb st endp r = (.STATUS_SUCCESS, r', st') ∧
        (controlOf (st.endpoints.descriptor endp) r'.toUrb).Bounded ∧
        Submitted s t dev (controlOf (st.endpoints.descriptor endp) r'.toUrb) (mappedBuffer r'.toUrb) buf)
      (fun _ _ => False) := by
  obtain ⟨⟨err, r', st'⟩, haccept⟩ : ∃ a, acceptUrb st endp r = a := ⟨_, rfl⟩
  have hdescriptor := acceptUrb_descriptor haccept
  rw [controlTransfer, haccept]
  refine From.ite (fun _ => From.pure _ fun _ h => by cases h) fun herr => ?_
  obtain rfl := not_not.mp herr
  refine From.ite (fun _ => From.pure _ fun _ h => by cases h) fun hlen => ?_
  refine From.ite (fun _ => From.pure _ fun _ h => by cases h) fun _ => ?_
  refine (sendControl_spec hi (UInt32.not_lt.mp hlen)).bind fun out t ht => From.pure _ fun buf hbuf => ?_
  refine ⟨r', st', rfl, ?_⟩
  rw [← hdescriptor]
  exact ht.2 buf hbuf

theorem sentControl_eq_some (hi : Inv s.heap s.ctx) (h : sentControl env dev st endp r s = some bytes) :
    ∃ (r' : ControlUrb) (st' : State) (byte : Nat → Byte), acceptUrb st endp r = (.STATUS_SUCCESS, r', st') ∧
      Encodes decodeCommand bytes ((controlOf (st.endpoints.descriptor endp) r'.toUrb).commandWith dev
        ((controlOf (st.endpoints.descriptor endp) r'.toUrb).reads byte)) := by
  unfold sentControl at h
  split at h
  · rename_i out _ t hrun
    obtain ⟨buf, hbuf, hbytes⟩ := Option.bind_eq_some_iff.mp h
    obtain ⟨r', st', haccept, hbounded, hsubmitted⟩ := (controlTransfer_spec hi).ok hrun buf hbuf
    obtain rfl := Option.some_inj.mp (hbytes.symm.trans (hsubmitted.bytes _))
    exact ⟨r', st', _, haccept, Transfer.encodes dev hbounded (Transfer.reads_length _)⟩
  · cases h

-- A request without data for the default pipe is sent on that pipe, and on no other.
theorem sentControl_isSome (hi : Inv s.heap s.ctx) (haccept : acceptUrb st endp r = (.STATUS_SUCCESS, r', st'))
    (hflag : r'.transferFlags &&& USBD_DEFAULT_PIPE_TRANSFER ≠ 0) (hzero : r'.transferBufferLength = 0)
    (hdata : NoData (SetupPacket.ofBytes r'.setupPacket)) :
    (sentControl env dev st endp r s).isSome = usbDefaultControlPipe (st.endpoints.descriptor endp) := by
  have hsends : From s (controlTransfer env dev st endp r)
      (fun result _ => result.1.buf.isSome = usbDefaultControlPipe (st.endpoints.descriptor endp))
      (fun _ _ => True) := by
    rw [controlTransfer, haccept]
    refine From.ite (fun h => absurd rfl h) fun _ => ?_
    refine From.ite (fun hlen => ?_) fun _ => From.ite (fun hidx => absurd hdata.string hidx.1) fun _ => ?_
    · rw [hdata.wLength, hzero] at hlen
      exact absurd hlen (by decide)
    · refine (sendControl_nothing hi hflag hzero).bind fun out t ht => From.pure _ ?_
      rw [← acceptUrb_descriptor haccept]
      exact ht
  have hboth : From s (controlTransfer env dev st endp r) _ _ := (controlTransfer_spec hi).and hsends
  unfold sentControl
  split
  · rename_i out st₁ t hrun
    obtain ⟨hsubmitted, hisSome⟩ := hboth.ok hrun
    rw [← hisSome]
    cases hbuf : out.buf with
    | none => rfl
    | some buf =>
        obtain ⟨r₂, _, haccept', _, hsent⟩ := hsubmitted buf hbuf
        rw [Option.bind_some, hsent.bytes]
        rfl
  · rename_i hrun
    exact (hboth.error hrun).1.elim

end Sent

section Channel

variable {st st' : State} {endp : Nat} {r : ControlUrb} {urb : UrbUnion}

-- A message that asks the default pipe for a request without data.
def Asks (dev : DeviceCtx) (pkt : SetupPacket) (bytes : List Byte) : Prop :=
  ∃ cmd : CmdSubmit, decodeCommand bytes = some (.submit cmd, []) ∧ cmd.devid = dev.devid ∧ cmd.ep = 0 ∧
    cmd.direction = 0 ∧ cmd.transferBufferLength = 0 ∧ cmd.setup = pkt.bytes ∧ cmd.payload = [] ∧ cmd.packets = []

theorem Asks.unique {dev : DeviceCtx} {pkt pkt' : SetupPacket} {bytes : List Byte} (h : Asks dev pkt bytes)
    (h' : Asks dev pkt' bytes) : pkt = pkt' := by
  obtain ⟨cmd, hdecode, -, -, -, -, hsetup, -⟩ := h
  obtain ⟨cmd', hdecode', -, -, -, -, hsetup', -⟩ := h'
  cases hdecode.symm.trans hdecode'
  exact congrArg SetupPacket.ofBytes (hsetup.symm.trans hsetup')

-- The filter passes on a copy of the URB, and nothing else that a driver reads has changed.
theorem postProcessUrb_eq_some {buffer : Pointer} {raw : RawUrb}
    (h : postProcessUrb st (some buffer) raw = some (r, st')) :
    r = packRequest { function := .other } buffer raw.function ∧
      st' = { st with urbAt := Function.update st.urbAt buffer (copyOf buffer raw).toUnion } := by
  unfold postProcessUrb at h
  split at h
  · cases h
    exact ⟨rfl, rfl⟩
  · cases h

theorem acceptUrb_packed (st : State) (endp : Nat) (copy : Pointer) (function : UInt16) :
    acceptUrb st endp (packRequest { function := .other } copy function) =
      unpackRequest st { packRequest { function := .other } copy function with timeout := 0 } function.toNat := by
  have hsave : savePipeHandle st endp (packRequest { function := .other } copy function) = st :=
    if_neg fun h => h.1 rfl
  rw [acceptUrb, if_pos (isRequest_packRequest _ _ _), hsave, getFunction_packRequest]

-- What becomes of a packed request once it is accepted.
structure Unpacked (st : State) (urb : UrbUnion) (r' : ControlUrb) (pkt : SetupPacket) : Prop where
  standard : StandardRequest st.endpoints urb pkt
  setup : SetupPacket.ofBytes r'.setupPacket = pkt
  flag : r'.transferFlags = USBD_DEFAULT_PIPE_TRANSFER
  length : r'.transferBufferLength = 0

theorem unpackRequest_packed {r' : ControlUrb} {copy : Pointer} (hcopy : st.urbAt copy = urb)
    (h : acceptUrb st endp (packRequest { function := .other } copy urb.function) = (.STATUS_SUCCESS, r', st')) :
    ∃ pkt, Unpacked st urb r' pkt := by
  subst hcopy
  rw [acceptUrb_packed] at h
  cases hunpack : unpackFunction st copy (st.urbAt copy).function.toNat with
  | mk result st₁ =>
      cases result with
      | ok pkt =>
          rw [unpackRequest_ok hunpack] at h
          cases h
          have hflag : (USBD_DEFAULT_PIPE_TRANSFER ||| USBD_TRANSFER_DIRECTION_IN) ^^^ USBD_TRANSFER_DIRECTION_IN =
            USBD_DEFAULT_PIPE_TRANSFER := by decide
          exact ⟨pkt, unpackFunction_ok hunpack, rfl, hflag, rfl⟩
      | error err =>
          have hbuffer : (packRequest { function := .other } copy (st.urbAt copy).function).bufferAddress = copy := rfl
          simp only [unpackRequest, hbuffer, hunpack] at h
          cases h
          exact absurd rfl (unpackFunction_error hunpack)

theorem acceptUrb_foreign (h : isRequest r = false) :
    acceptUrb st endp r = (.STATUS_SUCCESS, r, savePipeHandle st endp r) :=
  if_neg (Bool.eq_false_iff.mp h)

-- Without the mark the URBs in memory are not looked at.
theorem controlTransfer_foreign (env : SendEnv) (dev : DeviceCtx) (endpoints : Endpoints) (h : isRequest r = false) :
    ∃ run : M (Outcome × Endpoints), ∀ urbAt,
      controlTransfer env dev { urbAt := urbAt, endpoints := endpoints } endp r =
        (fun result => (result.1, { urbAt := urbAt, endpoints := result.2 })) <$> run := by
  obtain ⟨saved, hsaved⟩ : ∃ saved, ∀ urbAt, savePipeHandle { urbAt := urbAt, endpoints := endpoints } endp r =
      { urbAt := urbAt, endpoints := saved } := by
    by_cases hhandle : r.pipeHandle ≠ 0 ∧ endpoints.pipeHandle endp ≠ r.pipeHandle
    · exact ⟨endpoints.setPipeHandle endp r.pipeHandle, fun urbAt => if_pos hhandle⟩
    · exact ⟨endpoints, fun urbAt => if_neg hhandle⟩
  let seen : M (Outcome × State) :=
    controlTransfer env dev { urbAt := fun _ => { function := 0 }, endpoints := endpoints } endp r
  refine ⟨seen >>= fun result => pure (result.1, result.2.endpoints), fun urbAt => ?_⟩
  simp only [seen, controlTransfer, acceptUrb_foreign h, hsaved]
  split_ifs
  all_goals simp

theorem usbEndpointNum_defaultControlPipe {epd : EndpointDescriptor} (h : usbDefaultControlPipe epd = true) :
    usbEndpointNum epd = 0 := by
  simp only [usbDefaultControlPipe, Bool.and_eq_true, beq_iff_eq] at h
  rw [usbEndpointNum, h.1.2]
  rfl

variable {s : Wsk.State} {env : SendEnv} {dev : DeviceCtx} {bytes : List Byte} {r' : ControlUrb} {pkt : SetupPacket}

theorem sentControl_unpacked (hi : Inv s.heap s.ctx) (haccept : acceptUrb st endp r = (.STATUS_SUCCESS, r', st'))
    (hunpacked : Unpacked st urb r' pkt) :
    (sentControl env dev st endp r s).isSome = usbDefaultControlPipe (st.endpoints.descriptor endp) := by
  have hdata := hunpacked.standard.noData
  rw [← hunpacked.setup] at hdata
  refine sentControl_isSome hi haccept ?_ hunpacked.length hdata
  rw [hunpacked.flag]
  decide

theorem sentControl_asks (hi : Inv s.heap s.ctx) (haccept : acceptUrb st endp r = (.STATUS_SUCCESS, r', st'))
    (hunpacked : Unpacked st urb r' pkt) (h : sentControl env dev st endp r s = some bytes) : Asks dev pkt bytes := by
  have hpipe : usbDefaultControlPipe (st.endpoints.descriptor endp) = true := by
    have hsome : (sentControl env dev st endp r s).isSome = _ := sentControl_unpacked hi haccept hunpacked
    rw [← hsome, h]
    rfl
  have hdata := hunpacked.standard.noData
  obtain ⟨r₂, st₂, _, haccept', hencodes⟩ := sentControl_eq_some hi h
  cases haccept.symm.trans haccept'
  have hdecode := hencodes.2 []
  rw [List.append_nil] at hdecode
  have hout : (controlOf (st.endpoints.descriptor endp) r'.toUrb).dirOut = true := by
    rw [controlOf, hunpacked.setup]
    exact hdata.dirOut
  have hlength : (controlOf (st.endpoints.descriptor endp) r'.toUrb).length = 0 := by
    rw [controlOf, hunpacked.setup, hdata.wLength]
    rfl
  refine ⟨_, hdecode, rfl, ?_, ?_, hlength, ?_, ?_, rfl⟩
  · exact congrArg UInt8.toUInt32 (usbEndpointNum_defaultControlPipe hpipe)
  · exact if_pos hout
  · exact congrArg SetupPacket.bytes hunpacked.setup
  · change (controlOf (st.endpoints.descriptor endp) r'.toUrb).reads _ = []
    rw [Transfer.reads, if_pos hout, hlength]
    rfl

end Channel

section Refinement

variable {st st' : State} {endp : Nat} {r r' : ControlUrb} {err : NTSTATUS}

-- What `Send.controlTransfer` is told of the URB that the transfer buffer points at.
def packedUrb (st : State) (buffer : Pointer) : PackedUrb where
  endpointAddress := (findEndpoint st.endpoints (.handle (st.urbAt buffer).pipeRequest)).map fun endp =>
    (st.endpoints.descriptor endp).bEndpointAddress
  interfaceNumber := (st.urbAt buffer).selectInterface.interfaceNumber
  alternateSetting := (st.urbAt buffer).selectInterface.alternateSetting
  configurationValue := (st.urbAt buffer).selectConfiguration.configurationDescriptor.map
    ConfigurationDescriptor.bConfigurationValue

def ControlUrb.transferUrb (r : ControlUrb) (st : State) (h : r.transferBufferLength.toNat < 2 ^ 31) : TransferUrb :=
  { r.toUrb with timeout := r.timeout, packed := packedUrb st r.bufferAddress, lt := h }

theorem unpackSetup_packedUrb (st : State) (buffer : Pointer) (function : Nat) :
    unpackSetup (packedUrb st buffer) function = (unpackFunction st buffer function).1 := by
  unfold unpackSetup unpackFunction
  split_ifs
  · unfold clearEndpointStall packedUrb
    dsimp only
    cases findEndpoint st.endpoints (.handle (st.urbAt buffer).pipeRequest) <;> rfl
  · rfl
  · unfold selectConfiguration packedUrb
    dsimp only
    cases (st.urbAt buffer).selectConfiguration.configurationDescriptor <;> rfl
  · rfl

theorem unpackRequest_transferUrb (hlt : r.transferBufferLength.toNat < 2 ^ 31)
    (h : acceptUrb st endp r = (err, r', st')) :
    Send.unpackRequest (r.transferUrb (savePipeHandle st endp r) hlt) =
      if err = .STATUS_SUCCESS then .ok r'.toUrb else .error err := by
  unfold Send.unpackRequest
  cases hmark : isRequest r with
  | false =>
      cases (acceptUrb_foreign hmark).symm.trans h
      exact if_neg (Bool.eq_false_iff.mp hmark)
  | true =>
      refine (if_pos hmark).trans ?_
      have hsetup := unpackSetup_packedUrb (savePipeHandle st endp r) r.bufferAddress (getFunction r)
      rw [acceptUrb, if_pos hmark] at h
      change ((unpackSetup (packedUrb (savePipeHandle st endp r) r.bufferAddress) (getFunction r)).map _) = _
      rw [hsetup]
      cases hunpack : unpackFunction (savePipeHandle st endp r) r.bufferAddress (getFunction r) with
      | mk result st₁ =>
          cases result with
          | ok pkt =>
              simp only [unpackRequest, hunpack] at h
              cases h
              rfl
          | error err' =>
              simp only [unpackRequest, hunpack] at h
              cases h
              rw [if_neg (unpackFunction_error hunpack)]
              rfl

-- The handler of control transfers, for which the messages of the driver are known, is this one seen from the
-- outside.
theorem controlTransfer_refines (env : SendEnv) (dev : DeviceCtx) (hlt : r.transferBufferLength.toNat < 2 ^ 31) :
    Prod.fst <$> controlTransfer env dev st endp r =
      Send.controlTransfer env dev (st.endpoints.descriptor endp) (r.transferUrb (savePipeHandle st endp r) hlt) := by
  obtain ⟨⟨err, r', st'⟩, haccept⟩ : ∃ a, acceptUrb st endp r = a := ⟨_, rfl⟩
  rw [Send.controlTransfer, unpackRequest_transferUrb hlt haccept, controlTransfer, haccept]
  dsimp only
  by_cases herr : err = .STATUS_SUCCESS
  · rw [if_neg (not_not.mpr herr), if_pos herr, acceptUrb_descriptor haccept]
    dsimp only
    split_ifs
    all_goals simp
  · rw [if_pos herr, if_neg herr]
    simp

end Refinement

-- A packed URB becomes the standard request for it, if the copy goes far enough. A URB without the mark of the filter
-- is sent as it is, and there is one computation for it whatever URBs are in memory.
theorem channel_faithful {sys : Services} {ok : System → Send.Action → Prop} {wsk : System}
    (h : (Send.machine sys).Reachable ok wsk) (i : Nat) (env : SendEnv) (dev : DeviceCtx) (endp : Nat) :
    (∀ (st st' : State) (buffer : Pointer) (urb : RawUrb) (r : ControlUrb), urb.Whole → Fresh buffer urb →
      postProcessUrb st (some buffer) urb = some (r, st') →
      ((sentControl env dev st' endp r (wsk.slot i).st).isSome ↔
        (acceptUrb st' endp r).1 = .STATUS_SUCCESS ∧ usbDefaultControlPipe (st.endpoints.descriptor endp) = true) ∧
      ∀ bytes, sentControl env dev st' endp r (wsk.slot i).st = some bytes →
        ∃ pkt, StandardRequest st.endpoints urb.toUnion pkt ∧ Asks dev pkt bytes) ∧
    ∀ r : ControlUrb, isRequest r = false →
      (∀ endpoints, ∃ run : M (Outcome × Endpoints), ∀ urbAt,
        controlTransfer env dev { urbAt := urbAt, endpoints := endpoints } endp r =
          (fun result => (result.1, { urbAt := urbAt, endpoints := result.2 })) <$> run) ∧
      ∀ st bytes, sentControl env dev st endp r (wsk.slot i).st = some bytes →
        ∃ cmd : CmdSubmit, decodeCommand bytes = some (.submit cmd, []) ∧
          cmd.setup = (SetupPacket.ofBytes r.setupPacket).bytes := by
  have hi := (Send.reachable_inv h).context i
  refine ⟨fun st st' buffer urb r hwhole hfresh hpost => ?_,
    fun r hforeign => ⟨fun endpoints => ?_, fun st bytes hbytes => ?_⟩⟩
  · have hsame := hwhole.sameRequest hfresh
    obtain ⟨rfl, rfl⟩ := postProcessUrb_eq_some hpost
    have hcopy : Function.update st.urbAt buffer (copyOf buffer urb).toUnion buffer = (copyOf buffer urb).toUnion :=
      Function.update_self _ _ _
    have hfunction : (copyOf buffer urb).toUnion.function = urb.function := hsame.function
    rw [← hfunction]
    refine ⟨⟨fun hsome => ?_, fun ⟨hst, hpipe⟩ => ?_⟩, fun bytes hbytes => ?_⟩
    · obtain ⟨bytes, hbytes⟩ := Option.isSome_iff_exists.mp hsome
      obtain ⟨r', st₁, _, haccept, _⟩ := sentControl_eq_some hi hbytes
      obtain ⟨pkt, hunpacked⟩ := unpackRequest_packed hcopy haccept
      rw [sentControl_unpacked hi haccept hunpacked] at hsome
      exact ⟨congrArg Prod.fst haccept, hsome⟩
    · obtain ⟨⟨err, r', st₁⟩, haccept⟩ :
          ∃ a, acceptUrb { st with urbAt := Function.update st.urbAt buffer (copyOf buffer urb).toUnion } endp
            (packRequest { function := .other } buffer (copyOf buffer urb).toUnion.function) = a := ⟨_, rfl⟩
      rw [haccept] at hst
      obtain rfl : err = .STATUS_SUCCESS := hst
      obtain ⟨pkt, hunpacked⟩ := unpackRequest_packed hcopy haccept
      rw [sentControl_unpacked hi haccept hunpacked]
      exact hpipe
    · obtain ⟨r', st₁, _, haccept, _⟩ := sentControl_eq_some hi hbytes
      obtain ⟨pkt, hunpacked⟩ := unpackRequest_packed hcopy haccept
      exact ⟨pkt, hunpacked.standard.of_same hsame, sentControl_asks hi haccept hunpacked hbytes⟩
  · exact controlTransfer_foreign env dev endpoints hforeign
  · obtain ⟨r', st', _, haccept, hencodes⟩ := sentControl_eq_some hi hbytes
    cases (acceptUrb_foreign hforeign).symm.trans haccept
    have hdecode := hencodes.2 []
    rw [List.append_nil] at hdecode
    exact ⟨_, hdecode, rfl⟩

-- A keyboard with one endpoint beside ep0, and the URB that selects its other setting.
def keyboard : State where
  urbAt _ := { function := 0 }
  endpoints :=
    { list := [1]
      descriptor := fun e => { bEndpointAddress := if e = 1 then 0x81 else 0 }
      pipeHandle := fun e => if e = 1 then 5 else 0 }

def setAlternate : RawUrb where
  heap := ofBytes [(256, 80), (258, 1), (288, 48), (290, 2), (291, 1), (304, 1), (314, 0x81), (320, 6)]
  address := 256

-- It has interface 2 with alternate setting 1, and one pipe.
example : setAlternate.toUnion.selectInterface =
    { interfaceNumber := 2, alternateSetting := 1, pipes := [{ endpointAddress := 0x81, pipeHandle := 6 }] } := by
  decide +kernel

theorem setAlternate_whole : setAlternate.Whole := ⟨by decide +kernel, fun h => absurd h (by decide +kernel)⟩

theorem channel_faithful_setAlternate :
    ∃ r st' bytes, postProcessUrb keyboard (some 4096) setAlternate = some (r, st') ∧
      sentControl {} {} st' 0 r ((sampleSystem []).slot 0).st = some bytes ∧
      (∃ pkt, StandardRequest keyboard.endpoints setAlternate.toUnion pkt ∧ Asks {} pkt bytes) ∧
      isRequest { function := .controlTransfer } = false ∧
      ∃ run : M (Outcome × Endpoints), ∀ urbAt,
        controlTransfer {} {} { urbAt := urbAt, endpoints := {} } 0 { function := .controlTransfer } =
          (fun result => (result.1, { urbAt := urbAt, endpoints := result.2 })) <$> run := by
  have hchannel := channel_faithful (sampleSystem_reachable (fun _ _ => True) []) 0 {} {} 0
  have hpost : (postProcessUrb keyboard (some 4096) setAlternate).isSome := by decide +kernel
  obtain ⟨⟨r, st'⟩, hpost⟩ := Option.isSome_iff_exists.mp hpost
  obtain ⟨hsome, hasks⟩ := hchannel.1 _ _ _ _ _ setAlternate_whole (by decide +kernel) hpost
  obtain ⟨rfl, rfl⟩ := postProcessUrb_eq_some hpost
  obtain ⟨bytes, hbytes⟩ := Option.isSome_iff_exists.mp (hsome.mpr ⟨by decide +kernel, by decide⟩)
  exact ⟨_, _, bytes, hpost, hbytes, hasks bytes hbytes, by decide, (hchannel.2 _ (by decide)).1 _⟩

-- A transfer of another driver with a buffer of its own and the mark of the filter.
def marked : ControlUrb :=
  { packRequest { function := .other } 7 1 with transferBufferLength := 8 }

def alternateAt (alternateSetting : Byte) (_ : Pointer) : UrbUnion :=
  { function := 0, selectInterface := { alternateSetting := alternateSetting } }

-- The URB that the buffer of such a transfer leads to decides what is sent.
theorem marked_interpreted :
    sentControl {} {} { urbAt := alternateAt 0, endpoints := {} } 0 marked ((sampleSystem []).slot 0).st ≠
      sentControl {} {} { urbAt := alternateAt 1, endpoints := {} } 0 marked ((sampleSystem []).slot 0).st := by
  decide +kernel

theorem marked_ne_packRequest (copy : Pointer) (function : UInt16) :
    marked ≠ packRequest { function := .other } copy function := by
  intro heq
  have hlength : (8 : UInt32) ≠ 0 := by decide
  exact hlength (congrArg (fun r : ControlUrb => r.transferBufferLength) heq)

theorem marked_not_apart : ¬ ∃ run : M (Outcome × Endpoints), ∀ urbAt,
    controlTransfer {} {} { urbAt := urbAt, endpoints := {} } 0 marked =
      (fun result => (result.1, { urbAt := urbAt, endpoints := result.2 })) <$> run := by
  rintro ⟨run, hrun⟩
  have hsame : ∀ urbAt, sentControl {} {} { urbAt := urbAt, endpoints := {} } 0 marked
      ((sampleSystem []).slot 0).st =
      match run ((sampleSystem []).slot 0).st with
      | .ok result t => result.1.buf.bind (transmitted t (memoryOf marked.toUrb))
      | .error _ _ => none := by
    intro urbAt
    rw [sentControl, hrun]
    cases hresult : run ((sampleSystem []).slot 0).st with
    | ok result t => simp only [Functor.map, EStateM.map, hresult]
    | error e t => simp only [Functor.map, EStateM.map, hresult]
  exact marked_interpreted ((hsame _).trans (hsame _).symm)

-- The value that SELECT_CONFIGURATION sends is that of the copy.
theorem sent_otherValue (urb : RawUrb) (hfunction : urb.function.toNat = URB_FUNCTION_SELECT_CONFIGURATION)
    (hpost : (postProcessUrb keyboard (some 4096) urb).isSome)
    (hcopied : (copyOf 4096 urb).toUnion.function = urb.function)
    (hsent : (sentControl {} {}
      { keyboard with urbAt := Function.update keyboard.urbAt 4096 (copyOf 4096 urb).toUnion } 0
      (packRequest { function := .other } 4096 urb.function) ((sampleSystem []).slot 0).st).isSome)
    (hvalue : configurationValue (copyOf 4096 urb).toUnion ≠ configurationValue urb.toUnion) :
    ∃ (r : ControlUrb) (st' : State) (bytes : List Byte),
      postProcessUrb keyboard (some 4096) urb = some (r, st') ∧
      sentControl {} {} st' 0 r ((sampleSystem []).slot 0).st = some bytes ∧
      ∀ pkt, StandardRequest keyboard.endpoints urb.toUnion pkt → ¬ Asks {} pkt bytes := by
  have hi := (Send.reachable_inv (sampleSystem_reachable (fun _ _ => True) [])).context 0
  obtain ⟨⟨r, st'⟩, hpost⟩ := Option.isSome_iff_exists.mp hpost
  obtain ⟨rfl, rfl⟩ := postProcessUrb_eq_some hpost
  obtain ⟨bytes, hbytes⟩ := Option.isSome_iff_exists.mp hsent
  refine ⟨_, _, bytes, hpost, hbytes, fun pkt hstandard hasks => ?_⟩
  rw [← hcopied] at hbytes
  obtain ⟨r', st₁, _, haccept, _⟩ := sentControl_eq_some hi hbytes
  have hcopy : Function.update keyboard.urbAt 4096 (copyOf 4096 urb).toUnion 4096 = (copyOf 4096 urb).toUnion :=
    Function.update_self _ _ _
  obtain ⟨pkt', hunpacked⟩ := unpackRequest_packed hcopy haccept
  obtain rfl := hasks.unique (sentControl_asks hi haccept hunpacked hbytes)
  have hselected := hunpacked.standard.select (by rw [hcopied]; exact hfunction)
  exact hvalue (hselected.symm.trans (hstandard.select hfunction))

-- The only configuration has the value 1, which the sixth byte of its descriptor tells. It claims to have five.
def shortDescriptor : RawUrb where
  heap := ofBytes [(256, 40), (280, 128), (128, 9), (129, 2), (130, 5), (133, 1)]
  address := 256

-- The length of the URB ends where its pointer to the descriptor begins.
def shortHeader : RawUrb where
  heap := ofBytes [(256, 24), (280, 128), (128, 9), (129, 2), (133, 1)]
  address := 256

theorem channel_not_faithful :
    (¬ ∀ (env : SendEnv) (dev : DeviceCtx) (endpoints : Endpoints) (endp : Nat) (r : ControlUrb),
      (∀ copy function, r ≠ packRequest { function := .other } copy function) →
      ∃ run : M (Outcome × Endpoints), ∀ urbAt,
        controlTransfer env dev { urbAt := urbAt, endpoints := endpoints } endp r =
          (fun result => (result.1, { urbAt := urbAt, endpoints := result.2 })) <$> run) ∧
    (¬ ∀ (buffer : Pointer) (urb : RawUrb) (r : ControlUrb) (st' : State) (bytes : List Byte),
      fixedLength urb.function.toNat ≤ urb.length → Fresh buffer urb →
      postProcessUrb keyboard (some buffer) urb = some (r, st') →
      sentControl {} {} st' 0 r ((sampleSystem []).slot 0).st = some bytes →
      ∃ pkt, StandardRequest keyboard.endpoints urb.toUnion pkt ∧ Asks {} pkt bytes) ∧
    ¬ ∀ (buffer : Pointer) (urb : RawUrb) (r : ControlUrb) (st' : State) (bytes : List Byte),
      (urb.function.toNat = URB_FUNCTION_SELECT_CONFIGURATION →
        urb.descriptorLength = 0 ∨ 6 ≤ urb.descriptorLength) → Fresh buffer urb →
      postProcessUrb keyboard (some buffer) urb = some (r, st') →
      sentControl {} {} st' 0 r ((sampleSystem []).slot 0).st = some bytes →
      ∃ pkt, StandardRequest keyboard.endpoints urb.toUnion pkt ∧ Asks {} pkt bytes := by
  refine ⟨fun h => marked_not_apart (h {} {} {} 0 marked marked_ne_packRequest), ?_, ?_⟩
  · intro h
    obtain ⟨r, st', bytes, hpost, hbytes, hnot⟩ := sent_otherValue shortDescriptor (by decide +kernel)
      (by decide +kernel) (by decide +kernel) (by decide +kernel) (by decide +kernel)
    obtain ⟨pkt, hstandard, hasks⟩ := h _ _ _ _ _ (by decide +kernel) (by decide +kernel) hpost hbytes
    exact hnot pkt hstandard hasks
  · intro h
    obtain ⟨r, st', bytes, hpost, hbytes, hnot⟩ := sent_otherValue shortHeader (by decide +kernel)
      (by decide +kernel) (by decide +kernel) (by decide +kernel) (by decide +kernel)
    obtain ⟨pkt, hstandard, hasks⟩ := h _ _ _ _ _ (fun _ => .inl (by decide +kernel)) (by decide +kernel) hpost hbytes
    exact hnot pkt hstandard hasks

end Usbip.Filter

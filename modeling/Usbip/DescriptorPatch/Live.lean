import Usbip.DescriptorPatch.Theorems
import Usbip.DescriptorPatch.Walk
import Usbip.WskReceive

namespace Usbip

-- The loop goes on behind the record at `start`, which it has patched if it is an endpoint and not short.
structure Advance (parse : ParseDescriptors) (buffer patched : List Byte) (start : Nat) (length : Byte) : Prop where
  here : buffer[start]? = some length
  pos : length ≠ 0
  typed : start + 1 < buffer.length
  change : EndpointAt buffer start ∧ sizeofUsbEndpointDescriptor ≤ length.toNat ∧
      (∃ type, EndpointPatch buffer start type patched) ∨
    ¬ (EndpointAt buffer start ∧ sizeofUsbEndpointDescriptor ≤ length.toNat) ∧ patched = buffer
  run : ∀ fuel, patchLoop parse (fuel + 1) buffer start = patchLoop parse fuel patched (start + length.toNat) ∨
    patchLoop parse (fuel + 1) buffer start = patchLoop parse (fuel + 1) patched (start + length.toNat)

-- What one round of the loop can come to.
inductive Round (parse : ParseDescriptors) (buffer : List Byte) (start : Nat) : Prop
  | done (hpass : PassableFrom buffer start) (hnone : ∀ cur, Reaches buffer start cur → ¬ EndpointAt buffer cur)
      (hrun : ∀ fuel, patchLoop parse (fuel + 1) buffer start = some buffer)
  | stuck (hstuck : ¬ PassableFrom buffer start) (hrun : ∀ fuel, patchLoop parse fuel buffer start = none)
  | advance (patched : List Byte) (length : Byte) (h : Advance parse buffer patched start length)

section Round

variable {parse : ParseDescriptors} (hparse : parse.Walks) {buffer patched : List Byte} {start : Nat}
  (htotal : wTotalLength buffer = some buffer.length)

theorem Advance.size {length : Byte} (h : Advance parse buffer patched start length) :
    patched.length = buffer.length := by
  obtain ⟨-, -, type, hpatch⟩ | ⟨-, rfl⟩ := h.change
  · exact hpatch.size
  · rfl

theorem Advance.total {length : Byte} (h : Advance parse buffer patched start length)
    (htotal : wTotalLength buffer = some buffer.length) : wTotalLength patched = some patched.length := by
  rw [h.size]
  obtain ⟨-, -, type, hpatch⟩ | ⟨-, rfl⟩ := h.change
  · rw [hpatch.wTotalLength, htotal]
  · exact htotal

-- The next records are as they were.
theorem Advance.same {length : Byte} (h : Advance parse buffer patched start length) (i : Nat)
    (hi : start + length.toNat ≤ i) : patched[i]? = buffer[i]? := by
  obtain ⟨-, hlong, type, hpatch⟩ | ⟨-, rfl⟩ := h.change
  · unfold sizeofUsbEndpointDescriptor at hlong
    exact hpatch.same (.inr (by omega))
  · rfl

theorem Advance.passable {length : Byte} (h : Advance parse buffer patched start length) : Passable buffer start := by
  constructor
  case typed => exact h.typed
  case advances =>
    rw [h.here, Ne, Option.some_inj]
    exact fun _ => h.pos
  case whole =>
    intro hendpoint length' hlength' hlong'
    cases h.here.symm.trans hlength'
    obtain ⟨-, -, type, hpatch⟩ | ⟨hnot, -⟩ := h.change
    · exact ⟨type, hpatch.kind, hpatch.last⟩
    · exact absurd ⟨hendpoint, hlong'⟩ hnot

theorem Advance.passableFrom_iff {length : Byte} (h : Advance parse buffer patched start length) :
    PassableFrom buffer start ↔ PassableFrom patched (start + length.toNat) := by
  rw [passableFrom_congr h.size h.same, passableFrom_next h.here h.pos]
  exact ⟨fun hboth => hboth.2, fun hrest => ⟨h.passable, hrest⟩⟩

theorem Advance.less {length : Byte} (h : Advance parse buffer patched start length) :
    patched.length - (start + length.toNat) < buffer.length - start := by
  have hin := (List.getElem?_eq_some_iff.mp h.here).1
  have hpos : length.toNat ≠ 0 := fun hzero => h.pos (UInt8.toNat_inj.mp hzero)
  have hsize := h.size
  omega

include hparse htotal

-- An endpoint without a length is found again and again.
theorem patchLoop_repeats (hendpoint : EndpointAt buffer start) (hlength : buffer[start]? = some 0) (fuel : Nat) :
    patchLoop parse (fuel + 1) buffer start = patchLoop parse fuel buffer start := by
  rw [patchLoop_short hparse htotal hendpoint hlength (by decide)]
  rfl

theorem round_endpoint {length : Byte} (hendpoint : EndpointAt buffer start) (hlength : buffer[start]? = some length) :
    Round parse buffer start := by
  by_cases hzero : length = 0
  · subst hzero
    refine .stuck (fun h => ((passableFrom_stop hlength).mp h).2 hendpoint) fun fuel => ?_
    induction fuel with
    | zero => rfl
    | succ fuel ih => rw [patchLoop_repeats hparse htotal hendpoint hlength, ih]
  by_cases hshort : length.toNat < sizeofUsbEndpointDescriptor
  · refine .advance buffer length ⟨hlength, hzero, hendpoint.lt, .inr ⟨fun h => ?_, rfl⟩, fun fuel => .inl ?_⟩
    · exact absurd h.2 (Nat.not_le.mpr hshort)
    · exact patchLoop_short hparse htotal hendpoint hlength hshort fuel
  have hrun := patchLoop_endpoint hparse htotal hendpoint hlength hshort
  cases hpatched : patchEndpoint buffer start with
  | none =>
      refine .stuck (fun h => ?_) fun fuel => ?_
      · have hin := (List.getElem?_eq_some_iff.mp hlength).1
        obtain ⟨type, hkind, hlast⟩ := (h start (.here start) hin).whole hendpoint length hlength (Nat.not_lt.mp hshort)
        have hsome := patchEndpoint_isSome hkind hlast
        rw [hpatched] at hsome
        cases hsome
      · cases fuel with
        | zero => rfl
        | succ fuel => rw [hrun, hpatched, Option.bind_none]
  | some patched =>
      refine .advance patched length ⟨hlength, hzero, hendpoint.lt, .inl ⟨hendpoint, Nat.not_lt.mp hshort, ?_⟩,
        fun fuel => .inl ?_⟩
      · exact patchEndpoint_spec hpatched
      · rw [hrun, hpatched, Option.bind_some]

theorem round_other {length : Byte} (htyped : start + 1 < buffer.length) (hendpoint : ¬ EndpointAt buffer start)
    (hlength : buffer[start]? = some length) : Round parse buffer start := by
  by_cases hzero : length = 0
  · subst hzero
    refine .done ((passableFrom_stop hlength).mpr ⟨htyped, hendpoint⟩) (fun cur hreach => ?_)
      (patchLoop_stop hparse htotal htyped hendpoint hlength)
    cases hreach with
    | here => exact hendpoint
    | next h hne _ =>
        cases hlength.symm.trans h
        exact absurd rfl hne
  · have htype := List.getElem?_eq_getElem htyped
    have hother := hendpoint
    rw [EndpointAt, htype, Option.some_inj] at hother
    refine .advance buffer length ⟨hlength, hzero, htyped, .inr ⟨fun h => hendpoint h.1, rfl⟩, fun fuel => .inr ?_⟩
    exact patchLoop_pass hparse htotal htype hother hlength hzero fuel

theorem patchLoop_round : Round parse buffer start := by
  by_cases hin : start < buffer.length
  case neg =>
    have hout := Nat.not_lt.mp hin
    refine .done (passableFrom_outside hout) (fun cur hreach hendpoint => ?_) (patchLoop_outside hparse htotal hout)
    have hlt := hendpoint.lt
    have hle := hreach.le
    omega
  by_cases htyped : start + 1 < buffer.length
  case neg =>
    -- The type would be read behind the buffer.
    refine .stuck (fun h => htyped (h start (.here start) hin).typed) fun fuel => ?_
    exact patchLoop_cut hparse htotal hin (List.getElem?_eq_none (Nat.not_lt.mp htyped)) fuel
  obtain ⟨length, hlength⟩ : ∃ length, buffer[start]? = some length := ⟨_, List.getElem?_eq_getElem hin⟩
  by_cases hendpoint : EndpointAt buffer start
  · exact round_endpoint hparse htotal hendpoint hlength
  · exact round_other hparse htotal htyped hendpoint hlength

-- Both inductions are on the bytes that are left.
theorem patchLoop_isSome (hpass : PassableFrom buffer start) {fuel : Nat} (hfuel : buffer.length - start < fuel) :
    (patchLoop parse fuel buffer start).isSome := by
  induction hleft : buffer.length - start using Nat.strongRecOn generalizing buffer start fuel with
  | ind left ih =>
      obtain ⟨fuel, rfl⟩ : ∃ n, fuel = n + 1 := ⟨fuel - 1, by omega⟩
      cases patchLoop_round hparse htotal  with
      | done _ _ hrun =>
          rw [hrun]
          rfl
      | stuck hstuck _ => exact absurd hpass hstuck
      | advance patched length h =>
          have hless := h.less
          have hnext := h.passableFrom_iff.mp hpass
          obtain hrun | hrun := h.run fuel
          · rw [hrun]
            exact ih _ (by omega) (h.total htotal) hnext (by omega) rfl
          · rw [hrun]
            exact ih _ (by omega) (h.total htotal) hnext (by omega) rfl

theorem patchLoop_none (hstuck : ¬ PassableFrom buffer start) (fuel : Nat) :
    patchLoop parse fuel buffer start = none := by
  induction hleft : buffer.length - start using Nat.strongRecOn generalizing buffer start fuel with
  | ind left ih =>
      cases fuel with
      | zero => rfl
      | succ fuel =>
          cases patchLoop_round hparse htotal  with
          | done hpass _ _ => exact absurd hpass hstuck
          | stuck _ hrun => exact hrun _
          | advance patched length h =>
              have hless := h.less
              have hnext : ¬ PassableFrom patched (start + length.toNat) := fun hpass =>
                hstuck (h.passableFrom_iff.mpr hpass)
              obtain hrun | hrun := h.run fuel
              · rw [hrun]
                exact ih _ (by omega) (h.total htotal) hnext _ rfl
              · rw [hrun]
                exact ih _ (by omega) (h.total htotal) hnext _ rfl

end Round

-- The guard in `post_control_transfer`.
structure LiveConfiguration (buffer : List Byte) : Prop where
  longer : 9 < buffer.length
  bLength : buffer[0]? = some 9
  bDescriptorType : buffer[1]? = some 2
  total : wTotalLength buffer = some buffer.length

-- What `post_control_transfer` passes on has passed it.
theorem LiveConfiguration.of_guard {memory : List Byte} {dscLen : Nat} (hlength : dscLen ≤ memory.length)
    (hguard : memory.getD 1 0 = Wsk.USB_CONFIGURATION_DESCRIPTOR_TYPE ∧ 9 < dscLen ∧ memory.getD 0 0 = 9 ∧
      wTotalLength memory = some dscLen) : LiveConfiguration (memory.take dscLen) := by
  obtain ⟨htype, hlonger, hbLength, htotal⟩ := hguard
  have hsize : (memory.take dscLen).length = dscLen := by
    rw [List.length_take]
    omega
  have hread : ∀ i < 4, (memory.take dscLen)[i]? = some (memory.getD i 0) := by
    intro i hi
    rw [List.getElem?_take_of_lt (by omega), List.getD_eq_getElem?_getD, List.getElem?_eq_getElem (by omega),
      Option.getD_some]
  constructor
  case longer => omega
  case bLength => rw [hread 0 (by decide), hbLength]
  case bDescriptorType =>
    rw [hread 1 (by decide), htype]
    rfl
  case total =>
    rw [hsize, ← htotal]
    unfold wTotalLength
    rw [List.getElem?_take_of_lt (by omega), List.getElem?_take_of_lt (by omega)]

-- The patch comes to its end, and no access on the way there is outside the buffer.
def RunsInside (parse : ParseDescriptors) (buffer : List Byte) (speed : Int) : Prop :=
  USB_SPEED_HIGH ≤ speed ∨ ∃ fuel, (patchLoop parse fuel buffer 0).isSome

-- It does unless a record on the walk starts at the last byte, or an endpoint on the walk has no length, or claims
-- seven bytes and more and is cut short by the end of the buffer. The fuel of `patchConfigurationForUdecx` is enough
-- whenever any is.
theorem patchConfigurationForUdecx_runsInside_iff {parse : ParseDescriptors} (hparse : parse.Walks)
    {buffer : List Byte} (hlive : LiveConfiguration buffer) (speed : Int) :
    (RunsInside parse buffer speed ↔ USB_SPEED_HIGH ≤ speed ∨ PassableFrom buffer 0) ∧
      ((patchConfigurationForUdecx parse buffer speed).isSome ↔ RunsInside parse buffer speed) := by
  have hiff : (∃ fuel, (patchLoop parse fuel buffer 0).isSome) ↔ PassableFrom buffer 0 := by
    constructor
    · rintro ⟨fuel, hsome⟩
      by_contra hstuck
      rw [patchLoop_none hparse hlive.total hstuck] at hsome
      cases hsome
    · intro hpass
      exact ⟨buffer.length + 1, patchLoop_isSome hparse hlive.total hpass (by omega)⟩
  refine ⟨or_congr_right hiff, ?_⟩
  unfold patchConfigurationForUdecx RunsInside
  by_cases hspeed : USB_SPEED_HIGH ≤ speed
  · rw [if_pos hspeed]
    exact iff_of_true rfl (.inl hspeed)
  · rw [if_neg hspeed]
    constructor
    · intro hsome
      exact .inr ⟨_, hsome⟩
    · rintro (h | hsome)
      · exact absurd h hspeed
      · exact patchLoop_isSome hparse hlive.total (hiff.mp hsome) (by omega)

-- An interface with one bulk endpoint.
def plainConfiguration : List Byte :=
  [9, 2, 25, 0, 1, 1, 0, 128, 50, 9, 4, 0, 0, 1, 255, 0, 0, 0, 7, 5, 129, 2, 64, 0, 0]

theorem patchConfigurationForUdecx_runsInside_plain :
    RunsInside usbdParseDescriptors plainConfiguration 1 ∧ PassableFrom plainConfiguration 0 := by
  have hlive : LiveConfiguration plainConfiguration := ⟨by decide, rfl, rfl, rfl⟩
  obtain ⟨hiff, hfuel⟩ := patchConfigurationForUdecx_runsInside_iff usbdParseDescriptors_walks hlive 1
  have hruns := hfuel.mp (by decide)
  exact ⟨hruns, (hiff.mp hruns).resolve_left (by decide)⟩

-- An endpoint without a length, one that only begins in the buffer, and a record that has nothing but its length there.
def emptyEndpoint : List Byte := [9, 2, 11, 0, 1, 1, 0, 128, 50, 0, 5]
def cutEndpoint : List Byte := [9, 2, 13, 0, 1, 1, 0, 128, 50, 7, 5, 129, 2]
def cutRecord : List Byte := [9, 2, 10, 0, 1, 1, 0, 128, 50, 7]

theorem emptyEndpoint_live : LiveConfiguration emptyEndpoint := ⟨by decide, rfl, rfl, rfl⟩
theorem cutEndpoint_live : LiveConfiguration cutEndpoint := ⟨by decide, rfl, rfl, rfl⟩
theorem cutRecord_live : LiveConfiguration cutRecord := ⟨by decide, rfl, rfl, rfl⟩

theorem emptyEndpoint_stuck : ¬ PassableFrom emptyEndpoint 0 := by
  intro hpass
  have hreach : Reaches emptyEndpoint 0 9 := .next (rfl : emptyEndpoint[0]? = some 9) (by decide) (.here 9)
  exact (hpass 9 hreach (by decide)).advances rfl rfl

theorem cutEndpoint_stuck : ¬ PassableFrom cutEndpoint 0 := by
  intro hpass
  have hreach : Reaches cutEndpoint 0 9 := .next (rfl : cutEndpoint[0]? = some 9) (by decide) (.here 9)
  obtain ⟨type, hkind, hlast⟩ := (hpass 9 hreach (by decide)).whole rfl 7 rfl (by decide)
  obtain rfl : UsbdPipeType.bulk = type := Option.some_inj.mp hkind
  exact absurd hlast (by decide)

theorem cutRecord_stuck : ¬ PassableFrom cutRecord 0 := by
  intro hpass
  have hreach : Reaches cutRecord 0 9 := .next (rfl : cutRecord[0]? = some 9) (by decide) (.here 9)
  exact absurd (hpass 9 hreach (by decide)).typed (by decide)

theorem not_runsInside {parse : ParseDescriptors} (hparse : parse.Walks) {buffer : List Byte}
    (hlive : LiveConfiguration buffer) (hstuck : ¬ PassableFrom buffer 0) : ¬ RunsInside parse buffer 1 := by
  rintro (hspeed | ⟨fuel, hsome⟩)
  · exact absurd hspeed (by decide)
  · rw [patchLoop_none hparse hlive.total hstuck] at hsome
    cases hsome

-- The first one is found for ever; the second one is written to behind the end of the buffer, and the type of the
-- third one is read there.
theorem patchConfigurationForUdecx_leaves :
    usbdParseDescriptors.Walks ∧
      LiveConfiguration emptyEndpoint ∧ ¬ RunsInside usbdParseDescriptors emptyEndpoint 1 ∧
      (∀ fuel, patchLoop usbdParseDescriptors (fuel + 1) emptyEndpoint 9 =
        patchLoop usbdParseDescriptors fuel emptyEndpoint 9) ∧
      LiveConfiguration cutEndpoint ∧ ¬ RunsInside usbdParseDescriptors cutEndpoint 1 ∧
      usbdParseDescriptors cutEndpoint 13 0 USB_ENDPOINT_DESCRIPTOR_TYPE = some (some 9) ∧
      patchEndpoint cutEndpoint 9 = none ∧
      LiveConfiguration cutRecord ∧ ¬ RunsInside usbdParseDescriptors cutRecord 1 ∧
      usbdParseDescriptors cutRecord 10 0 USB_ENDPOINT_DESCRIPTOR_TYPE = none :=
  ⟨usbdParseDescriptors_walks,
    emptyEndpoint_live, not_runsInside usbdParseDescriptors_walks emptyEndpoint_live emptyEndpoint_stuck,
    patchLoop_repeats usbdParseDescriptors_walks emptyEndpoint_live.total rfl rfl,
    cutEndpoint_live, not_runsInside usbdParseDescriptors_walks cutEndpoint_live cutEndpoint_stuck,
    by decide, by decide,
    cutRecord_live, not_runsInside usbdParseDescriptors_walks cutRecord_live cutRecord_stuck, by decide⟩

end Usbip

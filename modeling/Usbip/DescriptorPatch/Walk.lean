import Usbip.DescriptorPatch

namespace Usbip

-- The walk by bLength, from `start` on.
inductive Reaches (buffer : List Byte) : Nat → Nat → Prop
  | here (start : Nat) : Reaches buffer start start
  | next {start cur : Nat} {length : Byte} (hlength : buffer[start]? = some length) (hne : length ≠ 0)
      (h : Reaches buffer (start + length.toNat) cur) : Reaches buffer start cur

def EndpointAt (buffer : List Byte) (cur : Nat) : Prop := buffer[cur + 1]? = some USB_ENDPOINT_DESCRIPTOR_TYPE

-- The kind of an endpoint, when its attributes are in the buffer.
def TypeAt (buffer : List Byte) (cur : Nat) (type : UsbdPipeType) : Prop :=
  (buffer[cur + 3]?).map usbEndpointType = some type

-- The last byte of an endpoint that the patch reads or writes.
def lastField : UsbdPipeType → Nat
  | .control => 3
  | .bulk => 5
  | .isochronous | .interrupt => 6

-- wMaxPacketSize or bInterval
def patchedFields : UsbdPipeType → List Nat
  | .control => []
  | .bulk => [4, 5]
  | .isochronous | .interrupt => [6]

-- A record that the patch gets past: its type is in the buffer, and if it is an endpoint, it has a length, and what is
-- read of it is in the buffer too.
structure Passable (buffer : List Byte) (cur : Nat) : Prop where
  typed : cur + 1 < buffer.length
  advances : EndpointAt buffer cur → buffer[cur]? ≠ some 0
  whole : EndpointAt buffer cur → ∀ length, buffer[cur]? = some length → sizeofUsbEndpointDescriptor ≤ length.toNat →
    ∃ type, TypeAt buffer cur type ∧ cur + lastField type < buffer.length

def PassableFrom (buffer : List Byte) (start : Nat) : Prop :=
  ∀ cur, Reaches buffer start cur → cur < buffer.length → Passable buffer cur

section Reaches

variable {buffer buffer' : List Byte} {start cur : Nat}

theorem Reaches.le (h : Reaches buffer start cur) : start ≤ cur := by
  induction h with
  | here start => exact Nat.le_refl start
  | next _ _ _ ih => exact (Nat.le_add_right _ _).trans ih

theorem EndpointAt.lt (h : EndpointAt buffer cur) : cur + 1 < buffer.length :=
  (List.getElem?_eq_some_iff.mp h).1

-- The walk and what it finds are decided by the bytes from its start on.
theorem Reaches.congr (hsame : ∀ i, start ≤ i → buffer'[i]? = buffer[i]?) (h : Reaches buffer start cur) :
    Reaches buffer' start cur := by
  induction h with
  | here start => exact .here start
  | next hlength hne _ ih =>
      refine .next ((hsame _ (Nat.le_refl _)).trans hlength) hne (ih fun i hi => hsame i ?_)
      exact (Nat.le_add_right _ _).trans hi

theorem endpointAt_congr (hsame : ∀ i, cur ≤ i → buffer'[i]? = buffer[i]?) :
    EndpointAt buffer' cur ↔ EndpointAt buffer cur := by
  rw [EndpointAt, EndpointAt, hsame (cur + 1) (Nat.le_succ _)]

theorem Passable.congr (hsize : buffer'.length = buffer.length) (hsame : ∀ i, cur ≤ i → buffer'[i]? = buffer[i]?)
    (h : Passable buffer cur) : Passable buffer' cur := by
  constructor
  case typed =>
    rw [hsize]
    exact h.typed
  case advances =>
    rw [endpointAt_congr hsame, hsame cur (Nat.le_refl _)]
    exact h.advances
  case whole =>
    unfold TypeAt
    rw [endpointAt_congr hsame, hsame cur (Nat.le_refl _), hsame (cur + 3) (Nat.le_add_right _ _), hsize]
    exact h.whole

theorem PassableFrom.congr (hsize : buffer'.length = buffer.length)
    (hsame : ∀ i, start ≤ i → buffer'[i]? = buffer[i]?) (h : PassableFrom buffer start) :
    PassableFrom buffer' start := by
  intro cur hreach hin
  have hback := hreach.congr fun i hi => (hsame i hi).symm
  exact (h cur hback (hsize ▸ hin)).congr hsize fun i hi => hsame i (hback.le.trans hi)

theorem passableFrom_congr (hsize : buffer'.length = buffer.length)
    (hsame : ∀ i, start ≤ i → buffer'[i]? = buffer[i]?) : PassableFrom buffer' start ↔ PassableFrom buffer start :=
  ⟨fun h => h.congr hsize.symm fun i hi => (hsame i hi).symm, fun h => h.congr hsize hsame⟩

-- Behind the end of the buffer there is nothing.
theorem passableFrom_outside (h : buffer.length ≤ start) : PassableFrom buffer start :=
  fun _ hreach hin => absurd (h.trans hreach.le) (Nat.not_le.mpr hin)

theorem passableFrom_stop (hlength : buffer[start]? = some 0) :
    PassableFrom buffer start ↔ start + 1 < buffer.length ∧ ¬ EndpointAt buffer start := by
  have hin := (List.getElem?_eq_some_iff.mp hlength).1
  constructor
  · intro h
    have hhere := h start (.here start) hin
    exact ⟨hhere.typed, fun hendpoint => hhere.advances hendpoint hlength⟩
  · rintro ⟨htyped, hnone⟩ cur hreach -
    cases hreach with
    | here => exact ⟨htyped, fun h => absurd h hnone, fun h => absurd h hnone⟩
    | next h hne _ =>
        cases hlength.symm.trans h
        exact absurd rfl hne

theorem passableFrom_next {length : Byte} (hlength : buffer[start]? = some length) (hne : length ≠ 0) :
    PassableFrom buffer start ↔ Passable buffer start ∧ PassableFrom buffer (start + length.toNat) := by
  have hin := (List.getElem?_eq_some_iff.mp hlength).1
  constructor
  · intro h
    exact ⟨h start (.here start) hin, fun cur hreach => h cur (.next hlength hne hreach)⟩
  · rintro ⟨hhere, hrest⟩ cur hreach
    cases hreach with
    | here => exact fun _ => hhere
    | next h _ hreach =>
        cases hlength.symm.trans h
        exact hrest cur hreach

end Reaches

section Patch

variable {buffer patched : List Byte} {cur : Nat}

theorem toHighSpeedInterval_bounds (interval : Byte) :
    1 ≤ (toHighSpeedInterval interval).toNat ∧ (toHighSpeedInterval interval).toNat ≤ 16 := by
  unfold toHighSpeedInterval
  dsimp only
  split
  · rename_i i hfind
    have hmem := List.mem_of_find?_eq_some hfind
    rw [List.mem_range'_1] at hmem
    unfold maxInterval at hmem
    rw [UInt8.toNat_ofNat_of_lt' (by simp only [UInt8.size]; omega)]
    omega
  · decide

-- What the patch of one endpoint does.
structure EndpointPatch (buffer : List Byte) (cur : Nat) (type : UsbdPipeType) (patched : List Byte) : Prop where
  kind : TypeAt buffer cur type
  last : cur + lastField type < buffer.length
  size : patched.length = buffer.length
  frame : ∀ i, patched[i]? ≠ buffer[i]? → ∃ k ∈ patchedFields type, i = cur + k
  interval : 6 ∈ patchedFields type → ∃ v, patched[cur + 6]? = some v ∧ 1 ≤ v.toNat ∧ v.toNat ≤ 16

theorem eq_of_getElem?_set_ne {i k : Nat} {v : Byte} (h : (buffer.set k v)[i]? ≠ buffer[i]?) : i = k := by
  by_contra hne
  exact h (List.getElem?_set_ne (Ne.symm hne))

theorem isochronous_interval_bounds (interval : Byte) :
    1 ≤ (if interval.toNat + 3 < 16 then interval + 3 else 16).toNat ∧
      (if interval.toNat + 3 < 16 then interval + 3 else 16).toNat ≤ 16 := by
  split
  · rename_i hlt
    have hadd : (interval + 3).toNat = interval.toNat + 3 := by
      rw [UInt8.toNat_add]
      apply Nat.mod_eq_of_lt
      show interval.toNat + 3 < 2 ^ 8
      omega
    omega
  · decide

-- Both kinds of endpoints with an interval have one byte set.
theorem EndpointPatch.of_interval {type : UsbdPipeType} {bInterval v : Byte} (hkind : TypeAt buffer cur type)
    (hlast : lastField type = 6) (hfields : patchedFields type = [6]) (hread : buffer[cur + 6]? = some bInterval)
    (hv : 1 ≤ v.toNat ∧ v.toNat ≤ 16) : EndpointPatch buffer cur type (buffer.set (cur + 6) v) := by
  have hin := (List.getElem?_eq_some_iff.mp hread).1
  constructor
  case kind => exact hkind
  case last => exact hlast ▸ hin
  case size => exact List.length_set
  case frame =>
    intro i hi
    exact ⟨6, by rw [hfields]; exact List.mem_singleton_self 6, eq_of_getElem?_set_ne hi⟩
  case interval => exact fun _ => ⟨v, List.getElem?_set_self hin, hv⟩

theorem patchEndpoint_spec (h : patchEndpoint buffer cur = some patched) :
    ∃ type, EndpointPatch buffer cur type patched := by
  obtain ⟨attributes, hattributes, h⟩ := Option.bind_eq_some_iff.mp h
  have hin := (List.getElem?_eq_some_iff.mp hattributes).1
  have hkind : TypeAt buffer cur (usbEndpointType attributes) := by rw [TypeAt, hattributes, Option.map_some]
  generalize usbEndpointType attributes = type at h hkind
  refine ⟨type, ?_⟩
  cases type with
  | control =>
      cases h
      exact ⟨hkind, hin, rfl, fun i hi => absurd rfl hi, fun h => by cases h⟩
  | isochronous =>
      obtain ⟨bInterval, hread, h⟩ := Option.bind_eq_some_iff.mp h
      cases h
      exact .of_interval hkind rfl rfl hread (isochronous_interval_bounds bInterval)
  | bulk =>
      dsimp only at h
      split at h
      · rename_i hlast
        cases h
        refine ⟨hkind, hlast, ?_, fun i hi => ?_, fun h => by simp [patchedFields] at h⟩
        · rw [List.length_set, List.length_set]
        · by_cases hfive : i = cur + 5
          · exact ⟨5, by decide, hfive⟩
          · rw [List.getElem?_set_ne (Ne.symm hfive)] at hi
            exact ⟨4, by decide, eq_of_getElem?_set_ne hi⟩
      · cases h
  | interrupt =>
      obtain ⟨bInterval, hread, h⟩ := Option.bind_eq_some_iff.mp h
      cases h
      exact .of_interval hkind rfl rfl hread (toHighSpeedInterval_bounds bInterval)

theorem patchEndpoint_isSome {type : UsbdPipeType} (hkind : TypeAt buffer cur type)
    (hlast : cur + lastField type < buffer.length) : (patchEndpoint buffer cur).isSome := by
  obtain ⟨attributes, hattributes, hkind⟩ := Option.map_eq_some_iff.mp hkind
  rw [patchEndpoint, hattributes]
  dsimp only [Option.bind_eq_bind, Option.bind_some]
  rw [hkind]
  cases type with
  | control => rfl
  | bulk =>
      have hlast : cur + 5 < buffer.length := hlast
      dsimp only
      rw [if_pos hlast]
      rfl
  | isochronous =>
      have hlast : cur + 6 < buffer.length := hlast
      dsimp only
      rw [List.getElem?_eq_getElem hlast]
      rfl
  | interrupt =>
      have hlast : cur + 6 < buffer.length := hlast
      dsimp only
      rw [List.getElem?_eq_getElem hlast]
      rfl

theorem patchedFields_bounds {type : UsbdPipeType} {k : Nat} (hk : k ∈ patchedFields type) : 4 ≤ k ∧ k < 7 := by
  cases type <;> simp [patchedFields] at hk <;> omega

-- The total length and all that is behind the endpoint stay as they are.
theorem EndpointPatch.same {type : UsbdPipeType} (h : EndpointPatch buffer cur type patched) {i : Nat}
    (hi : i < 4 ∨ cur + 7 ≤ i) : patched[i]? = buffer[i]? := by
  by_contra hne
  obtain ⟨k, hk, rfl⟩ := h.frame i hne
  have hbounds := patchedFields_bounds hk
  omega

theorem EndpointPatch.wTotalLength {type : UsbdPipeType} (h : EndpointPatch buffer cur type patched) :
    wTotalLength patched = wTotalLength buffer := by
  unfold Usbip.wTotalLength
  rw [h.same (.inl (by decide)), h.same (.inl (by decide))]

end Patch

section Loop

variable {parse : ParseDescriptors} (hparse : parse.Walks) {buffer buffer' : List Byte} {start : Nat}
  (htotal : wTotalLength buffer = some buffer.length)

include hparse htotal

-- One round of the loop for each thing that can be at `start`.
theorem patchLoop_outside (hout : buffer.length ≤ start) (fuel : Nat) :
    patchLoop parse (fuel + 1) buffer start = some buffer := by
  rw [patchLoop, htotal]
  dsimp only [Option.bind_eq_bind, Option.bind_some]
  rw [hparse.outside _ _ _ _ hout]
  rfl

theorem patchLoop_cut (hin : start < buffer.length) (hcut : buffer[start + 1]? = none) (fuel : Nat) :
    patchLoop parse fuel buffer start = none := by
  cases fuel with
  | zero => rfl
  | succ fuel =>
      rw [patchLoop, htotal]
      dsimp only [Option.bind_eq_bind, Option.bind_some]
      rw [hparse.cut _ _ _ _ hin hcut, Option.bind_none]

theorem patchLoop_stop (htyped : start + 1 < buffer.length) (hnone : ¬ EndpointAt buffer start)
    (hlength : buffer[start]? = some 0) (fuel : Nat) : patchLoop parse (fuel + 1) buffer start = some buffer := by
  have hin := (List.getElem?_eq_some_iff.mp hlength).1
  have htype := List.getElem?_eq_getElem htyped
  rw [EndpointAt, htype, Option.some_inj] at hnone
  rw [patchLoop, htotal]
  dsimp only [Option.bind_eq_bind, Option.bind_some]
  rw [hparse.stop _ _ _ _ _ hin htype hnone hlength]
  rfl

theorem patchLoop_short (hendpoint : EndpointAt buffer start) {length : Byte} (hlength : buffer[start]? = some length)
    (hshort : length.toNat < sizeofUsbEndpointDescriptor) (fuel : Nat) :
    patchLoop parse (fuel + 1) buffer start = patchLoop parse fuel buffer (start + length.toNat) := by
  have hin := (List.getElem?_eq_some_iff.mp hlength).1
  rw [patchLoop, htotal]
  dsimp only [Option.bind_eq_bind, Option.bind_some]
  rw [hparse.found _ _ _ _ hin hendpoint]
  dsimp only [Option.bind_some]
  rw [hlength, Option.bind_some, if_pos hshort]

theorem patchLoop_endpoint (hendpoint : EndpointAt buffer start) {length : Byte}
    (hlength : buffer[start]? = some length) (hlong : ¬ length.toNat < sizeofUsbEndpointDescriptor) (fuel : Nat) :
    patchLoop parse (fuel + 1) buffer start =
      (patchEndpoint buffer start).bind fun patched => patchLoop parse fuel patched (start + length.toNat) := by
  have hin := (List.getElem?_eq_some_iff.mp hlength).1
  rw [patchLoop, htotal]
  dsimp only [Option.bind_eq_bind, Option.bind_some]
  rw [hparse.found _ _ _ _ hin hendpoint]
  dsimp only [Option.bind_some]
  rw [hlength, Option.bind_some, if_neg hlong]

end Loop

end Usbip

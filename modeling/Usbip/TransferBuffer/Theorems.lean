import Usbip.TransferBuffer
import Usbip.WskContext.Theorems

namespace Usbip.TransferBuffer

open Usbip.Library.Hoare
open Usbip.Wsk

-- How many bytes are asked for.
def requested (mdlSize : UInt32) (r : UrbTransfer) : Nat :=
  (if mdlSize = URB_BUF_LEN then r.transferBufferLength else mdlSize).toNat

-- The bytes of the URB: those of the whole chain, or of the buffer if there is no chain.
def UrbTransfer.bytes (r : UrbTransfer) (addressSpace : AddressSpace) : List Physical :=
  match r.transferBufferMDL with
  | head :: rest => (head :: rest).flatMap Mdl.bytes
  | [] => r.transferBuffer.elim [] fun buf => range addressSpace buf r.transferBufferLength.toNat

-- `MmGetSystemAddressForMdlSafe` maps the MDL that it is given, and none of those behind it.
def MapsHead (env : Env) (r : UrbTransfer) : Prop :=
  ∀ head rest buf, r.transferBufferMDL = head :: rest → env.systemAddress = some buf →
    ∀ i < head.bytes.length, some (env.addressSpace (buf + i)) = head.bytes[i]?

section Range

variable {addressSpace : AddressSpace} {address : Nat}

@[simp] theorem length_range (addressSpace : AddressSpace) (address length : Nat) :
    (range addressSpace address length).length = length := by
  simp [range]

theorem getElem?_range {length i : Nat} (h : i < length) :
    (range addressSpace address length)[i]? = some (addressSpace (address + i)) := by
  simp [range, h]

theorem range_eq_some {length i : Nat} {p : Physical} (h : (range addressSpace address length)[i]? = some p) :
    i < length ∧ addressSpace (address + i) = p := by
  have hi := (List.getElem?_eq_some_iff.mp h).1
  rw [length_range] at hi
  rw [getElem?_range hi] at h
  exact ⟨hi, Option.some_inj.mp h⟩

theorem range_take {length n : Nat} (h : n ≤ length) :
    (range addressSpace address length).take n = range addressSpace address n := by
  rw [range, ← List.map_take, List.take_range, Nat.min_eq_left h, range]

-- A range of addresses describes the first bytes of a list if each address leads to its byte.
theorem range_eq_take_iff {bytes : List Physical} {n : Nat} (hn : n ≤ bytes.length) :
    range addressSpace address n = bytes.take n ↔ ∀ i < n, some (addressSpace (address + i)) = bytes[i]? := by
  constructor
  · intro heq i hi
    rw [← getElem?_range hi, heq, List.getElem?_take_of_lt hi]
  · intro hall
    apply List.ext_getElem?
    intro i
    by_cases hi : i < n
    · rw [getElem?_range hi, List.getElem?_take_of_lt hi]
      exact hall i hi
    · rw [List.getElem?_eq_none (by rw [length_range]; omega),
        List.getElem?_eq_none (by rw [List.length_take]; omega)]

theorem length_flatMap_bytes (chain : List Mdl) : (chain.flatMap Mdl.bytes).length = size chain := by
  rw [List.length_flatMap]
  rfl

end Range

variable {env : Env} {mdlSize : UInt32} {operation : LockOperation} {r : UrbTransfer}

theorem size_singleton (head : Mdl) : size [head] % 2 ^ 32 = head.bytes.length := by
  have hlt := head.size
  simp only [size, List.map_cons, List.map_nil, List.sum_cons, List.sum_nil, Nat.add_zero]
  exact Nat.mod_eq_of_lt hlt

-- A single MDL: as much of it as there is.
theorem partialMdl_eq (head : Mdl) (n : Nat) : partialMdl head 0 (min head.bytes.length n) = head.bytes.take n := by
  rw [partialMdl, List.drop_zero]
  by_cases h : head.bytes.length ≤ n
  · rw [Nat.min_eq_left h, List.take_of_length_le h, List.take_of_length_le (le_refl _)]
  · rw [Nat.min_eq_right (by omega)]

section Map

variable {n : Nat}

-- The status of an allocation.
def allocationStatus (available : Bool) : NTSTATUS :=
  if available then .STATUS_SUCCESS else .STATUS_INSUFFICIENT_RESOURCES

-- What an allocation comes to: the MDL that describes these bytes, or none.
def allocation (available : Bool) (bytes : List Physical) : NTSTATUS × Option (List Physical) :=
  (allocationStatus available, if available then some bytes else none)

theorem mapTransferBuffer_of_single {head : Mdl} (hmdl : r.transferBufferMDL = [head]) :
    mapTransferBuffer env n operation r =
      if head.bytes.length < n ∧ operation = .IoReadAccess then (.STATUS_BUFFER_TOO_SMALL, none)
      else allocation env.allocated (partialMdl head 0 (min head.bytes.length n)) := by
  unfold mapTransferBuffer allocation allocationStatus
  rw [hmdl]
  simp only [size_singleton, ne_eq, not_true_eq_false, false_or, if_true]
  split_ifs <;> rfl

theorem mapTransferBuffer_of_chain {head next : Mdl} {rest : List Mdl}
    (hmdl : r.transferBufferMDL = head :: next :: rest) :
    mapTransferBuffer env n operation r =
      if size (head :: next :: rest) % 2 ^ 32 < n then (.STATUS_BUFFER_TOO_SMALL, none)
      else
        match env.systemAddress with
        | none => (.STATUS_UNSUCCESSFUL, none)
        | some buf => allocation env.allocated (range env.addressSpace buf n) := by
  unfold mapTransferBuffer allocation allocationStatus
  rw [hmdl]
  simp only [reduceCtorEq, ne_eq, not_false_eq_true, true_or, and_true, if_false]
  cases env.systemAddress with
  | none => rfl
  | some buf => split_ifs <;> rfl

theorem mapTransferBuffer_of_buffer (hmdl : r.transferBufferMDL = []) :
    mapTransferBuffer env n operation r =
      match r.transferBuffer with
      | none => (.STATUS_INVALID_PARAMETER, none)
      | some buf =>
        if env.allocated = true ∧ env.locked = false then (.STATUS_LOCK_NOT_GRANTED, none)
        else allocation env.allocated (range env.addressSpace buf n) := by
  unfold mapTransferBuffer allocation allocationStatus
  rw [hmdl]
  cases r.transferBuffer with
  | none => rfl
  | some buf => cases env.allocated <;> cases env.locked <;> rfl

-- What is to be described once the size is accepted.
def Describes (r : UrbTransfer) (addressSpace : AddressSpace) (n : Nat) (result : NTSTATUS × Option (List Physical)) :
    Prop :=
  result.1 = .STATUS_SUCCESS → result.2.getD [] = (r.bytes addressSpace).take n

theorem allocation_describes {available : Bool} {bytes : List Physical} {addressSpace : AddressSpace}
    (h : bytes = (r.bytes addressSpace).take n) : Describes r addressSpace n (allocation available bytes) := by
  cases available with
  | false => simp [Describes, allocation, allocationStatus]
  | true => exact fun _ => h

theorem mapTransferBuffer_buffer (hmdl : r.transferBufferMDL = []) (hn : n ≤ r.transferBufferLength.toNat) :
    Describes r env.addressSpace n (mapTransferBuffer env n operation r) := by
  rw [mapTransferBuffer_of_buffer hmdl]
  cases hbuf : r.transferBuffer with
  | none => simp [Describes]
  | some buf =>
      dsimp only
      split_ifs
      · simp [Describes]
      · refine allocation_describes ?_
        rw [UrbTransfer.bytes, hmdl, hbuf]
        exact (range_take hn).symm

theorem mapTransferBuffer_single {head : Mdl} (hmdl : r.transferBufferMDL = [head]) :
    Describes r env.addressSpace n (mapTransferBuffer env n operation r) := by
  rw [mapTransferBuffer_of_single hmdl]
  split_ifs
  · simp [Describes]
  · refine allocation_describes ?_
    rw [UrbTransfer.bytes, hmdl, partialMdl_eq]
    simp

-- The request gets to the chain, and the chain is long enough for it.
structure Chained (env : Env) (n : Nat) (r : UrbTransfer) (head : Mdl) (rest : List Mdl) (buf : Nat) : Prop where
  chain : r.transferBufferMDL = head :: rest
  long : rest ≠ []
  fits : n ≤ size (head :: rest) % 2 ^ 32
  address : env.systemAddress = some buf
  allocated : env.allocated = true

-- Behind the mapping of the first MDL there happens to be the memory of the next ones.
def GoesOn (env : Env) (n : Nat) (r : UrbTransfer) : Prop :=
  ∀ head rest buf, Chained env n r head rest buf → ∀ i, head.bytes.length ≤ i → i < n →
    some (env.addressSpace (buf + i)) = ((head :: rest).flatMap Mdl.bytes)[i]?

theorem mapTransferBuffer_chained {head : Mdl} {rest : List Mdl} {buf : Nat} (h : Chained env n r head rest buf) :
    mapTransferBuffer env n operation r = (.STATUS_SUCCESS, some (range env.addressSpace buf n)) := by
  obtain ⟨next, rest, rfl⟩ := List.exists_cons_of_ne_nil h.long
  rw [mapTransferBuffer_of_chain h.chain, if_neg (not_lt.mpr h.fits), h.address, h.allocated]
  rfl

theorem chained_of_success {head next : Mdl} {rest : List Mdl} (hmdl : r.transferBufferMDL = head :: next :: rest)
    (hst : (mapTransferBuffer env n operation r).1 = .STATUS_SUCCESS) :
    ∃ buf, Chained env n r head (next :: rest) buf := by
  rw [mapTransferBuffer_of_chain hmdl] at hst
  by_cases hfits : size (head :: next :: rest) % 2 ^ 32 < n
  · rw [if_pos hfits] at hst
    cases hst
  · rw [if_neg hfits] at hst
    cases haddress : env.systemAddress with
    | none =>
        rw [haddress] at hst
        cases hst
    | some buf =>
        cases hallocated : env.allocated with
        | false =>
            rw [haddress, hallocated] at hst
            cases hst
        | true => exact ⟨buf, hmdl, List.cons_ne_nil _ _, not_lt.mp hfits, haddress, hallocated⟩

theorem Chained.bytes {head : Mdl} {rest : List Mdl} {buf : Nat} (h : Chained env n r head rest buf)
    (addressSpace : AddressSpace) : r.bytes addressSpace = (head :: rest).flatMap Mdl.bytes := by
  rw [UrbTransfer.bytes, h.chain]

theorem Chained.describes_iff {head : Mdl} {rest : List Mdl} {buf : Nat} (h : Chained env n r head rest buf) :
    Describes r env.addressSpace n (mapTransferBuffer env n operation r) ↔
      ∀ i < n, some (env.addressSpace (buf + i)) = ((head :: rest).flatMap Mdl.bytes)[i]? := by
  have hle : n ≤ ((head :: rest).flatMap Mdl.bytes).length := by
    rw [length_flatMap_bytes]
    exact h.fits.trans (Nat.mod_le _ _)
  rw [← range_eq_take_iff hle, Describes, mapTransferBuffer_chained h, h.bytes]
  exact forall_prop_of_true rfl

theorem mapTransferBuffer_describes_iff (hmaps : MapsHead env r) (hn : n ≤ r.transferBufferLength.toNat) :
    Describes r env.addressSpace n (mapTransferBuffer env n operation r) ↔ GoesOn env n r := by
  match hmdl : r.transferBufferMDL with
  | [] =>
      refine iff_of_true (mapTransferBuffer_buffer hmdl hn) fun head rest buf h => ?_
      cases hmdl.symm.trans h.chain
  | [head] =>
      refine iff_of_true (mapTransferBuffer_single hmdl) fun head rest buf h => ?_
      have heq := hmdl.symm.trans h.chain
      exact absurd (List.cons.inj heq).2.symm h.long
  | head :: next :: rest =>
      constructor
      · intro hdescribes head' rest' buf h i _ hi
        exact h.describes_iff.mp hdescribes i hi
      · intro hgoes hst
        obtain ⟨buf, h⟩ := chained_of_success hmdl hst
        refine h.describes_iff.mpr (fun i hi => ?_) hst
        by_cases hhead : i < head.bytes.length
        · rw [List.flatMap_cons, List.getElem?_append_left hhead]
          exact hmaps head _ buf hmdl h.address i hhead
        · exact hgoes head _ buf h i (not_lt.mp hhead) hi

end Map

theorem requested_le (h : ¬ (mdlSize ≠ URB_BUF_LEN ∧ r.transferBufferLength < mdlSize)) :
    requested mdlSize r ≤ r.transferBufferLength.toNat := by
  unfold requested
  split_ifs with hall
  · exact le_refl _
  · exact UInt32.le_iff_toNat_le.mp (UInt32.not_lt.mp fun hlt => h ⟨hall, hlt⟩)

-- The MDL describes the first bytes of the URB unless the call maps a chain that does not go on behind its head.
theorem makeTransferBufferMdl_describes_iff (mdlSize : UInt32) (operation : LockOperation) (hmaps : MapsHead env r) :
    ((makeTransferBufferMdl env mdlSize operation r).1 = .STATUS_SUCCESS →
      (makeTransferBufferMdl env mdlSize operation r).2.getD [] =
        (r.bytes env.addressSpace).take (requested mdlSize r)) ↔
      (mdlSize = URB_BUF_LEN ∨ mdlSize ≤ r.transferBufferLength → GoesOn env (requested mdlSize r) r) := by
  unfold makeTransferBufferMdl
  by_cases hrejected : mdlSize ≠ URB_BUF_LEN ∧ r.transferBufferLength < mdlSize
  · have hnot : ¬ (mdlSize = URB_BUF_LEN ∨ mdlSize ≤ r.transferBufferLength) := by
      rintro (hall | hle)
      · exact hrejected.1 hall
      · exact UInt32.not_lt.mpr hle hrejected.2
    simp [if_pos hrejected, hnot]
  · have haccepted : mdlSize = URB_BUF_LEN ∨ mdlSize ≤ r.transferBufferLength := by
      by_cases hall : mdlSize = URB_BUF_LEN
      · exact .inl hall
      · exact .inr (UInt32.not_lt.mp fun hlt => hrejected ⟨hall, hlt⟩)
    have hle := requested_le hrejected
    rw [if_neg hrejected, forall_prop_of_true haccepted]
    change (if requested mdlSize r = 0 then _ else mapTransferBuffer env (requested mdlSize r) operation r).1 = _ →
      (if requested mdlSize r = 0 then _ else mapTransferBuffer env (requested mdlSize r) operation r).2.getD [] = _ ↔ _
    by_cases hzero : requested mdlSize r = 0
    · rw [if_pos hzero, hzero]
      exact iff_of_true (fun _ => rfl) fun _ _ _ _ i _ hi => absurd hi (Nat.not_lt_zero i)
    · rw [if_neg hzero]
      exact mapTransferBuffer_describes_iff hmaps hle

section Examples

-- Two MDLs of four bytes that do not follow one another, and a mapping that goes on behind the first of them.
def splitChain : UrbTransfer where
  transferBufferLength := 8
  transferBufferMDL := [⟨[100, 101, 102, 103], by decide⟩, ⟨[200, 201, 202, 203], by decide⟩]

def splitEnv : Env where
  addressSpace address := 100 + address
  systemAddress := some 0

theorem splitChain_maps : MapsHead splitEnv splitChain := by
  rintro head rest buf ⟨⟩ ⟨⟩ i hi
  have hall : ∀ i < 4, some (splitEnv.addressSpace (0 + i)) = ([100, 101, 102, 103] : List Physical)[i]? := by decide
  exact hall i hi

-- Within the first MDL of the chain.
theorem makeTransferBufferMdl_describes_head :
    ((makeTransferBufferMdl splitEnv 4 .IoReadAccess splitChain).1 = .STATUS_SUCCESS →
      (makeTransferBufferMdl splitEnv 4 .IoReadAccess splitChain).2.getD [] =
        (splitChain.bytes splitEnv.addressSpace).take (requested 4 splitChain)) ↔
      (4 = URB_BUF_LEN ∨ 4 ≤ splitChain.transferBufferLength → GoesOn splitEnv (requested 4 splitChain) splitChain) :=
  makeTransferBufferMdl_describes_iff 4 .IoReadAccess splitChain_maps

-- The bytes 104 to 107 belong to somebody else.
theorem makeTransferBufferMdl_past_head :
    ¬ ∀ (env : Env) (mdlSize : UInt32) (operation : LockOperation) (r : UrbTransfer), MapsHead env r →
      (makeTransferBufferMdl env mdlSize operation r).1 = .STATUS_SUCCESS →
        (makeTransferBufferMdl env mdlSize operation r).2.getD [] =
          (r.bytes env.addressSpace).take (requested mdlSize r) := by
  intro h
  have hsame := h splitEnv 8 .IoReadAccess splitChain splitChain_maps rfl
  revert hsame
  decide

end Examples

section Refines

-- A byte of memory lies where a place says, with respect to the bytes of the URB.
def Lies (bytes : List Physical) (p : Physical) : Place → Prop
  | .own offset => bytes[offset]? = some p
  | .other _ => p ∉ bytes

-- The same request and the same answers of the system, with byte counts and places.
structure Matches (wsk : Wsk.Env) (urb : Urb) (env : Env) (r : UrbTransfer) : Prop where
  length : urb.transferBufferLength = r.transferBufferLength
  buffer : urb.transferBuffer = r.transferBuffer.isSome
  mdls : urb.transferBufferMdl = r.transferBufferMDL.map fun mdl => UInt32.ofNat mdl.bytes.length
  allocated : wsk.bufMdl = env.allocated
  address : wsk.bufAddress = env.systemAddress.isSome
  locked : wsk.bufLock = env.locked
  mapping : ∀ buf, env.systemAddress = some buf → ∀ i < r.transferBufferLength.toNat,
    Lies (r.bytes env.addressSpace) (env.addressSpace (buf + i)) (urb.mapping i)

-- `mdl_buf` is as long as what the MDL describes.
def Holds (t : Wsk.State) (buffer : Buffer) : Option (List Physical) → Prop
  | none => t.ctx.mdlBuf = none
  | some bytes =>
    ∃ p, t.ctx.mdlBuf = some p ∧ t.heap.mdl p = some { byteCount := bytes.length, buffer := buffer }

variable {wsk : Wsk.Env} {urb : Urb} {st : Wsk.State} {n : Nat}

theorem assignMdlBuf_holds (available : Bool) (buffer : Buffer) (bytes : List Physical) {length : Nat}
    (hlen : bytes.length = length) :
    From st (assignMdlBuf available buffer length)
      (fun err t => err = allocationStatus available ∧ Holds t buffer (if available then some bytes else none))
      (fun _ _ => False) := by
  cases available with
  | false =>
      refine From.bind (Q := fun mdl t => mdl = none ∧ t = st) (From.pure _ ⟨rfl, rfl⟩) fun mdl t ht => ?_
      obtain ⟨rfl, rfl⟩ := ht
      exact From.modify_bind (From.pure _ ⟨rfl, rfl⟩)
  | true =>
      subst hlen
      have halloc : From st (allocMdl true buffer bytes.length)
          (fun mdl t => mdl = some st.heap.fresh ∧
            t.heap.mdl st.heap.fresh = some { byteCount := bytes.length, buffer := buffer })
          (fun _ _ => False) :=
        From.get_bind (From.modify_bind (From.pure _ ⟨rfl, Heap.alloc_self⟩))
      refine halloc.bind fun mdl t ht => ?_
      obtain ⟨rfl, hmdl⟩ := ht
      exact From.modify_bind (From.pure _ ⟨rfl, _, rfl, hmdl⟩)

theorem toNat_byteCount (mdl : Mdl) : (UInt32.ofNat mdl.bytes.length).toNat = mdl.bytes.length :=
  UInt32.toNat_ofNat_of_lt' mdl.size

-- The bytes that are described lie at the places that the model with byte counts has for them.
def Lie (urb : Urb) (bytes : List Physical) (described : Option (List Physical)) : Prop :=
  ∀ (i : Nat) (p : Physical), (described.getD [])[i]? = some p → Lies bytes p (place urb i)

theorem lie_none {bytes : List Physical} : Lie urb bytes none := fun i p h => by simp at h

theorem lie_allocation {available : Bool} {bytes described : List Physical}
    (h : ∀ (i : Nat) (p : Physical), described[i]? = some p → Lies bytes p (place urb i)) :
    Lie urb bytes (allocation available described).2 := by
  cases available with
  | false => exact lie_none
  | true => exact h

theorem place_of_short (h : ∀ head next rest, urb.transferBufferMdl ≠ head :: next :: rest) (i : Nat) :
    place urb i = .own i := by
  unfold place
  split
  · exact absurd ‹_› (h _ _ _)
  · rfl

theorem lie_buffer (hmdls : urb.transferBufferMdl = []) (hchain : r.transferBufferMDL = [])
    (hn : n ≤ r.transferBufferLength.toNat) :
    Lie urb (r.bytes env.addressSpace) (mapTransferBuffer env n operation r).2 := by
  rw [mapTransferBuffer_of_buffer hchain]
  cases hbuf : r.transferBuffer with
  | none => exact lie_none
  | some buf =>
      dsimp only
      split_ifs
      · exact lie_none
      · refine lie_allocation fun i p hp => ?_
        obtain ⟨hi, rfl⟩ := range_eq_some hp
        rw [place_of_short (by simp [hmdls]), UrbTransfer.bytes, hchain, hbuf]
        exact getElem?_range (by omega)

theorem lie_single {head : Mdl} {size : UInt32} (hmdls : urb.transferBufferMdl = [size])
    (hchain : r.transferBufferMDL = [head]) :
    Lie urb (r.bytes env.addressSpace) (mapTransferBuffer env n operation r).2 := by
  rw [mapTransferBuffer_of_single hchain]
  split_ifs
  · exact lie_none
  · refine lie_allocation fun i p hp => ?_
    rw [place_of_short (by simp [hmdls]), UrbTransfer.bytes, hchain]
    rw [partialMdl_eq] at hp
    have hi := (List.getElem?_eq_some_iff.mp hp).1
    rw [List.length_take] at hi
    rw [List.getElem?_take_of_lt (by omega)] at hp
    simpa [Lies] using hp

theorem lie_chain (h : Matches wsk urb env r) {head next : Mdl} {rest : List Mdl}
    (hchain : r.transferBufferMDL = head :: next :: rest) (hn : n ≤ r.transferBufferLength.toNat) :
    Lie urb (r.bytes env.addressSpace) (mapTransferBuffer env n operation r).2 := by
  have hplace (i : Nat) : place urb i = urb.mapping i := by
    unfold place
    rw [h.mdls, hchain]
    rfl
  rw [mapTransferBuffer_of_chain hchain]
  split_ifs
  · exact lie_none
  · cases haddress : env.systemAddress with
    | none => exact lie_none
    | some buf =>
        refine lie_allocation fun i p hp => ?_
        obtain ⟨hi, rfl⟩ := range_eq_some hp
        rw [hplace]
        exact h.mapping buf haddress i (by omega)

theorem mapTransferBuffer_lie (h : Matches wsk urb env r) (hn : n ≤ r.transferBufferLength.toNat) :
    Lie urb (r.bytes env.addressSpace) (mapTransferBuffer env n operation r).2 := by
  have hmdls := h.mdls
  match hchain : r.transferBufferMDL with
  | [] =>
      rw [hchain] at hmdls
      exact lie_buffer hmdls hchain hn
  | [head] =>
      rw [hchain] at hmdls
      exact lie_single hmdls hchain
  | head :: next :: rest => exact lie_chain h hchain hn

-- The model with byte counts ends with the same status and an MDL of the length that is described.
def Refines (wsk : Wsk.Env) (urb : Urb) (st : Wsk.State) (env : Env) (r : UrbTransfer) (n : Nat)
    (operation : LockOperation) : Prop :=
  From st (Wsk.mapTransferBuffer wsk n operation urb)
    (fun err t => err = (mapTransferBuffer env n operation r).1 ∧
      Holds t (mappedBuffer urb) (mapTransferBuffer env n operation r).2)
    (fun _ _ => False)

theorem refines_single (h : Matches wsk urb env r) (hnone : st.ctx.mdlBuf = none) {head : Mdl}
    (hchain : r.transferBufferMDL = [head]) : Refines wsk urb st env r n operation := by
  have hmdls : urb.transferBufferMdl = [UInt32.ofNat head.bytes.length] := by
    rw [h.mdls, hchain]
    rfl
  have hbuffer : mappedBuffer urb = .transferBuffer := by rw [mappedBuffer, hmdls]
  unfold Refines Wsk.mapTransferBuffer
  rw [hmdls, mapTransferBuffer_of_single hchain, hbuffer]
  dsimp only
  rw [toNat_byteCount, h.allocated]
  refine From.ite (fun hshort => From.pure _ ?_) fun hlong => ?_
  · rw [if_pos hshort]
    exact ⟨rfl, hnone⟩
  · rw [if_neg hlong]
    refine assignMdlBuf_holds env.allocated _ _ ?_
    rw [partialMdl_eq, List.length_take, Nat.min_comm]

theorem refines_chain (h : Matches wsk urb env r) (hnone : st.ctx.mdlBuf = none) {head next : Mdl} {rest : List Mdl}
    (hchain : r.transferBufferMDL = head :: next :: rest) : Refines wsk urb st env r n operation := by
  have hmdls : urb.transferBufferMdl = UInt32.ofNat head.bytes.length :: UInt32.ofNat next.bytes.length ::
      rest.map fun mdl => UInt32.ofNat mdl.bytes.length := by
    rw [h.mdls, hchain]
    rfl
  have hsize : (urb.transferBufferMdl.map UInt32.toNat).sum = size (head :: next :: rest) := by
    rw [h.mdls, hchain, List.map_map, size]
    exact congrArg List.sum (List.map_congr_left fun mdl _ => toNat_byteCount mdl)
  have hbuffer : mappedBuffer urb = .headMapping := by rw [mappedBuffer, hmdls]
  unfold Refines Wsk.mapTransferBuffer
  rw [hmdls] at hsize ⊢
  rw [mapTransferBuffer_of_chain hchain, hbuffer]
  dsimp only
  rw [hsize, h.allocated, h.address]
  refine From.ite (fun hshort => From.pure _ ?_) fun hlong => ?_
  · rw [if_pos hshort]
    exact ⟨rfl, hnone⟩
  · rw [if_neg hlong]
    cases env.systemAddress with
    | none => exact From.pure _ ⟨rfl, hnone⟩
    | some buf => exact From.ite (fun hnull => nomatch hnull) fun _ => assignMdlBuf_holds env.allocated _ _ (by simp)

theorem refines_buffer (h : Matches wsk urb env r) (hnone : st.ctx.mdlBuf = none)
    (hchain : r.transferBufferMDL = []) : Refines wsk urb st env r n operation := by
  have hmdls : urb.transferBufferMdl = [] := by
    rw [h.mdls, hchain]
    rfl
  have hstatus : allocationStatus env.allocated = .STATUS_SUCCESS ↔ env.allocated = true := by
    cases env.allocated <;> simp [allocationStatus]
  have hbuffer : mappedBuffer urb = .transferBuffer := by rw [mappedBuffer, hmdls]
  unfold Refines Wsk.mapTransferBuffer
  rw [hmdls, mapTransferBuffer_of_buffer hchain, hbuffer]
  dsimp only
  rw [h.buffer, h.allocated, h.locked]
  cases r.transferBuffer with
  | none => exact From.pure _ ⟨rfl, hnone⟩
  | some buf =>
      refine From.ite (fun hnull => nomatch hnull) fun _ => ?_
      refine (assignMdlBuf_holds env.allocated _ (range env.addressSpace buf n) (by simp)).bind fun err t ht => ?_
      obtain ⟨rfl, ht⟩ := ht
      dsimp only
      refine From.ite (fun hlock => ?_) fun hlock => ?_
      · rw [if_pos (And.imp_left hstatus.mp hlock)]
        exact From.get_bind (From.modify_bind (From.modify_bind (From.pure _ ⟨rfl, rfl⟩)))
      · rw [if_neg fun hboth => hlock (And.imp_left hstatus.mpr hboth)]
        exact From.pure _ ⟨rfl, ht⟩

theorem refines_of_matches (h : Matches wsk urb env r) (hnone : st.ctx.mdlBuf = none) :
    Refines wsk urb st env r n operation := by
  match hchain : r.transferBufferMDL with
  | [] => exact refines_buffer h hnone hchain
  | [head] => exact refines_single h hnone hchain
  | head :: next :: rest => exact refines_chain h hnone hchain

-- The status, the length and the places of the bytes are the same in both models.
theorem mapTransferBuffer_refines (h : Matches wsk urb env r) (hnone : st.ctx.mdlBuf = none)
    (hn : n ≤ r.transferBufferLength.toNat) :
    Refines wsk urb st env r n operation ∧
      Lie urb (r.bytes env.addressSpace) (mapTransferBuffer env n operation r).2 :=
  ⟨refines_of_matches h hnone, mapTransferBuffer_lie h hn⟩

theorem makeTransferBufferMdl_refines (h : Matches wsk urb env r) (hnone : st.ctx.mdlBuf = none) :
    From st (Wsk.makeTransferBufferMdl wsk mdlSize.toNat operation urb)
      (fun err t => err = (makeTransferBufferMdl env mdlSize operation r).1 ∧
        Holds t (mappedBuffer urb) (makeTransferBufferMdl env mdlSize operation r).2)
      (fun _ _ => False) ∧
    Lie urb (r.bytes env.addressSpace) (makeTransferBufferMdl env mdlSize operation r).2 := by
  have hall : mdlSize = URB_BUF_LEN ↔ mdlSize.toNat = Wsk.URB_BUF_LEN := UInt32.toNat_inj.symm
  constructor
  · unfold Wsk.makeTransferBufferMdl makeTransferBufferMdl
    simp only [h.length, ne_eq, hall, UInt32.lt_iff_toNat_lt]
    refine From.ite (fun hrejected => From.pure _ ?_) fun haccepted => ?_
    · rw [if_pos hrejected]
      exact ⟨rfl, hnone⟩
    · rw [if_neg haccepted]
      simp only [apply_ite UInt32.toNat]
      refine From.ite (fun hzero => From.pure _ ?_) fun hpos => ?_
      · rw [if_pos hzero]
        exact ⟨rfl, hnone⟩
      · rw [if_neg hpos]
        exact refines_of_matches h hnone
  · unfold makeTransferBufferMdl
    by_cases hrejected : mdlSize ≠ URB_BUF_LEN ∧ r.transferBufferLength < mdlSize
    · rw [if_pos hrejected]
      exact lie_none
    · rw [if_neg hrejected]
      change Lie urb _ (if requested mdlSize r = 0 then _ else mapTransferBuffer env (requested mdlSize r) operation r).2
      by_cases hzero : requested mdlSize r = 0
      · rw [if_pos hzero]
        exact lie_none
      · rw [if_neg hzero]
        exact mapTransferBuffer_lie h (requested_le hrejected)

-- What is described are the first bytes of the URB if the mapping leads on to them.
theorem describes_iff_leadsOn (h : Matches wsk urb env r) (hdistinct : (r.bytes env.addressSpace).Nodup)
    (hn : n ≤ r.transferBufferLength.toNat) (hst : (mapTransferBuffer env n operation r).1 = .STATUS_SUCCESS) :
    Describes r env.addressSpace n (mapTransferBuffer env n operation r) ↔ LeadsOn urb n := by
  match hmdl : r.transferBufferMDL with
  | [] =>
      refine iff_of_true (mapTransferBuffer_buffer hmdl hn) fun head next rest hchain => ?_
      rw [h.mdls, hmdl] at hchain
      cases hchain
  | [head] =>
      refine iff_of_true (mapTransferBuffer_single hmdl) fun head next rest hchain => ?_
      rw [h.mdls, hmdl] at hchain
      cases hchain
  | head :: next :: rest =>
      obtain ⟨buf, hchained⟩ := chained_of_success hmdl hst
      have hplace : ∀ i, place urb i = urb.mapping i := by
        intro i
        unfold place
        rw [h.mdls, hmdl]
        rfl
      have hlies : ∀ i < n, Lies (r.bytes env.addressSpace) (env.addressSpace (buf + i)) (urb.mapping i) :=
        fun i hi => h.mapping buf hchained.address i (by omega)
      rw [hchained.describes_iff, leadsOn_iff, ← hchained.bytes env.addressSpace]
      refine forall₂_congr fun i hi => ?_
      have hlie := hlies i hi
      rw [hplace]
      constructor
      · intro hbyte
        cases hmapping : urb.mapping i with
        | own offset =>
            rw [hmapping] at hlie
            obtain ⟨hlt, _⟩ := List.getElem?_eq_some_iff.mp hlie
            rw [(List.getElem?_inj hlt hdistinct).mp (hlie.trans hbyte)]
        | other value =>
            rw [hmapping] at hlie
            exact absurd (List.mem_of_getElem? hbyte.symm) hlie
      · intro hown
        rw [hown] at hlie
        exact hlie.symm

end Refines

end Usbip.TransferBuffer

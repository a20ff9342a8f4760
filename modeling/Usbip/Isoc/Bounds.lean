import Usbip.Isoc.Theorems

namespace Usbip.Isoc

open Usbip.Library.Words

section Packet

variable {urb urb' : Urb} {dirOut : Bool} {isoc : List Byte} {i n : Nat} {length length' : UInt32} {st : NTSTATUS}

-- What one round does to the memory and to the length, whatever its status is. `ops` are its operations.
structure PacketRound (urb urb' : Urb) (length length' : UInt32) (ops : List Operation) : Prop where
  offsets : ∀ j, offset urb' j = offset urb j
  packets : urb'.isoPacket.length = urb.isoPacket.length
  memoryLength : urb'.memory.length = urb.memory.length
  transferBufferLength : urb'.transferBufferLength = urb.transferBufferLength
  length : length'.toNat ≤ length.toNat
  writes : ∀ op ∈ ops, ∀ x, op.Writes x → length'.toNat ≤ x
  memory : ops.foldlM Operation.apply urb.memory = some urb'.memory

-- A round replaces the entry of the packet and runs its operations.
theorem PacketRound.of_set {dd : IsoPacket} (hdd : urb.isoPacket[i]? = some dd) (dd' : IsoPacket)
    (hoffset : dd'.offset = dd.offset) {memory : List Byte} {ops : List Operation}
    (hmemory : memory.length = urb.memory.length) (hlength : length'.toNat ≤ length.toNat)
    (hwrites : ∀ op ∈ ops, ∀ x, op.Writes x → length'.toNat ≤ x)
    (hfold : ops.foldlM Operation.apply urb.memory = some memory) :
    PacketRound urb { urb with isoPacket := urb.isoPacket.set i dd', memory := memory } length length' ops :=
  ⟨offset_set hdd hoffset memory, List.length_set, hmemory, rfl, hlength, hwrites, hfold⟩

theorem fillIsocPacket_round (h : fillIsocPacket urb dirOut isoc i length = some (st, urb', length')) :
    PacketRound urb urb' length length' (packetOperations urb dirOut isoc i length) := by
  unfold fillIsocPacket at h
  unfold packetOperations
  obtain ⟨sd, hsd, h⟩ := Option.bind_eq_some_iff.mp h
  obtain ⟨dd, hdd, h⟩ := Option.bind_eq_some_iff.mp h
  rw [hsd, hdd]
  dsimp only at h ⊢
  have quiet : ∀ dd' : IsoPacket, dd'.offset = dd.offset →
      PacketRound urb { urb with isoPacket := urb.isoPacket.set i dd' } length length [] :=
    fun dd' hoffset => .of_set hdd dd' hoffset rfl (Nat.le_refl _) (by simp) rfl
  by_cases hout : dirOut = true
  · rw [if_pos hout] at h ⊢
    cases h
    exact quiet _ rfl
  rw [if_neg hout] at h ⊢
  by_cases hzero : sd.actualLength = 0
  · rw [if_pos hzero] at h ⊢
    cases h
    exact quiet _ rfl
  rw [if_neg hzero] at h ⊢
  by_cases hlong : sd.actualLength > sd.length
  · rw [if_pos hlong] at h ⊢
    cases h
    exact quiet _ rfl
  rw [if_neg hlong] at h ⊢
  by_cases hoffset : sd.offset ≠ dd.offset
  · rw [if_pos hoffset] at h ⊢
    cases h
    exact quiet _ rfl
  rw [if_neg hoffset] at h ⊢
  by_cases hmore : length < sd.actualLength
  · rw [if_pos hmore] at h ⊢
    cases h
    exact quiet _ rfl
  rw [if_neg hmore] at h ⊢
  have hsub : (length - sd.actualLength).toNat ≤ length.toNat := by
    rw [UInt32.toNat_sub_of_le _ _ (UInt32.not_lt.mp hmore)]
    exact Nat.sub_le _ _
  have still : ∀ (dd' : IsoPacket) (ops : List Operation), dd'.offset = dd.offset →
      ops.foldlM Operation.apply urb.memory = some urb.memory → (∀ op ∈ ops, ∀ x, ¬ op.Writes x) →
      PacketRound urb { urb with isoPacket := urb.isoPacket.set i dd' } length (length - sd.actualLength) ops :=
    fun dd' ops hoffset hfold hstill =>
      .of_set hdd dd' hoffset rfl hsub (fun op hop x hx => absurd hx (hstill op hop x)) hfold
  by_cases hend : dd.offset + sd.actualLength > urb.transferBufferLength
  · rw [if_pos hend] at h ⊢
    cases h
    exact still _ _ rfl rfl (by simp [Operation.Writes])
  rw [if_neg hend] at h ⊢
  by_cases hback : dd.offset < length - sd.actualLength
  · rw [if_pos hback] at h ⊢
    cases h
    exact still _ _ rfl rfl (by simp [Operation.Writes])
  rw [if_neg hback] at h ⊢
  have hback := UInt32.le_iff_toNat_le.mp (UInt32.not_lt.mp hback)
  by_cases hup : dd.offset > length - sd.actualLength
  · rw [if_pos hup] at h ⊢
    obtain ⟨memory, hmove, h⟩ := Option.bind_eq_some_iff.mp h
    cases h
    refine .of_set hdd _ ?_ (moveMemory_length hmove) hsub ?_ ?_
    · rfl
    · simp only [List.forall_mem_cons, Operation.Writes]
      exact ⟨fun x h => h.elim, fun x h => h.elim, fun x h => hback.trans h.1, by simp⟩
    · simp [List.foldlM, Operation.apply, hmove]
  · rw [if_neg hup] at h ⊢
    cases h
    exact still _ _ rfl rfl (by simp [Operation.Writes])

-- Every packet is read below `length`, and no move takes a byte from a later one.
structure Bounded (transferBufferLength : Nat) (length : UInt32) (ops : List Operation) : Prop where
  inBounds : ∀ op ∈ ops, op.InBounds transferBufferLength
  reads : ∀ op ∈ ops, ∀ x, op.Reads x → x < length.toNat
  apart : ops.Pairwise fun op op' => ∀ x, op.Writes x → ¬ op'.Reads x

namespace Bounded

variable {transferBufferLength : Nat} {ops rest : List Operation}

theorem nil : Bounded transferBufferLength length [] := ⟨by simp, by simp, .nil⟩

theorem access {op : Operation} (hin : op.InBounds transferBufferLength)
    (hreads : ∀ x, op.Reads x → x < length.toNat) : Bounded transferBufferLength length [op] := by
  constructor
  case inBounds => simpa using hin
  case reads => simpa using hreads
  case apart => exact List.pairwise_singleton _ _

theorem ite {c : Prop} [Decidable c] (hops : c → Bounded transferBufferLength length ops)
    (hrest : ¬ c → Bounded transferBufferLength length rest) :
    Bounded transferBufferLength length (if c then ops else rest) := by
  split
  · rename_i hc
    exact hops hc
  · rename_i hc
    exact hrest hc

-- The subtraction and the addition of a packet come before its access to the buffer.
theorem arithmetic {place actual : UInt32} (hactual : actual ≤ length) (hadd : place.toNat + actual.toNat < 2 ^ 32)
    (hops : Bounded transferBufferLength length ops) :
    Bounded transferBufferLength length (.sub length actual :: .add place actual :: ops) := by
  constructor
  case inBounds =>
    simp only [List.forall_mem_cons]
    exact ⟨UInt32.le_iff_toNat_le.mp hactual, hadd, hops.inBounds⟩
  case reads =>
    simp only [List.forall_mem_cons]
    exact ⟨fun x h => h.elim, fun x h => h.elim, hops.reads⟩
  case apart => exact .cons (fun _ _ x h => h.elim) (.cons (fun _ _ x h => h.elim) hops.apart)

-- A round writes from `length'` on and the later ones read below it.
theorem append (hops : Bounded transferBufferLength length ops) (hle : length'.toNat ≤ length.toNat)
    (hwrites : ∀ op ∈ ops, ∀ x, op.Writes x → length'.toNat ≤ x) (hrest : Bounded transferBufferLength length' rest) :
    Bounded transferBufferLength length (ops ++ rest) := by
  constructor
  case inBounds => exact List.forall_mem_append.mpr ⟨hops.inBounds, hrest.inBounds⟩
  case reads =>
    refine List.forall_mem_append.mpr ⟨hops.reads, fun op hop x hx => ?_⟩
    exact Nat.lt_of_lt_of_le (hrest.reads op hop x hx) hle
  case apart =>
    refine List.pairwise_append.mpr ⟨hops.apart, hrest.apart, fun op hop op' hop' x hwrite hread => ?_⟩
    have hfrom := hwrites op hop x hwrite
    have hbelow := hrest.reads op' hop' x hread
    omega

end Bounded

theorem packetOperations_bounds (hoffset : offset urb i ≤ urb.transferBufferLength.toNat)
    (hlt : urb.transferBufferLength.toNat < 2 ^ 31) (hlength : length ≤ urb.transferBufferLength) :
    Bounded urb.transferBufferLength.toNat length (packetOperations urb dirOut isoc i length) := by
  unfold packetOperations
  split
  case h_2 => exact .nil
  case h_1 sd dd hsd hdd =>
    have hoff : offset urb i = dd.offset.toNat := by rw [offset, hdd]; rfl
    have hlength := UInt32.le_iff_toNat_le.mp hlength
    refine .ite (fun _ => .nil) fun _ => ?_
    refine .ite (fun _ => .nil) fun _ => ?_
    refine .ite (fun _ => .nil) fun _ => ?_
    refine .ite (fun _ => .nil) fun _ => ?_
    refine .ite (fun _ => .nil) fun hmore => ?_
    have hle := UInt32.le_iff_toNat_le.mp (UInt32.not_lt.mp hmore)
    have hrest := UInt32.toNat_sub_of_le _ _ (UInt32.not_lt.mp hmore)
    have hadd : dd.offset.toNat + sd.actualLength.toNat < 2 ^ 32 := by omega
    refine .ite (fun _ => .arithmetic (UInt32.not_lt.mp hmore) hadd .nil) fun hend => ?_
    have hend := UInt32.le_iff_toNat_le.mp (UInt32.not_lt.mp hend)
    rw [UInt32.toNat_add, Nat.mod_eq_of_lt hadd] at hend
    refine .ite (fun _ => .arithmetic (UInt32.not_lt.mp hmore) hadd .nil) fun hup => ?_
    refine .ite (fun hmove => ?_) fun hkeep => ?_
    · refine .arithmetic (UInt32.not_lt.mp hmore) hadd (.access ⟨hend, by omega⟩ fun x h => ?_)
      have hread := h.2
      omega
    · refine .arithmetic (UInt32.not_lt.mp hmore) hadd (.access ?_ fun x h => ?_)
      · show _ + _ ≤ _
        omega
      · have hread := h.2
        omega

theorem descriptor_isSome (h : 16 * (i + 1) ≤ isoc.length) : (IsoPacketDescriptor.at isoc i).isSome := by
  simp (disch := omega) [IsoPacketDescriptor.at]

theorem moveMemory_isSome {memory : List Byte} {dst src : Nat} (hdst : dst + n ≤ memory.length)
    (hsrc : src + n ≤ memory.length) : (moveMemory memory dst src n).isSome := by
  rw [moveMemory, if_pos ⟨hdst, hsrc⟩]
  rfl

theorem isSome_ite {α : Type} {c : Prop} [Decidable c] {x y : Option α} (hx : c → x.isSome) (hy : ¬ c → y.isSome) :
    (if c then x else y).isSome := by
  split
  · rename_i hc
    exact hx hc
  · rename_i hc
    exact hy hc

-- No round leaves an array or the transfer buffer.
theorem fillIsocPacket_isSome (hisoc : 16 * (i + 1) ≤ isoc.length) (hpacket : i < urb.isoPacket.length)
    (hoffset : offset urb i ≤ urb.transferBufferLength.toNat) (hlt : urb.transferBufferLength.toNat < 2 ^ 31)
    (hroom : urb.transferBufferLength.toNat ≤ urb.memory.length) (hlength : length ≤ urb.transferBufferLength) :
    (fillIsocPacket urb dirOut isoc i length).isSome := by
  obtain ⟨sd, hsd⟩ := Option.isSome_iff_exists.mp (descriptor_isSome hisoc)
  obtain ⟨dd, hdd⟩ : ∃ dd, urb.isoPacket[i]? = some dd := ⟨_, List.getElem?_eq_getElem hpacket⟩
  have hoff : offset urb i = dd.offset.toNat := by rw [offset, hdd]; rfl
  have hlength := UInt32.le_iff_toNat_le.mp hlength
  unfold fillIsocPacket
  rw [hsd, hdd]
  refine isSome_ite (fun _ => rfl) fun _ => ?_
  refine isSome_ite (fun _ => rfl) fun _ => ?_
  refine isSome_ite (fun _ => rfl) fun _ => ?_
  refine isSome_ite (fun _ => rfl) fun _ => ?_
  refine isSome_ite (fun _ => rfl) fun hmore => ?_
  have hle := UInt32.le_iff_toNat_le.mp (UInt32.not_lt.mp hmore)
  have hrest := UInt32.toNat_sub_of_le _ _ (UInt32.not_lt.mp hmore)
  refine isSome_ite (fun _ => rfl) fun hend => ?_
  have hend : (dd.offset + sd.actualLength).toNat ≤ _ := UInt32.le_iff_toNat_le.mp (UInt32.not_lt.mp hend)
  rw [UInt32.toNat_add, Nat.mod_eq_of_lt (by omega)] at hend
  refine isSome_ite (fun _ => rfl) fun _ => ?_
  refine isSome_ite (fun _ => ?_) fun _ => rfl
  have hsrc : (length - sd.actualLength).toNat + sd.actualLength.toNat ≤ urb.memory.length := by omega
  obtain ⟨memory, hmove⟩ := Option.isSome_iff_exists.mp (moveMemory_isSome (hend.trans hroom) hsrc)
  rw [hmove]
  rfl

end Packet

section Loop

variable {urb urb' : Urb} {dirOut : Bool} {isoc : List Byte} {n : Nat} {length length' : UInt32} {st : NTSTATUS}

-- Induction on the packets that are left: what a round writes is above all that the later ones read.
theorem operations_bounds (hoffset : ∀ i < n, offset urb i ≤ urb.transferBufferLength.toNat)
    (hlt : urb.transferBufferLength.toNat < 2 ^ 31) (hlength : length ≤ urb.transferBufferLength) :
    Bounded urb.transferBufferLength.toNat length (operations dirOut isoc n urb length) := by
  induction n generalizing urb length with
  | zero => exact .nil
  | succ n ih =>
      have hpacket : Bounded _ length (packetOperations urb dirOut isoc n length) :=
        packetOperations_bounds (hoffset n (Nat.lt_succ_self n)) hlt hlength
      rw [operations]
      split
      case h_2 => exact (List.append_nil _).symm ▸ hpacket
      case h_1 st urb₁ length₁ hround =>
        have hround := fillIsocPacket_round hround
        split
        · have hle : length₁ ≤ urb.transferBufferLength :=
            UInt32.le_iff_toNat_le.mpr (hround.length.trans (UInt32.le_iff_toNat_le.mp hlength))
          have hrest : Bounded urb₁.transferBufferLength.toNat length₁ (operations dirOut isoc n urb₁ length₁) := by
            apply ih
            · intro i hi
              rw [hround.offsets, hround.transferBufferLength]
              exact hoffset i (by omega)
            · rw [hround.transferBufferLength]
              exact hlt
            · rw [hround.transferBufferLength]
              exact hle
          rw [hround.transferBufferLength] at hrest
          exact hpacket.append hround.length hround.writes hrest
        · exact (List.append_nil _).symm ▸ hpacket

-- The operations are all that happens to the memory.
theorem fillIsocLoop_operations (h : fillIsocLoop dirOut isoc n urb length = some (st, urb', length')) :
    (operations dirOut isoc n urb length).foldlM Operation.apply urb.memory = some urb'.memory := by
  induction n generalizing urb length with
  | zero =>
      cases h
      rfl
  | succ n ih =>
      obtain ⟨⟨st₁, urb₁, length₁⟩, hpacket, h⟩ := Option.bind_eq_some_iff.mp h
      have hround := fillIsocPacket_round hpacket
      dsimp only at h
      rw [operations, hpacket, List.foldlM_append, hround.memory]
      dsimp only [Option.bind_eq_bind, Option.bind_some]
      split at h
      · rename_i hst
        rw [if_pos hst]
        exact ih h
      · rename_i hst
        rw [if_neg hst]
        cases h
        rfl

theorem fillIsocLoop_isSome (hisoc : 16 * n ≤ isoc.length) (hpackets : n ≤ urb.isoPacket.length)
    (hoffset : ∀ i < n, offset urb i ≤ urb.transferBufferLength.toNat) (hlt : urb.transferBufferLength.toNat < 2 ^ 31)
    (hroom : urb.transferBufferLength.toNat ≤ urb.memory.length) (hlength : length ≤ urb.transferBufferLength) :
    (fillIsocLoop dirOut isoc n urb length).isSome := by
  induction n generalizing urb length with
  | zero => rfl
  | succ n ih =>
      have hsome : (fillIsocPacket urb dirOut isoc n length).isSome :=
        fillIsocPacket_isSome hisoc hpackets (hoffset n (Nat.lt_succ_self n)) hlt hroom hlength
      obtain ⟨⟨st, urb₁, length₁⟩, hpacket⟩ := Option.isSome_iff_exists.mp hsome
      have hround := fillIsocPacket_round hpacket
      have hle := hround.length.trans (UInt32.le_iff_toNat_le.mp hlength)
      rw [fillIsocLoop, hpacket]
      dsimp only [Option.bind_eq_bind, Option.bind_some]
      refine isSome_ite (fun _ => ?_) fun _ => rfl
      apply ih
      · omega
      · rw [hround.packets]
        omega
      · intro i hi
        rw [hround.offsets, hround.transferBufferLength]
        exact hoffset i (by omega)
      · rw [hround.transferBufferLength]
        exact hlt
      · rw [hround.transferBufferLength, hround.memoryLength]
        exact hroom
      · rw [hround.transferBufferLength]
        exact UInt32.le_iff_toNat_le.mpr hle

theorem fillIsocData_operations (h : fillIsocData urb dirOut length isoc = some (st, urb')) :
    (operations dirOut isoc urb.numberOfPackets.toNat urb length).foldlM Operation.apply urb.memory =
      some urb'.memory := by
  obtain ⟨⟨st, urb₁, length₁⟩, hloop, h⟩ := Option.bind_eq_some_iff.mp h
  have hmemory := fillIsocLoop_operations hloop
  dsimp only at h
  split at h
  · cases h
    exact hmemory
  split at h
  · cases h
    exact hmemory
  · cases h
    exact hmemory

theorem fillIsocData_isSome (hloop : (fillIsocLoop dirOut isoc urb.numberOfPackets.toNat urb length).isSome) :
    (fillIsocData urb dirOut length isoc).isSome := by
  obtain ⟨⟨st, urb₁, length₁⟩, hloop⟩ := Option.isSome_iff_exists.mp hloop
  rw [fillIsocData, hloop]
  exact isSome_ite (fun _ => rfl) fun _ => isSome_ite (fun _ => rfl) fun _ => rfl

-- Whatever the server has sent, `fill_isoc_data` stays inside the buffer and its moves keep the payload that the
-- packets before them have still to be given.
theorem fillIsocData_inBounds (haccepted : Accepted urb) (hlt : urb.transferBufferLength.toNat < 2 ^ 31)
    (hlength : length ≤ urb.transferBufferLength) :
    (∀ op ∈ operations dirOut isoc urb.numberOfPackets.toNat urb length, op.InBounds urb.transferBufferLength.toNat) ∧
    ((operations dirOut isoc urb.numberOfPackets.toNat urb length).Pairwise
      fun op op' => ∀ x, op.Writes x → ¬ op'.Reads x) ∧
    (∀ st urb', fillIsocData urb dirOut length isoc = some (st, urb') →
      (operations dirOut isoc urb.numberOfPackets.toNat urb length).foldlM Operation.apply urb.memory =
        some urb'.memory) ∧
    (16 * urb.numberOfPackets.toNat ≤ isoc.length → urb.transferBufferLength.toNat ≤ urb.memory.length →
      (fillIsocData urb dirOut length isoc).isSome) := by
  have hoffset : ∀ i < urb.numberOfPackets.toNat, offset urb i ≤ urb.transferBufferLength.toNat :=
    fun i hi => haccepted.offset_le hi
  have hbounds : Bounded _ length (operations dirOut isoc _ urb length) := operations_bounds hoffset hlt hlength
  refine ⟨hbounds.inBounds, hbounds.apart, fun st urb' h => fillIsocData_operations h, fun hisoc hroom => ?_⟩
  exact fillIsocData_isSome (fillIsocLoop_isSome hisoc haccepted.1 hoffset hlt hroom hlength)

end Loop

-- The packet that is too long for its place is moved over the one that has been moved before it.
theorem fillIsocData_inBounds_longSecond :
    (fillIsocData (threePackets [10, 11, 12, 13, 0, 0]) false 4 longSecond).isSome ∧
      Operation.move 1 2 0 3 ∈ operations false longSecond 3 (threePackets [10, 11, 12, 13, 0, 0]) 4 ∧
      (operations false longSecond 3 (threePackets [10, 11, 12, 13, 0, 0]) 4).Pairwise
        fun op op' => ∀ x, op.Writes x → ¬ op'.Reads x := by
  have hbounds := @fillIsocData_inBounds (threePackets [10, 11, 12, 13, 0, 0]) false longSecond 4
    (by decide) (by decide) (by decide)
  exact ⟨hbounds.2.2.2 (by decide) (by decide), by decide, hbounds.2.1⟩

end Usbip.Isoc

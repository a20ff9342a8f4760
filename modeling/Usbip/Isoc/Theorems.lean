import Usbip.Isoc

namespace Usbip.Isoc

open Usbip.Library.Expand
open Usbip.Library.Words

section Memory

variable {memory memory' : List Byte} {dst src n : Nat}

theorem moveMemory_length (h : moveMemory memory dst src n = some memory') : memory'.length = memory.length := by
  unfold moveMemory at h
  split at h
  · cases h
    simp only [List.length_append, List.length_take, List.length_drop]
    omega
  · cases h

theorem moveMemory_bounds (h : moveMemory memory dst src n = some memory') :
    dst + n ≤ memory.length ∧ src + n ≤ memory.length := by
  unfold moveMemory at h
  split at h
  · assumption
  · cases h

-- `RtlMoveMemory` reads all bytes before it writes one.
theorem moveMemory_getD (h : moveMemory memory dst src n = some memory') (x : Nat) :
    memory'.getD x 0 = Piece.move ⟨dst, src, n⟩ (fun y => memory.getD y 0) x := by
  obtain ⟨hdst, hsrc⟩ := moveMemory_bounds h
  rw [moveMemory, if_pos ⟨hdst, hsrc⟩] at h
  cases h
  have htake : (memory.take dst).length = dst := by
    rw [List.length_take]
    omega
  have hslice : ((memory.drop src).take n).length = n := by
    rw [List.length_take, List.length_drop]
    omega
  simp only [Piece.move, Piece.Covers, Piece.source, List.getD_eq_getElem?_getD]
  rw [List.append_assoc]
  by_cases hbefore : x < dst
  · rw [if_neg (by omega), List.getElem?_append_left (by omega), List.getElem?_take_of_lt hbefore]
  · rw [List.getElem?_append_right (by omega), htake]
    by_cases hin : x < dst + n
    · rw [if_pos (by omega), List.getElem?_append_left (by omega), List.getElem?_take_of_lt (by omega),
        List.getElem?_drop]
    · have hplace : dst + n + (x - dst - n) = x := by omega
      rw [if_neg (by omega), List.getElem?_append_right (by omega), List.getElem?_drop, hslice, hplace]

end Memory

theorem sliceStart_succ (isoc : List Byte) (i : Nat) :
    sliceStart isoc (i + 1) = sliceStart isoc i + actualLength isoc i := by
  simp [sliceStart, List.range_succ]

theorem pieces_succ (urb : Urb) (isoc : List Byte) (start i : Nat) :
    pieces urb isoc start (i + 1) = pieces urb isoc start i ++ [piece urb isoc start i] := by
  simp [pieces, List.range_succ]

-- What one round of the loop does to a URB for IN, when it goes on.
structure PacketStep (isoc : List Byte) (i : Nat) (urb urb' : Urb) (length length' : UInt32) : Prop where
  length : length.toNat = length'.toNat + actualLength isoc i
  place : actualLength isoc i ≠ 0 → length'.toNat ≤ offset urb i ∧ offset urb i + actualLength isoc i ≤ urb.memory.length
  memoryLength : urb'.memory.length = urb.memory.length
  memory : ∀ x, urb'.memory.getD x 0 =
    Piece.move ⟨offset urb i, length'.toNat, actualLength isoc i⟩ (fun y => urb.memory.getD y 0) x
  packet : (urb'.isoPacket[i]?).map (fun dd => dd.length.toNat) = some (actualLength isoc i)
  others : ∀ j ≠ i, urb'.isoPacket[j]? = urb.isoPacket[j]?
  offsets : ∀ j, offset urb' j = offset urb j
  transferBufferLength : urb'.transferBufferLength = urb.transferBufferLength
  numberOfPackets : urb'.numberOfPackets = urb.numberOfPackets

section Packet

variable {isoc : List Byte} {i : Nat} {urb urb' : Urb} {length length' : UInt32}

theorem offset_set {dd dd' : IsoPacket} (hdd : urb.isoPacket[i]? = some dd) (hoffset : dd'.offset = dd.offset)
    (memory : List Byte) (j : Nat) :
    offset { urb with isoPacket := urb.isoPacket.set i dd', memory := memory } j = offset urb j := by
  unfold offset
  by_cases hj : i = j
  · subst hj
    rw [List.getElem?_set_self (List.getElem?_eq_some_iff.mp hdd).1, hdd, Option.map_some, Option.map_some, hoffset]
  · rw [List.getElem?_set_ne hj]

-- A round that goes on replaces the entry of the packet and moves its data.
theorem PacketStep.of_set {sd : IsoPacketDescriptor} {dd dd' : IsoPacket} {memory : List Byte}
    (hsd : IsoPacketDescriptor.at isoc i = some sd) (hdd : urb.isoPacket[i]? = some dd)
    (hoffset : dd'.offset = dd.offset) (hactual : dd'.length = sd.actualLength)
    (hsum : length.toNat = length'.toNat + sd.actualLength.toNat)
    (hplace : sd.actualLength.toNat ≠ 0 → length'.toNat ≤ dd.offset.toNat ∧
      dd.offset.toNat + sd.actualLength.toNat ≤ urb.memory.length)
    (hlength : memory.length = urb.memory.length)
    (hmove : ∀ x, memory.getD x 0 =
      Piece.move ⟨dd.offset.toNat, length'.toNat, sd.actualLength.toNat⟩ (fun y => urb.memory.getD y 0) x) :
    PacketStep isoc i urb { urb with isoPacket := urb.isoPacket.set i dd', memory := memory } length length' := by
  have hn : actualLength isoc i = sd.actualLength.toNat := by rw [actualLength, hsd]; rfl
  have hoff : offset urb i = dd.offset.toNat := by rw [offset, hdd]; rfl
  rw [← hn, ← hoff] at hplace hmove
  rw [← hn] at hsum
  refine ⟨hsum, hplace, hlength, hmove, ?_, fun j hj => List.getElem?_set_ne hj.symm, offset_set hdd hoffset memory,
    rfl, rfl⟩
  rw [List.getElem?_set_self (List.getElem?_eq_some_iff.mp hdd).1, Option.map_some, hactual, hn]

theorem fillIsocPacket_step (hroom : urb.transferBufferLength.toNat ≤ urb.memory.length)
    (hlength : length ≤ urb.transferBufferLength)
    (h : fillIsocPacket urb false isoc i length = some (.STATUS_SUCCESS, urb', length')) :
    PacketStep isoc i urb urb' length length' := by
  unfold fillIsocPacket at h
  obtain ⟨sd, hsd, h⟩ := Option.bind_eq_some_iff.mp h
  obtain ⟨dd, hdd, h⟩ := Option.bind_eq_some_iff.mp h
  dsimp only at h
  rw [if_neg (by decide)] at h
  by_cases hzero : sd.actualLength = 0
  · rw [if_pos hzero] at h
    have hnone : sd.actualLength.toNat = 0 := by rw [hzero]; rfl
    cases h
    refine .of_set hsd hdd rfl hzero.symm (by omega) (fun h => absurd hnone h) rfl fun x => ?_
    rw [Piece.move_of_empty hnone]
  rw [if_neg hzero] at h
  by_cases hslot : sd.actualLength > sd.length
  · rw [if_pos hslot] at h
    cases h
  rw [if_neg hslot] at h
  by_cases hoffset : sd.offset ≠ dd.offset
  · rw [if_pos hoffset] at h
    cases h
  rw [if_neg hoffset] at h
  by_cases hle : length < sd.actualLength
  · rw [if_pos hle] at h
    cases h
  rw [if_neg hle] at h
  have hsub : (length - sd.actualLength).toNat = length.toNat - sd.actualLength.toNat :=
    UInt32.toNat_sub_of_le _ _ (UInt32.not_lt.mp hle)
  have hle := UInt32.le_iff_toNat_le.mp (UInt32.not_lt.mp hle)
  have hlength := UInt32.le_iff_toNat_le.mp hlength
  by_cases hend : dd.offset + sd.actualLength > urb.transferBufferLength
  · rw [if_pos hend] at h
    cases h
  rw [if_neg hend] at h
  by_cases hup : dd.offset < length - sd.actualLength
  · rw [if_pos hup] at h
    cases h
  rw [if_neg hup] at h
  have hup := UInt32.le_iff_toNat_le.mp (UInt32.not_lt.mp hup)
  by_cases hkeep : dd.offset > length - sd.actualLength
  · rw [if_pos hkeep] at h
    obtain ⟨memory, hmove, h⟩ := Option.bind_eq_some_iff.mp h
    cases h
    obtain ⟨hdst, -⟩ := moveMemory_bounds hmove
    exact .of_set hsd hdd rfl rfl (by omega) (fun _ => ⟨hup, hdst⟩) (moveMemory_length hmove) (moveMemory_getD hmove)
  · rw [if_neg hkeep] at h
    have hkeep := UInt32.le_iff_toNat_le.mp (UInt32.not_lt.mp hkeep)
    cases h
    refine .of_set hsd hdd rfl rfl (by omega) (fun _ => ⟨hup, by omega⟩) rfl fun x => ?_
    rw [Piece.move_of_eq (Nat.le_antisymm hkeep hup)]

end Packet

-- What the loop does for the first `n` packets when it comes to its end. `length'` is what is left of the length.
structure LoopRun (isoc : List Byte) (n : Nat) (urb urb' : Urb) (length length' : UInt32) : Prop where
  length : length.toNat = length'.toNat + sliceStart isoc n
  compacted : Compacted length'.toNat (pieces urb isoc length'.toNat n)
  fits : ∀ i < n, actualLength isoc i ≠ 0 → offset urb i + actualLength isoc i ≤ urb.memory.length
  memoryLength : urb'.memory.length = urb.memory.length
  memory : ∀ x, urb'.memory.getD x 0 = expand (pieces urb isoc length'.toNat n) (fun y => urb.memory.getD y 0) x
  packets : ∀ i < n, (urb'.isoPacket[i]?).map (fun dd => dd.length.toNat) = some (actualLength isoc i)
  others : ∀ i, n ≤ i → urb'.isoPacket[i]? = urb.isoPacket[i]?

section Loop

variable {isoc : List Byte} {n : Nat} {urb urb₁ urb' : Urb} {length length₁ length' : UInt32}

theorem sum_pieces (urb : Urb) (isoc : List Byte) (start n : Nat) :
    ((pieces urb isoc start n).map Piece.length).sum = sliceStart isoc n := by
  rw [pieces, List.map_map]
  rfl

theorem LoopRun.cons (hstep : PacketStep isoc n urb urb₁ length length₁)
    (hrun : LoopRun isoc n urb₁ urb' length₁ length') :
    LoopRun isoc (n + 1) urb urb' length length' := by
  have hoffset : offset urb₁ = offset urb := funext hstep.offsets
  have hpieces : pieces urb₁ isoc length'.toNat n = pieces urb isoc length'.toNat n := by
    unfold pieces piece
    rw [hoffset]
  have hsrc := hrun.length
  have hlength := hstep.length
  constructor
  case length =>
    rw [sliceStart_succ]
    omega
  case compacted =>
    rw [pieces_succ]
    have hcompacted := hrun.compacted
    rw [hpieces] at hcompacted
    refine hcompacted.concat ?_ fun hne => ?_
    · rw [sum_pieces]
      rfl
    · refine le_trans (Nat.le_of_eq ?_) (hstep.place hne).1
      exact hsrc.symm
  case fits =>
    intro i hi hne
    by_cases hlast : i = n
    · subst hlast
      exact (hstep.place hne).2
    · have hfits := hrun.fits i (by omega) hne
      rw [hoffset, hstep.memoryLength] at hfits
      exact hfits
  case memoryLength => exact hrun.memoryLength.trans hstep.memoryLength
  case memory =>
    intro x
    have hmoved :
        (fun y => urb₁.memory.getD y 0) = (piece urb isoc length'.toNat n).move fun y => urb.memory.getD y 0 := by
      funext y
      rw [hstep.memory y, piece, ← hsrc]
    rw [hrun.memory, hpieces, hmoved, pieces_succ, expand_append]
    rfl
  case packets =>
    intro i hi
    by_cases hlast : i = n
    · subst hlast
      rw [hrun.others i (Nat.le_refl i)]
      exact hstep.packet
    · exact hrun.packets i (by omega)
  case others =>
    intro i hi
    rw [hrun.others i (by omega)]
    exact hstep.others i (by omega)

-- Induction on the packets that are left; the loop goes from the last one to the first.
theorem fillIsocLoop_run (hroom : urb.transferBufferLength.toNat ≤ urb.memory.length)
    (hlength : length ≤ urb.transferBufferLength)
    (h : fillIsocLoop false isoc n urb length = some (.STATUS_SUCCESS, urb', length')) :
    LoopRun isoc n urb urb' length length' := by
  induction n generalizing urb length with
  | zero =>
      cases h
      exact ⟨rfl, trivial, fun _ h => absurd h (Nat.not_lt_zero _), rfl, fun _ => rfl,
        fun _ h => absurd h (Nat.not_lt_zero _), fun _ _ => rfl⟩
  | succ n ih =>
      obtain ⟨⟨st, urb₁, length₁⟩, hpacket, h⟩ := Option.bind_eq_some_iff.mp h
      dsimp only at h
      split at h
      · rename_i hst
        subst hst
        have hstep := fillIsocPacket_step hroom hlength hpacket
        refine .cons hstep (ih ?_ ?_ h)
        · rw [hstep.transferBufferLength, hstep.memoryLength]
          exact hroom
        · have hsum := hstep.length
          have hle := UInt32.le_iff_toNat_le.mp hlength
          rw [hstep.transferBufferLength, UInt32.le_iff_toNat_le]
          omega
      · rename_i hst
        cases h
        exact absurd rfl hst

theorem fillIsocData_run (hroom : urb.transferBufferLength.toNat ≤ urb.memory.length)
    (hlength : length ≤ urb.transferBufferLength)
    (h : fillIsocData urb false length isoc = some (.STATUS_SUCCESS, urb')) :
    LoopRun isoc urb.numberOfPackets.toNat urb urb' length 0 := by
  obtain ⟨⟨st, urb₁, length₁⟩, hloop, h⟩ := Option.bind_eq_some_iff.mp h
  dsimp only at h
  split at h
  · rename_i hst
    cases h
    exact absurd rfl hst
  · rename_i hst
    obtain rfl := not_not.mp hst
    split at h
    · cases h
    · rename_i hleft
      cases h
      obtain rfl : length₁ = 0 := by simpa using hleft
      exact fillIsocLoop_run hroom hlength hloop

end Loop

section Repack

variable {transferBufferLength : UInt32} {packets : List IsoPacket} {urb : Urb}

-- What `repack` accepts is in order and ends inside the buffer.
theorem repackPackets_sorted (h : (Send.repackPackets transferBufferLength packets).2 = .STATUS_SUCCESS) :
    packets.Pairwise (fun p q => p.offset.toNat ≤ q.offset.toNat) ∧
      ∀ p ∈ packets, p.offset.toNat ≤ transferBufferLength.toNat := by
  induction packets with
  | nil => simp
  | cons packet rest ih =>
      rw [Send.repackPackets] at h
      dsimp only at h
      split at h
      · rename_i hnext
        obtain ⟨hsorted, hinside⟩ := ih h
        have hle := UInt32.le_iff_toNat_le.mp hnext.1
        have hend := UInt32.le_iff_toNat_le.mp hnext.2
        refine ⟨List.pairwise_cons.mpr ⟨fun q hq => ?_, hsorted⟩, List.forall_mem_cons.mpr ⟨by omega, hinside⟩⟩
        cases rest with
        | nil => cases hq
        | cons next rest =>
            have hnext : packet.offset.toNat ≤ next.offset.toNat := hle
            obtain rfl | hq := List.mem_cons.mp hq
            · exact hnext
            · exact hnext.trans ((List.pairwise_cons.mp hsorted).1 q hq)
      · cases h

theorem Accepted.offset_mono (h : Accepted urb) {i k : Nat} (hik : i < k) (hk : k < urb.numberOfPackets.toNat) :
    offset urb i ≤ offset urb k := by
  obtain ⟨hlen, hrepack⟩ := h
  have hsorted := List.pairwise_iff_getElem.mp (repackPackets_sorted hrepack).1 i k
    (by rw [List.length_take]; omega) (by rw [List.length_take]; omega) hik
  rw [List.getElem_take, List.getElem_take] at hsorted
  unfold offset
  rw [List.getElem?_eq_getElem (by omega), List.getElem?_eq_getElem (by omega)]
  exact hsorted

theorem Accepted.offset_le (h : Accepted urb) {i : Nat} (hi : i < urb.numberOfPackets.toNat) :
    offset urb i ≤ urb.transferBufferLength.toNat := by
  obtain ⟨hlen, hrepack⟩ := h
  unfold offset
  rw [List.getElem?_eq_getElem (by omega)]
  refine (repackPackets_sorted hrepack).2 _ (List.mem_take_iff_getElem.mpr ⟨i, by omega, rfl⟩)

end Repack

section Slices

theorem getElem?_eq_getD {memory : List Byte} {k : Nat} (h : k < memory.length) :
    memory[k]? = some (memory.getD k 0) := by
  rw [List.getD_eq_getElem?_getD, List.getElem?_eq_getElem h, Option.getD_some]

theorem slice_eq_iff {memory memory' : List Byte} {p : Piece} (hlength : memory'.length = memory.length)
    (hdst : p.dst + p.length ≤ memory.length) (hsrc : p.src + p.length ≤ memory.length) :
    (memory'.drop p.dst).take p.length = (memory.drop p.src).take p.length ↔
      ∀ x, p.Covers x → memory'.getD x 0 = memory.getD (p.source x) 0 := by
  have hget : ∀ k < p.length, ((memory'.drop p.dst).take p.length)[k]? = some (memory'.getD (p.dst + k) 0) ∧
      ((memory.drop p.src).take p.length)[k]? = some (memory.getD (p.src + k) 0) := by
    intro k hk
    rw [List.getElem?_take_of_lt hk, List.getElem?_take_of_lt hk, List.getElem?_drop, List.getElem?_drop]
    exact ⟨getElem?_eq_getD (by omega), getElem?_eq_getD (by omega)⟩
  constructor
  · rintro heq x ⟨hle, hlt⟩
    obtain ⟨hleft, hright⟩ := hget (x - p.dst) (by omega)
    rw [heq, hright, Nat.add_sub_of_le hle] at hleft
    exact (Option.some_inj.mp hleft).symm
  · intro hcover
    apply List.ext_getElem?
    intro k
    by_cases hk : k < p.length
    · obtain ⟨hleft, hright⟩ := hget k hk
      have hsource : p.source (p.dst + k) = p.src + k := by
        unfold Piece.source
        omega
      rw [hleft, hright, hcover (p.dst + k) ⟨by omega, by omega⟩, hsource]
    · rw [List.getElem?_eq_none (by rw [List.length_take]; omega),
        List.getElem?_eq_none (by rw [List.length_take]; omega)]

end Slices

section Places

variable {urb urb' : Urb} {isoc : List Byte} {length : UInt32}

theorem mem_pieces {start n : Nat} {p : Piece} :
    p ∈ pieces urb isoc start n ↔ ∃ i < n, p = piece urb isoc start i := by
  simp [pieces, eq_comm]

theorem sliceStart_mono (isoc : List Byte) {i k : Nat} (hik : i ≤ k) : sliceStart isoc i ≤ sliceStart isoc k := by
  induction hik with
  | refl => exact Nat.le_refl _
  | step _ ih =>
      rw [sliceStart_succ]
      omega

theorem LoopRun.places_iff (hrun : LoopRun isoc urb.numberOfPackets.toNat urb urb' length 0)
    (hroom : urb.transferBufferLength.toNat ≤ urb.memory.length) (hlength : length ≤ urb.transferBufferLength) :
    PlacesPackets urb urb' isoc ↔ Placed (pieces urb isoc 0 urb.numberOfPackets.toNat) fun x => urb.memory.getD x 0 := by
  have hslice : ∀ i < urb.numberOfPackets.toNat,
      ((urb'.memory.drop (offset urb i)).take (actualLength isoc i) =
        (urb.memory.drop (sliceStart isoc i)).take (actualLength isoc i) ↔
      ∀ x, (piece urb isoc 0 i).Covers x →
        urb'.memory.getD x 0 = urb.memory.getD ((piece urb isoc 0 i).source x) 0) := by
    intro i hi
    by_cases hnone : actualLength isoc i = 0
    · refine iff_of_true (by rw [hnone, List.take_zero, List.take_zero]) fun x hx => ?_
      have hlt : x < offset urb i + actualLength isoc i := hx.2
      have hle : offset urb i ≤ x := hx.1
      omega
    · have hsum := hrun.length
      have hzero : (0 : UInt32).toNat = 0 := rfl
      have hmono := sliceStart_mono isoc (Nat.succ_le_of_lt hi)
      have hle := UInt32.le_iff_toNat_le.mp hlength
      rw [Nat.succ_eq_add_one, sliceStart_succ] at hmono
      have hsrc : sliceStart isoc i = 0 + sliceStart isoc i := (Nat.zero_add _).symm
      rw [hsrc]
      exact slice_eq_iff (p := piece urb isoc 0 i) hrun.memoryLength (hrun.fits i hi hnone)
        (show 0 + sliceStart isoc i + actualLength isoc i ≤ _ by omega)
  constructor
  · intro hplaces p hp x hx
    obtain ⟨i, hi, rfl⟩ := mem_pieces.mp hp
    exact (hrun.memory x).symm.trans ((hslice i hi).mp (hplaces i hi).1 x hx)
  · intro hplaced i hi
    refine ⟨(hslice i hi).mpr fun x hx => ?_, hrun.packets i hi⟩
    exact (hrun.memory x).trans (hplaced _ (mem_pieces.mpr ⟨i, hi, rfl⟩) x hx)

-- Packets in the order of their offsets are apart if none of them reaches the next one with data.
theorem apart_iff (haccepted : Accepted urb) (start : Nat) :
    (pieces urb isoc start urb.numberOfPackets.toNat).Pairwise Apart ↔
      ∀ i k, i < k → k < urb.numberOfPackets.toNat → actualLength isoc i ≠ 0 → actualLength isoc k ≠ 0 →
        offset urb i + actualLength isoc i ≤ offset urb k := by
  have hlen : (pieces urb isoc start urb.numberOfPackets.toNat).length = urb.numberOfPackets.toNat := by simp [pieces]
  have hget : ∀ i (hi : i < (pieces urb isoc start urb.numberOfPackets.toNat).length),
      (pieces urb isoc start urb.numberOfPackets.toNat)[i] = piece urb isoc start i := by simp [pieces]
  rw [List.pairwise_iff_getElem]
  constructor
  · intro hapart i k hik hk hi0 hk0
    have hmono := haccepted.offset_mono hik hk
    have hdisjoint := hapart i k (by omega) (by omega) hik
    rw [hget, hget] at hdisjoint
    by_contra hreach
    refine hdisjoint (offset urb k) ⟨⟨hmono, ?_⟩, Nat.le_refl _, ?_⟩
    · exact Nat.lt_of_not_le hreach
    · exact Nat.lt_add_of_pos_right (Nat.pos_of_ne_zero hk0)
  · intro hfits i k hi hk hik
    rw [hget, hget]
    rintro x ⟨⟨hi1, hi2⟩, hk1, hk2⟩
    have hi1 : offset urb i ≤ x := hi1
    have hi2 : x < offset urb i + actualLength isoc i := hi2
    have hk1 : offset urb k ≤ x := hk1
    have hk2 : x < offset urb k + actualLength isoc k := hk2
    have hle := hfits i k hik (by omega) (by omega) (by omega)
    omega

-- When `fill_isoc_data` succeeds the packets are in their places unless the payload has different bytes for
-- one place; no payload has if no packet is longer than the room up to the next one.
theorem fillIsocData_places_iff (haccepted : Accepted urb)
    (hroom : urb.transferBufferLength.toNat ≤ urb.memory.length) (hlength : length ≤ urb.transferBufferLength)
    (h : fillIsocData urb false length isoc = some (.STATUS_SUCCESS, urb')) :
    (PlacesPackets urb urb' isoc ↔
      (pieces urb isoc 0 urb.numberOfPackets.toNat).Pairwise (Agree fun x => urb.memory.getD x 0)) ∧
    ((∀ payload : Nat → Byte, (pieces urb isoc 0 urb.numberOfPackets.toNat).Pairwise (Agree payload)) ↔
      ∀ i k, i < k → k < urb.numberOfPackets.toNat → actualLength isoc i ≠ 0 → actualLength isoc k ≠ 0 →
        offset urb i + actualLength isoc i ≤ offset urb k) := by
  have hrun := fillIsocData_run hroom hlength h
  have hcompacted : Compacted 0 (pieces urb isoc 0 urb.numberOfPackets.toNat) := hrun.compacted
  have hbytes : (0 : Byte) ≠ 1 := by decide
  exact ⟨(hrun.places_iff hroom hlength).trans (placed_iff hcompacted),
    (agree_iff_apart hbytes hcompacted).trans (apart_iff haccepted 0)⟩

end Places

-- Three packets of two bytes. The server has sent nothing for the first one.
def threePackets (memory : List Byte) : Urb where
  function := .isochTransfer
  transferBufferLength := 6
  memory := memory
  numberOfPackets := 3
  isoPacket := [{ offset := 0 }, { offset := 2 }, { offset := 4 }]

def descriptors (packets : List IsoPacketDescriptor) : List Byte := packets.flatMap Send.IsoPacketDescriptor.bytes

def shortFirst : List Byte :=
  descriptors [⟨0, 2, 0, 0⟩, ⟨2, 2, 2, 0⟩, ⟨4, 2, 1, 0⟩]

theorem fillIsocData_places_shortFirst :
    ∃ urb', fillIsocData (threePackets [10, 11, 12, 0, 0, 0]) false 3 shortFirst = some (.STATUS_SUCCESS, urb') ∧
      PlacesPackets (threePackets [10, 11, 12, 0, 0, 0]) urb' shortFirst := by
  have hfill : fillIsocData (threePackets [10, 11, 12, 0, 0, 0]) false 3 shortFirst = some (.STATUS_SUCCESS, _) := rfl
  have hplaces := fillIsocData_places_iff (by decide) (by decide) (by decide) hfill
  have hfits : ∀ k < 3, ∀ i < k, actualLength shortFirst i ≠ 0 → actualLength shortFirst k ≠ 0 →
      offset (threePackets [10, 11, 12, 0, 0, 0]) i + actualLength shortFirst i ≤
        offset (threePackets [10, 11, 12, 0, 0, 0]) k := by decide
  exact ⟨_, hfill, hplaces.1.mpr (hplaces.2.mpr (fun i k hik hk => hfits k hk i hik) _)⟩

-- The second packet has three bytes and the server says that there is room for them.
def longSecond : List Byte :=
  descriptors [⟨0, 2, 0, 0⟩, ⟨2, 3, 3, 0⟩, ⟨4, 2, 1, 0⟩]

theorem fillIsocData_overwrites :
    ¬ ∀ (urb urb' : Urb) (isoc : List Byte) (length : UInt32), Accepted urb →
      urb.transferBufferLength.toNat ≤ urb.memory.length → length ≤ urb.transferBufferLength →
      fillIsocData urb false length isoc = some (.STATUS_SUCCESS, urb') → PlacesPackets urb urb' isoc := by
  intro h
  have hfill : fillIsocData (threePackets [10, 11, 12, 13, 0, 0]) false 4 longSecond = some (.STATUS_SUCCESS, _) := rfl
  have hplaces := h _ _ _ _ (by decide) (by decide) (by decide) hfill 2 (by decide)
  exact absurd hplaces.1 (by decide)

end Usbip.Isoc

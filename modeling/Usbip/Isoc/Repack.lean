import Usbip.Isoc.Theorems

namespace Usbip.Isoc

-- The accumulator of `repack`, which its assertion compares with TransferBufferLength.
def totalLength (descriptors : List IsoPacketDescriptor) : UInt32 :=
  descriptors.foldl (fun length d => length + d.length) 0

-- Where the packets begin. Without a packet it is where they end.
def firstOffset (transferBufferLength : UInt32) (packets : List IsoPacket) : UInt32 :=
  (packets.head?.map IsoPacket.offset).getD transferBufferLength

def InOrder (transferBufferLength : UInt32) (packets : List IsoPacket) : Prop :=
  packets.Pairwise (fun p q => p.offset ≤ q.offset) ∧ ∀ p ∈ packets, p.offset ≤ transferBufferLength

-- The descriptors are those of the packets, and each one ends where the next one begins. The sums are those of
-- natural numbers, so that no arithmetic of the code has wrapped around.
structure Tiled (transferBufferLength : UInt32) (packets : List IsoPacket) (descriptors : List IsoPacketDescriptor) :
    Prop where
  offsets : descriptors.map IsoPacketDescriptor.offset = packets.map IsoPacket.offset
  next : ∀ i d, descriptors[i]? = some d → d.offset.toNat + d.length.toNat =
    (((descriptors[i + 1]?).map IsoPacketDescriptor.offset).getD transferBufferLength).toNat
  total : ∀ k, (totalLength (descriptors.take k)).toNat = ((descriptors.take k).map fun d => d.length.toNat).sum

-- What `repack` is meant to do.
def Repacks (transferBufferLength : UInt32) (packets : List IsoPacket) : Prop :=
  ((Send.repackPackets transferBufferLength packets).2 = .STATUS_SUCCESS ↔ InOrder transferBufferLength packets) ∧
    ((Send.repackPackets transferBufferLength packets).2 = .STATUS_SUCCESS →
      Tiled transferBufferLength packets (Send.repackPackets transferBufferLength packets).1 ∧
        totalLength (Send.repackPackets transferBufferLength packets).1 = transferBufferLength)

section Repack

variable {transferBufferLength : UInt32} {packets : List IsoPacket}

theorem inOrder_cons {packet : IsoPacket} :
    InOrder transferBufferLength (packet :: packets) ↔
      (packet.offset ≤ firstOffset transferBufferLength packets ∧
        firstOffset transferBufferLength packets ≤ transferBufferLength) ∧ InOrder transferBufferLength packets := by
  unfold InOrder
  rw [List.pairwise_cons, List.forall_mem_cons]
  cases packets with
  | nil => simp [firstOffset]
  | cons next rest =>
      rw [List.forall_mem_cons, List.forall_mem_cons, List.pairwise_cons]
      constructor
      · rintro ⟨⟨⟨hnext, -⟩, hsorted⟩, -, hinside⟩
        exact ⟨⟨hnext, hinside.1⟩, hsorted, hinside⟩
      · rintro ⟨⟨hnext, hin⟩, ⟨hle, hsorted⟩, hinside⟩
        refine ⟨⟨⟨hnext, fun p hp => UInt32.le_trans hnext (hle p hp)⟩, hle, hsorted⟩, ?_, hinside⟩
        exact UInt32.le_trans hnext hin

theorem repackPackets_cons (packet : IsoPacket) (hnext : packet.offset ≤ firstOffset transferBufferLength packets)
    (hin : firstOffset transferBufferLength packets ≤ transferBufferLength) :
    Send.repackPackets transferBufferLength (packet :: packets) =
      (⟨packet.offset, firstOffset transferBufferLength packets - packet.offset, 0, 0⟩ ::
        (Send.repackPackets transferBufferLength packets).1, (Send.repackPackets transferBufferLength packets).2) := by
  rw [Send.repackPackets]
  exact if_pos ⟨hnext, hin⟩

theorem repackPackets_stop (packet : IsoPacket)
    (h : ¬ (packet.offset ≤ firstOffset transferBufferLength packets ∧
      firstOffset transferBufferLength packets ≤ transferBufferLength)) :
    Send.repackPackets transferBufferLength (packet :: packets) = ([], .STATUS_INVALID_PARAMETER) := by
  rw [Send.repackPackets]
  exact if_neg h

theorem repackPackets_success_iff :
    (Send.repackPackets transferBufferLength packets).2 = .STATUS_SUCCESS ↔ InOrder transferBufferLength packets := by
  induction packets with
  | nil => exact iff_of_true rfl ⟨.nil, by simp⟩
  | cons packet packets ih =>
      rw [inOrder_cons, ← ih]
      by_cases hnext : packet.offset ≤ firstOffset transferBufferLength packets ∧
          firstOffset transferBufferLength packets ≤ transferBufferLength
      · rw [repackPackets_cons packet hnext.1 hnext.2]
        exact ⟨fun h => ⟨hnext, h⟩, fun h => h.2⟩
      · rw [repackPackets_stop packet hnext]
        exact iff_of_false (by simp) fun h => hnext h.1

-- The running sum is right as long as the whole sum is a 32-bit value.
theorem foldl_length (descriptors : List IsoPacketDescriptor) (length : UInt32)
    (h : length.toNat + (descriptors.map fun d => d.length.toNat).sum < 2 ^ 32) :
    (descriptors.foldl (fun length d => length + d.length) length).toNat =
      length.toNat + (descriptors.map fun d => d.length.toNat).sum := by
  induction descriptors generalizing length with
  | nil => simp
  | cons d rest ih =>
      rw [List.map_cons, List.sum_cons] at h ⊢
      have hadd : (length + d.length).toNat = length.toNat + d.length.toNat := by
        rw [UInt32.toNat_add]
        apply Nat.mod_eq_of_lt
        omega
      rw [List.foldl_cons, ih _ (by rw [hadd]; omega), hadd]
      omega

theorem totalLength_take (descriptors : List IsoPacketDescriptor)
    (h : (descriptors.map fun d => d.length.toNat).sum < 2 ^ 32) (k : Nat) :
    (totalLength (descriptors.take k)).toNat = ((descriptors.take k).map fun d => d.length.toNat).sum := by
  have hsplit := congrArg (fun ds => (ds.map fun d => d.length.toNat).sum) (List.take_append_drop k descriptors)
  simp only [List.map_append, List.sum_append] at hsplit
  have hzero : (0 : UInt32).toNat = 0 := rfl
  rw [totalLength, foldl_length _ _ (by omega)]
  omega

-- The lengths add up to what lies behind the first offset.
theorem sum_repackPackets (h : InOrder transferBufferLength packets) :
    (firstOffset transferBufferLength packets).toNat +
      ((Send.repackPackets transferBufferLength packets).1.map fun d => d.length.toNat).sum =
        transferBufferLength.toNat := by
  induction packets with
  | nil => simp [Send.repackPackets, firstOffset]
  | cons packet packets ih =>
      obtain ⟨⟨hnext, hin⟩, hrest⟩ := inOrder_cons.mp h
      have hsum := ih hrest
      have hsub := UInt32.toNat_sub_of_le _ _ hnext
      have hle := UInt32.le_iff_toNat_le.mp hnext
      rw [repackPackets_cons packet hnext hin, List.map_cons, List.sum_cons]
      have hfirst : firstOffset transferBufferLength (packet :: packets) = packet.offset := rfl
      rw [hfirst, hsub]
      omega

theorem offsets_repackPackets (h : InOrder transferBufferLength packets) :
    (Send.repackPackets transferBufferLength packets).1.map IsoPacketDescriptor.offset =
      packets.map IsoPacket.offset := by
  induction packets with
  | nil => rfl
  | cons packet packets ih =>
      obtain ⟨⟨hnext, hin⟩, hrest⟩ := inOrder_cons.mp h
      rw [repackPackets_cons packet hnext hin, List.map_cons, List.map_cons, ih hrest]

theorem next_repackPackets (h : InOrder transferBufferLength packets) (i : Nat) (d : IsoPacketDescriptor)
    (hd : (Send.repackPackets transferBufferLength packets).1[i]? = some d) :
    d.offset.toNat + d.length.toNat =
      ((((Send.repackPackets transferBufferLength packets).1[i + 1]?).map IsoPacketDescriptor.offset).getD
        transferBufferLength).toNat := by
  induction packets generalizing i with
  | nil => cases hd
  | cons packet packets ih =>
      obtain ⟨⟨hnext, hin⟩, hrest⟩ := inOrder_cons.mp h
      rw [repackPackets_cons packet hnext hin] at hd ⊢
      cases i with
      | zero =>
          cases hd
          have hfirst := congrArg List.head? (offsets_repackPackets hrest)
          rw [List.head?_map, List.head?_map] at hfirst
          rw [List.getElem?_cons_succ, ← List.head?_eq_getElem?, hfirst]
          have hsub := UInt32.toNat_sub_of_le _ _ hnext
          have hle := UInt32.le_iff_toNat_le.mp hnext
          show packet.offset.toNat + (firstOffset transferBufferLength packets - packet.offset).toNat =
            (firstOffset transferBufferLength packets).toNat
          omega
      | succ i => exact ih hrest i hd

theorem tiled_repackPackets (h : InOrder transferBufferLength packets) :
    Tiled transferBufferLength packets (Send.repackPackets transferBufferLength packets).1 := by
  have hsum := sum_repackPackets h
  have hlt := transferBufferLength.toNat_lt
  exact ⟨offsets_repackPackets h, next_repackPackets h, totalLength_take _ (by omega)⟩

theorem totalLength_repackPackets (h : InOrder transferBufferLength packets) :
    totalLength (Send.repackPackets transferBufferLength packets).1 = transferBufferLength ↔
      firstOffset transferBufferLength packets = 0 := by
  have hsum := sum_repackPackets h
  have htotal := (tiled_repackPackets h).total (Send.repackPackets transferBufferLength packets).1.length
  rw [List.take_length] at htotal
  rw [← UInt32.toNat_inj, ← UInt32.toNat_inj, UInt32.toNat_zero]
  omega

-- All is as it is meant to be unless packets that are in order begin behind the start of the buffer.
theorem repack_tiles_iff (transferBufferLength : UInt32) (packets : List IsoPacket) :
    Repacks transferBufferLength packets ↔
      (InOrder transferBufferLength packets → firstOffset transferBufferLength packets = 0) := by
  constructor
  · rintro ⟨hiff, hrepacked⟩ horder
    exact (totalLength_repackPackets horder).mp (hrepacked (hiff.mpr horder)).2
  · intro hfirst
    refine ⟨repackPackets_success_iff, fun hst => ?_⟩
    have horder := repackPackets_success_iff.mp hst
    exact ⟨tiled_repackPackets horder, (totalLength_repackPackets horder).mpr (hfirst horder)⟩

-- One packet of two bytes at the end of a buffer of four.
theorem repack_leaves_gap : ¬ ∀ (transferBufferLength : UInt32) (packets : List IsoPacket),
    Repacks transferBufferLength packets := by
  intro h
  exact absurd ((h 4 [{ offset := 2 }]).2 (by decide)).2 (by decide)

end Repack

end Usbip.Isoc

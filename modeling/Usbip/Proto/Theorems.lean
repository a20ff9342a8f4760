import Usbip.Urb

namespace Usbip

open Usbip.Library.Words

section Header

variable (hdr : Header)

@[simp] theorem bytes_length : hdr.bytes.length = Header.size := rfl

@[simp] theorem ofBytes_bytes : Header.ofBytes hdr.bytes = hdr := by
  obtain ⟨command, seqnum, devid, direction, ep, u0, u1, u2, u3, u4, u5, u6⟩ := hdr
  simp only [Header.bytes, Header.words, bytes32, List.flatMap_cons, List.flatMap_nil, Header.ofBytes, Header.ofWords]
  simp

theorem bswapUnion_command : (bswapUnion hdr).command = hdr.command := by
  unfold bswapUnion
  split_ifs <;> rfl

theorem bswapBasic_bswapBasic : bswapBasic (bswapBasic hdr) = hdr := by
  simp [bswapBasic]

theorem bswapUnion_bswapUnion : bswapUnion (bswapUnion hdr) = hdr := by
  rw [bswapUnion, bswapUnion_command, bswapUnion]
  split_ifs <;> simp [bswapCmdSubmit, bswapRetSubmit, bswapCmdUnlink, bswapRetUnlink]

theorem byteswapHeader_byteswapHeader : byteswapHeader (byteswapHeader hdr .host2net) .net2host = hdr := by
  rw [byteswapHeader, byteswapHeader, bswapBasic_bswapBasic, bswapUnion_bswapUnion]

-- The command has to be in the order of the host when it selects the member of the union.
theorem byteswapHeader_net2host_host2net : byteswapHeader (byteswapHeader hdr .net2host) .host2net = hdr := by
  rw [byteswapHeader, byteswapHeader, bswapUnion_bswapUnion, bswapBasic_bswapBasic]

end Header

section Isoc

theorem byteswapWords_length (bytes : List Byte) : (byteswapWords bytes).length = bytes.length := by
  fun_induction byteswapWords bytes with
  | case1 b0 b1 b2 b3 rest ih => simp [ih]
  | case2 rest => rfl

theorem byteswapIsoc_length (isoc : List Byte) (cnt : Nat) : (byteswapIsoc isoc cnt).length = isoc.length := by
  rw [byteswapIsoc, List.length_append, byteswapWords_length, ← List.length_append, List.take_append_drop]

theorem byteswapWords_byteswapWords (bytes : List Byte) : byteswapWords (byteswapWords bytes) = bytes := by
  fun_induction byteswapWords bytes with
  | case1 b0 b1 b2 b3 rest ih => rw [byteswapWords, ih]
  | case2 rest hshort =>
      unfold byteswapWords
      split
      · exact absurd rfl (hshort _ _ _ _ _)
      · rfl

theorem byteswapIsoc_byteswapIsoc (isoc : List Byte) (cnt : Nat) : byteswapIsoc (byteswapIsoc isoc cnt) cnt = isoc := by
  generalize hn : sizeofIsoPacketDescriptor * cnt = n
  have hlength := byteswapWords_length (isoc.take n)
  by_cases hle : n ≤ isoc.length
  · rw [List.length_take, Nat.min_eq_left hle] at hlength
    rw [byteswapIsoc, byteswapIsoc, hn, List.take_left' hlength, List.drop_left' hlength, byteswapWords_byteswapWords,
      List.take_append_drop]
  · have hall : isoc.length ≤ n := Nat.le_of_not_le hle
    rw [List.take_of_length_le hall] at hlength
    rw [byteswapIsoc, byteswapIsoc, hn, List.take_of_length_le hall, List.drop_eq_nil_of_le hall, List.append_nil,
      List.take_of_length_le (hlength.trans_le hall), List.drop_eq_nil_of_le (hlength.trans_le hall), List.append_nil,
      byteswapWords_byteswapWords]

end Isoc

-- A word and a signed value as the protocol has them, the most significant byte first.
def beBytes (word : UInt32) : List Byte := [byteOf word 3, byteOf word 2, byteOf word 1, byteOf word 0]
def beInt (value : Int) : List Byte := beBytes (ofSigned value)

namespace Header

def basicLayout (hdr : Header) : List Byte :=
  beBytes hdr.command ++ beBytes hdr.seqnum ++ beBytes hdr.devid ++ beBytes hdr.direction ++ beBytes hdr.ep

def cmdSubmitLayout (hdr : Header) : List Byte :=
  hdr.basicLayout ++ beBytes hdr.cmdTransferFlags ++ beInt hdr.transferBufferLength ++ beInt hdr.cmdStartFrame ++
  beInt hdr.cmdNumberOfPackets ++ beInt hdr.cmdInterval ++ hdr.cmdSetup

-- What the member of the union leaves of its storage is sent as it is.
def retSubmitLayout (hdr : Header) : List Byte :=
  hdr.basicLayout ++ beInt hdr.status ++ beInt hdr.actualLength ++ beInt hdr.startFrame ++ beInt hdr.numberOfPackets ++
  beInt hdr.errorCount ++ [hdr.u5, hdr.u6].flatMap bytes32

def cmdUnlinkLayout (hdr : Header) : List Byte :=
  hdr.basicLayout ++ beBytes hdr.unlinkSeqnum ++ [hdr.u1, hdr.u2, hdr.u3, hdr.u4, hdr.u5, hdr.u6].flatMap bytes32

def retUnlinkLayout (hdr : Header) : List Byte :=
  hdr.basicLayout ++ beInt hdr.unlinkStatus ++ [hdr.u1, hdr.u2, hdr.u3, hdr.u4, hdr.u5, hdr.u6].flatMap bytes32

end Header

section Layout

variable (hdr : Header)

theorem beInt_signed (word : UInt32) : beInt (signed word) = beBytes word := by
  rw [beInt, ofSigned_signed]

theorem bytes32_swap32_eq_beBytes (word : UInt32) : bytes32 (swap32 word) = beBytes word := bytes32_swap32 word

-- Both members with five words, and both members with one.
theorem bytes_bswapSubmit : (bswapBasic (bswapCmdSubmit hdr)).bytes =
    hdr.basicLayout ++ [hdr.u0, hdr.u1, hdr.u2, hdr.u3, hdr.u4].flatMap beBytes ++ [hdr.u5, hdr.u6].flatMap bytes32 := by
  simp [bswapBasic, bswapCmdSubmit, Header.bytes, Header.words, Header.basicLayout, bytes32_swap32_eq_beBytes]

theorem bytes_bswapUnlink : (bswapBasic (bswapCmdUnlink hdr)).bytes =
    hdr.basicLayout ++ beBytes hdr.u0 ++ [hdr.u1, hdr.u2, hdr.u3, hdr.u4, hdr.u5, hdr.u6].flatMap bytes32 := by
  simp [bswapBasic, bswapCmdUnlink, Header.bytes, Header.words, Header.basicLayout, bytes32_swap32_eq_beBytes]

theorem bytes_cmdSubmit (h : hdr.command = CMD_SUBMIT) :
    (byteswapHeader hdr .host2net).bytes = hdr.cmdSubmitLayout := by
  have hunion : bswapUnion hdr = bswapCmdSubmit hdr := by rw [bswapUnion, if_pos h]
  rw [byteswapHeader, hunion, bytes_bswapSubmit]
  simp [Header.cmdSubmitLayout, Header.cmdTransferFlags, Header.transferBufferLength, Header.cmdStartFrame,
    Header.cmdNumberOfPackets, Header.cmdInterval, Header.cmdSetup, beInt_signed]

theorem bytes_retSubmit (h : hdr.command = RET_SUBMIT) :
    (byteswapHeader hdr .host2net).bytes = hdr.retSubmitLayout := by
  have hunion : bswapUnion hdr = bswapCmdSubmit hdr := by
    rw [bswapUnion, if_neg (by rw [h]; decide), if_pos h]
    rfl
  rw [byteswapHeader, hunion, bytes_bswapSubmit]
  simp [Header.retSubmitLayout, Header.status, Header.actualLength, Header.startFrame, Header.numberOfPackets,
    Header.errorCount, beInt_signed]

theorem bytes_cmdUnlink (h : hdr.command = CMD_UNLINK) :
    (byteswapHeader hdr .host2net).bytes = hdr.cmdUnlinkLayout := by
  have hunion : bswapUnion hdr = bswapCmdUnlink hdr := by
    rw [bswapUnion, if_neg (by rw [h]; decide), if_neg (by rw [h]; decide), if_pos h]
  rw [byteswapHeader, hunion, bytes_bswapUnlink]
  rfl

theorem bytes_retUnlink (h : hdr.command = RET_UNLINK) :
    (byteswapHeader hdr .host2net).bytes = hdr.retUnlinkLayout := by
  have hunion : bswapUnion hdr = bswapCmdUnlink hdr := by
    rw [bswapUnion, if_neg (by rw [h]; decide), if_neg (by rw [h]; decide), if_neg (by rw [h]; decide), if_pos h]
    rfl
  rw [byteswapHeader, hunion, bytes_bswapUnlink, Header.retUnlinkLayout, Header.unlinkStatus, beInt_signed]

end Layout

theorem bytes32_le32 (b0 b1 b2 b3 : Byte) : bytes32 (le32 b0 b1 b2 b3) = [b0, b1, b2, b3] := by
  obtain ⟨h0, h1, h2, h3⟩ := byteOf_le32 b0 b1 b2 b3
  rw [bytes32, h0, h1, h2, h3]

-- A storage of words is put together again from its words.
theorem flatMap_words {n : Nat} {bytes : List Byte} (h : bytes.length = 4 * n) :
    ((List.range n).flatMap fun i => [bytes.getD (4 * i) 0, bytes.getD (4 * i + 1) 0, bytes.getD (4 * i + 2) 0,
      bytes.getD (4 * i + 3) 0]) = bytes := by
  induction n generalizing bytes with
  | zero => exact (List.eq_nil_of_length_eq_zero h).symm
  | succ n ih =>
      match bytes, h with
      | b0 :: b1 :: b2 :: b3 :: rest, h =>
          have hrest : rest.length = 4 * n := by
            simp only [List.length_cons] at h
            omega
          rw [List.range_succ_eq_map, List.flatMap_cons, List.flatMap_map]
          exact congrArg ([b0, b1, b2, b3] ++ ·) (ih hrest)

theorem bytes_ofBytes {bytes : List Byte} (h : bytes.length = Header.size) : (Header.ofBytes bytes).bytes = bytes := by
  have hwords : bytes.length = 4 * 12 := h
  have hall := flatMap_words hwords
  simp only [← bytes32_le32] at hall
  exact hall

-- Both directions of the header, the descriptors, and what goes over the wire.
theorem header_codec (hdr : Header) :
    byteswapHeader (byteswapHeader hdr .host2net) .net2host = hdr ∧
    byteswapHeader (byteswapHeader hdr .net2host) .host2net = hdr ∧
    (∀ bytes : List Byte, bytes.length = Header.size →
      (byteswapHeader (byteswapHeader (.ofBytes bytes) .net2host) .host2net).bytes = bytes) ∧
    (∀ isoc cnt, byteswapIsoc (byteswapIsoc isoc cnt) cnt = isoc) ∧
    (hdr.command = CMD_SUBMIT → (byteswapHeader hdr .host2net).bytes = hdr.cmdSubmitLayout) ∧
    (hdr.command = RET_SUBMIT → (byteswapHeader hdr .host2net).bytes = hdr.retSubmitLayout) ∧
    (hdr.command = CMD_UNLINK → (byteswapHeader hdr .host2net).bytes = hdr.cmdUnlinkLayout) ∧
    (hdr.command = RET_UNLINK → (byteswapHeader hdr .host2net).bytes = hdr.retUnlinkLayout) := by
  refine ⟨byteswapHeader_byteswapHeader hdr, byteswapHeader_net2host_host2net hdr, fun bytes h => ?_,
    byteswapIsoc_byteswapIsoc, bytes_cmdSubmit hdr, bytes_retSubmit hdr, bytes_cmdUnlink hdr, bytes_retUnlink hdr⟩
  rw [byteswapHeader_net2host_host2net, bytes_ofBytes h]

theorem header_codec_unlink :
    (byteswapHeader { command := CMD_UNLINK, seqnum := 7, devid := 0x10002, u0 := 5 } .host2net).bytes =
      Header.cmdUnlinkLayout { command := CMD_UNLINK, seqnum := 7, devid := 0x10002, u0 := 5 } :=
  (header_codec _).2.2.2.2.2.2.1 rfl

section Seqnum

theorem extractDir_shift (n bit : UInt32) (h : bit = 0 ∨ bit = 1) : extractDir (n <<< 1 ||| bit) = bit := by
  apply UInt32.toNat_inj.mp
  obtain rfl | rfl := h
  · simp [extractDir, Nat.and_one_is_mod]
    omega
  · simp [extractDir, Nat.and_one_is_mod]

theorem toNat_extractNum_shift (n bit : UInt32) (h : bit = 0 ∨ bit = 1) :
    (extractNum (n <<< 1 ||| bit)).toNat = n.toNat % 2 ^ 31 := by
  obtain rfl | rfl := h
  · simp [extractNum]
    omega
  · simp [extractNum, Nat.shiftRight_or_distrib]
    omega

end Seqnum

end Usbip

import Usbip.Filter.Urb

namespace Usbip.Filter

open Usbip.Library.Heap
open Usbip.Send

namespace Select

def numInterfaces (cfg : RawUrb) : Nat :=
  match cfg.configurationDescriptor with
  | none => 0
  | some cd => (bNumInterfaces cd).toNat

-- Records laid one behind the other by `Length`, each with all of its pipes in the first `len` bytes.
def RecordsFit (memory : Memory) (len r n : Nat) : Prop :=
  ∀ i < n, pipeOffset ((next memory)^[i] r) (numberOfPipes memory ((next memory)^[i] r)) ≤ len

section RecordsFit

variable {memory memory' : Memory} {len r n : Nat}

theorem recordsFit_zero : RecordsFit memory len r 0 := fun i hi => absurd hi (Nat.not_lt_zero i)

theorem recordsFit_succ :
    RecordsFit memory len r (n + 1) ↔
      pipeOffset r (numberOfPipes memory r) ≤ len ∧ RecordsFit memory len (next memory r) n := by
  constructor
  · intro h
    exact ⟨h 0 n.succ_pos, fun i hi => h (i + 1) (Nat.succ_lt_succ hi)⟩
  · rintro ⟨hfirst, hrest⟩ i hi
    cases i with
    | zero => exact hfirst
    | succ i => exact hrest i (Nat.lt_of_succ_lt_succ hi)

-- The end of a record, and of each of its pipes, is at most that of the last one.
theorem pipeOffset_le : r + offsetPipes ≤ pipeOffset r n ∧ ∀ j < n, pipeOffset r j + sizeofPipe ≤ pipeOffset r n := by
  simp only [pipeOffset, offsetPipes, sizeofPipe]
  refine ⟨by omega, fun j hj => ?_⟩
  omega

-- Memories that are the same from `r` on, up to `len`, have the same records there.
theorem record_congr (hsame : ∀ i, r ≤ i → i < len → memory' i = memory i)
    (hend : pipeOffset r (numberOfPipes memory r) ≤ len) :
    numberOfPipes memory' r = numberOfPipes memory r ∧ next memory' r = next memory r := by
  have hrecord : r + offsetPipes ≤ len := pipeOffset_le.1.trans hend
  simp only [offsetPipes] at hrecord
  constructor
  · unfold numberOfPipes
    rw [word32_congr fun k hk => hsame _ (by omega) (by omega)]
  · unfold next recordLength
    rw [word16_congr fun k hk => hsame _ (by omega) (by omega)]

theorem recordsFit_congr (hsame : ∀ i, r ≤ i → i < len → memory' i = memory i)
    (h : RecordsFit memory len r n) :
    RecordsFit memory' len r n ∧ ∀ i ≤ n, (next memory')^[i] r = (next memory)^[i] r := by
  induction n generalizing r with
  | zero =>
    refine ⟨recordsFit_zero, fun i hi => ?_⟩
    rw [Nat.le_zero.mp hi]
    rfl
  | succ n ih =>
    obtain ⟨hfirst, hrest⟩ := recordsFit_succ.mp h
    obtain ⟨hpipes, hnext⟩ := record_congr hsame hfirst
    have hle : r ≤ next memory r := Nat.le_add_right _ _
    obtain ⟨hfits, hplaces⟩ := ih (fun i hi hlt => hsame i (hle.trans hi) hlt) hrest
    constructor
    · rw [recordsFit_succ, hpipes, hnext]
      exact ⟨hfirst, hfits⟩
    · intro i hi
      cases i with
      | zero => rfl
      | succ i =>
        rw [Function.iterate_succ_apply, Function.iterate_succ_apply, hnext]
        exact hplaces i (Nat.le_of_succ_le_succ hi)

end RecordsFit

end Select

open Select

-- How far the members go that the UDE driver reads whatever records a URB has.
def fixedLength (function : Nat) : Nat := if function = URB_FUNCTION_SELECT_INTERFACE then 36 else 32

-- The copy has these members, and the descriptor, if it is copied, has bConfigurationValue.
structure RawUrb.Whole (urb : RawUrb) : Prop where
  fixed : fixedLength urb.function.toNat ≤ urb.length
  descriptor : urb.function.toNat = URB_FUNCTION_SELECT_CONFIGURATION →
    urb.descriptorLength = 0 ∨ 6 ≤ urb.descriptorLength

section Copy

variable {src : RawUrb} {dst : Nat} {i : Nat} {cd : Memory}

theorem copyUrb_memory (hi : i < src.length) : (copyUrb dst src).memory i = src.memory i := copy_inside hi

theorem clone_zero (hzero : src.descriptorLength = 0) : clone dst src = copyUrb dst src := if_pos hzero

theorem clone_pos (hpos : 0 < src.descriptorLength) :
    (clone dst src).heap = copy (pointed dst src) (dst + src.length)
        (word64 (view (pointed dst src) src.address) offsetPointer) src.descriptorLength ∧
      (clone dst src).address = dst := by
  rw [clone, if_neg hpos.ne']
  exact ⟨rfl, rfl⟩

-- A clone has the bytes of the URB as far as its length goes, but for the pointer to the descriptor.
theorem clone_memory (hi : i < src.length) (hpointer : i < offsetPointer ∨ offsetPointer + 8 ≤ i) :
    (clone dst src).memory i = src.memory i := by
  rw [← @copyUrb_memory _ dst _ hi]
  obtain hzero | hpos := Nat.eq_zero_or_pos src.descriptorLength
  · rw [clone_zero hzero]
  · obtain ⟨hheap, haddress⟩ := @clone_pos _ dst hpos
    have hbefore : dst + i < dst + src.length := Nat.add_lt_add_left hi dst
    have houtside : dst + i < dst + offsetPointer ∨ dst + offsetPointer + 8 ≤ dst + i := by omega
    rw [RawUrb.memory, view_apply, hheap, haddress, copy_outside (.inl hbefore), pointed, store64_outside houtside]
    rfl

theorem clone_length (h : 2 ≤ src.length) : (clone dst src).length = src.length := by
  have hword : word16 (clone dst src).memory 0 = word16 src.memory 0 := by
    refine word16_congr fun k hk => clone_memory ?_ (.inl ?_)
    · omega
    · simp only [offsetPointer]
      omega
  rw [RawUrb.length, hword, RawUrb.length]

theorem configurationDescriptor_eq_some :
    src.configurationDescriptor = some cd ↔ src.descriptorAddress ≠ 0 ∧ view src.heap src.descriptorAddress = cd := by
  unfold RawUrb.configurationDescriptor
  split_ifs with h <;> simp [h]

theorem copyUrb_descriptorAddress (h : 32 ≤ src.length) :
    (copyUrb dst src).descriptorAddress = src.descriptorAddress :=
  word64_congr fun k hk => copyUrb_memory (by simp only [offsetPointer]; omega)

-- Nothing but the copy is written before the descriptor is.
theorem pointed_outside {a : Nat} (h : 32 ≤ src.length) (ha : a < dst ∨ dst + src.length ≤ a) :
    pointed dst src a = src.heap a := by
  have houtside : a < dst + offsetPointer ∨ dst + offsetPointer + 8 ≤ a := by
    simp only [offsetPointer]
    omega
  rw [pointed, store64_outside houtside]
  exact copy_outside ha

-- The pointer of the clone leads to the copy of the descriptor.
theorem clone_descriptorAddress (hfresh : Fresh dst src)
    (hfunction : src.function.toNat = URB_FUNCTION_SELECT_CONFIGURATION) (h : 32 ≤ src.length)
    (hcd : src.configurationDescriptor = some cd) (hpos : 0 < src.descriptorLength) :
    (clone dst src).descriptorAddress = dst + src.length ∧
      ∀ i < src.descriptorLength, (clone dst src).heap (dst + src.length + i) = cd i := by
  obtain ⟨hne, rfl⟩ := configurationDescriptor_eq_some.mp hcd
  obtain ⟨hend, hurb, hdescriptor⟩ := hfresh hfunction hne
  obtain ⟨hheap, haddress⟩ := @clone_pos _ dst hpos
  have hsource : word64 (view (pointed dst src) src.address) offsetPointer = src.descriptorAddress := by
    refine word64_congr fun k hk => pointed_outside h ?_
    simp only [offsetPointer]
    unfold Apart at hurb
    omega
  constructor
  · have hfits : dst + src.length < 2 ^ 64 := by omega
    have hkept : word64 (clone dst src).memory offsetPointer = word64 (pointed dst src) (dst + offsetPointer) := by
      rw [RawUrb.memory, hheap, haddress]
      refine word64_congr fun k hk => ?_
      rw [view_apply, Nat.add_assoc]
      refine copy_outside (.inl ?_)
      simp only [offsetPointer]
      omega
    exact hkept.trans (word64_store64 hfits)
  · intro i hi
    rw [hheap, copy_inside hi, hsource]
    refine pointed_outside h ?_
    unfold Apart at hdescriptor
    omega

-- A byte of the descriptor is that of the copy, unless the descriptor ends before it.
theorem descriptor_clone (hfresh : Fresh dst src)
    (hfunction : src.function.toNat = URB_FUNCTION_SELECT_CONFIGURATION) (h : 32 ≤ src.length)
    (hcd : src.configurationDescriptor = some cd) (hi : i < 6)
    (hend : src.descriptorLength = 0 ∨ i < src.descriptorLength) :
    ∃ cd', (clone dst src).configurationDescriptor = some cd' ∧ cd' i = cd i := by
  obtain hzero | hlt := hend
  · obtain ⟨hne, rfl⟩ := configurationDescriptor_eq_some.mp hcd
    obtain ⟨-, -, hdescriptor⟩ := hfresh hfunction hne
    refine ⟨_, configurationDescriptor_eq_some.mpr ⟨?_, rfl⟩, ?_⟩
    · rwa [clone_zero hzero, copyUrb_descriptorAddress h]
    · rw [clone_zero hzero, copyUrb_descriptorAddress h]
      refine copy_outside ?_
      unfold Apart at hdescriptor
      omega
  · obtain ⟨haddress, hbytes⟩ := clone_descriptorAddress hfresh hfunction h hcd (Nat.zero_lt_of_lt hlt)
    refine ⟨_, configurationDescriptor_eq_some.mpr ⟨?_, rfl⟩, ?_⟩
    · rw [haddress]
      omega
    · rw [haddress]
      exact hbytes i hlt

theorem configurationDescriptor_clone_none (h : 32 ≤ src.length) (hcd : src.configurationDescriptor = none) :
    (clone dst src).configurationDescriptor = none := by
  have haddress : src.descriptorAddress = 0 := by
    by_contra hne
    rw [RawUrb.configurationDescriptor, if_neg hne] at hcd
    cases hcd
  have hzero : src.descriptorLength = 0 := by rw [RawUrb.descriptorLength, hcd]
  rw [clone_zero hzero, RawUrb.configurationDescriptor, copyUrb_descriptorAddress h, if_pos haddress]

theorem copyOf_memory (hi : i < src.length) (hpointer : i < offsetPointer ∨ offsetPointer + 8 ≤ i) :
    (copyOf dst src).memory i = src.memory i := by
  unfold copyOf
  split_ifs
  · exact clone_memory hi hpointer
  · exact copyUrb_memory hi

-- What a standard request is made of is the same in two URBs.
structure SameRequest (urb urb' : UrbUnion) : Prop where
  function : urb'.function = urb.function
  pipeRequest : urb.function.toNat ≠ URB_FUNCTION_SELECT_CONFIGURATION → urb'.pipeRequest = urb.pipeRequest
  interfaceNumber : urb.function.toNat = URB_FUNCTION_SELECT_INTERFACE →
    urb'.selectInterface.interfaceNumber = urb.selectInterface.interfaceNumber
  alternateSetting : urb.function.toNat = URB_FUNCTION_SELECT_INTERFACE →
    urb'.selectInterface.alternateSetting = urb.selectInterface.alternateSetting
  configuration : urb.function.toNat = URB_FUNCTION_SELECT_CONFIGURATION →
    urb'.selectConfiguration.configurationDescriptor.map ConfigurationDescriptor.bConfigurationValue =
      urb.selectConfiguration.configurationDescriptor.map ConfigurationDescriptor.bConfigurationValue

theorem le_fixedLength (function : Nat) : 32 ≤ fixedLength function := by
  unfold fixedLength
  split_ifs <;> omega

theorem copyOf_pipeRequest (h : 32 ≤ src.length)
    (hne : src.function.toNat ≠ URB_FUNCTION_SELECT_CONFIGURATION) :
    (copyOf dst src).pipeRequest = src.pipeRequest := by
  rw [copyOf, if_neg hne]
  exact copyUrb_descriptorAddress h

theorem copyOf_function (h : 4 ≤ src.length) : (copyOf dst src).function = src.function :=
  word16_congr fun k hk => copyOf_memory (by omega) (.inl (by simp only [offsetPointer]; omega))

theorem copyOf_configuration (hwhole : src.Whole) (hfresh : Fresh dst src)
    (hfunction : src.function.toNat = URB_FUNCTION_SELECT_CONFIGURATION) :
    (copyOf dst src).configurationDescriptor.map bConfigurationValue =
      src.configurationDescriptor.map bConfigurationValue := by
  have hlen : 32 ≤ src.length := (le_fixedLength _).trans hwhole.fixed
  rw [copyOf, if_pos hfunction]
  cases hcd : src.configurationDescriptor with
  | none => rw [configurationDescriptor_clone_none hlen hcd]
  | some cd =>
      obtain ⟨cd', hclone, hvalue⟩ :=
        descriptor_clone hfresh hfunction hlen hcd (by omega : 5 < 6) (hwhole.descriptor hfunction)
      rw [hclone, Option.map_some, Option.map_some, bConfigurationValue, bConfigurationValue, hvalue]

theorem RawUrb.Whole.sameRequest (h : src.Whole) (hfresh : Fresh dst src) :
    SameRequest src.toUnion (copyOf dst src).toUnion := by
  have hlen : 32 ≤ src.length := (le_fixedLength _).trans h.fixed
  have hinterface (hfunction : src.function.toNat = URB_FUNCTION_SELECT_INTERFACE) (i : Nat) (hi : i < 4) :
      (copyOf dst src).memory (offsetSelectInterface + i) = src.memory (offsetSelectInterface + i) := by
    have hend : 36 ≤ src.length := by
      have hfixed := h.fixed
      rwa [fixedLength, if_pos hfunction] at hfixed
    simp only [offsetSelectInterface]
    refine copyOf_memory (by omega) (.inr ?_)
    simp only [offsetPointer]
    omega
  constructor
  case function => exact copyOf_function ((by decide : 4 ≤ 32).trans hlen)
  case pipeRequest => exact copyOf_pipeRequest hlen
  case interfaceNumber => exact fun hfunction => hinterface hfunction 2 (by omega)
  case alternateSetting => exact fun hfunction => hinterface hfunction 3 (by omega)
  case configuration =>
    intro hfunction
    have hvalue := copyOf_configuration h hfresh hfunction
    simp only [toUnion, Option.map_map]
    exact hvalue

end Copy

end Usbip.Filter

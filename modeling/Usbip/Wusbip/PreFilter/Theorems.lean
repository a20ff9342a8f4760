import Usbip.DeviceFilter.Check.Theorems
import Usbip.DeviceFilter.Policy.Loaded
import Usbip.Libusbip.DeviceFilter.Theorems
import Usbip.Libusbip.Remote.Theorems
import Usbip.Wusbip.PreFilter

namespace Usbip.Wusbip

open Usbip.DeviceFilter
open Usbip.Libusbip
open Usbip.Library.Hoare
open Usbip.Library.RecordWalk
open Usbip.Library.Words

-- The descriptors of a device, the configurations by their index.
structure Descriptors where
  device : List Byte
  configuration : Nat → List Byte

def Descriptors.descriptor (d : Descriptors) : DeviceDescriptor := .ofBytes d.device

def Descriptors.bNumConfigurations (d : Descriptors) : Nat := d.descriptor.bNumConfigurations.toNat

def totalLength (configuration : List Byte) : Nat :=
  (configuration.getD 2 0).toNat + 256 * (configuration.getD 3 0).toNat

def InterfaceClass.triple (intf : InterfaceClass) : ClassTriple := ⟨intf.cls, intf.subcls, intf.protocol⟩

-- An interface that a walk over the configuration comes to; nothing is asked of what follows it.
def HasInterface (configuration : List Byte) (triple : ClassTriple) : Prop :=
  ∃ (before : List (List Byte)) (record after : List Byte),
    configuration.take (totalLength configuration) = before.flatten ++ (record ++ after) ∧
    (∀ r ∈ before, IsRecord UInt8.toNat r) ∧ IsRecord UInt8.toNat record ∧ IsInterface record ∧
    triple = InterfaceClass.triple (interfaceOf record)

-- The record of the list tells the truth about the device. Its interfaces are of one configuration or of several.
structure Projects (d : Descriptors) (pd : PendingDev) : Prop where
  cls : pd.cls = d.descriptor.bDeviceClass
  sub : pd.sub = d.descriptor.bDeviceSubClass
  proto : pd.proto = d.descriptor.bDeviceProtocol
  ifaces : ∀ triple ∈ pd.ifaces, ∃ i < d.bNumConfigurations, HasInterface (d.configuration i) triple

-- A reply of the server: a header, whatever it says, and how much of the descriptor comes with it.
structure Reply where
  header : Header
  actual : UInt16

def answer (reply : Reply) (descriptor : List Byte) : List Byte :=
  (byteswapHeader { reply.header with u1 := UInt32.ofNat (descriptor.take reply.actual.toNat).length }
    .host2net).bytes ++ descriptor.take reply.actual.toNat

def configurationAnswers (d : Descriptors) (replies : Nat → Reply) (i : Nat) : List Byte :=
  answer (replies (2 * i + 1)) (d.configuration i) ++ answer (replies (2 * i + 2)) (d.configuration i)

-- What is left of the replies when the first `i` configurations have been read.
def served (d : Descriptors) (replies : Nat → Reply) (i : Nat) : List Byte :=
  (List.range' i (d.bNumConfigurations - i)).flatMap (configurationAnswers d replies)

-- The replies to all that is asked of the device.
def Serves (d : Descriptors) (stream : List Byte) : Prop :=
  ∃ replies rest, stream = answer (replies 0) d.device ++ (served d replies 0 ++ rest)

-- What `get_device_filter` shows of the policy of the driver.
def policyOf (p : Policy) : DeviceFilterPolicy where
  mode := .ofByte p.mode
  entries := p.active

section Accepted

variable {d : Descriptors} {replies : Nat → Reply} {descriptor stream : List Byte} {p : Policy}
  {udev : DeviceFilter.UsbipUsbDevice}

def AnyStop (_stop : Stop) (_w : World) : Prop := True

def Streams (stream : List Byte) (w : World) : Prop := w.stream = stream

theorem callService_streams : Triple (Streams stream) callService (fun _ => Streams stream) AnyStop := by
  refine Triple.get_bind fun w0 => Triple.modify_bind (Streams stream) (fun w hw => hw.2) ?_
  cases w0.service w0.calls with
  | none => exact Triple.pure _ fun w hw => hw
  | some st => exact Triple.throw _ fun w hw => trivial

theorem recv_streams (bytes : List Byte) :
    Triple (Streams (bytes ++ stream)) (recv bytes.length) (fun b w => b = bytes ∧ Streams stream w) AnyStop := by
  refine callService_streams.bind fun _ => Triple.get_bind fun w0 => ?_
  refine Triple.ite (fun _ => Triple.throw _ fun w hw => trivial) fun _ => ?_
  intro w hw
  obtain ⟨rfl, hw⟩ := hw
  rw [Streams] at hw
  refine ⟨?_, ?_⟩
  · rw [hw, List.take_left']
    rfl
  · change w.stream.drop bytes.length = stream
    rw [hw, List.drop_left']
    rfl

theorem reject_stops {α : Type} {P : World → Prop} {Q : α → World → Prop} (rejection : Rejection) :
    Triple P (reject rejection) Q AnyStop :=
  Triple.modify_bind (fun _ => True) (fun _ _ => trivial) (Triple.throw _ fun _ _ => trivial)

theorem orReject_stops {α : Type} {P : World → Prop} {Q : α → World → Prop} {x : Check α}
    (h : Triple P x Q AnyStop) (reason : String) : Triple P (orReject x reason) Q AnyStop := by
  refine Triple.tryCatch h fun stop => ?_
  cases stop with
  | status st => exact reject_stops _
  | stuck => exact Triple.throw _ fun _ _ => trivial

theorem signed_ofNat {n : Nat} (h : n < 2 ^ 31) : signed (UInt32.ofNat n) = n := by
  have hword : (UInt32.ofNat n).toNat = n := UInt32.toNat_ofNat_of_lt' (by simp only [UInt32.size]; omega)
  rw [signed, hword, if_pos h]

-- A reply that is accepted brings the beginning of the descriptor.
theorem getDescriptor_served (reply : Reply) (type index : Byte) (len : Nat) :
    Triple (Streams (answer reply descriptor ++ stream)) (getDescriptor type index len)
      (fun bytes w => (∃ n, bytes = descriptor.take n) ∧ bytes.length ≤ len ∧ Streams stream w) AnyStop := by
  have hsmall : (descriptor.take reply.actual.toNat).length < 2 ^ 31 := by
    have hactual := reply.actual.toNat_lt
    rw [List.length_take]
    omega
  generalize hpayload : descriptor.take reply.actual.toNat = payload at hsmall
  unfold answer
  rw [hpayload]
  generalize hheader : ({ reply.header with u1 := UInt32.ofNat payload.length } : Header) = header
  have hlength : header.actualLength = payload.length := by
    rw [← hheader, Header.actualLength, signed_ofNat hsmall]
  rw [List.append_assoc]
  refine Triple.get_bind fun w0 => Triple.modify_bind (Streams _) (fun w hw => hw.2) ?_
  refine Triple.bind (Q := fun _ => Streams _)
    (callService_streams.bind fun _ => Triple.update fun w hw => hw) fun _ => ?_
  refine (recv_streams (byteswapHeader header .host2net).bytes).bind fun rep => Triple.and_pre fun hrep => ?_
  rw [hrep, ofBytes_bytes, byteswapHeader_byteswapHeader]
  refine Triple.ite (fun _ => Triple.throw _ fun w hw => trivial) fun _ => ?_
  refine Triple.ite (fun _ => Triple.throw _ fun w hw => trivial) fun _ => ?_
  refine Triple.ite (fun _ => Triple.throw _ fun w hw => trivial) fun hrange => ?_
  rw [hlength] at hrange ⊢
  have hle : payload.length ≤ len := by omega
  refine Triple.ite (fun _ => ?_) fun hzero => Triple.pure _ fun w hw => ⟨⟨0, rfl⟩, Nat.zero_le _, ?_⟩
  · rw [Int.toNat_natCast]
    refine (recv_streams payload).conseq (fun _ => id) (fun bytes w h => ?_) fun _ _ => id
    rw [h.1]
    exact ⟨⟨_, hpayload.symm⟩, hle, h.2⟩
  · have hnil : payload = [] := List.length_eq_zero_iff.mp (by simpa using hzero)
    rw [hnil] at hw
    exact hw

theorem getD_take {n i : Nat} (h : i < n) (bytes : List Byte) : (bytes.take n).getD i 0 = bytes.getD i 0 := by
  rw [List.getD_eq_getElem?_getD, List.getElem?_take_of_lt h, List.getD_eq_getElem?_getD]

-- The fields of a descriptor are all in its first 18 bytes.
theorem ofBytes_take {n : Nat} (h : sizeofUsbDeviceDescriptor ≤ n) (bytes : List Byte) :
    DeviceDescriptor.ofBytes (bytes.take n) = DeviceDescriptor.ofBytes bytes := by
  have hget (i : Nat) (hi : i < sizeofUsbDeviceDescriptor) : (bytes.take n).getD i 0 = bytes.getD i 0 :=
    getD_take (hi.trans_le h) bytes
  simp only [sizeofUsbDeviceDescriptor] at hget
  simp only [DeviceDescriptor.ofBytes, hget, Nat.reduceLT]

-- The device descriptor that passes is the one of the device, and says what was claimed of the device.
theorem snapshotDeviceDescriptor_served (reply : Reply) :
    Triple (Streams (answer reply d.device ++ stream)) (snapshotDeviceDescriptor udev)
      (fun _ w => consistent d.descriptor udev = true ∧ Streams stream w) AnyStop := by
  refine (orReject_stops (getDescriptor_served reply _ _ _) _).bind fun bytes => ?_
  refine Triple.and_pre fun ⟨n, hn⟩ => Triple.and_pre fun _ => ?_
  refine Triple.ite (fun _ => reject_stops _) fun hvalid => ?_
  refine Triple.ite (fun _ => reject_stops _) fun hsame => Triple.update fun w hw => ⟨?_, hw⟩
  have hlength : bytes.length = sizeofUsbDeviceDescriptor := by
    by_contra hne
    exact hvalid (.inl hne)
  have hle : sizeofUsbDeviceDescriptor ≤ n := by
    rw [← hlength, hn, List.length_take]
    exact Nat.min_le_left _ _
  rw [hn, ofBytes_take hle] at hsame
  exact Bool.not_eq_false _ ▸ hsame

theorem totalLength_take {n : Nat} {configuration : List Byte} (h : 4 ≤ n) :
    totalLength (configuration.take n) = totalLength configuration := by
  rw [totalLength, getD_take (by omega), getD_take (by omega), totalLength]

-- The configuration that passes is the one of the device, as far as it says it goes.
theorem checkConfiguration_served (parse : ParseDescriptors) (i : Nat) :
    Triple (Streams (configurationAnswers d replies i ++ stream)) (checkConfiguration parse p i)
      (fun _ w => Grammar (policyAllows p) ((d.configuration i).take (totalLength (d.configuration i))) ∧
        Streams stream w) AnyStop := by
  unfold configurationAnswers
  rw [List.append_assoc]
  refine (orReject_stops (getDescriptor_served _ _ _ _) _).bind fun head => ?_
  refine Triple.and_pre fun ⟨n, hn⟩ => Triple.and_pre fun _ => ?_
  refine Triple.ite (fun _ => reject_stops _) fun hhead => ?_
  refine Triple.ite (fun _ => reject_stops _) fun _ => ?_
  refine (orReject_stops callService_streams _).bind fun _ => ?_
  refine (orReject_stops (getDescriptor_served _ _ _ _) _).bind fun full => ?_
  refine Triple.and_pre fun ⟨m, hm⟩ => Triple.and_pre fun hfull => ?_
  refine Triple.ite (fun _ => reject_stops _) fun hshort => ?_
  have htotal : totalLength head = totalLength (d.configuration i) := by
    have hlong : ¬ head.length < configurationDescriptorSize := fun h => hhead (.inl h)
    have hle : 9 ≤ n := by
      rw [hn, List.length_take, configurationDescriptorSize] at hlong
      omega
    rw [hn, totalLength_take (by omega)]
  have hexact : full = (d.configuration i).take (totalLength (d.configuration i)) := by
    have hsize : full.length = totalLength (d.configuration i) := by
      rw [← htotal]
      exact le_antisymm hfull (Nat.not_lt.mp hshort)
    rw [hm, List.length_take] at hsize
    rw [hm, ← hsize]
    exact List.take_eq_take_iff.mpr (by omega)
  obtain ⟨result, hrun, hverdict⟩ := evaluateConfiguration_verdict full (policyAllows p)
  rw [hrun]
  refine Triple.ite (fun _ => reject_stops _) fun hnone => Triple.get_bind fun w0 => ?_
  have hg : Grammar (policyAllows p) full := by
    cases hverdict with
    | accepted hg _ => exact hg
    | blamed _ he _ => exact absurd (by rw [he]; simp) hnone
    | refused _ he _ => exact absurd he hnone
  cases patchConfigurationForUdecx parse full w0.ext.properties.speed with
  | none => exact Triple.throw _ fun w hw => trivial
  | some patched => exact Triple.update fun w hw => ⟨hexact ▸ hg, hw.2⟩

theorem served_succ {i : Nat} (hi : i < d.bNumConfigurations) :
    served d replies i = configurationAnswers d replies i ++ served d replies (i + 1) := by
  have hcount : d.bNumConfigurations - i = (d.bNumConfigurations - (i + 1)) + 1 := by omega
  rw [served, hcount, List.range'_succ, List.flatMap_cons]
  rfl

-- What a device that is let through has shown of itself.
structure Passed (d : Descriptors) (p : Policy) : Prop where
  cls : ClassAllowed p d.descriptor.bDeviceClass d.descriptor.bDeviceSubClass d.descriptor.bDeviceProtocol
  configurations : ∀ i < d.bNumConfigurations,
    Grammar (policyAllows p) ((d.configuration i).take (totalLength (d.configuration i)))

theorem checkDeviceAgainst_served (parse : ParseDescriptors) (rest : List Byte) :
    Triple (Streams (answer (replies 0) d.device ++ (served d replies 0 ++ rest)))
      (checkDeviceAgainst parse p udev) (fun _ _ => Passed d p) AnyStop := by
  refine Triple.ite (fun _ => reject_stops _) fun hclass => ?_
  refine Triple.ite (fun _ => reject_stops _) fun _ => ?_
  refine Triple.modify_bind (Streams _) (fun w hw => hw) ?_
  refine (snapshotDeviceDescriptor_served _).bind fun _ => Triple.and_pre fun hsame => ?_
  have hagrees := agrees_of_consistent hsame
  have hcount : udev.bNumConfigurations.toNat = d.bNumConfigurations := by
    rw [← hagrees.bNumConfigurations]
    rfl
  refine (orReject_stops callService_streams _).bind fun _ => Triple.modify_bind (Streams _) (fun w hw => hw) ?_
  rw [hcount]
  -- Each round takes the replies for its configuration from the stream.
  refine Triple.bind (Q := fun _ (w : World) =>
      (∀ i < d.bNumConfigurations,
        Grammar (policyAllows p) ((d.configuration i).take (totalLength (d.configuration i)))) ∧
        Streams (served d replies d.bNumConfigurations ++ rest) w)
    ((Triple.forM_range (fun k (w : World) =>
      (∀ i < k, Grammar (policyAllows p) ((d.configuration i).take (totalLength (d.configuration i)))) ∧
        Streams (served d replies k ++ rest) w) _ fun k hk => ?_).pre fun w hw => ⟨by simp, hw⟩)
    fun _ => Triple.update fun w hw => ⟨?_, hw.1⟩
  · refine Triple.and_pre fun hbefore => ?_
    rw [served_succ hk, List.append_assoc]
    refine (checkConfiguration_served parse k).conseq (fun _ => id) (fun _ w h => ⟨fun i hi => ?_, h.2⟩) fun _ _ => id
    rcases Nat.lt_succ_iff_lt_or_eq.mp hi with hlt | rfl
    · exact hbefore i hlt
    · exact h.1
  · rw [hagrees.bDeviceClass, hagrees.bDeviceSubClass, hagrees.bDeviceProtocol]
    exact classAllowed_of_check hclass

end Accepted

-- A walk that the filter lets through has only interfaces that are allowed.
theorem allowed_of_grammar {isAllowed : InterfaceClass → Bool} {configuration : List Byte} {triple : ClassTriple}
    (hg : Grammar isAllowed (configuration.take (totalLength configuration)))
    (h : HasInterface configuration triple) :
    ∃ intf, InterfaceClass.triple intf = triple ∧ isAllowed intf = true := by
  obtain ⟨before, record, after, hbytes, hbefore, hrecord, hintf, rfl⟩ := h
  obtain ⟨records, htiles, hall, -, -⟩ := hg.records
  have hadm : Admissible UInt8.toNat (AllowedRecord isAllowed) (before.flatten ++ (record ++ after)) :=
    hbytes ▸ ⟨records, htiles, hall⟩
  clear hbytes
  induction before with
  | nil =>
    exact ⟨_, rfl, (((admissible_append_iff hrecord).mp hadm).1.intf hintf).2⟩
  | cons r before ih =>
    rw [List.flatten_cons, List.append_assoc] at hadm
    refine ih (fun r' hr' => hbefore r' (List.mem_cons_of_mem _ hr')) ?_
    exact ((admissible_append_iff (hbefore r List.mem_cons_self)).mp hadm).2

theorem readDeviceFilter_congr (env env' : VhciIoctl.Env)
    (h : load env.garbage env.filter = load env'.garbage env'.filter) (pool : Nat → Nat → Byte) (fuel cnt : Nat)
    (buf : List Byte) : readDeviceFilter env pool fuel cnt buf = readDeviceFilter env' pool fuel cnt buf := by
  have hioctl : VhciIoctl.getDeviceFilter env = VhciIoctl.getDeviceFilter env' := by
    funext r
    simp only [VhciIoctl.getDeviceFilter, h]
  induction fuel generalizing cnt buf with
  | zero => rfl
  | succ fuel ih => simp only [readDeviceFilter, hioctl, ih]

-- What the library reads is the policy that the driver would load, whatever the registry holds.
theorem getDeviceFilter_policyOf (env : VhciIoctl.Env) (pool : Nat → Nat → Byte) {fuel : Nat} (hfuel : 3 ≤ fuel) :
    getDeviceFilter env pool fuel = some (.ok (policyOf (load env.garbage env.filter))) := by
  obtain ⟨hcanonical, hmode⟩ := load_canonical env.garbage env.filter
  generalize hload : load env.garbage env.filter = p at hcanonical hmode
  have hlength : (policyOf p).entries.length ≤ MAX_DEVICE_FILTER_ENTRIES := by
    rw [policyOf, length_active hcanonical.1]
    exact hcanonical.1
  have hbyte : (policyOf p).mode.toByte = p.mode := by
    rcases hmode with h | h <;> rw [policyOf, h] <;> rfl
  have hsame : load env.garbage env.filter = load env.garbage
      (.read REG_BINARY (policyBytes (policyOf p).mode.toByte (policyOf p).entries)) := by
    rw [load_policyBytes env.garbage (toByte_cases _) hlength, hload, hbyte]
    exact hcanonical.eq_ofEntries
  rw [getDeviceFilter, readDeviceFilter_congr env
    { env with filter := .read REG_BINARY (policyBytes (policyOf p).mode.toByte (policyOf p).entries) } hsame]
  exact getDeviceFilter_eq hlength rfl pool hfuel

section Blocked

variable {d : Descriptors} {pd : PendingDev} {p : Policy}

theorem mode_ne_disabled (hmode : (policyOf p).mode = .whitelist) : p.mode ≠ filterModeDisabled := by
  intro h
  have hdisabled : (policyOf p).mode = .disabled := by
    rw [policyOf, h]
    rfl
  exact absurd (hmode.symm.trans hdisabled) (by decide)

-- While the filter is on the two sides ask the same of the entries.
theorem allowed_policyOf (hmode : (policyOf p).mode = .whitelist) (cls sub proto : Byte) :
    allowed (policyOf p) cls sub proto = isAllowed p cls sub proto := by
  have hon : (p.mode == filterModeDisabled) = false := beq_false_of_ne (mode_ne_disabled hmode)
  rw [isAllowed, hon, Bool.false_or]
  rfl

theorem reasonFor_of_passed (hmode : (policyOf p).mode = .whitelist) (hproj : Projects d pd) (h : Passed d p) :
    reasonFor (policyOf p) pd = none := by
  unfold reasonFor
  split
  case isTrue hblocked =>
    obtain ⟨h0, hef, hdenied⟩ := hblocked
    rw [allowed_policyOf hmode] at hdenied
    rw [hproj.cls] at h0 hef
    rw [hproj.cls, hproj.sub, hproj.proto] at hdenied
    rcases h.cls with hcls | hcls | hcls | hcls
    · exact absurd hcls h0
    · exact absurd hcls hef
    · exact absurd hcls (mode_ne_disabled hmode)
    · exact absurd hcls (by rw [hdenied]; simp)
  case isFalse =>
    rw [Option.map_eq_none_iff, List.find?_eq_none]
    intro triple htriple
    obtain ⟨i, hi, hintf⟩ := hproj.ifaces triple htriple
    obtain ⟨intf, rfl, hallow⟩ := allowed_of_grammar (h.configurations i hi) hintf
    have hpass : allowed (policyOf p) intf.cls intf.subcls intf.protocol = true :=
      (allowed_policyOf hmode _ _ _).trans hallow
    simpa [InterfaceClass.triple] using hpass

end Blocked

-- A device that the list marks as blocked is refused, if the server has told the truth about it and then
-- shows the same descriptors.
theorem blocked_rejected (parse : ParseDescriptors) (hparse : parse.Walks) (garbage : Nat → Byte)
    (query : RegistryQuery) (udev : DeviceFilter.UsbipUsbDevice) (d : Descriptors) (pend : List PendingDev) (k : Nat)
    (pd : PendingDev) (reason : Reason) (w : World) (hpd : pend[k]? = some pd) (hproj : Projects d pd)
    (hblocked : (notes (some (policyOf (load garbage query))) pend)[k]? = some (some reason))
    (hfresh : w.ext.descriptors = {}) (hserves : Serves d w.stream) :
    ∃ final, checkDevice parse garbage query udev w = .error (.status .USBIP_ERROR_DEVICE_FILTERED) final := by
  obtain ⟨replies, rest, hstream⟩ := hserves
  simp only [notes] at hblocked
  split at hblocked
  case isTrue =>
    rw [List.getElem?_map, hpd] at hblocked
    cases hblocked
  case isFalse hmode =>
    have hmode := not_not.mp hmode
    rw [List.getElem?_map, hpd] at hblocked
    have hready : Fresh w.ext := by rw [Fresh, hfresh]
    cases hrun : checkDevice parse garbage query udev w with
    | ok _ final =>
      have hpassed := (checkDeviceAgainst_served parse rest).ok hstream hrun
      rw [Option.map_some, reasonFor_of_passed hmode hproj hpassed] at hblocked
      cases hblocked
    | error stop final =>
      obtain ⟨rfl, -⟩ := (checkDeviceAgainst_triple hparse (load garbage query) udev).error hready hrun
      exact ⟨final, rfl⟩

def storageDescriptors : Descriptors where
  device := storageDevice
  configuration := fun _ => storageConfiguration

def storagePending : PendingDev := { cls := 0, sub := 0, proto := 0, ifaces := [⟨0x08, 0x06, 0x50⟩] }

theorem storagePending_projects : Projects storageDescriptors storagePending where
  cls := rfl
  sub := rfl
  proto := rfl
  ifaces := by
    intro triple htriple
    obtain rfl := List.mem_singleton.mp htriple
    refine ⟨0, by decide, [storageConfiguration.take 9], (storageConfiguration.drop 9).take 9,
      storageConfiguration.drop 18, by decide, ?_, ⟨by decide, by decide⟩, by decide, by decide⟩
    intro r hr
    obtain rfl := List.mem_singleton.mp hr
    exact ⟨by decide, by decide⟩

-- Keyboards and mice only.
def hidQuery : RegistryQuery := .read REG_BINARY [1, 0, 0, 0, 1, 0, 0, 0, 3, 0, 0, 1]

theorem blocked_rejected_storage :
    ∃ final, checkDevice usbdParseDescriptors (fun _ => 0) hidQuery storageUdev storageWorld =
      .error (.status .USBIP_ERROR_DEVICE_FILTERED) final :=
  blocked_rejected usbdParseDescriptors usbdParseDescriptors_walks (fun _ => 0) hidQuery storageUdev
    storageDescriptors [storagePending] 0 storagePending (.interfaceClass 8) storageWorld rfl
    storagePending_projects (by decide +kernel) rfl
    ⟨fun k => { header := { command := RET_SUBMIT }, actual := if k = 0 then 18 else if k = 1 then 9 else 25 }, [],
      by decide +kernel⟩

section Listing

open Remote
open Usbip.Library.Reader

-- What is kept of a device of the list.
def pendingOf (d : ExportedDevice) : PendingDev where
  cls := d.bDeviceClass
  sub := d.bDeviceSubClass
  proto := d.bDeviceProtocol
  ifaces := d.interfaces.map fun intf => ⟨intf.bInterfaceClass, intf.bInterfaceSubClass, intf.bInterfaceProtocol⟩

theorem toInt_of_lt {i : Nat} (h : i < 2 ^ 31) : toInt i = i := signed_ofNat h

theorem modify_last {α : Type} (l : List α) (a : α) (f : α → α) : (l ++ [a]).modify l.length f = l ++ [f a] := by
  induction l with
  | nil => rfl
  | cons b l ih => simp [ih]

theorem collect_interfaces (pend : List PendingDev) (h : pend.length < 2 ^ 31) (libDev : Remote.UsbDevice)
    (interfaces : List UsbipUsbInterface) (j : Nat) (pd : PendingDev) :
    (entries ((interfaces.zipIdx j).map fun p => interfaceRecord pend.length libDev p.1 p.2)).foldl collect
        (pend ++ [pd]) =
      pend ++ [{ pd with
        ifaces := pd.ifaces ++ interfaces.map fun intf =>
          ⟨intf.bInterfaceClass, intf.bInterfaceSubClass, intf.bInterfaceProtocol⟩ }] := by
  induction interfaces generalizing j pd with
  | nil => simp [entries]
  | cons intf interfaces ih =>
    have hstep : collect (pend ++ [pd]) (.onIntf (toInt pend.length) libDev j intf) =
        pend ++ [{ pd with
          ifaces := pd.ifaces ++ [⟨intf.bInterfaceClass, intf.bInterfaceSubClass, intf.bInterfaceProtocol⟩] }] := by
      rw [toInt_of_lt h, collect, if_pos (Int.natCast_nonneg _), Int.toNat_natCast, modify_last]
    have hrest := ih (j + 1) { pd with
      ifaces := pd.ifaces ++ [⟨intf.bInterfaceClass, intf.bInterfaceSubClass, intf.bInterfaceProtocol⟩] }
    simp only [List.zipIdx_cons, List.map_cons, entries, List.flatMap_cons, interfaceRecord, List.cons_append,
      List.nil_append, List.foldl_cons, hstep] at hrest ⊢
    rw [hrest]
    simp

theorem collect_devices (devices : List ExportedDevice) (pend : List PendingDev)
    (h : pend.length + devices.length ≤ 2 ^ 31) :
    (entries ((devices.zipIdx pend.length).flatMap fun p => p.1.records p.2)).foldl collect pend =
      pend ++ devices.map pendingOf := by
  induction devices generalizing pend with
  | nil => simp [entries]
  | cons d devices ih =>
    simp only [List.length_cons] at h
    have hfirst : (entries (d.records pend.length)).foldl collect pend = pend ++ [pendingOf d] := by
      have hintf := collect_interfaces pend (by omega) d.usbDevice d.interfaces 0
        { cls := d.bDeviceClass, sub := d.bDeviceSubClass, proto := d.bDeviceProtocol }
      simp only [ExportedDevice.records, entries, List.flatMap_cons, List.cons_append, List.nil_append,
        List.foldl_cons, collect] at hintf ⊢
      exact hintf
    have hrest := ih (pend ++ [pendingOf d]) (by rw [List.length_append, List.length_singleton]; omega)
    rw [List.length_append, List.length_singleton] at hrest
    rw [List.zipIdx_cons, List.flatMap_cons, entries_append, List.foldl_append, hfirst, hrest]
    simp

-- The devices of a list that arrives in full are noted in its order, with their own interfaces.
theorem addExportedDevices_notes (l : DeviceList) (hcount : l.devices.length ≤ 2 ^ 31)
    (policy : Option DeviceFilterPolicy) (behind rest : List Byte) (w : Remote.World) (hsend : w.sendFailure = none)
    (hcalls : w.calls = []) (hstream : w.stream = l.bytes ++ rest) :
    ∃ t, addExportedDevices policy behind w = .ok (notes policy (l.devices.map pendingOf)) t := by
  obtain ⟨t, ht, -, hlog⟩ := (deviceList_decoded l false behind w hsend).1 rest hstream
  have hpend : t.calls.foldl collect [] = l.devices.map pendingOf := by
    have hdevices := collect_devices l.devices [] (by simpa using hcount)
    rw [hlog, hcalls]
    exact hdevices
  refine ⟨t, ?_⟩
  rw [addExportedDevices, bind_of_ok ht]
  rw [← hpend]
  rfl

end Listing

end Usbip.Wusbip

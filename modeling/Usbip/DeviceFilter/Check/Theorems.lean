import Usbip.DescriptorPatch.Theorems
import Usbip.DeviceFilter.Check
import Usbip.Library.Hoare

namespace Usbip.DeviceFilter

open Usbip.Library.Hoare

-- The services touch neither the device nor what is published in it.
def At (ext : DeviceCtxExt) (w : World) : Prop := w.ext = ext

def Failed (ext : DeviceCtxExt) (stop : Stop) (w : World) : Prop :=
  (∃ st, stop = .status st) ∧ w.ext = ext

-- How every refusal ends.
def Refused (stop : Stop) (w : World) : Prop :=
  stop = .status .USBIP_ERROR_DEVICE_FILTERED ∧ w.ext.descriptors.ready = false

theorem callService_triple (ext : DeviceCtxExt) :
    Triple (At ext) callService (fun _ => At ext) (Failed ext) := by
  refine Triple.get_bind fun w0 => Triple.modify_bind (At ext) (fun w hw => hw.2) ?_
  cases w0.service w0.calls with
  | none => exact Triple.pure _ fun w hw => hw
  | some st => exact Triple.throw _ fun w hw => ⟨⟨st, rfl⟩, hw⟩

theorem send_triple (ext : DeviceCtxExt) (hdr : Header) :
    Triple (At ext) (send hdr) (fun _ => At ext) (Failed ext) :=
  (callService_triple ext).bind fun _ => Triple.update fun _ hw => hw

theorem recv_triple (ext : DeviceCtxExt) (len : Nat) :
    Triple (At ext) (recv len) (fun bytes w => bytes.length = len ∧ At ext w) (Failed ext) := by
  refine (callService_triple ext).bind fun _ => Triple.get_bind fun w0 => ?_
  refine Triple.ite (fun _ => Triple.throw _ fun w hw => ⟨⟨_, rfl⟩, hw.2⟩) fun hlen => ?_
  refine Triple.modify_bind (At ext) (fun w hw => hw.2) (Triple.pure _ fun w hw => ⟨?_, hw⟩)
  rw [List.length_take]
  omega

theorem getDescriptor_triple (ext : DeviceCtxExt) (type index : Byte) (len : Nat) :
    Triple (At ext) (getDescriptor type index len)
      (fun bytes w => bytes.length ≤ len ∧ At ext w) (Failed ext) := by
  refine Triple.get_bind fun w0 => Triple.modify_bind (At ext) (fun w hw => hw.2) ?_
  refine (send_triple ext _).bind fun _ => (recv_triple ext Header.size).bind fun rep => Triple.and_pre fun _ => ?_
  refine Triple.ite (fun _ => Triple.throw _ fun w hw => ⟨⟨_, rfl⟩, hw⟩) fun _ => ?_
  refine Triple.ite (fun _ => Triple.throw _ fun w hw => ⟨⟨_, rfl⟩, hw⟩) fun _ => ?_
  refine Triple.ite (fun _ => Triple.throw _ fun w hw => ⟨⟨_, rfl⟩, hw⟩) fun hn => ?_
  refine Triple.ite (fun _ => ?_) fun _ => Triple.pure _ fun w hw => ⟨Nat.zero_le _, hw⟩
  refine (recv_triple ext _).conseq (fun _ => id) (fun bytes w h => ⟨?_, h.2⟩) fun _ _ => id
  rw [h.1]
  omega

theorem reject_triple {α : Type} {P : World → Prop} {Q : α → World → Prop} (rejection : Rejection)
    (h : ∀ w, P w → w.ext.descriptors.ready = false) : Triple P (reject rejection) Q Refused :=
  Triple.modify_bind (fun w => w.ext.descriptors.ready = false) (fun w hw => h w hw)
    (Triple.throw _ fun _ hw => ⟨rfl, hw⟩)

theorem orReject_triple {α : Type} {P : World → Prop} {Q : α → World → Prop} {x : Check α}
    {ext : DeviceCtxExt} (hready : ext.descriptors.ready = false) (h : Triple P x Q (Failed ext))
    (reason : String) : Triple P (orReject x reason) Q Refused := by
  refine Triple.tryCatch h fun stop => ?_
  cases stop with
  | status st => exact reject_triple _ fun w hw => by rw [hw.2, hready]
  | stuck => exact fun w hw => absurd hw.1 (by simp)

-- The identity the server claimed in OP_REP_IMPORT.
structure Agrees (device : DeviceDescriptor) (udev : UsbipUsbDevice) : Prop where
  idVendor : device.idVendor = udev.idVendor
  idProduct : device.idProduct = udev.idProduct
  bcdDevice : device.bcdDevice = udev.bcdDevice
  bDeviceClass : device.bDeviceClass = udev.bDeviceClass
  bDeviceSubClass : device.bDeviceSubClass = udev.bDeviceSubClass
  bDeviceProtocol : device.bDeviceProtocol = udev.bDeviceProtocol
  bNumConfigurations : device.bNumConfigurations = udev.bNumConfigurations

theorem agrees_of_consistent {device : DeviceDescriptor} {udev : UsbipUsbDevice}
    (h : consistent device udev = true) : Agrees device udev := by
  simp only [consistent, Bool.and_eq_true, beq_iff_eq] at h
  obtain ⟨⟨⟨⟨⟨⟨hv, hp⟩, hb⟩, hc⟩, hs⟩, hpr⟩, hn⟩ := h
  exact ⟨hv, hp, hb, hc, hs, hpr, hn⟩

theorem Agrees.serialIndex {device : DeviceDescriptor} {udev : UsbipUsbDevice} (h : Agrees device udev)
    (props : Properties) : Agrees (serialIndex props device) udev := by
  unfold DeviceFilter.serialIndex
  split_ifs
  · exact ⟨h.1, h.2, h.3, h.4, h.5, h.6, h.7⟩
  · exact h

def Fresh (ext : DeviceCtxExt) : Prop := ext.descriptors.ready = false

theorem snapshotDeviceDescriptor_triple (udev : UsbipUsbDevice) :
    Triple (fun w => Fresh w.ext) (snapshotDeviceDescriptor udev)
      (fun _ w => Fresh w.ext ∧ Agrees w.ext.descriptors.device udev) Refused := by
  refine Triple.pre (Triple.exists_pre fun ext => Triple.and_pre fun hready => ?_)
    (P := fun w => ∃ ext, Fresh ext ∧ At ext w) fun w hw => ⟨w.ext, hw, rfl⟩
  have hfresh : ∀ w, At ext w → w.ext.descriptors.ready = false := fun w hw => by rw [hw]; exact hready
  refine (orReject_triple hready (getDescriptor_triple ext _ _ _) _).bind fun bytes => ?_
  refine Triple.and_pre fun _ => Triple.ite (fun _ => reject_triple _ hfresh) fun _ => ?_
  refine Triple.ite (fun _ => reject_triple _ hfresh) fun hc => Triple.update fun w hw => ⟨hfresh w hw, ?_⟩
  exact (agrees_of_consistent (by simpa using hc)).serialIndex _

-- A published configuration: the bytes, all of them, and still in the grammar.
def Published (p : Policy) (config : ConfigurationDescriptorSnapshot) : Prop :=
  ∃ data, config = { data := some data, length := data.length } ∧ Grammar (policyAllows p) data

-- The snapshot once the first `done` configurations have passed.
structure Checked (p : Policy) (udev : UsbipUsbDevice) (done : Nat) (snapshot : DescriptorSnapshot) :
    Prop where
  device : Agrees snapshot.device udev
  count : snapshot.configurationCount = udev.bNumConfigurations
  size : snapshot.configurations.length = udev.bNumConfigurations.toNat
  published : ∀ i, i < done → ∃ config, snapshot.configurations[i]? = some config ∧ Published p config

theorem Checked.publishConfiguration {p : Policy} {udev : UsbipUsbDevice} {done : Nat} {ext : DeviceCtxExt}
    (h : Checked p udev done ext.descriptors) (hdone : done < udev.bNumConfigurations.toNat)
    {data : List Byte} (hg : Grammar (policyAllows p) data) :
    Checked p udev (done + 1) (publishConfiguration done data ext).descriptors := by
  refine ⟨h.device, h.count, ?_, fun i hi => ?_⟩
  · rw [DeviceFilter.publishConfiguration, List.length_set, h.size]
  · rcases Nat.lt_succ_iff_lt_or_eq.mp hi with hlt | rfl
    · obtain ⟨config, hget, hp⟩ := h.published i hlt
      refine ⟨config, ?_, hp⟩
      rw [DeviceFilter.publishConfiguration, List.getElem?_set_ne (by omega), hget]
    · refine ⟨_, ?_, data, rfl, hg⟩
      rw [DeviceFilter.publishConfiguration, List.getElem?_set_self (by rw [h.size]; exact hdone)]

theorem checkConfiguration_triple {parse : ParseDescriptors} (hparse : parse.Walks) (p : Policy)
    (udev : UsbipUsbDevice) (done : Nat) (hdone : done < udev.bNumConfigurations.toNat) :
    Triple (fun w => Fresh w.ext ∧ Checked p udev done w.ext.descriptors) (checkConfiguration parse p done)
      (fun _ w => Fresh w.ext ∧ Checked p udev (done + 1) w.ext.descriptors) Refused := by
  refine Triple.pre (Triple.exists_pre fun ext => Triple.and_pre fun hinv => ?_)
    (P := fun w => ∃ ext : DeviceCtxExt, (Fresh ext ∧ Checked p udev done ext.descriptors) ∧ At ext w)
    fun w hw => ⟨w.ext, hw, rfl⟩
  have hfresh : ∀ w, At ext w → w.ext.descriptors.ready = false := fun w hw => by rw [hw]; exact hinv.1
  refine (orReject_triple hinv.1 (getDescriptor_triple ext _ _ _) _).bind fun head => ?_
  refine Triple.and_pre fun _ => Triple.ite (fun _ => reject_triple _ hfresh) fun _ => ?_
  refine Triple.ite (fun _ => reject_triple _ hfresh) fun _ => ?_
  refine (orReject_triple hinv.1 (callService_triple ext) _).bind fun _ => ?_
  refine (orReject_triple hinv.1 (getDescriptor_triple ext _ _ _) _).bind fun full => ?_
  refine Triple.and_pre fun _ => Triple.ite (fun _ => reject_triple _ hfresh) fun _ => ?_
  obtain ⟨result, hrun, hverdict⟩ := evaluateConfiguration_verdict full (policyAllows p)
  rw [hrun]
  refine Triple.ite (fun _ => reject_triple _ hfresh) fun hnone => Triple.get_bind fun w0 => ?_
  have hg : Grammar (policyAllows p) full := by
    cases hverdict with
    | accepted hg _ => exact hg
    | blamed _ he _ => exact absurd (by rw [he]; simp) hnone
    | refused _ he _ => exact absurd he hnone
  obtain ⟨patched, hpatch, _, hkeeps⟩ :=
    patchConfigurationForUdecx_grammar hparse hg w0.ext.properties.speed
  rw [hpatch]
  refine Triple.update fun w hw => ?_
  rw [hw.2]
  exact ⟨hinv.1, hinv.2.publishConfiguration hdone hkeeps⟩

-- The class triple of the device passed, where it says anything about the device.
def ClassAllowed (p : Policy) (cls sub proto : Byte) : Prop :=
  cls = 0x00 ∨ cls = 0xEF ∨ p.mode = filterModeDisabled ∨ isAllowed p cls sub proto = true

theorem classAllowed_of_check {p : Policy} {cls sub proto : Byte}
    (h : ¬(isClassMeaningful cls = true ∧ isAllowed p cls sub proto = false)) : ClassAllowed p cls sub proto := by
  unfold ClassAllowed
  by_cases h0 : cls = 0
  · exact .inl h0
  by_cases hef : cls = 0xEF
  · exact .inr (.inl hef)
  refine .inr (.inr (.inr ?_))
  by_contra hdeny
  exact h ⟨by simp [isClassMeaningful, h0, hef], by simpa using hdeny⟩

theorem checkDeviceAgainst_triple {parse : ParseDescriptors} (hparse : parse.Walks) (p : Policy)
    (udev : UsbipUsbDevice) :
    Triple (fun w => Fresh w.ext) (checkDeviceAgainst parse p udev)
      (fun _ w => w.ext.descriptors.ready = true ∧ udev.bNumConfigurations ≠ 0 ∧
        ClassAllowed p udev.bDeviceClass udev.bDeviceSubClass udev.bDeviceProtocol ∧
        Checked p udev udev.bNumConfigurations.toNat w.ext.descriptors) Refused := by
  refine Triple.ite (fun _ => reject_triple _ fun _ hw => hw) fun hclass => ?_
  refine Triple.ite (fun _ => reject_triple _ fun _ hw => hw) fun hcount => ?_
  refine Triple.modify_bind (fun w => Fresh w.ext) (fun w hw => hw) ?_
  refine (snapshotDeviceDescriptor_triple udev).bind fun _ => ?_
  refine Triple.pre (Triple.exists_pre fun ext => Triple.and_pre fun hinv => ?_)
    (P := fun w => ∃ ext : DeviceCtxExt, (Fresh ext ∧ Agrees ext.descriptors.device udev) ∧ At ext w)
    fun w hw => ⟨w.ext, hw, rfl⟩
  refine (orReject_triple hinv.1 (callService_triple ext) _).bind fun _ => ?_
  refine Triple.modify_bind (fun w : World => Fresh w.ext ∧ Checked p udev 0 w.ext.descriptors) ?_ ?_
  · intro w hw
    rw [hw]
    exact ⟨hinv.1, hinv.2, rfl, List.length_replicate, fun i hi => absurd hi (by omega)⟩
  refine (Triple.forM_range (fun k (w : World) => Fresh w.ext ∧ Checked p udev k w.ext.descriptors) _
    (checkConfiguration_triple hparse p udev)).bind fun _ => Triple.update fun w hw => ?_
  have hc := hw.2
  exact ⟨rfl, hcount, classAllowed_of_check hclass, hc.device, hc.count, hc.size, hc.published⟩

-- What UdeCx may be given.
def Acceptable (p : Policy) (udev : UsbipUsbDevice) : Registered → Prop
  | .device descriptor => Agrees descriptor udev ∧
      ClassAllowed p descriptor.bDeviceClass descriptor.bDeviceSubClass descriptor.bDeviceProtocol
  | .configuration _ data =>
      ∃ result, evaluateConfiguration (some data) (policyAllows p) = some result ∧ result.error = .none

theorem acceptable_of_grammar {p : Policy} {udev : UsbipUsbDevice} {i : Nat} {data : List Byte}
    (hg : Grammar (policyAllows p) data) : Acceptable p udev (.configuration i data) := by
  obtain ⟨result, hrun, hverdict⟩ := evaluateConfiguration_verdict data (policyAllows p)
  cases hverdict with
  | accepted _ he => exact ⟨result, hrun, he⟩
  | blamed hn _ _ => exact absurd hg hn
  | refused hn _ _ => exact absurd hg hn

theorem Checked.acceptable_device {p : Policy} {udev : UsbipUsbDevice} {done : Nat}
    {snapshot : DescriptorSnapshot} (hc : Checked p udev done snapshot)
    (hclass : ClassAllowed p udev.bDeviceClass udev.bDeviceSubClass udev.bDeviceProtocol) :
    Acceptable p udev (.device snapshot.device) := by
  refine ⟨hc.device, ?_⟩
  rw [hc.device.bDeviceClass, hc.device.bDeviceSubClass, hc.device.bDeviceProtocol]
  exact hclass

def Registers (p : Policy) (udev : UsbipUsbDevice) (n : Nat) (registered : List Registered) : Prop :=
  registered.length = n ∧ ∀ descriptor ∈ registered, Acceptable p udev descriptor

def RegisterFailed (outcome : Nat → NTSTATUS) (p : Policy) (udev : UsbipUsbDevice) (_stop : Stop)
    (registered : List Registered) : Prop :=
  (∃ n, outcome n ≠ .STATUS_SUCCESS) ∧ ∀ descriptor ∈ registered, Acceptable p udev descriptor

theorem addDescriptor_triple {p : Policy} {udev : UsbipUsbDevice} (outcome : Nat → NTSTATUS) (n : Nat)
    {descriptor : Registered} (h : Acceptable p udev descriptor) :
    Triple (Registers p udev n) (addDescriptor outcome descriptor)
      (fun _ => Registers p udev (n + 1)) (RegisterFailed outcome p udev) := by
  refine Triple.get_bind fun registered => ?_
  refine Triple.ite (fun hst => Triple.throw _ fun r hr => ⟨⟨_, hst⟩, hr.2.2⟩) fun _ => ?_
  intro r hr
  obtain ⟨rfl, hlen, hall⟩ := hr
  refine ⟨by rw [List.length_append, hlen]; rfl, fun x hx => ?_⟩
  rcases List.mem_append.mp hx with hx | hx
  · exact hall x hx
  · exact List.mem_singleton.mp hx ▸ h

theorem addSnapshotDescriptors_triple {p : Policy} {udev : UsbipUsbDevice} {snapshot : DescriptorSnapshot}
    (outcome : Nat → NTSTATUS) (hready : snapshot.ready = true)
    (hc : Checked p udev udev.bNumConfigurations.toNat snapshot)
    (hclass : ClassAllowed p udev.bDeviceClass udev.bDeviceSubClass udev.bDeviceProtocol) :
    Triple (Registers p udev 0) (addSnapshotDescriptors outcome snapshot)
      (fun _ => Registers p udev (udev.bNumConfigurations.toNat + 1)) (RegisterFailed outcome p udev) := by
  refine Triple.ite (fun h => absurd hready (by rw [h]; simp)) fun _ => ?_
  refine (addDescriptor_triple outcome 0 (hc.acceptable_device hclass)).bind fun _ => ?_
  rw [hc.count]
  refine Triple.forM_range (fun k => Registers p udev (k + 1)) _ fun i hi => ?_
  obtain ⟨config, hget, data, rfl, hg⟩ := hc.published i hi
  have hlen : data.length ≠ 0 := by
    have := hg.size
    omega
  simp only [addConfiguration, hget, if_neg hlen, List.take_length]
  exact addDescriptor_triple outcome (i + 1) (acceptable_of_grammar hg)

-- What UdeCx holds after `add_snapshot_descriptors`, whether or not it succeeded.
def registeredBy (outcome : Nat → NTSTATUS) (snapshot : DescriptorSnapshot) : List Registered :=
  match addSnapshotDescriptors outcome snapshot [] with
  | .ok _ registered => registered
  | .error _ registered => registered

-- A device that passes the filter is published as it was checked, and whatever UdeCx is then
-- given is acceptable to the policy the filter loaded; any other run is a refusal.
theorem checkDevice_sound (parse : ParseDescriptors) (hparse : parse.Walks) (garbage : Nat → Byte)
    (query : RegistryQuery) (udev : UsbipUsbDevice) (w : World) (hfresh : w.ext.descriptors = {}) :
    (∀ final, checkDevice parse garbage query udev w = .ok () final →
      final.ext.descriptors.ready = true ∧
      final.ext.descriptors.configurationCount = udev.bNumConfigurations ∧
      1 ≤ udev.bNumConfigurations.toNat ∧
      Acceptable (load garbage query) udev (.device final.ext.descriptors.device) ∧
      ∀ outcome : Nat → NTSTATUS,
        (∀ descriptor ∈ registeredBy outcome final.ext.descriptors,
          Acceptable (load garbage query) udev descriptor) ∧
        ((∀ n, outcome n = .STATUS_SUCCESS) →
          (registeredBy outcome final.ext.descriptors).length = udev.bNumConfigurations.toNat + 1)) ∧
    (∀ stop final, checkDevice parse garbage query udev w = .error stop final →
      stop = .status .USBIP_ERROR_DEVICE_FILTERED ∧ final.ext.descriptors.ready = false) := by
  have hpre : Fresh w.ext := by rw [Fresh, hfresh]
  have hrun := checkDeviceAgainst_triple hparse (load garbage query) udev
  refine ⟨fun final hok => ?_, fun stop final herror => hrun.error hpre herror⟩
  obtain ⟨hready, hcount, hclass, hc⟩ := hrun.ok hpre hok
  have hpos : 1 ≤ udev.bNumConfigurations.toNat := by
    have : udev.bNumConfigurations.toNat ≠ 0 := fun h => hcount (UInt8.toNat_inj.mp h)
    omega
  refine ⟨hready, hc.count, hpos, hc.acceptable_device hclass, fun outcome => ?_⟩
  have hadd := addSnapshotDescriptors_triple outcome hready hc hclass
  have hnil : Registers (load garbage query) udev 0 [] := ⟨rfl, by simp⟩
  cases hr : addSnapshotDescriptors outcome final.ext.descriptors [] with
  | ok _ registered =>
      have h := hadd.ok hnil hr
      simp only [registeredBy, hr]
      exact ⟨h.2, fun _ => h.1⟩
  | error stop registered =>
      obtain ⟨⟨n, hst⟩, hall⟩ := hadd.error hnil hr
      simp only [registeredBy, hr]
      exact ⟨hall, fun hsuccess => absurd (hsuccess n) hst⟩

-- A full-speed mass storage device behind a policy that allows its class.
def storageQuery : RegistryQuery :=
  .read REG_BINARY [1, 0, 0, 0, 1, 0, 0, 0, 0x08, 0x06, 0x50, 7]

def storageUdev : UsbipUsbDevice :=
  { idVendor := 0x0951, idProduct := 0x1666, bcdDevice := 0x0110, bNumConfigurations := 1 }

def storageDevice : List Byte :=
  [18, 1, 0, 2, 0, 0, 0, 64, 0x51, 0x09, 0x66, 0x16, 0x10, 0x01, 1, 2, 3, 1]

def storageConfiguration : List Byte :=
  [9, 2, 25, 0, 1, 1, 0, 0x80, 50, 9, 4, 0, 0, 1, 0x08, 0x06, 0x50, 0, 7, 5, 0x81, 2, 64, 0, 0]

def retSubmit (payload : List Byte) : List Byte :=
  (byteswapHeader { command := RET_SUBMIT, u1 := UInt32.ofNat payload.length } .host2net).bytes ++ payload

def storageWorld : World :=
  { ext := { properties := { speed := 2 } }
    stream := retSubmit storageDevice ++ retSubmit (storageConfiguration.take 9) ++
      retSubmit storageConfiguration }

def publishesStorage (result : EStateM.Result Stop World Unit) : Bool :=
  match result with
  | .ok _ final => decide (final.ext.descriptors.configurations =
      [{ data := some ((storageConfiguration.set 22 0).set 23 2), length := 25 }])
  | .error _ _ => false

theorem checkDevice_sound_storage :
    usbdParseDescriptors.Walks ∧ storageWorld.ext.descriptors = {} ∧
    ∃ final, checkDevice usbdParseDescriptors (fun _ => 0) storageQuery storageUdev storageWorld = .ok () final ∧
      final.ext.descriptors.configurations =
        [{ data := some ((storageConfiguration.set 22 0).set 23 2), length := 25 }] ∧
      final.ext.descriptors.ready = true ∧ final.ext.descriptors.configurationCount = 1 ∧
      ∀ descriptor ∈ registeredBy (fun _ => .STATUS_SUCCESS) final.ext.descriptors,
        Acceptable (load (fun _ => 0) storageQuery) storageUdev descriptor := by
  refine ⟨usbdParseDescriptors_walks, rfl, ?_⟩
  have hok : publishesStorage
      (checkDevice usbdParseDescriptors (fun _ => 0) storageQuery storageUdev storageWorld) = true := by
    decide +kernel
  have hsound := (checkDevice_sound usbdParseDescriptors usbdParseDescriptors_walks (fun _ => 0)
    storageQuery storageUdev storageWorld rfl).1
  revert hok hsound
  cases checkDevice usbdParseDescriptors (fun _ => 0) storageQuery storageUdev storageWorld with
  | error stop final =>
      intro hok
      simp [publishesStorage] at hok
  | ok _ final =>
      intro hok hsound
      obtain ⟨hready, hcount, _, _, hall⟩ := hsound final rfl
      exact ⟨final, rfl, by simpa [publishesStorage] using hok, hready, hcount, (hall _).1⟩

end Usbip.DeviceFilter

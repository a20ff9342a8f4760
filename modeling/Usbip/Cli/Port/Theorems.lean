import Usbip.Cli.Port
import Usbip.Libusbip.Attach.Boot
import Usbip.Libusbip.Imported.Theorems

namespace Usbip.Cli.Port

open Usbip.Library.Words (signed)
open Usbip.Libusbip (Win32Error)
open Usbip.Libusbip.Attach (AttachArgs Call assign assign_eq_ok attach finish stored_strings)
open Usbip.Libusbip.Imported
open Usbip.Libusbip.Persistent
open Usbip.Persistent (Rtl cString)
open Usbip.VhciIoctl (REG_MULTI_SZ)
open Usbip.VhciIoctl.Imported (DeviceCtx present)

section Loops

variable {args : PortArgs} {driver : Driver} {rest : Nat → Byte}

theorem foldl_showDevice (hpersistent : args.persistent = true) (devices : List ImportedDevice) (shown : Shown) :
    devices.foldl (showDevice args) shown =
      { found := shown.found || !(devices.filter (isShown args.ports)).isEmpty
        printed := shown.printed ++ devices.filter (isShown args.ports)
        persistent := shown.persistent ++ (devices.filter (isShown args.ports)).map persistentDevice } := by
  induction devices generalizing shown with
  | nil => simp
  | cons d devices ih =>
      rw [List.foldl_cons, ih]
      by_cases hd : isShown args.ports d = true
      · simp [showDevice, hd, hpersistent]
      · simp [showDevice, hd]

-- A request that is sent at all is the structure that the library has made.
theorem attach_sent {env : VhciIoctl.Env} {vhci : Vhci.VhciCtx} {pool : Nat → Byte} {attachArgs : AttachArgs}
    {r : List Byte} {call : Call} (hassign : assign rest attachArgs = .ok r)
    (h : attach env vhci rest pool attachArgs = some call) : call.sent = some r := by
  simp only [attach, hassign] at h
  obtain ⟨reply, -, rfl⟩ := Option.map_eq_some_iff.mp h
  unfold finish
  dsimp only
  split
  · rfl
  · split <;> rfl

theorem attachLoop_sent {i : Nat} {devices : List PersistentDevice} {requests : List (List Byte)}
    {calls : List (List Byte × Call)}
    (hassign : List.Forall₂
      (fun d r => assign rest { location := d.location, serial := d.serial } = .ok r) devices requests)
    (h : attachLoop driver rest i devices = some calls) :
    calls.map Prod.fst = devices.map persistentLine ∧ calls.map (fun c => c.2.sent) = requests.map some := by
  induction hassign generalizing i calls with
  | nil =>
      obtain rfl := Option.some_inj.mp h
      exact ⟨rfl, rfl⟩
  | cons hd _ ih =>
      obtain ⟨call, hcall, hmap⟩ := Option.bind_eq_some_iff.mp h
      obtain ⟨calls, hcalls, rfl⟩ := Option.map_eq_some_iff.mp hmap
      obtain ⟨hlines, hsent⟩ := ih hcalls
      refine ⟨?_, ?_⟩
      · rw [List.map_cons, List.map_cons, hlines]
      · rw [List.map_cons, List.map_cons, hsent, attach_sent hd hcall]

end Loops

section Stash

variable {utf : Utf} {rtl : Rtl} {env : VhciIoctl.Env} {tables : Nat → List (Option DeviceCtx)}
  {names : DeviceCtx → DeviceLocation} {args : PortArgs}

-- What is read of the list that the driver has accepted.
theorem getPersistent_stored (hutf : utf.Converts) {pool : Nat → Byte} {devices : List PersistentDevice}
    (haccepted : (setPersistent utf env pool devices).1 = none) (hplain : ∀ d ∈ devices, d.location.IsPlain)
    (hsize : multiSzSize utf devices < 2 ^ 32) :
    ∃ stored, (setPersistent utf env pool devices).2 = some stored ∧
      ∀ (env' : VhciIoctl.Env) (pool' : Nat → Nat → Byte) (fuel : Nat),
        env'.openPersistentState = .STATUS_SUCCESS → env'.persistent = .value REG_MULTI_SZ stored →
        getPersistent utf env' pool' (fuel + 2) = some (.ok devices) := by
  obtain ⟨strings, n, hstrings, -, hstored⟩ := stored_strings hutf haccepted hplain hsize
  have hnul : ∀ d ∈ devices, 0 ∉ d.text := fun d hd =>
    not_mem_text (isMalformed_of_mem hstrings d hd) (hplain d hd)
  refine ⟨_, hstored, fun env' pool' fuel hopen hvalue => ?_⟩
  rw [getPersistent_eq hopen hvalue utf pool' fuel, splitMultiSz_strings hutf hstrings hnul,
    filterMap_strings hutf hstrings hplain]

-- The devices of the driver whose ports are named, all of them if none is.
def selected (ports : List Int) (table : List (Option DeviceCtx)) : List DeviceCtx :=
  (present table).filter fun dev => ports.isEmpty || ports.contains (signed dev.port)

def savedDevice (names : DeviceCtx → DeviceLocation) (dev : DeviceCtx) : PersistentDevice where
  location := names dev
  serial := cString dev.properties.serial.toList

theorem filter_isShown (ports : List Int) (table : List (Option DeviceCtx)) :
    ((present table).map fun dev => importedDevice (names dev) dev).filter (isShown ports) =
      (selected ports table).map fun dev => importedDevice (names dev) dev := by
  rw [List.filter_map]
  rfl

-- The request that is made for a location and a serial number does not depend on what was in its memory.
theorem assign_congr {rest rest' : Nat → Byte} {attachArgs : AttachArgs} {r : List Byte}
    (h : assign rest attachArgs = .ok r) : assign rest' attachArgs = .ok r :=
  assign_eq_ok.mpr (assign_eq_ok.mp h)

theorem map_persistentDevice (devices : List DeviceCtx) :
    (devices.map fun dev => importedDevice (names dev) dev).map persistentDevice = devices.map (savedDevice names) := by
  rw [List.map_map]
  rfl

section Command

variable {getPool : Nat → Nat → Byte} {setPool : Nat → Byte} {fuel : Nat} {table : List (Option DeviceCtx)}
  (hpersistent : args.persistent = true)
  (hget : getImportedDevices rtl tables getPool fuel =
    some (.ok ((present table).map fun dev => importedDevice (names dev) dev)))

include hpersistent hget

theorem cmdPort_accepted
    (haccepted : (setPersistent utf env setPool ((selected args.ports table).map (savedDevice names))).1 = none) :
    cmdPort utf rtl env true tables getPool setPool fuel args = some {
      printed := (selected args.ports table).map fun dev => importedDevice (names dev) dev
      stored := (setPersistent utf env setPool ((selected args.ports table).map (savedDevice names))).2
      ok := !(selected args.ports table).isEmpty || args.ports.isEmpty } := by
  obtain ⟨⟨err, stored⟩, hset⟩ : ∃ res, setPersistent utf env setPool
    ((selected args.ports table).map (savedDevice names)) = res := ⟨_, rfl⟩
  rw [hset] at haccepted
  obtain rfl : err = none := haccepted
  simp only [cmdPort, hget, foldl_showDevice hpersistent, filter_isShown, map_persistentDevice, hpersistent, hset,
    Option.map_some, Bool.true_eq_false, if_false, if_true, List.nil_append, List.isEmpty_map, Bool.false_or]

theorem cmdPort_refused {err : Win32Error}
    (hrefused : (setPersistent utf env setPool ((selected args.ports table).map (savedDevice names))).1 = some err) :
    ∃ o, cmdPort utf rtl env true tables getPool setPool fuel args = some o ∧ o.error = some (.lastError err) := by
  obtain ⟨⟨err', stored⟩, hset⟩ : ∃ res, setPersistent utf env setPool
    ((selected args.ports table).map (savedDevice names)) = res := ⟨_, rfl⟩
  rw [hset] at hrefused
  obtain rfl : err' = some err := hrefused
  refine ⟨{
    printed := (selected args.ports table).map fun dev => importedDevice (names dev) dev
    error := some (.lastError err)
    stored := stored }, ?_, rfl⟩
  simp only [cmdPort, hget, foldl_showDevice hpersistent, filter_isShown, map_persistentDevice, hpersistent, hset,
    Option.map_some, Bool.true_eq_false, if_false, if_true, List.nil_append]

-- The list has been accepted if the command has not failed.
theorem cmdPort_done {o : Outcome} (hstash : cmdPort utf rtl env true tables getPool setPool fuel args = some o)
    (hdone : o.error = none) :
    (setPersistent utf env setPool ((selected args.ports table).map (savedDevice names))).1 = none := by
  cases hset : (setPersistent utf env setPool ((selected args.ports table).map (savedDevice names))).1 with
  | none => rfl
  | some err =>
      obtain ⟨o', ho', herr⟩ := cmdPort_refused hpersistent hget hset
      obtain rfl := Option.some_inj.mp (hstash.symm.trans ho')
      rw [hdone] at herr
      cases herr

end Command

-- The devices that a successful `usbip port --stash` has printed are, in their order, those that `usbip list --stashed`
-- prints, and what `usbip attach --stashed` sends for them is what was sent when they were attached. If there is no
-- device at the ports, the list is empty afterwards and the command fails.
theorem stash_returns (hutf : utf.Converts) {getPool : Nat → Nat → Byte} {setPool : Nat → Byte} {k fuel : Nat}
    (hpersistent : args.persistent = true)
    (hnamed : ∀ round, ∀ dev ∈ present (tables round), Named rtl dev (names dev))
    (hplain : ∀ round, ∀ dev ∈ present (tables round), (names dev).IsPlain)
    (hports : (present (tables k)).length ≤ 4 * 2 ^ k) (hfuel : k < fuel)
    (hsize : ∀ round, multiSzSize utf ((selected args.ports (tables round)).map (savedDevice names)) < 2 ^ 32)
    {o : Outcome} (hstash : cmdPort utf rtl env true tables getPool setPool fuel args = some o)
    (hdone : o.error = none) :
    ∃ final ≤ k, ∃ devices stored, devices = selected args.ports (tables final) ∧ o.stored = some stored ∧
      o.printed = devices.map (fun dev => importedDevice (names dev) dev) ∧
      (o.ok = true ↔ args.ports = [] ∨ devices ≠ []) ∧
      ∀ (env' : VhciIoctl.Env) (pool : Nat → Nat → Byte) (fuel' : Nat), env'.openPersistentState = .STATUS_SUCCESS →
        env'.persistent = .value REG_MULTI_SZ stored →
        listPersistentDevices utf env' true pool (fuel' + 2) =
          some (.ok (devices.map fun dev => persistentLine (savedDevice names dev))) ∧
        ∀ (sent : DeviceCtx → List Byte), (∀ dev ∈ devices, ∃ rest, assign rest
            { location := names dev, serial := cString dev.properties.serial.toList } = .ok (sent dev)) →
          ∀ driver rest out, attachPersistentDevices utf env' true pool (fuel' + 2) driver rest = some out →
            ∃ calls, out = .ok calls ∧
              calls.map Prod.fst = devices.map (fun dev => persistentLine (savedDevice names dev)) ∧
              calls.map (fun c => c.2.sent) = devices.map fun dev => some (sent dev) := by
  obtain ⟨final, hfinal, -, -, hget⟩ := getImportedDevices_spec getPool hnamed hports hfuel
  have haccepted := cmdPort_done hpersistent hget hstash hdone
  obtain rfl := Option.some_inj.mp (hstash.symm.trans (cmdPort_accepted hpersistent hget haccepted))
  have hplain' : ∀ d ∈ (selected args.ports (tables final)).map (savedDevice names), d.location.IsPlain := by
    intro d hd
    obtain ⟨dev, hdev, rfl⟩ := List.mem_map.mp hd
    exact hplain final dev (List.mem_of_mem_filter hdev)
  obtain ⟨stored, hset, hread⟩ := getPersistent_stored hutf haccepted hplain' (hsize final)
  refine ⟨final, hfinal, _, stored, rfl, hset, rfl, by simp [or_comm], fun env' pool fuel' hopen hvalue => ?_⟩
  have hlist := hread env' pool fuel' hopen hvalue
  refine ⟨?_, fun sent hattached driver rest out hattach => ?_⟩
  · simp only [listPersistentDevices, hlist, Option.map_some, List.map_map, Bool.true_eq_false, if_false]
    rfl
  · simp only [attachPersistentDevices, hlist, Option.bind_some, Bool.true_eq_false, if_false] at hattach
    obtain ⟨calls, hcalls, rfl⟩ := Option.map_eq_some_iff.mp hattach
    have hassign : List.Forall₂ (fun d r => assign rest { location := d.location, serial := d.serial } = .ok r)
        ((selected args.ports (tables final)).map (savedDevice names))
        ((selected args.ports (tables final)).map sent) := by
      rw [List.forall₂_map_left_iff, List.forall₂_map_right_iff, List.forall₂_same]
      intro dev hdev
      obtain ⟨rest', hsent⟩ := hattached dev hdev
      exact assign_congr hsent
    obtain ⟨hlines, hsent⟩ := attachLoop_sent hassign hcalls
    rw [List.map_map] at hlines hsent
    exact ⟨calls, rfl, hlines, hsent⟩

end Stash

section Ascii

open Usbip.Persistent (asciiRtl)
open Usbip.Persistent.Plugin (requestBytes)
open Usbip.VhciIoctl.Imported (pcDevice)

-- The device at port 1.
def pcTable (_ : Nat) : List (Option DeviceCtx) := [none, some pcDevice]

def pcArgs : PortArgs where
  ports := [1]
  persistent := true

theorem mem_pcTable {round : Nat} {dev : DeviceCtx} (h : dev ∈ present (pcTable round)) : dev = pcDevice := by
  have hdev : some dev ∈ pcTable round := List.reduceOption_mem_iff.mp h
  simpa [pcTable] using hdev

theorem pcDevice_accepted :
    (setPersistent asciiUtf {} (fun _ => 255) [savedDevice (fun _ => pcLocation) pcDevice]).1 = none := by
  decide

theorem stash_returns_pc :
    ∃ o stored, cmdPort asciiUtf asciiRtl {} true pcTable (fun _ _ => 255) (fun _ => 255) 1 pcArgs = some o ∧
      o.ok = true ∧ o.stored = some stored ∧
      listPersistentDevices asciiUtf { persistent := .value REG_MULTI_SZ stored } true (fun _ _ => 0) 2 =
        some (.ok [[112, 99, 58, 51, 50, 52, 48, 47, 51, 45, 51, 32]]) ∧
      ∀ driver rest out, attachPersistentDevices asciiUtf { persistent := .value REG_MULTI_SZ stored } true
          (fun _ _ => 0) 2 driver rest = some out →
        ∃ calls, out = .ok calls ∧ calls.map (fun c => c.2.sent) = [some (requestBytes pcLocation [])] := by
  have hnamed : ∀ round, ∀ dev ∈ present (pcTable round), Named asciiRtl dev pcLocation := by
    intro round dev hdev
    rw [mem_pcTable hdev]
    exact pcDevice_named
  have hsize : ∀ round, multiSzSize asciiUtf
      ((selected pcArgs.ports (pcTable round)).map (savedDevice fun _ => pcLocation)) < 2 ^ 32 := by
    intro round
    change multiSzSize asciiUtf [savedDevice (fun _ => pcLocation) pcDevice] < 2 ^ 32
    decide
  have hports : (present (pcTable 0)).length ≤ 4 * 2 ^ 0 := by decide
  obtain ⟨_, -, -, -, hget⟩ := getImportedDevices_spec (fun _ _ => 255) hnamed hports Nat.zero_lt_one
  have hpersistent : pcArgs.persistent = true := rfl
  have hstash := cmdPort_accepted hpersistent hget pcDevice_accepted
  obtain ⟨_, -, devices, stored, rfl, hstored, -, hok, hlater⟩ :=
    stash_returns asciiUtf_converts hpersistent hnamed (fun _ _ _ => by decide) hports Nat.zero_lt_one hsize hstash rfl
  obtain ⟨hlist, hattach⟩ := hlater { persistent := .value REG_MULTI_SZ stored } (fun _ _ => 0) 0 rfl rfl
  refine ⟨_, stored, hstash, hok.mpr (.inr (List.cons_ne_nil _ _)), hstored, hlist, ?_⟩
  intro driver rest out hout
  obtain ⟨calls, hcalls, -, hsent⟩ := hattach (fun _ => requestBytes pcLocation []) (fun dev hdev => by
    rw [mem_pcTable (List.mem_of_mem_filter hdev)]
    exact ⟨fun _ => 0, assign_eq_ok.mpr ⟨by decide, by decide, rfl⟩⟩) driver rest out hout
  exact ⟨calls, hcalls, hsent⟩

end Ascii

end Usbip.Cli.Port

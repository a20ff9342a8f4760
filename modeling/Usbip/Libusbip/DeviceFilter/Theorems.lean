import Usbip.DeviceFilter.Check
import Usbip.DeviceFilter.Policy.Theorems
import Usbip.Libusbip.DeviceFilter
import Usbip.Libusbip.Theorems
import Usbip.VhciIoctl.Theorems

namespace Usbip.Libusbip

open Usbip.DeviceFilter
open Usbip.Library.Layout
open Usbip.Library.Words
open Usbip.VhciIoctl

theorem length_resize (buf : List Byte) (n : Nat) : (resize buf n).length = n := by
  rw [resize, List.length_append, List.length_take, List.length_replicate]
  omega

theorem resize_of_le {buf : List Byte} {n : Nat} (h : n ≤ buf.length) : resize buf n = buf.take n := by
  rw [resize, Nat.sub_eq_zero_of_le h, List.replicate_zero, List.append_nil]

section Policy

variable {mode : Byte} {entries : List DeviceFilterEntry}

-- The structure with a policy as both IOCTLs have it.
def deviceFilterBytes (mode : Byte) (entries : List DeviceFilterEntry) (rest : List Byte) : List Byte :=
  bytes32 (UInt32.ofNat sizeofDeviceFilter) ++ (policyBytes mode entries ++ rest)

theorem length_deviceFilterBytes (mode : Byte) (entries : List DeviceFilterEntry) (rest : List Byte) :
    (deviceFilterBytes mode entries rest).length = deviceFilterSize entries.length + rest.length := by
  simp only [deviceFilterBytes, List.length_append, length_policyBytes, bytes32, List.length_cons, List.length_nil,
    serializedPolicySize, policyEntriesOffset, deviceFilterSize, offsetofEntries, offsetofCount, offsetofMode,
      sizeofBase]
  omega

theorem holds_deviceFilterBytes (mode : Byte) (entries : List DeviceFilterEntry) (rest : List Byte) :
    Holds (byteAt (deviceFilterBytes mode entries rest)) offsetofMode (policyBytes mode entries) :=
  holds_byteAt (bytes32 (UInt32.ofNat sizeofDeviceFilter)) (policyBytes mode entries) rest

theorem size_deviceFilterBytes (rest : List Byte) :
    (ulongAt (deviceFilterBytes mode entries rest) 0).toNat = sizeofDeviceFilter := by
  have hsize : ulongAt (deviceFilterBytes mode entries rest) 0 = UInt32.ofNat sizeofDeviceFilter :=
    ulongAt_of_holds (holds_byteAt [] (bytes32 (UInt32.ofNat sizeofDeviceFilter)) _)
  rw [hsize]
  rfl

theorem count_deviceFilterBytes (rest : List Byte) (h : entries.length ≤ MAX_DEVICE_FILTER_ENTRIES) :
    (ulongAt (deviceFilterBytes mode entries rest) offsetofCount).toNat = entries.length := by
  have hcount : ulongAt (deviceFilterBytes mode entries rest) offsetofCount = UInt32.ofNat entries.length :=
    count_of_holds (holds_deviceFilterBytes mode entries rest)
  rw [hcount]
  exact toNat_ofEntries_count mode h

theorem entryAt_deviceFilterBytes (rest : List Byte) {i : Nat} (hi : i < entries.length) :
    entryAt (deviceFilterBytes mode entries rest) i = entries[i] := by
  have hentry := entry_of_holds (holds_deviceFilterBytes mode entries rest) hi
  rw [entryAt, Nat.mul_comm i]
  exact hentry

-- Each field is written over zeros of its size.
theorem fill_deviceFilterBytes (mode : Byte) (entries : List DeviceFilterEntry) (rest : List Byte) :
    overwrite (overwrite (overwrite (overwrite
      (List.replicate 4 0 ++ (List.replicate 1 0 ++ (List.replicate 3 0 ++ (List.replicate 4 0 ++
        (List.replicate (entries.length * sizeofDeviceFilterEntry) 0 ++ rest)))))
      0 (bytes32 (UInt32.ofNat sizeofDeviceFilter))) offsetofMode [mode])
      offsetofCount (bytes32 (UInt32.ofNat entries.length)))
      offsetofEntries (entries.flatMap DeviceFilterEntry.bytes) = deviceFilterBytes mode entries rest := by
  have hsize (post : List Byte) : overwrite (List.replicate 4 0 ++ post) 0
      (bytes32 (UInt32.ofNat sizeofDeviceFilter)) = bytes32 (UInt32.ofNat sizeofDeviceFilter) ++ post :=
    overwrite_of_append (List.nil_append _).symm rfl rfl
  have hmode (post : List Byte) : overwrite (bytes32 (UInt32.ofNat sizeofDeviceFilter) ++
        (List.replicate 1 0 ++ post)) offsetofMode [mode] =
      bytes32 (UInt32.ofNat sizeofDeviceFilter) ++ ([mode] ++ post) :=
    overwrite_of_append rfl rfl rfl
  have hcount (post : List Byte) : overwrite (bytes32 (UInt32.ofNat sizeofDeviceFilter) ++ ([mode] ++
        (List.replicate 3 0 ++ (List.replicate 4 0 ++ post)))) offsetofCount (bytes32 (UInt32.ofNat entries.length)) =
      bytes32 (UInt32.ofNat sizeofDeviceFilter) ++ ([mode] ++ List.replicate 3 0) ++
        (bytes32 (UInt32.ofNat entries.length) ++ post) :=
    overwrite_of_append rfl rfl rfl
  have hentries (post : List Byte) : overwrite (bytes32 (UInt32.ofNat sizeofDeviceFilter) ++
        ([mode] ++ List.replicate 3 0) ++ (bytes32 (UInt32.ofNat entries.length) ++
        (List.replicate (entries.length * sizeofDeviceFilterEntry) 0 ++ post)))
        offsetofEntries (entries.flatMap DeviceFilterEntry.bytes) =
      bytes32 (UInt32.ofNat sizeofDeviceFilter) ++ ([mode] ++ List.replicate 3 0) ++
        bytes32 (UInt32.ofNat entries.length) ++ (entries.flatMap DeviceFilterEntry.bytes ++ post) := by
    refine overwrite_of_append (List.append_assoc _ _ _).symm rfl ?_
    rw [List.length_replicate, length_flatMap_bytes]
  rw [hsize, hmode, hcount, hentries]
  simp [deviceFilterBytes, policyBytes, List.replicate_succ]

-- Without entries the structure is sent with an empty one.
theorem deviceFilterInput_eq (policy : DeviceFilterPolicy) :
    deviceFilterInput policy = deviceFilterBytes policy.mode.toByte policy.entries
      (List.replicate (if policy.entries.length = 0 then sizeofDeviceFilterEntry else 0) 0) := by
  generalize hpad : (if policy.entries.length = 0 then sizeofDeviceFilterEntry else 0) = pad
  have hsize : deviceFilterSize (if policy.entries.length = 0 then 1 else policy.entries.length) =
      4 + (1 + (3 + (4 + (policy.entries.length * sizeofDeviceFilterEntry + pad)))) := by
    subst hpad
    simp only [deviceFilterSize, offsetofEntries, offsetofCount, offsetofMode, sizeofBase, sizeofDeviceFilterEntry]
    split <;> omega
  have hall : (if offsetofEntries + policy.entries.length * sizeofDeviceFilterEntry < sizeofDeviceFilter
      then sizeofDeviceFilter else offsetofEntries + policy.entries.length * sizeofDeviceFilterEntry) =
      deviceFilterSize policy.entries.length + pad := by
    subst hpad
    by_cases hempty : policy.entries.length = 0
    · rw [hempty]
      rfl
    · have hmany : ¬offsetofEntries + policy.entries.length * sizeofDeviceFilterEntry < sizeofDeviceFilter := by
        simp only [sizeofDeviceFilter, sizeofDeviceFilterEntry]
        omega
      rw [if_neg hempty, if_neg hmany, deviceFilterSize, Nat.add_zero]
  have hfill := fill_deviceFilterBytes policy.mode.toByte policy.entries (List.replicate pad 0)
  have hlength : (deviceFilterBytes policy.mode.toByte policy.entries (List.replicate pad 0)).length =
      deviceFilterSize policy.entries.length + pad := by
    rw [length_deviceFilterBytes, List.length_replicate]
  unfold deviceFilterInput
  dsimp only
  rw [hsize, hall, List.replicate_add, List.replicate_add, List.replicate_add, List.replicate_add,
    List.replicate_add, hfill, ← hlength, List.take_length]

-- The driver makes of it the policy it stores.
theorem inputPolicy_deviceFilterBytes {r : Request} {rest : List Byte}
    (hbuffer : r.buffer = deviceFilterBytes mode entries rest)
    (h : entries.length ≤ MAX_DEVICE_FILTER_ENTRIES) : inputPolicy r = Policy.ofEntries mode entries := by
  have hmode : byteAt r.buffer offsetofMode = mode := by
    rw [hbuffer]
    exact mode_of_holds (holds_deviceFilterBytes mode entries rest)
  have hword : ulongAt r.buffer offsetofCount = UInt32.ofNat entries.length := by
    rw [hbuffer]
    exact count_of_holds (holds_deviceFilterBytes mode entries rest)
  have hcount : (ulongAt r.buffer offsetofCount).toNat = entries.length := by
    rw [hbuffer]
    exact count_deviceFilterBytes rest h
  rw [inputPolicy, Policy.ofEntries, Policy.mk.injEq]
  refine ⟨hmode, hword, Vector.ext fun i hi => ?_⟩
  simp only [Vector.getElem_ofFn, hcount]
  by_cases hlt : i < entries.length
  · rw [if_pos hlt, hbuffer, entryAt_deviceFilterBytes rest hlt]
    simp [List.getD, hlt]
  · simp [hlt]

theorem policyOutput_ofEntries (h : entries.length ≤ MAX_DEVICE_FILTER_ENTRIES) :
    policyOutput (Policy.ofEntries mode entries) = policyBytes mode entries := by
  rw [policyOutput, toNat_ofEntries_count mode h, take_ofEntries h]
  rfl

theorem parse_deviceFilterBytes (mode : FilterMode) (h : entries.length ≤ MAX_DEVICE_FILTER_ENTRIES) :
    parseDeviceFilter (deviceFilterBytes mode.toByte entries []) = { mode := mode, entries := entries } := by
  have hmode : byteAt (deviceFilterBytes mode.toByte entries []) offsetofMode = mode.toByte :=
    mode_of_holds (holds_deviceFilterBytes _ entries [])
  have havail : ((deviceFilterBytes mode.toByte entries []).length - offsetofEntries) / sizeofDeviceFilterEntry =
      entries.length := by
    rw [length_deviceFilterBytes, deviceFilterSize, List.length_nil, Nat.add_zero, Nat.add_sub_cancel_left]
    exact Nat.mul_div_cancel _ (by decide)
  simp only [parseDeviceFilter, havail, count_deviceFilterBytes [] h, hmode, lt_irrefl, if_false]
  rw [DeviceFilterPolicy.mk.injEq]
  constructor
  · cases mode <;> rfl
  · refine List.ext_getElem (by simp) fun i hi hi' => ?_
    rw [List.getElem_map, List.getElem_range]
    exact entryAt_deviceFilterBytes [] hi'

-- What the system copies back, and what is left of it after the last `resize`.
theorem take_overwrite_policyBytes {buffer : List Byte} (h : deviceFilterSize entries.length ≤ buffer.length)
    (hbase : buffer.take sizeofBase = bytes32 (UInt32.ofNat sizeofDeviceFilter)) :
    (overwrite buffer offsetofMode (policyBytes mode entries)).take (deviceFilterSize entries.length) =
      deviceFilterBytes mode entries [] := by
  have hlength := length_deviceFilterBytes mode entries []
  have hroom : offsetofMode + (policyBytes mode entries).length ≤ buffer.length := by
    rw [length_policyBytes]
    simp only [deviceFilterSize, offsetofEntries, offsetofCount] at h
    simp only [serializedPolicySize, policyEntriesOffset]
    omega
  have hbytes : buffer.take offsetofMode ++ policyBytes mode entries = deviceFilterBytes mode entries [] := by
    rw [deviceFilterBytes, List.append_nil, ← hbase]
    rfl
  rw [overwrite_of_le hroom, ← List.append_assoc, hbytes]
  exact List.take_left' hlength

theorem resize_overwrite {buf : List Byte} (h : deviceFilterSize entries.length ≤ buf.length) :
    resize (overwrite buf 0 (deviceFilterBytes mode entries [])) (deviceFilterSize entries.length) =
      deviceFilterBytes mode entries [] := by
  have hlength := length_deviceFilterBytes mode entries []
  have hroom : 0 + (deviceFilterBytes mode entries []).length ≤ buf.length := by
    rw [hlength, List.length_nil]
    omega
  rw [overwrite_of_le hroom, List.take_zero, List.nil_append, resize_of_le]
  · exact List.take_left' hlength
  · rw [List.length_append, hlength, List.length_nil]
    omega

section Ioctl

variable (env : Env) (hlength : entries.length ≤ MAX_DEVICE_FILTER_ENTRIES)

include hlength

theorem setDeviceFilter_deviceFilterBytes {r : Request} {rest : List Byte}
    (hbuffer : r.buffer = deviceFilterBytes mode entries rest) (hinput : r.inputLength = r.buffer.length)
    (hsize : sizeofDeviceFilter ≤ r.inputLength) :
    VhciIoctl.setDeviceFilter env r =
      (r.reply (store env (Policy.ofEntries mode entries)).1, (store env (Policy.ofEntries mode entries)).2) := by
  have hretrieve : retrieveBuffer r.inputLength sizeofDeviceFilter = .STATUS_SUCCESS := by
    have hpos : ¬(r.inputLength = 0 ∨ r.inputLength < sizeofDeviceFilter) := by
      unfold sizeofDeviceFilter sizeofDeviceFilterEntry at hsize ⊢
      omega
    rw [retrieveBuffer, if_neg hpos]
  have hbase : (ulongAt r.buffer 0).toNat = sizeofDeviceFilter := by
    rw [hbuffer]
    exact size_deviceFilterBytes rest
  have hcount : (ulongAt r.buffer offsetofCount).toNat = entries.length := by
    rw [hbuffer]
    exact count_deviceFilterBytes rest hlength
  have havail : ¬(r.inputLength - offsetofEntries) / sizeofDeviceFilterEntry < entries.length := by
    rw [hinput, hbuffer, length_deviceFilterBytes, deviceFilterSize, Nat.add_assoc, Nat.add_sub_cancel_left, Nat.not_lt,
      Nat.le_div_iff_mul_le (by decide)]
    exact Nat.le_add_right _ _
  simp only [VhciIoctl.setDeviceFilter, hretrieve, hbase, hcount, ne_eq, not_true_eq_false, if_false, if_neg havail,
    if_neg (Nat.not_lt.mpr hlength), inputPolicy_deviceFilterBytes hbuffer hlength]

theorem getDeviceFilter_reply (hmode : mode = filterModeDisabled ∨ mode = filterModeWhitelist)
    (hstored : env.filter = .read REG_BINARY (policyBytes mode entries)) {r : Request} {rest : List Byte} {cnt : Nat}
    (hcnt : 0 < cnt) (houtput : r.outputLength = deviceFilterSize cnt)
    (hbuffer : r.buffer = bytes32 (UInt32.ofNat sizeofDeviceFilter) ++ rest) :
    VhciIoctl.getDeviceFilter env r =
      if cnt < entries.length then r.reply .STATUS_BUFFER_TOO_SMALL
      else
        { status := .STATUS_SUCCESS
          information := deviceFilterSize entries.length
          output := overwrite r.buffer offsetofMode (policyBytes mode entries) } := by
  have hretrieve : retrieveBuffer r.outputLength sizeofDeviceFilter = .STATUS_SUCCESS := by
    have hpos : ¬(r.outputLength = 0 ∨ r.outputLength < sizeofDeviceFilter) := by
      rw [houtput]
      simp only [deviceFilterSize, sizeofDeviceFilter, offsetofEntries, sizeofDeviceFilterEntry]
      omega
    rw [retrieveBuffer, if_neg hpos]
  have hbase : (ulongAt r.buffer 0).toNat = sizeofDeviceFilter := by
    have hword : ulongAt r.buffer 0 = UInt32.ofNat sizeofDeviceFilter := by
      rw [hbuffer]
      exact ulongAt_of_holds (holds_byteAt [] (bytes32 (UInt32.ofNat sizeofDeviceFilter)) rest)
    rw [hword]
    rfl
  have havail : (r.outputLength - offsetofEntries) / sizeofDeviceFilterEntry = cnt := by
    rw [houtput, deviceFilterSize, Nat.add_sub_cancel_left]
    exact Nat.mul_div_cancel _ (by decide)
  simp only [VhciIoctl.getDeviceFilter, hretrieve, hbase, hstored, load_policyBytes env.garbage hmode hlength, havail,
    toNat_ofEntries_count mode hlength, policyOutput_ofEntries hlength, ne_eq, not_true_eq_false, if_false]

-- A round of the loop ends it as soon as the buffer is large enough.
theorem readDeviceFilter_succ (hmode : mode = filterModeDisabled ∨ mode = filterModeWhitelist)
    (hstored : env.filter = .read REG_BINARY (policyBytes mode entries)) (pool : Nat → Nat → Byte)
    (fuel cnt : Nat) (hcnt : 0 < cnt) (buf : List Byte) :
    ∃ next, readDeviceFilter env pool (fuel + 1) cnt buf =
      if cnt < entries.length then readDeviceFilter env pool fuel (2 * cnt) next
      else some (.ok (deviceFilterBytes mode entries [])) := by
  have hsize : 4 ≤ (resize buf (deviceFilterSize cnt)).length := by
    rw [length_resize]
    simp only [deviceFilterSize, offsetofEntries, offsetofCount, offsetofMode, sizeofBase]
    omega
  have hinput : overwrite (resize buf (deviceFilterSize cnt)) 0 (bytes32 (UInt32.ofNat sizeofDeviceFilter)) =
      bytes32 (UInt32.ofNat sizeofDeviceFilter) ++ (resize buf (deviceFilterSize cnt)).drop 4 :=
    overwrite_of_le hsize
  generalize hbuf : overwrite (resize buf (deviceFilterSize cnt)) 0 (bytes32 (UInt32.ofNat sizeofDeviceFilter)) = sent
  rw [hbuf] at hinput
  have hsent : sent.length = deviceFilterSize cnt := by
    rw [hinput, List.length_append, List.length_drop, length_resize] at *
    simp only [bytes32, List.length_cons, List.length_nil]
    omega
  have htake : sent.take sizeofBase = bytes32 (UInt32.ofNat sizeofDeviceFilter) := by
    rw [hinput]
    exact List.take_left' rfl
  have hreply := getDeviceFilter_reply env hlength hmode hstored
    (r := systemRequest (bytes32 (UInt32.ofNat sizeofDeviceFilter)) sent.length (pool cnt)) hcnt hsent rfl
  refine ⟨sent, ?_⟩
  simp only [readDeviceFilter, hbuf, htake, deviceIoControl, hreply]
  by_cases hshort : cnt < entries.length
  · simp [hshort, Request.reply, dosError, NTSTATUS.isError, NTSTATUS.isSuccess]
  · have hfits : deviceFilterSize entries.length ≤ sent.length := by
      rw [hsent]
      exact Nat.add_le_add_left (Nat.mul_le_mul_right _ (Nat.not_lt.mp hshort)) _
    have hfull : ¬deviceFilterSize entries.length < offsetofEntries := Nat.not_lt.mpr (Nat.le_add_right _ _)
    simp only [hshort, if_false, if_true, NTSTATUS.isError, NTSTATUS.isSuccess, Bool.not_true, Bool.false_eq_true,
      if_neg hfull]
    have hroom : deviceFilterSize entries.length ≤
        (systemRequest (bytes32 (UInt32.ofNat sizeofDeviceFilter)) sent.length (pool cnt)).buffer.length := by
      rw [Request.size]
      exact hfits.trans (le_max_right _ _)
    rw [take_overwrite_policyBytes hroom rfl, resize_overwrite hfits]

end Ioctl

end Policy

-- The policy that the driver goes by after `policy` has been set.
def kernelPolicy (policy : DeviceFilterPolicy) : Policy := Policy.ofEntries policy.mode.toByte policy.entries

theorem toByte_cases (mode : FilterMode) : mode.toByte = filterModeDisabled ∨ mode.toByte = filterModeWhitelist := by
  cases mode
  · exact .inl rfl
  · exact .inr rfl

theorem isAllowed_kernelPolicy {policy : DeviceFilterPolicy} (h : policy.entries.length ≤ MAX_DEVICE_FILTER_ENTRIES)
    (cls sub proto : Byte) : isAllowed (kernelPolicy policy) cls sub proto =
      (policy.mode == .disabled || policy.entries.any fun e => e.accepts cls sub proto) := by
  rw [isAllowed, kernelPolicy, toNat_ofEntries_count _ h, take_ofEntries h]
  cases hmode : policy.mode <;> rfl

-- Of a policy with too many entries the driver hears nothing.
theorem setDeviceFilter_tooMany {policy : DeviceFilterPolicy} (h : MAX_DEVICE_FILTER_ENTRIES < policy.entries.length)
    (env : Env) (pool : Nat → Byte) : setDeviceFilter env pool policy = (some .ERROR_INVALID_PARAMETER, none) := by
  rw [setDeviceFilter, if_pos h]

theorem setDeviceFilter_eq {policy : DeviceFilterPolicy} (h : policy.entries.length ≤ MAX_DEVICE_FILTER_ENTRIES)
    (env : Env) (pool : Nat → Byte) :
    setDeviceFilter env pool policy =
      (if (store env (kernelPolicy policy)).1 = .STATUS_SUCCESS then none
        else some (dosError (store env (kernelPolicy policy)).1), (store env (kernelPolicy policy)).2) := by
  have hbytes := deviceFilterInput_eq policy
  generalize hpad : (if policy.entries.length = 0 then sizeofDeviceFilterEntry else 0) = pad at hbytes
  have hlength : (deviceFilterInput policy).length = deviceFilterSize policy.entries.length + pad := by
    rw [hbytes, length_deviceFilterBytes, List.length_replicate]
  have hsize : sizeofDeviceFilter ≤ (deviceFilterInput policy).length := by
    rw [hlength, ← hpad]
    simp only [sizeofDeviceFilter, deviceFilterSize, sizeofDeviceFilterEntry]
    split <;> omega
  have hbuffer : (systemRequest (deviceFilterInput policy) 0 pool).buffer = deviceFilterInput policy := by
    simp [systemRequest]
  have hset := setDeviceFilter_deviceFilterBytes env h (r := systemRequest (deviceFilterInput policy) 0 pool)
    (hbuffer.trans hbytes) (congrArg List.length hbuffer.symm) hsize
  rw [setDeviceFilter, if_neg (Nat.not_lt.mpr h)]
  simp only [deviceIoControl, List.length_nil, hset]
  rfl

theorem getDeviceFilter_eq {policy : DeviceFilterPolicy} (h : policy.entries.length ≤ MAX_DEVICE_FILTER_ENTRIES)
    {env : Env} (hstored : env.filter = .read REG_BINARY (policyBytes policy.mode.toByte policy.entries))
    (pool : Nat → Nat → Byte) {fuel : Nat} (hfuel : 3 ≤ fuel) : getDeviceFilter env pool fuel = some (.ok policy) := by
  obtain ⟨fuel, rfl⟩ := Nat.exists_eq_add_of_le' hfuel
  have hround := readDeviceFilter_succ env h (toByte_cases policy.mode) hstored pool
  have hread : readDeviceFilter env pool (fuel + 3) 16 [] =
      some (.ok (deviceFilterBytes policy.mode.toByte policy.entries [])) := by
    obtain ⟨buf, hbuf⟩ := hround (fuel + 2) 16 (by decide) []
    obtain ⟨buf', hbuf'⟩ := hround (fuel + 1) 32 (by decide) buf
    obtain ⟨buf'', hbuf''⟩ := hround fuel 64 (by decide) buf'
    have hlast : ¬64 < policy.entries.length := Nat.not_lt.mpr h
    rw [if_neg hlast] at hbuf''
    rw [hbuf, hbuf', hbuf'', ite_self, ite_self]
  rw [getDeviceFilter, hread]
  simp only [Option.map_some, Except.map, parse_deviceFilterBytes policy.mode h]

-- What the registry has once the driver has stored a policy.
theorem store_kernelPolicy {policy : DeviceFilterPolicy} (h : policy.entries.length ≤ MAX_DEVICE_FILTER_ENTRIES)
    {env : Env} (hstore : (store env (kernelPolicy policy)).1 = .STATUS_SUCCESS) :
    (store env (kernelPolicy policy)).2 = some (policyBytes policy.mode.toByte policy.entries) := by
  rw [← storedBytes_ofEntries (toByte_cases policy.mode) h]
  unfold store at hstore ⊢
  split at hstore
  case isTrue hopen => exact absurd hstore hopen
  case isFalse hopen =>
    simp only at hstore
    simp [hopen, hstore, kernelPolicy]

-- A policy goes through the library, the IOCTLs and the registry, and back.
theorem deviceFilter_roundTrip (policy : DeviceFilterPolicy) (env : Env) (pool : Nat → Byte) :
    (policy.entries.length ≤ MAX_DEVICE_FILTER_ENTRIES →
      (env.openParameters = .STATUS_SUCCESS → env.assignValue = .STATUS_SUCCESS →
        (setDeviceFilter env pool policy).1 = none) ∧
      ((setDeviceFilter env pool policy).1 = none →
        ∃ bytes, (setDeviceFilter env pool policy).2 = some bytes ∧
          (∀ env' pool' fuel, env'.filter = .read REG_BINARY bytes → 3 ≤ fuel →
            getDeviceFilter env' pool' fuel = some (.ok policy)) ∧
          (∀ parse garbage udev, checkDevice parse garbage (.read REG_BINARY bytes) udev =
            checkDeviceAgainst parse (kernelPolicy policy) udev) ∧
          ∀ cls sub proto, isAllowed (kernelPolicy policy) cls sub proto =
            (policy.mode == .disabled || policy.entries.any fun e => e.accepts cls sub proto))) ∧
    (MAX_DEVICE_FILTER_ENTRIES < policy.entries.length →
      (setDeviceFilter env pool policy).1 ≠ none ∧ (setDeviceFilter env pool policy).2 = none) := by
  refine ⟨fun h => ?_, fun h => ?_⟩
  · have hmode := toByte_cases policy.mode
    rw [setDeviceFilter_eq h]
    refine ⟨fun hopen hassign => ?_, fun hok => ?_⟩
    · simp [store, hopen, hassign]
    · have hstore : (store env (kernelPolicy policy)).1 = .STATUS_SUCCESS := by
        by_contra hfail
        rw [if_neg hfail] at hok
        cases hok
      have hbytes := store_kernelPolicy h hstore
      refine ⟨_, hbytes, fun env' pool' fuel hstored hfuel => getDeviceFilter_eq h hstored pool' hfuel,
        fun parse garbage udev => ?_, isAllowed_kernelPolicy h⟩
      rw [checkDevice, load_policyBytes garbage hmode h, kernelPolicy]
  · rw [setDeviceFilter_tooMany h]
    simp

-- Keyboards and mice only.
def hidPolicy : DeviceFilterPolicy :=
  { mode := .whitelist, entries := [{ bClass := 3, matchFlags := FILTER_MATCH_CLASS }] }

theorem deviceFilter_roundTrip_hid :
    ∃ bytes, (setDeviceFilter {} (fun _ => 0) hidPolicy).2 = some bytes ∧
      getDeviceFilter { filter := .read REG_BINARY bytes } (fun _ _ => 0) 3 = some (.ok hidPolicy) := by
  obtain ⟨hset, hget⟩ := (deviceFilter_roundTrip hidPolicy {} fun _ => 0).1 (by decide)
  obtain ⟨bytes, hbytes, hround, -⟩ := hget (hset rfl rfl)
  exact ⟨bytes, hbytes, hround _ _ 3 rfl (le_refl 3)⟩

end Usbip.Libusbip

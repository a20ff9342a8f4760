import Usbip.VhciIoctl

namespace Usbip.VhciIoctl

open Usbip.Library.Words

-- No more is reported than the output buffer holds, unless the request fails.
def Reply.Fits (reply : Reply) (outputLength : Nat) : Prop :=
  reply.status.isError = false → reply.information ≤ outputLength

theorem Request.reply_fits (r : Request) (status : NTSTATUS) (n : Nat) : (r.reply status).Fits n :=
  fun _ => Nat.zero_le n

theorem checkedLength {length minimum : Nat} (h : retrieveBuffer length minimum = .STATUS_SUCCESS) :
    0 < length ∧ minimum ≤ length := by
  unfold retrieveBuffer at h
  split at h
  · cases h
  · omega

-- The loop never gets past the devices that the buffer has room for.
theorem fillDevices_le (maxCnt : Nat) (devices : List (Option (Except NTSTATUS (List Byte)))) {cnt : Nat}
    (output : List Byte) (h : cnt ≤ maxCnt) : (fillDevices maxCnt devices cnt output).2.1 ≤ maxCnt := by
  induction devices generalizing cnt output with
  | nil => exact h
  | cons device rest ih =>
      cases device with
      | none => exact ih output h
      | some device =>
          simp only [fillDevices]
          split_ifs with hfull
          · exact h
          · cases device with
            | error err => exact h
            | ok bytes => exact ih _ (by omega)

section Handlers

variable (env : Env) (r : Request)

theorem getImportedDevices_fits : (getImportedDevices env r).Fits r.outputLength := by
  unfold getImportedDevices
  simp only []
  split_ifs with herr hsize hst
  · exact r.reply_fits _ _
  · exact r.reply_fits _ _
  · exact fun _ => Nat.zero_le _
  · intro _
    obtain ⟨_, hmin⟩ := checkedLength (not_not.mp herr)
    have hcnt := fillDevices_le ((r.outputLength - offsetofDevices) / sizeofImportedDevice) env.devices r.buffer
      (Nat.zero_le _)
    have hroom := Nat.div_mul_le_self (r.outputLength - offsetofDevices) sizeofImportedDevice
    have hmul := Nat.mul_le_mul_right sizeofImportedDevice hcnt
    have hbase : offsetofDevices ≤ r.outputLength := le_trans (Nat.le_add_right _ _) hmin
    have hall := Nat.add_le_of_le_sub' hbase (hmul.trans hroom)
    exact hall

theorem getDeviceFilter_fits : (getDeviceFilter env r).Fits r.outputLength := by
  unfold getDeviceFilter
  simp only []
  split_ifs with herr hsize havail
  · exact r.reply_fits _ _
  · exact r.reply_fits _ _
  · exact r.reply_fits _ _
  · intro _
    obtain ⟨_, hmin⟩ := checkedLength (not_not.mp herr)
    unfold sizeofDeviceFilter at hmin
    unfold DeviceFilter.sizeofDeviceFilterEntry at havail hmin
    simp only [deviceFilterSize, DeviceFilter.sizeofDeviceFilterEntry]
    omega

theorem setDeviceFilter_fits : (setDeviceFilter env r).1.Fits r.outputLength := by
  unfold setDeviceFilter
  simp only []
  split_ifs <;> exact r.reply_fits _ _

theorem setPersistent_fits : (setPersistent env r).1.Fits r.outputLength := by
  unfold setPersistent
  simp only []
  split_ifs <;> exact r.reply_fits _ _

theorem plugoutHardware_fits (vhci : Vhci.VhciCtx) : (plugoutHardware r vhci).Fits r.outputLength := by
  unfold plugoutHardware
  simp only []
  split_ifs <;> exact r.reply_fits _ _

-- The output is a whole structure, and the length of the output buffer is not looked at.
def StopFits : Prop :=
  checkInput r sizeofStopAttachAttempts = .STATUS_SUCCESS →
    (locationStrings r = 0 ∨ locationStrings r = 3 ∧ env.initDeviceAttributes.isSuccess) →
    sizeofStopAttachAttempts ≤ r.outputLength

theorem stopAttachAttempts_fits_iff : (stopAttachAttempts env r).Fits r.outputLength ↔ StopFits env r := by
  unfold stopAttachAttempts StopFits
  by_cases herr : checkInput r sizeofStopAttachAttempts = .STATUS_SUCCESS
  · simp only [herr, ne_eq, not_true_eq_false, if_false, forall_const]
    by_cases hnone : locationStrings r = 0
    · simp [hnone, NTSTATUS.isSuccess, NTSTATUS.isError, Reply.Fits]
    · by_cases hall : locationStrings r = 3
      · cases hst : env.initDeviceAttributes.isSuccess with
        | false => simp [hall, hst, Request.reply_fits]
        | true =>
            have hgood : env.initDeviceAttributes.isError = false := by
              cases h : env.initDeviceAttributes <;> simp_all [NTSTATUS.isSuccess, NTSTATUS.isError]
            simp [hall, hst, Reply.Fits, hgood]
      · simp [hnone, hall, NTSTATUS.isSuccess, Request.reply_fits]
  · simp [herr, Request.reply_fits]

-- A value of the registry that is longer than the output buffer.
def PersistentFits : Prop :=
  r.outputLength ≠ 0 → env.openPersistentState = .STATUS_SUCCESS →
    ∀ type bytes, env.persistent = .value type bytes → bytes.length ≤ r.outputLength

theorem getPersistent_fits_iff : (getPersistent env r).Fits r.outputLength ↔ PersistentFits env r := by
  unfold getPersistent PersistentFits retrieveBuffer
  by_cases hempty : r.outputLength = 0
  · simp [hempty, Request.reply_fits]
  · by_cases hopen : env.openPersistentState = .STATUS_SUCCESS
    · cases hvalue : env.persistent with
      | missing code => simp [hempty, hopen, queryValue, Reply.Fits]
      | value type bytes =>
          by_cases hlen : r.outputLength < bytes.length
          · have hnot : ¬ bytes.length ≤ r.outputLength := by omega
            simp [hempty, hopen, queryValue, hlen, hnot, Reply.Fits, NTSTATUS.isError]
          · have hle : bytes.length ≤ r.outputLength := by omega
            by_cases htype : type = REG_MULTI_SZ
            · simp [hempty, hopen, queryValue, hlen, hle, htype, Reply.Fits]
            · simp [hempty, hopen, queryValue, hlen, hle, htype, Reply.Fits]
    · simp [hempty, hopen, Request.reply_fits]

-- The outcome of the attach: how it ends once the request is accepted.
def attachStatus : Option NTSTATUS :=
  if env.createWorkitem ≠ .STATUS_SUCCESS then some env.createWorkitem
  else if env.createDeviceCtxExt ≠ .STATUS_SUCCESS then some env.createDeviceCtxExt
  else env.attached

def PluginFits : Prop :=
  checkInput r sizeofPluginHardware = .STATUS_SUCCESS → validateSerialNumber (serial r) = .STATUS_SUCCESS →
    ∀ st, attachStatus env = some st → st.isError = false → offsetofPort + 4 ≤ r.outputLength

theorem pluginHardware_fits_iff (written : Nat) :
    (∀ reply, pluginHardware env r written = some reply → reply.Fits r.outputLength) ↔
      ∀ st, attachStatus env = some st → st.isError = false → written ≤ r.outputLength := by
  unfold pluginHardware attachStatus
  simp only []
  split_ifs
  · simp [Reply.Fits]
  · simp [Reply.Fits]
  · cases env.attached <;> simp [Reply.Fits]

theorem pluginHardwareIoctl_fits_iff :
    (∀ reply, pluginHardwareIoctl env r = some reply → reply.Fits r.outputLength) ↔ PluginFits env r := by
  unfold pluginHardwareIoctl PluginFits
  by_cases herr : checkInput r sizeofPluginHardware = .STATUS_SUCCESS
  · by_cases hserial : validateSerialNumber (serial r) = .STATUS_SUCCESS
    · simp only [herr, hserial, ne_eq, not_true_eq_false, if_false, forall_const]
      exact pluginHardware_fits_iff env r _
    · simp [herr, hserial, Request.reply_fits]
  · simp [herr, Request.reply_fits]

end Handlers

-- The output buffer has room for what the three handlers that do not look at its length report.
def OutputFits (env : Env) (r : Request) : IoControlCode → Prop
  | .PLUGIN_HARDWARE | .PLUGIN_HARDWARE_ONCE => env.forward.isSuccess → PluginFits env r
  | .STOP_ATTACH_ATTEMPTS => StopFits env r
  | .GET_PERSISTENT => PersistentFits env r
  | _ => True

theorem deviceControl_information_le_iff (env : Env) (vhci : Vhci.VhciCtx) (r : Request) (code : IoControlCode) :
    (∀ reply, deviceControl env vhci r code = some reply → reply.status.isError = false →
      reply.information ≤ r.outputLength) ↔ OutputFits env r code := by
  change (∀ reply, deviceControl env vhci r code = some reply → reply.Fits r.outputLength) ↔ _
  cases code with
  | PLUGIN_HARDWARE | PLUGIN_HARDWARE_ONCE =>
      simp only [deviceControl, OutputFits]
      cases env.forward.isSuccess with
      | true => simpa using pluginHardwareIoctl_fits_iff env r
      | false => simp [Request.reply_fits]
  | PLUGOUT_HARDWARE | PLUGOUT_HARDWARE_AND_REATTACH =>
      simp only [deviceControl, OutputFits]
      cases env.forward.isSuccess with
      | true => simp [plugoutHardware_fits]
      | false => simp [Request.reply_fits]
  | GET_IMPORTED_DEVICES => simp [deviceControl, OutputFits, getImportedDevices_fits]
  | SET_PERSISTENT => simp [deviceControl, OutputFits, setPersistent_fits]
  | GET_PERSISTENT => simpa [deviceControl, OutputFits] using getPersistent_fits_iff env r
  | STOP_ATTACH_ATTEMPTS => simpa [deviceControl, OutputFits] using stopAttachAttempts_fits_iff env r
  | SET_DEVICE_FILTER => simp [deviceControl, OutputFits, setDeviceFilter_fits]
  | GET_DEVICE_FILTER => simp [deviceControl, OutputFits, getDeviceFilter_fits]

-- All attempts are stopped for a caller that has no output buffer, and 1104 bytes are reported.
def stopAllRequest : Request where
  inputLength := sizeofStopAttachAttempts
  outputLength := 0
  buffer := bytes32 1104 ++ List.replicate 1100 0
  size := by rw [List.length_append, List.length_replicate]; rfl

theorem stopAttachAttempts_without_output :
    ¬ ∀ (env : Env) (vhci : Vhci.VhciCtx) (r : Request) (code : IoControlCode) (reply : Reply),
      deviceControl env vhci r code = some reply → reply.status.isError = false →
        reply.information ≤ r.outputLength := by
  intro h
  have hstop := h {} { usb2Ports := 1, devices := [none, none] } stopAllRequest .STOP_ATTACH_ATTEMPTS _ rfl
  revert hstop
  decide

end Usbip.VhciIoctl

import Usbip.Libusbip.Attach
import Usbip.Libusbip.Imported.Theorems
import Usbip.Libusbip.StopAttach.Theorems
import Usbip.Persistent.Plugin.Theorems
import Usbip.VhciIoctl.Import.Theorems

namespace Usbip.Libusbip.Attach

open Usbip.Library.Words
open Usbip.Libusbip.Imported (IsText Named)
open Usbip.Libusbip.Persistent (DeviceLocation Utf validateDeviceSerial)
open Usbip.Libusbip.StopAttach (Field Fits)
open Usbip.Persistent (DeviceAttributes Rtl UnicodeString cString)
open Usbip.Persistent.Plugin
open Usbip.VhciIoctl
open Usbip.VhciIoctl.Imported (BUS_ID_SIZE sizeofService sizeofHost DeviceCtx)
open Usbip.VhciIoctl.StopAttach (Services arrayAt)

-- The strings of a location as C strings.
def texts (location : DeviceLocation) : DeviceLocation where
  hostname := cString location.hostname
  service := cString location.service
  busid := cString location.busid

variable {rest pool : Nat → Byte} {args : AttachArgs} {r : List Byte} {utf : Utf} {sys : Services}

section Assign

theorem cString_serial {serial : List Byte} (h : validateDeviceSerial serial = true) : cString serial = serial :=
  cString_of_not_mem (Persistent.not_mem_of_validateDeviceSerial h)

theorem length_serial {serial : List Byte} (h : validateDeviceSerial serial = true) : serial.length < SERIAL_BUFSZ :=
  Nat.lt_of_le_of_lt (Usbip.Persistent.serial_bounds h).1 (by decide)

-- What is sent if all the texts fit.
theorem assign_eq_ok : assign rest args = .ok r ↔
    validateDeviceSerial args.serial = true ∧ Fits args.location ∧
      r = requestBytes (texts args.location) args.serial := by
  unfold assign
  by_cases hserial : validateDeviceSerial args.serial = true
  · have hfits : Field.Fits ⟨SERIAL_BUFSZ, args.serial⟩ := by
      change (cString args.serial).length < SERIAL_BUFSZ
      rw [cString_serial hserial]
      exact length_serial hserial
    simp only [hserial, Bool.true_eq_false, if_false, StopAttach.strncpyS_of_fits hfits, ne_eq, not_true_eq_false,
      true_and]
    by_cases hlocation : Fits args.location
    · have hassign : StopAttach.assign rest args.location =
          (StopAttach.arrays args.location, StopAttach.ERROR_SUCCESS) :=
        StopAttach.assignFields_of_fits hlocation
      have hrequest : request (StopAttach.arrays args.location) (Field.padded ⟨SERIAL_BUFSZ, args.serial⟩) =
          requestBytes (texts args.location) args.serial := by
        have hpadded : Field.padded ⟨SERIAL_BUFSZ, args.serial⟩ = padded SERIAL_BUFSZ args.serial := by
          rw [Field.padded, Field.text, cString_serial hserial, padded]
        rw [request, StopAttach.arrays_eq, hpadded, requestBytes, pluginBytes]
        simp only [List.append_assoc]
        rfl
      simp only [hassign, StopAttach.ERROR_SUCCESS, not_true_eq_false, if_false, hrequest, Except.ok.injEq, hlocation,
        true_and, eq_comm]
    · have herr : (StopAttach.assign rest args.location).2 ≠ 0 := by
        rw [StopAttach.assign, StopAttach.assignFields_error hlocation]
        decide
      simp [herr, hlocation]
  · simp [hserial]

end Assign

section Driver

-- The string of the attributes is this text for an array of the size.
theorem isText_of_spells (hsame : SameText utf sys) {src : UnicodeString} {text : List Byte}
    (hs : Spells src (wide utf text)) (h : Convertible utf text) {size : Nat} (hroom : text.length ≤ size) :
    IsText sys.rtl src size text where
  converted := by rw [hs.source, hsame.toUTF8 _ _ _ h.converts hroom]
  noNul := h.noNul
  fits := hroom

theorem length_requestBytes {location : DeviceLocation} (h : HasRoom location) {serial : List Byte}
    (hserial : serial.length ≤ SERIAL_BUFSZ) : (requestBytes location serial).length = sizeofPluginHardware := by
  simp only [requestBytes, pluginBytes, bytes32, List.length_append, List.length_cons, List.length_nil,
    List.length_replicate, length_padded h.1, length_padded h.2.1, length_padded h.2.2, length_padded hserial]
  rfl

theorem hasRoom_of_fits {location : DeviceLocation} (h : Fits location) :
    ((texts location).hostname.length < sizeofHost ∧ (texts location).service.length < sizeofService ∧
      (texts location).busid.length < BUS_ID_SIZE) ∧ HasRoom (texts location) := by
  simp only [Fits, StopAttach.fields, List.forall_mem_cons, List.not_mem_nil, false_imp_iff, implies_true,
    and_true] at h
  obtain ⟨hbusid, hservice, hhost⟩ := h
  exact ⟨⟨hhost, hservice, hbusid⟩, Nat.le_of_lt hhost, Nat.le_of_lt hservice, Nat.le_of_lt hbusid⟩

-- The driver accepts what the library sends.
theorem accepted (hsent : assign rest args = .ok r) (pool : Nat → Byte) :
    checkInput (systemRequest r outlen pool) sizeofPluginHardware = .STATUS_SUCCESS ∧
      validateSerialNumber (serial (systemRequest r outlen pool)) = .STATUS_SUCCESS := by
  obtain ⟨hserial, hfits, rfl⟩ := assign_eq_ok.mp hsent
  have hroom := (hasRoom_of_fits hfits).2
  have hlength := length_requestBytes hroom (length_serial hserial).le
  have hbuffer : (systemRequest (requestBytes (texts args.location) args.serial) outlen pool).buffer =
      requestBytes (texts args.location) args.serial := by
    have hnone : outlen - sizeofPluginHardware = 0 := by decide
    simp only [systemRequest, hlength, hnone, List.range_zero, List.map_nil, List.append_nil]
  have hinput : (systemRequest (requestBytes (texts args.location) args.serial) outlen pool).inputLength =
      sizeofPluginHardware := hlength
  constructor
  · have hsize : ulongAt (requestBytes (texts args.location) args.serial) 0 = UInt32.ofNat sizeofPluginHardware := by
      simp [ulongAt, byteAt, requestBytes, pluginBytes, bytes32]
    unfold checkInput
    rw [hinput, hbuffer, hsize]
    rfl
  · obtain ⟨-, -, -, harray⟩ := arrays_pluginBytes (length_padded hroom.2.2) (length_padded hroom.2.1)
      (length_padded hroom.1) (length_padded (length_serial hserial).le)
    have hbuffered : padded SERIAL_BUFSZ args.serial = Usbip.Persistent.serialBuffer args.serial := by
      have hlt := length_serial hserial
      obtain ⟨n, hn⟩ : ∃ n, SERIAL_BUFSZ - args.serial.length = n + 1 :=
        ⟨SERIAL_BUFSZ - args.serial.length - 1, by omega⟩
      have hn' : SERIAL_BUFSZ - 1 - args.serial.length = n := by omega
      rw [padded, Usbip.Persistent.serialBuffer, hn, hn', List.replicate_succ]
    have hserialAt : serial (systemRequest (requestBytes (texts args.location) args.serial) outlen pool) =
        padded SERIAL_BUFSZ args.serial := by
      rw [serial, hbuffer]
      exact harray
    rw [hserialAt, hbuffered]
    exact Usbip.Persistent.validateSerialNumber_serialBuffer hserial

-- The hash that a request to stop the attempts for the location stands for.
theorem locationHash_eq (hsame : SameText utf sys) (hallocated : sys.allocated = true) {location : DeviceLocation}
    (hfits : Fits location) (hd : Spellable utf (texts location)) : StopAttach.locationHash sys location =
      (.STATUS_SUCCESS, sys.rtl.hashUnicodeString (hashed utf (texts location))) := by
  obtain ⟨⟨hhost, hservice, hbusid⟩, -⟩ := hasRoom_of_fits hfits
  have hattr : VhciIoctl.StopAttach.initDeviceAttributes sys (Field.padded ⟨sizeofHost, location.hostname⟩)
      (Field.padded ⟨sizeofService, location.service⟩) (Field.padded ⟨BUS_ID_SIZE, location.busid⟩) = _ :=
    initDeviceAttributes_padded hsame hallocated hd hhost hservice hbusid
  simp only [StopAttach.locationHash, hattr, named]

-- The location and the serial number of a device in the driver are those that the user gave: the request is accepted,
-- the server is asked for this bus id, the list of devices has this location and serial number, a request to stop the
-- attempts for the location meets them, and each further attempt sends the very request of the user.
theorem attach_reattach (hsame : SameText utf sys) (hallocated : sys.allocated = true)
    (hsent : assign rest args = .ok r) (hd : Spellable utf (texts args.location)) :
    (∀ pool, checkInput (systemRequest r outlen pool) sizeofPluginHardware = .STATUS_SUCCESS ∧
      validateSerialNumber (serial (systemRequest r outlen pool)) = .STATUS_SUCCESS) ∧
    ∃ attr, createDeviceCtxExt sys r = (.STATUS_SUCCESS, attr) ∧
      (∀ w : Import.World, w.busid = attr.busid →
        Import.converted sys.rtl w = (.STATUS_SUCCESS, cString args.location.busid)) ∧
      (∀ dev : DeviceCtx, dev.nodeName = attr.nodeName → dev.serviceName = attr.serviceName → dev.busid = attr.busid →
        Named sys.rtl dev (texts args.location)) ∧
      cString attr.serial = args.serial ∧
      StopAttach.locationHash sys args.location = (.STATUS_SUCCESS, attr.locationHash) ∧
      ∀ vhci, initAttachCtx sys.rtl vhci attr =
        some { locationHash := attr.locationHash, ctx := { delay := vhci.reattachFirstDelay }, inbuf := r } := by
  refine ⟨accepted hsent, ?_⟩
  obtain ⟨hserial, hfits, rfl⟩ := assign_eq_ok.mp hsent
  obtain ⟨⟨hhost, hservice, hbusid⟩, hroom⟩ := hasRoom_of_fits hfits
  have hnul := Persistent.not_mem_of_validateDeviceSerial hserial
  have hcreate := createDeviceCtxExt_requestBytes hsame hallocated hd hhost hservice hbusid (length_serial hserial) hnul
  have hnames := names_named utf sys.rtl (texts args.location) (padded SERIAL_BUFSZ args.serial)
  have hserial' : cString (named utf sys.rtl (texts args.location) (padded SERIAL_BUFSZ args.serial)).serial =
      args.serial := cString_padded hnul _
  refine ⟨_, hcreate, ?_, ?_, hserial', ?_, ?_⟩
  · intro w hw
    have htext := isText_of_spells hsame hnames.busid hd.busid hroom.2.2
    rw [Import.converted, hw]
    exact htext.converted
  · intro dev hnode hserviceName hbusidName
    refine ⟨?_, ?_, ?_⟩
    · rw [hnode]
      exact isText_of_spells hsame hnames.nodeName hd.hostname hroom.1
    · rw [hserviceName]
      exact isText_of_spells hsame hnames.serviceName hd.service hroom.2.1
    · rw [hbusidName]
      exact isText_of_spells hsame hnames.busid hd.busid hroom.2.2
  · exact locationHash_eq hsame hallocated hfits hd
  · intro vhci
    rw [initAttachCtx_eq hsame hd hnames (by rw [hserial']; exact length_serial hserial), if_pos hroom, hserial']

end Driver

section Ascii

open Usbip.Libusbip.Persistent (asciiUtf asciiUtf_converts asciiUtf_toWchar)
open Usbip.Libusbip.StopAttach (asciiServices pcLocation)
open Usbip.Persistent (asciiRtl asciiRtl_fits)

theorem sameText_ascii : SameText asciiUtf asciiServices where
  converts := asciiUtf_converts
  shorter s ws h := by
    obtain ⟨-, rfl⟩ := asciiUtf_toWchar.mp h
    exact (List.length_map _).le
  toUnicode s ws h := by
    obtain ⟨-, rfl⟩ := asciiUtf_toWchar.mp h
    rfl
  toUTF8 := asciiRtl_fits
  tooSmall s ws room h hroom := by
    simp only [asciiServices, asciiRtl, Option.map_some, asciiUtf_converts.decode s ws h,
      if_neg (Nat.not_le_of_lt hroom)]
    rfl
  null _ := rfl

theorem convertible_ascii {text : List Byte} (hne : text ≠ [])
    (h : text.all (fun c => decide (0 < c.toNat ∧ c.toNat < 128)) = true) : Convertible asciiUtf text := by
  simp only [List.all_eq_true, decide_eq_true_eq] at h
  refine ⟨?_, fun hmem => absurd (h 0 hmem).1 (by decide)⟩
  have hconv := asciiUtf_toWchar.mpr ⟨⟨hne, fun c hc => (h c hc).2⟩, rfl⟩
  rw [wide, hconv, Option.getD_some]

-- The device 1-1 of the host pc with the serial number "A1".
def pcArgs : AttachArgs where
  location := pcLocation
  serial := [65, 49]

theorem spellable_pc : Spellable asciiUtf (texts pcLocation) :=
  ⟨convertible_ascii (by decide) rfl, convertible_ascii (by decide) rfl, convertible_ascii (by decide) rfl⟩

theorem assign_pc (rest : Nat → Byte) : assign rest pcArgs = .ok (requestBytes (texts pcLocation) [65, 49]) :=
  assign_eq_ok.mpr ⟨by decide, by decide, rfl⟩

theorem attach_reattach_pc :
    ∃ attr, createDeviceCtxExt asciiServices (requestBytes (texts pcLocation) [65, 49]) = (.STATUS_SUCCESS, attr) ∧
      cString attr.serial = [65, 49] ∧
      ∀ vhci, initAttachCtx asciiRtl vhci attr = some
        { locationHash := attr.locationHash
          ctx := { delay := vhci.reattachFirstDelay }
          inbuf := requestBytes (texts pcLocation) [65, 49] } := by
  obtain ⟨-, attr, hcreate, -, -, hserial, -, hretry⟩ :=
    attach_reattach sameText_ascii rfl (assign_pc fun _ => 0) spellable_pc
  exact ⟨attr, hcreate, hserial, hretry⟩

end Ascii

end Usbip.Libusbip.Attach

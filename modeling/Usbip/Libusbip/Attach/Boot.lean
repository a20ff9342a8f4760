import Usbip.Libusbip.Attach.Theorems

namespace Usbip.Libusbip.Attach

open Usbip.Library.Words
open Usbip.Libusbip.Persistent
open Usbip.Libusbip.StopAttach (Fits)
open Usbip.Persistent (Constants DeviceAttributes DeviceText Converted ConvertsSerial WellFormed WideFormed Rtl
  UnicodeString cString cString_serialBuffer hashLocation headString isEmpty_attributes parseDeviceStr parseDeviceStr_join
  parseDeviceStr_withoutSerial serialBuffer tailString unicodeString unicodeToUtf8_serial
  validateSerialNumber_serialBuffer)
open Usbip.Persistent.Plugin
open Usbip.VhciIoctl
open Usbip.VhciIoctl.StopAttach (Services)

-- Either text may be empty.
def ConvertsTo (utf : Utf) (s : List Byte) (ws : List WChar) : Prop :=
  if s = [] then ws = [] else utf.utf8ToWchar s = some ws

-- The conversion keeps the commas, and what is between them is converted on its own.
structure Splits (utf : Utf) : Prop where
  comma : ∀ s t ws, utf.utf8ToWchar (s ++ COMMA :: t) = some ws →
    ∃ a b, ws = a ++ 44 :: b ∧ ConvertsTo utf s a ∧ ConvertsTo utf t b
  mem : ∀ s ws, utf.utf8ToWchar s = some ws → (44 ∈ ws ↔ COMMA ∈ s)

-- The framework gives the strings of a value.
def QueriesStrings (queryMultiString : RegistryValue → Option (List (List WChar))) : Prop :=
  ∀ strings n, (∀ ws ∈ strings, ws ≠ [] ∧ 0 ∉ ws) →
    queryMultiString (.value REG_MULTI_SZ (wcharBytes (strings.flatMap (· ++ [0]) ++ List.replicate (n + 1) 0))) =
      some strings

-- The request that the driver makes for a saved device: there is none without a serial number, and none for a location
-- that has no room in the structure.
def requestFor (utf : Utf) (rtl : Rtl) (vhci : Constants) (d : PersistentDevice) : Option AttachRequest :=
  if d.serial ≠ [] ∧ HasRoom d.location then
    some {
      locationHash := rtl.hashUnicodeString (hashed utf d.location)
      ctx := { delay := vhci.reattachFirstDelay }
      inbuf := requestBytes d.location d.serial }
  else none

variable {utf : Utf} {sys : Services} {d : PersistentDevice} {ws : List WChar}

section Strings

theorem convertsTo_of_ne {s : List Byte} (h : ConvertsTo utf s ws) (hne : s ≠ []) : utf.utf8ToWchar s = some ws :=
  (if_neg hne).mp h

-- The fields of a saved device.
def fieldsOf (d : PersistentDevice) : DeviceText Byte where
  hostname := d.location.hostname
  service := d.location.service
  busid := d.location.busid
  serial := some d.serial

theorem isMalformed_eq_false (h : d.isMalformed = false) :
    (d.location.hostname ≠ [] ∧ d.location.service ≠ [] ∧ d.location.busid ≠ []) ∧
      validateDeviceSerial d.serial = true := by
  simpa [PersistentDevice.isMalformed, DeviceLocation.isMalformed, and_assoc] using h

theorem wellFormed_fieldsOf (h : d.isMalformed = false) (hplain : d.location.IsPlain) : WellFormed (fieldsOf d) := by
  obtain ⟨hne, hserial⟩ := isMalformed_eq_false h
  refine ⟨hne, ⟨(hplain d.location.hostname (by simp)).1, (hplain d.location.service (by simp)).1,
    (hplain d.location.busid (by simp)).1⟩, ?_⟩
  intro s hs
  obtain rfl : d.serial = s := Option.some.inj hs
  exact hserial

-- The string of a saved device has its fields between commas.
theorem encodes_join (hsplits : Splits utf) (h : Encodes utf d ws) :
    ∃ wide : DeviceText WChar, Converted utf (fieldsOf d) wide ∧ ws = wide.join 44 := by
  obtain ⟨⟨hhostname, hservice, hbusid⟩, -⟩ := isMalformed_eq_false h.wellFormed
  obtain ⟨hostname, rest, rfl, hfirst, hrest⟩ := hsplits.comma _ _ _ h.converted
  obtain ⟨service, rest, rfl, hsecond, hrest⟩ := hsplits.comma _ _ _ (convertsTo_of_ne hrest (by simp))
  obtain ⟨busid, serial, rfl, hthird, hserial⟩ := hsplits.comma _ _ _ (convertsTo_of_ne hrest (by simp))
  exact ⟨⟨hostname, service, busid, some serial⟩, ⟨convertsTo_of_ne hfirst hhostname,
    convertsTo_of_ne hsecond hservice, convertsTo_of_ne hthird hbusid, hserial⟩, rfl⟩

theorem encodes_clean (hutf : utf.Converts) (h : Encodes utf d ws) (hplain : d.location.IsPlain) :
    ws ≠ [] ∧ 0 ∉ ws := by
  refine ⟨fun hnil => hutf.nonempty _ (hnil ▸ h.converted), mt (hutf.terminator _ _ h.converted).mp ?_⟩
  exact not_mem_text h.wellFormed hplain

theorem convertible_of_plain {text : List Byte} (hconv : utf.utf8ToWchar text = some ws) (h : 0 ∉ text) :
    Convertible utf text ∧ wide utf text = ws := by
  have hwide : wide utf text = ws := by rw [wide, hconv, Option.getD_some]
  exact ⟨⟨by rw [hwide, hconv], h⟩, hwide⟩

-- The fields of the string are those of the location.
theorem spellable_of_converted {wideText : DeviceText WChar} (hconverted : Converted utf (fieldsOf d) wideText)
    (hplain : d.location.IsPlain) :
    Spellable utf d.location ∧ wide utf d.location.hostname = wideText.hostname ∧
      wide utf d.location.service = wideText.service ∧ wide utf d.location.busid = wideText.busid := by
  obtain ⟨hhostname, hhostname'⟩ := convertible_of_plain hconverted.hostname (hplain d.location.hostname (by simp)).2
  obtain ⟨hservice, hservice'⟩ := convertible_of_plain hconverted.service (hplain d.location.service (by simp)).2
  obtain ⟨hbusid, hbusid'⟩ := convertible_of_plain hconverted.busid (hplain d.location.busid (by simp)).2
  exact ⟨⟨hhostname, hservice, hbusid⟩, hhostname', hservice', hbusid'⟩

theorem spells_headString (first rest : List WChar) : Spells (headString first rest) first :=
  spells_append first rest

end Strings

section Parse

variable (hsame : SameText utf sys) (hsplits : Splits utf) (h : Encodes utf d ws) (hplain : d.location.IsPlain)
  (hsize : 2 * ws.length < 2 ^ 16)

include hsame hsplits h hplain hsize

-- The source of the serial number is NULL, which is an error of the conversion.
theorem parseDeviceStr_saved_withoutSerial (hserial : d.serial = []) :
    (parseDeviceStr sys.rtl sys.allocated (unicodeString ws)).1 ≠ .STATUS_SUCCESS := by
  obtain ⟨wideText, hconverted, rfl⟩ := encodes_join hsplits h
  have hwide := Usbip.Persistent.wideFormed hsame.converts hsplits.mem (wellFormed_fieldsOf h.wellFormed hplain)
    hconverted
  refine parseDeviceStr_withoutSerial ?_ hwide hsize ?_ sys.allocated
  · intro room hsuccess
    have hnull := hsame.null room
    rw [hsuccess] at hnull
    cases hnull
  · exact Usbip.Persistent.convertsSerial_empty hconverted.serial hserial

theorem parseDeviceStr_saved (hallocated : sys.allocated = true) (hserial : d.serial ≠ []) :
    ∃ attr, parseDeviceStr sys.rtl sys.allocated (unicodeString ws) = (.STATUS_SUCCESS, attr) ∧
      Spellable utf d.location ∧ Names utf attr d.location ∧ cString attr.serial = d.serial ∧
      attr.locationHash = sys.rtl.hashUnicodeString (hashed utf d.location) := by
  obtain ⟨wideText, hconverted, rfl⟩ := encodes_join hsplits h
  have hwide := Usbip.Persistent.wideFormed hsame.converts hsplits.mem (wellFormed_fieldsOf h.wellFormed hplain)
    hconverted
  obtain ⟨hspellable, hhostname, hservice, hbusid⟩ := spellable_of_converted hconverted hplain
  obtain ⟨-, hvalid⟩ := isMalformed_eq_false h.wellFormed
  obtain ⟨s, wserial, hs, hwserial, hconv⟩ := Usbip.Persistent.convertsSerial_some hconverted.serial hserial
  obtain rfl : d.serial = s := Option.some.inj hs
  have hne : wserial ≠ [] := fun hnil => hsame.converts.nonempty _ (hnil ▸ hconv)
  have hnames : Names utf { wideText.attributes with serial := serialBuffer d.serial } d.location := by
    refine ⟨?_, ?_, ?_⟩
    · exact hhostname ▸ spells_headString _ _
    · exact hservice ▸ spells_headString _ _
    · exact hbusid ▸ spells_headString _ _
  have hstarts : wideText.StartsPlain := by
    have hclean := hsame.converts.terminator
    refine ⟨fun hhead => ?_, fun hhead => ?_, fun hhead => ?_⟩
    · exact hspellable.hostname.noNul ((hclean _ _ hconverted.hostname).mp (List.mem_of_mem_head? hhead))
    · exact hspellable.service.noNul ((hclean _ _ hconverted.service).mp (List.mem_of_mem_head? hhead))
    · exact hspellable.busid.noNul ((hclean _ _ hconverted.busid).mp (List.mem_of_mem_head? hhead))
  -- The string has the serial number besides the text that is hashed.
  have hhash : 2 * (hashed utf d.location).length + 2 < 2 ^ 16 := by
    have hpos := List.length_pos_iff.mpr hne
    simp only [DeviceText.join, hwserial, Option.elim_some, List.length_append, List.length_cons] at hsize
    simp only [hashed, hhostname, hservice, hbusid, List.length_append, List.length_cons]
    omega
  have htail : tailString (wideText.serial.getD []) = unicodeString wserial := by
    rw [hwserial, Option.getD_some, tailString, if_neg hne]
  refine ⟨{ wideText.attributes with
      serial := serialBuffer d.serial
      locationHash := sys.rtl.hashUnicodeString (hashed utf d.location) }, ?_, hspellable,
    ⟨hnames.nodeName, hnames.serviceName, hnames.busid⟩, cString_serialBuffer hvalid, rfl⟩
  rw [parseDeviceStr_join hwide hsize, htail, unicodeToUtf8_serial hsame.toUTF8 hconv hvalid, hallocated]
  simp only [ne_eq, not_true_eq_false, if_false, validateSerialNumber_serialBuffer hvalid,
    if_neg (mt (isEmpty_attributes hwide _).mp (not_not.mpr hstarts)), hnames.hashLocation hhash]

end Parse

section Boot

-- What is asked of a saved device: its text is plain and no longer than a string of the system.
structure Storable (utf : Utf) (d : PersistentDevice) : Prop where
  plain : d.location.IsPlain
  size : ∀ ws, utf.utf8ToWchar d.text = some ws → 2 * ws.length < 2 ^ 16

-- The controller with more requests.
def added (vhci : VhciCtx) (requests : List AttachRequest) : VhciCtx :=
  { vhci with reattachReq := vhci.reattachReq ++ requests }

theorem added_nil (vhci : VhciCtx) : added vhci [] = vhci := by rw [added, List.append_nil]

theorem added_added (vhci : VhciCtx) (first second : List AttachRequest) :
    added (added vhci first) second = added vhci (first ++ second) := by
  simp only [added, List.append_assoc]

theorem pluginPersistentDevice_eq (hsame : SameText utf sys) (hsplits : Splits utf) (hallocated : sys.allocated = true)
    (h : Encodes utf d ws) (hd : Storable utf d) {vhci : VhciCtx} (hremoving : vhci.removing = false)
    (hroom : vhci.reattachReq.length < 4 * vhci.devicesCnt) :
    pluginPersistentDevice sys vhci ws = added vhci (requestFor utf sys.rtl vhci.constants d).toList := by
  have hsize := hd.size ws h.converted
  by_cases hserial : d.serial = []
  · have herr := parseDeviceStr_saved_withoutSerial hsame hsplits h hd.plain hsize hserial
    simp only [pluginPersistentDevice, ne_eq, herr, not_false_eq_true, if_true, requestFor, hserial, not_true_eq_false,
      false_and, if_false, Option.toList_none, added_nil]
  · obtain ⟨attr, hparse, hspellable, hnames, hattr, hhash⟩ :=
      parseDeviceStr_saved hsame hsplits h hd.plain hsize hallocated hserial
    have hlength := length_serial (isMalformed_eq_false h.wellFormed).2
    have hmade := initAttachCtx_eq hsame hspellable hnames (by rwa [hattr]) vhci.constants
    simp only [pluginPersistentDevice, hparse, ne_eq, not_true_eq_false, if_false, startAttachAttempts, hremoving,
      Bool.false_eq_true, if_neg (Nat.not_le_of_lt hroom), hmade, requestFor, hserial, not_false_eq_true, true_and,
      hattr, hhash]
    by_cases hlocation : HasRoom d.location
    · simp only [if_pos hlocation, Option.toList_some, added, hremoving]
    · simp only [if_neg hlocation, Option.toList_none, added_nil]

-- The limit of the collection is four times the number of the ports, and no more strings than ports are read.
theorem foldl_pluginPersistentDevice (hsame : SameText utf sys) (hsplits : Splits utf)
    (hallocated : sys.allocated = true) {devices : List PersistentDevice} {strings : List (List WChar)}
    (h : List.Forall₂ (Encodes utf) devices strings) (hstorable : ∀ d ∈ devices, Storable utf d) {vhci : VhciCtx}
    (hremoving : vhci.removing = false) (hroom : vhci.reattachReq.length + devices.length ≤ 4 * vhci.devicesCnt) :
    strings.foldl (pluginPersistentDevice sys) vhci =
      added vhci (devices.filterMap (requestFor utf sys.rtl vhci.constants)) := by
  induction h generalizing vhci with
  | nil => rw [List.foldl_nil, List.filterMap_nil, added_nil]
  | @cons d ws devices strings hd _ ih =>
      obtain ⟨hfirst, hrest⟩ := List.forall_mem_cons.mp hstorable
      rw [List.length_cons] at hroom
      have hcount : (requestFor utf sys.rtl vhci.constants d).toList.length ≤ 1 := by
        cases requestFor utf sys.rtl vhci.constants d <;> simp
      have hstep := pluginPersistentDevice_eq hsame hsplits hallocated hd hfirst hremoving (by omega)
      have hroom' : (added vhci (requestFor utf sys.rtl vhci.constants d).toList).reattachReq.length + devices.length ≤
          4 * vhci.devicesCnt := by
        simp only [added, List.length_append]
        omega
      have hrun := ih hrest (show (added vhci _).removing = false from hremoving) hroom'
      rw [List.foldl_cons, hstep, hrun, added_added]
      congr 1
      cases hrequest : requestFor utf sys.rtl vhci.constants d with
      | none => rw [List.filterMap_cons_none hrequest, Option.toList_none, List.nil_append]; rfl
      | some req => rw [List.filterMap_cons_some hrequest, Option.toList_some, List.singleton_append]; rfl

theorem texts_of_plain {location : DeviceLocation} (h : location.IsPlain) : texts location = location := by
  rw [texts, cString_of_not_mem (h location.hostname (by simp)).2, cString_of_not_mem (h location.service (by simp)).2,
    cString_of_not_mem (h location.busid (by simp)).2]

theorem strings_clean (hutf : utf.Converts) {devices : List PersistentDevice} {strings : List (List WChar)}
    (h : List.Forall₂ (Encodes utf) devices strings) (hplain : ∀ d ∈ devices, d.location.IsPlain) :
    ∀ ws ∈ strings, ws ≠ [] ∧ 0 ∉ ws := by
  induction h with
  | nil => exact fun _ hws => absurd hws List.not_mem_nil
  | cons hd _ ih =>
      obtain ⟨hfirst, hrest⟩ := List.forall_mem_cons.mp hplain
      exact List.forall_mem_cons.mpr ⟨encodes_clean hutf hd hfirst, ih hrest⟩

-- The list is stored as a whole.
theorem stored_strings (hutf : utf.Converts) {env : Env} {pool : Nat → Byte} {devices : List PersistentDevice}
    (haccepted : (setPersistent utf env pool devices).1 = none) (hplain : ∀ d ∈ devices, d.location.IsPlain)
    (hsize : multiSzSize utf devices < 2 ^ 32) : ∃ strings n, List.Forall₂ (Encodes utf) devices strings ∧
      (∀ ws ∈ strings, ws ≠ [] ∧ 0 ∉ ws) ∧ (setPersistent utf env pool devices).2 =
        some (wcharBytes (strings.flatMap (· ++ [0]) ++ List.replicate (n + 1) 0)) := by
  obtain ⟨multiSz, hmake, hstored⟩ := setPersistent_accepted haccepted
  have hfits : 2 * multiSz.length < 2 ^ 32 := by
    by_cases hempty : devices = []
    · subst hempty
      obtain rfl := Except.ok.inj hmake
      decide
    · rwa [length_multiSz hmake hempty]
  have htake : multiSz.take (2 * multiSz.length % 2 ^ 32 / 2) = multiSz := List.take_of_length_le (by omega)
  rw [htake] at hstored
  obtain ⟨strings, hstrings, rfl⟩ := makeMultiSz_spec hmake
  obtain ⟨n, hn⟩ : ∃ n, (if devices.isEmpty then 2 else 1) = n + 1 := by
    split
    · exact ⟨1, rfl⟩
    · exact ⟨0, rfl⟩
  rw [hn] at hstored
  exact ⟨strings, n, hstrings, strings_clean hutf hstrings hplain, hstored⟩

-- At its start the driver makes a request for each saved device with a serial number that has room, in their order,
-- and no other; the devices that are more than the ports are not read. What is sent for a location of the library is
-- what the library itself would send, and it is stopped as an attempt of the user is.
theorem plugin_saved (hsame : SameText utf sys) (hsplits : Splits utf) (hallocated : sys.allocated = true)
    {queryMultiString : RegistryValue → Option (List (List WChar))} (hquery : QueriesStrings queryMultiString)
    {env : Env} {pool : Nat → Byte} {devices : List PersistentDevice}
    (haccepted : (setPersistent utf env pool devices).1 = none) (hstorable : ∀ d ∈ devices, Storable utf d)
    (hsize : multiSzSize utf devices < 2 ^ 32) {vhci : VhciCtx} (hremoving : vhci.removing = false)
    (hroom : vhci.reattachReq.length ≤ 3 * vhci.devicesCnt) :
    (∃ stored, (setPersistent utf env pool devices).2 = some stored ∧
      pluginPersistentDevices sys queryMultiString (.value REG_MULTI_SZ stored) vhci =
        added vhci ((devices.take vhci.devicesCnt).filterMap (requestFor utf sys.rtl vhci.constants))) ∧
    ∀ d ∈ devices, d.serial ≠ [] → Fits d.location → ∃ req,
      requestFor utf sys.rtl vhci.constants d = some req ∧
        assign (fun _ => 0) { location := d.location, serial := d.serial } = .ok req.inbuf ∧
        StopAttach.locationHash sys d.location = (.STATUS_SUCCESS, req.locationHash) := by
  obtain ⟨strings, n, hstrings, hclean, hstored⟩ :=
    stored_strings hsame.converts haccepted (fun d hd => (hstorable d hd).plain) hsize
  constructor
  · refine ⟨_, hstored, ?_⟩
    have htaken := List.forall₂_take vhci.devicesCnt hstrings
    have hlength : (devices.take vhci.devicesCnt).length ≤ vhci.devicesCnt := List.length_take_le _ _
    rw [pluginPersistentDevices, Usbip.Persistent.Plugin.getPersistentDevices, hquery strings n hclean,
      Option.getD_some]
    exact foldl_pluginPersistentDevice hsame hsplits hallocated htaken
      (fun d hd => hstorable d (List.mem_of_mem_take hd)) hremoving (by omega)
  · intro d hd hserial hfits
    have hplain := (hstorable d hd).plain
    obtain ⟨i, hi, rfl⟩ := List.getElem_of_mem hd
    have hencodes : Encodes utf devices[i] _ := hstrings.get hi (by rwa [← hstrings.length_eq])
    obtain ⟨wideText, hconverted, -⟩ := encodes_join hsplits hencodes
    obtain ⟨hspellable, -⟩ := spellable_of_converted hconverted hplain
    have htexts := texts_of_plain hplain
    obtain ⟨-, hroom'⟩ := hasRoom_of_fits hfits
    refine ⟨_, if_pos ⟨hserial, htexts ▸ hroom'⟩, ?_, ?_⟩
    · exact assign_eq_ok.mpr ⟨(isMalformed_eq_false hencodes.wellFormed).2, hfits, by rw [htexts]⟩
    · rw [locationHash_eq hsame hallocated hfits (htexts.symm ▸ hspellable), htexts]

end Boot

section Ascii

open Usbip.Libusbip.StopAttach (asciiServices pcLocation)

theorem convertsTo_ascii {s : List Byte} (h : ∀ c ∈ s, c.toNat < 128) :
    ConvertsTo asciiUtf s (s.map fun c => UInt16.ofNat c.toNat) := by
  unfold ConvertsTo
  split
  · next hnil => rw [hnil, List.map_nil]
  · next hne => exact asciiUtf_toWchar.mpr ⟨⟨hne, h⟩, rfl⟩

theorem splits_ascii : Splits asciiUtf where
  comma s t ws h := by
    obtain ⟨⟨-, hascii⟩, rfl⟩ := asciiUtf_toWchar.mp h
    refine ⟨_, _, List.map_append, convertsTo_ascii ?_, convertsTo_ascii ?_⟩
    · exact fun c hc => hascii c (List.mem_append_left _ hc)
    · exact fun c hc => hascii c (List.mem_append_right _ (List.mem_cons_of_mem _ hc))
  mem := Usbip.Persistent.asciiUtf_comma

def queryStrings : RegistryValue → Option (List (List WChar))
  | .value _ bytes => some (splitMultiSz (wchars bytes))
  | .missing _ => none

theorem queriesStrings_queryStrings : QueriesStrings queryStrings := by
  intro strings n h
  rw [queryStrings, wchars_wcharBytes]
  congr 1
  induction strings with
  | nil => exact splitMultiSz_zero _
  | cons ws strings ih =>
      obtain ⟨⟨hne, hclean⟩, hrest⟩ := List.forall_mem_cons.mp h
      simp only [List.flatMap_cons, List.append_assoc, List.cons_append, List.nil_append]
      rw [splitMultiSz_append hne hclean, ih hrest]

-- The device 1-1 of the host pc with the serial number "A1", and without one.
def pcSaved : List PersistentDevice :=
  [{ location := pcLocation, serial := [65, 49] }, { location := pcLocation }]

theorem storable_pc : ∀ d ∈ pcSaved, Storable asciiUtf d := by
  have hsize : ∀ d ∈ pcSaved, 2 * d.text.length < 2 ^ 16 := by decide
  intro d hd
  refine ⟨?_, ?_⟩
  · revert d
    decide
  · intro ws hws
    obtain ⟨-, rfl⟩ := asciiUtf_toWchar.mp hws
    rw [List.length_map]
    exact hsize d hd

def twoPorts : VhciCtx where
  constants := { reattachMaxAttempts := 20, reattachFirstDelay := 15, reattachMaxDelay := 600 }
  devicesCnt := 2

theorem plugin_saved_pc :
    ∃ stored, (setPersistent asciiUtf {} (fun _ => 0) pcSaved).2 = some stored ∧
      (pluginPersistentDevices asciiServices queryStrings (.value REG_MULTI_SZ stored) twoPorts).reattachReq.map
        (·.inbuf) = [requestBytes pcLocation [65, 49]] := by
  have haccepted : (setPersistent asciiUtf {} (fun _ => 0) pcSaved).1 = none := by decide
  have hremoving : twoPorts.removing = false := rfl
  obtain ⟨⟨stored, hstored, hrequests⟩, -⟩ := plugin_saved sameText_ascii splits_ascii rfl queriesStrings_queryStrings
    haccepted storable_pc (by decide) hremoving (by decide)
  exact ⟨stored, hstored, by rw [hrequests]; rfl⟩

end Ascii

end Usbip.Libusbip.Attach

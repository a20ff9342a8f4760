import Usbip.Libusbip.Persistent.Theorems
import Usbip.Persistent.DeviceStr

namespace Usbip.Persistent

open Usbip.Libusbip
open Usbip.Libusbip.Persistent
open Usbip.VhciIoctl

section Split

variable {first rest : List WChar} {sep : WChar}

-- A string at the start of a longer text.
def headString (first rest : List WChar) : UnicodeString where
  length := 2 * first.length
  maximumLength := 2 * first.length
  buffer := some (first ++ rest)

-- The rest of a text, NULL if there is nothing left.
def tailString (rest : List WChar) : UnicodeString := if rest = [] then {} else unicodeString rest

@[simp] theorem chars_headString : (headString first rest).chars = first := by
  simp [UnicodeString.chars, headString]

@[simp] theorem chars_unicodeString : (unicodeString first).chars = first := by
  simp [UnicodeString.chars, unicodeString]

theorem unicodeString_eq (first : List WChar) : unicodeString first = headString first [] := by
  simp [unicodeString, headString]

theorem strchrFrom_of_not_mem (h : sep ∉ first) (i : Nat) : strchrFrom sep first i = -1 := by
  induction first generalizing i with
  | nil => rfl
  | cons c l ih =>
      have hc : c ≠ sep := by
        rintro rfl
        exact h (by simp)
      rw [strchrFrom, if_neg hc, ih fun hl => h (List.mem_cons_of_mem c hl)]

theorem strchrFrom_append (h : sep ∉ first) (i : Nat) :
    strchrFrom sep (first ++ sep :: rest) i = (i + first.length : Nat) := by
  induction first generalizing i with
  | nil => exact if_pos rfl
  | cons c l ih =>
      have hc : c ≠ sep := by
        rintro rfl
        exact h (by simp)
      rw [List.cons_append, strchrFrom, if_neg hc, ih fun hl => h (List.mem_cons_of_mem c hl), List.length_cons]
      congr 1
      omega

theorem split_last (h : sep ∉ first) : split (unicodeString first) sep = (unicodeString first, {}) := by
  rw [split, strchr, chars_unicodeString, strchrFrom_of_not_mem h]
  rfl

theorem split_append (h : sep ∉ first) (hne : first ≠ []) (hsize : 2 * (first ++ sep :: rest).length < 2 ^ 16) :
    split (unicodeString (first ++ sep :: rest)) sep = (headString first (sep :: rest), tailString rest) := by
  have hpos := List.length_pos_iff.mpr hne
  rw [List.length_append, List.length_cons] at hsize
  have hhead : ushort (ushort first.length * 2) = 2 * first.length := by
    simp only [ushort]
    omega
  have htail : ushort (2 * (first.length + (rest.length + 1)) - (2 * first.length + 2)) = 2 * rest.length := by
    simp only [ushort]
    omega
  have hne' : 2 * first.length ≠ 0 := by omega
  have hdrop : (first ++ sep :: rest).drop (first.length + 1) = rest := by
    rw [← List.drop_drop, List.drop_left]
    rfl
  rw [split, strchr, chars_unicodeString, strchrFrom_append h]
  simp only [Int.toNat_natCast, Nat.zero_add, hhead, unicodeString, List.length_append,
    List.length_cons, htail, ne_eq, hne', not_false_eq_true, if_true, Option.map_some, hdrop, headString, tailString]
  by_cases hrest : rest = []
  · subst hrest
    rfl
  · have hrest' : ¬2 * rest.length = 0 := by
      have hrestpos := List.length_pos_iff.mpr hrest
      omega
    simp [hrest, hrest']

theorem isEmpty_headString (hne : first ≠ []) : isEmpty (headString first rest) = (first.head? == some 0) := by
  obtain ⟨c, l, rfl⟩ := List.exists_cons_of_ne_nil hne
  simp [isEmpty, headString]

end Split

section Serial

-- The terminator ends the loop as the end of the string does.
theorem isAsciiAlnum_append_zero {serial : List Byte} (h : 0 ∉ serial) (rest : List Byte) (i : Int) :
    isAsciiAlnum (serial ++ 0 :: rest) i = isAsciiAlnum serial i := by
  induction serial generalizing i with
  | nil => exact if_pos rfl
  | cons c l ih =>
      have hc : c ≠ 0 := by
        rintro rfl
        exact h (by simp)
      rw [List.cons_append, isAsciiAlnum, isAsciiAlnum, if_neg hc, if_neg hc,
        ih fun hl => h (List.mem_cons_of_mem c hl)]

-- A serial in the buffer of the attributes.
def serialBuffer (serial : List Byte) : List Byte :=
  serial ++ 0 :: List.replicate (SERIAL_BUFSZ - 1 - serial.length) 0

variable {serial : List Byte}

theorem serial_bounds (h : validateDeviceSerial serial = true) :
    serial.length ≤ SERIAL_BUFSZ - 1 ∧ isAsciiAlnum serial 0 = serial.length := by
  simp only [validateDeviceSerial, Bool.and_eq_true, decide_eq_true_eq] at h
  exact ⟨h.1, h.2.2⟩

theorem validateSerialNumber_serialBuffer (h : validateDeviceSerial serial = true) :
    validateSerialNumber (serialBuffer serial) = .STATUS_SUCCESS := by
  obtain ⟨hle, heq⟩ := serial_bounds h
  have hclean := not_mem_of_validateDeviceSerial h
  rw [validateSerialNumber, serialBuffer, isAsciiAlnum_append_zero hclean, heq]
  have hlt : serial.length < SERIAL_BUFSZ := Nat.lt_of_le_of_lt hle (by decide)
  exact if_pos ⟨Int.natCast_nonneg _, Int.ofNat_lt.mpr hlt⟩

theorem cString_serialBuffer (h : validateDeviceSerial serial = true) : cString (serialBuffer serial) = serial :=
  Library.Separated.takeWhile_append_cons (not_mem_of_validateDeviceSerial h)

theorem overwrite_serial (hle : serial.length ≤ SERIAL_BUFSZ - 1) :
    (overwrite (List.replicate SERIAL_BUFSZ 0) 0 serial).set serial.length 0 = serialBuffer serial := by
  have hroom : 0 + serial.length ≤ (List.replicate SERIAL_BUFSZ (0 : Byte)).length := by
    rw [List.length_replicate, Nat.zero_add]
    exact hle.trans (by decide)
  have hrest : SERIAL_BUFSZ - (0 + serial.length) = SERIAL_BUFSZ - 1 - serial.length + 1 := by
    have hpos : SERIAL_BUFSZ - 1 + 1 = SERIAL_BUFSZ := by decide
    omega
  rw [overwrite_of_le hroom, List.take_zero, List.nil_append, List.drop_replicate, hrest, List.replicate_succ,
    List.set_append_right _ _ (le_refl _), Nat.sub_self]
  rfl

end Serial

section Parse

variable {utf : Utf} {rtl : Rtl} {text : DeviceText Byte} {wide : DeviceText WChar}

-- What the library makes of a well formed text.
def DeviceText.device (text : DeviceText Byte) : PersistentDevice where
  location := { hostname := text.hostname, service := text.service, busid := text.busid }
  serial := text.serial.getD []

theorem parse_join (h : WellFormed text) : parsePersistentDevice (text.join COMMA) = text.device := by
  obtain ⟨hhostname, hservice, hbusid⟩ := h.comma
  cases hserial : text.serial with
  | none =>
      simp only [DeviceText.join, hserial, Option.elim_none, List.append_nil, parse_three hhostname hservice hbusid,
        DeviceText.device, Option.getD_none]
  | some s =>
      simp only [DeviceText.join, hserial, Option.elim_some, parse_four hhostname hservice hbusid,
        DeviceText.device, Option.getD_some]

theorem device_wellFormed (h : WellFormed text) : text.device.isMalformed = false := by
  obtain ⟨hhostname, hservice, hbusid⟩ := h.nonempty
  have hserial : validateDeviceSerial (text.serial.getD []) = true := by
    cases hs : text.serial with
    | none => rfl
    | some s => exact h.serial s hs
  simp [PersistentDevice.isMalformed, DeviceLocation.isMalformed, DeviceText.device, hhostname, hservice, hbusid,
    hserial]

-- What the wide text has from the conversion of a well formed one.
structure WideFormed (wide : DeviceText WChar) : Prop where
  nonempty : wide.hostname ≠ [] ∧ wide.service ≠ [] ∧ wide.busid ≠ []
  comma : 44 ∉ wide.hostname ∧ 44 ∉ wide.service ∧ 44 ∉ wide.busid

theorem wideFormed (hutf : utf.Converts) (hcomma : ∀ s ws, utf.utf8ToWchar s = some ws → (44 ∈ ws ↔ COMMA ∈ s))
    (h : WellFormed text) (hc : Converted utf text wide) : WideFormed wide := by
  refine ⟨⟨?_, ?_, ?_⟩, mt (hcomma _ _ hc.hostname).mp h.comma.1, mt (hcomma _ _ hc.service).mp h.comma.2.1,
    mt (hcomma _ _ hc.busid).mp h.comma.2.2⟩
  · exact fun hnil => hutf.nonempty _ (hnil ▸ hc.hostname)
  · exact fun hnil => hutf.nonempty _ (hnil ▸ hc.service)
  · exact fun hnil => hutf.nonempty _ (hnil ▸ hc.busid)

-- The fields that the driver splits a text into, without the serial.
def DeviceText.rest (wide : DeviceText WChar) : List WChar := wide.serial.elim [] (44 :: ·)

def DeviceText.attributes (wide : DeviceText WChar) : DeviceAttributes where
  nodeName := headString wide.hostname (44 :: (wide.service ++ 44 :: (wide.busid ++ wide.rest)))
  serviceName := headString wide.service (44 :: (wide.busid ++ wide.rest))
  busid := headString wide.busid wide.rest

theorem split_join (h : WideFormed wide) (hsize : 2 * (wide.join 44).length < 2 ^ 16) :
    split (unicodeString (wide.join 44)) 44 =
        (wide.attributes.nodeName, unicodeString (wide.service ++ 44 :: (wide.busid ++ wide.rest))) ∧
      split (unicodeString (wide.service ++ 44 :: (wide.busid ++ wide.rest))) 44 =
        (wide.attributes.serviceName, unicodeString (wide.busid ++ wide.rest)) ∧
      split (unicodeString (wide.busid ++ wide.rest)) 44 =
        (wide.attributes.busid, tailString (wide.serial.getD [])) := by
  obtain ⟨hhostname, hservice, hbusid⟩ := h.nonempty
  obtain ⟨hhostname', hservice', hbusid'⟩ := h.comma
  have hjoin : wide.join 44 = wide.hostname ++ 44 :: (wide.service ++ 44 :: (wide.busid ++ wide.rest)) := rfl
  rw [hjoin] at hsize ⊢
  simp only [List.length_append, List.length_cons] at hsize
  refine ⟨?_, ?_, ?_⟩
  · rw [split_append hhostname' hhostname (by simp only [List.length_append, List.length_cons]; omega), tailString,
      if_neg (by simp)]
    rfl
  · rw [split_append hservice' hservice (by simp only [List.length_append, List.length_cons]; omega), tailString,
      if_neg (by simp [hbusid])]
    rfl
  · cases hserial : wide.serial with
    | none =>
        simp only [DeviceText.attributes, DeviceText.rest, hserial, Option.elim_none, List.append_nil,
          ← unicodeString_eq, Option.getD_none]
        exact split_last hbusid'
    | some s =>
        simp only [DeviceText.rest, hserial, Option.elim_some, List.length_cons] at hsize
        simp only [DeviceText.attributes, DeviceText.rest, hserial, Option.elim_some, Option.getD_some]
        exact split_append hbusid' hbusid (by simp only [List.length_append, List.length_cons]; omega)

theorem parseDeviceStr_join (h : WideFormed wide) (hsize : 2 * (wide.join 44).length < 2 ^ 16) (allocated : Bool) :
    parseDeviceStr rtl allocated (unicodeString (wide.join 44)) =
      let (err, serial) := unicodeToUtf8 rtl (List.replicate SERIAL_BUFSZ 0) (tailString (wide.serial.getD []))
      let r := { wide.attributes with serial := serial }
      if err ≠ .STATUS_SUCCESS then (err, r)
      else if validateSerialNumber serial ≠ .STATUS_SUCCESS then (validateSerialNumber serial, r)
      else if isEmpty r.nodeName || isEmpty r.serviceName || isEmpty r.busid then (.STATUS_INVALID_PARAMETER, r)
      else
        let (st, hash) := hashLocation rtl allocated r
        (st, { r with locationHash := hash }) := by
  obtain ⟨hfirst, hsecond, hthird⟩ := split_join h hsize
  simp only [parseDeviceStr, hfirst, hsecond, hthird]
  rfl

-- The source of an empty serial is NULL.
theorem parseDeviceStr_withoutSerial (hnull : ∀ room, (rtl.unicodeToUTF8N none room).1 ≠ .STATUS_SUCCESS)
    (h : WideFormed wide) (hsize : 2 * (wide.join 44).length < 2 ^ 16) (hserial : wide.serial.getD [] = [])
    (allocated : Bool) : (parseDeviceStr rtl allocated (unicodeString (wide.join 44))).1 ≠ .STATUS_SUCCESS := by
  have herr := hnull SERIAL_BUFSZ
  rw [parseDeviceStr_join h hsize, hserial]
  simp only [tailString, if_true, unicodeToUtf8, Option.map_none, List.length_replicate, ne_eq, herr,
    not_false_eq_true]

theorem unicodeToUtf8_serial {s : List Byte} {ws : List WChar}
    (hfits : ∀ (s : List Byte) (ws : List WChar) (room : Nat), utf.utf8ToWchar s = some ws → s.length ≤ room →
      rtl.unicodeToUTF8N (some ws) room = (.STATUS_SUCCESS, s))
    (hconv : utf.utf8ToWchar s = some ws) (hs : validateDeviceSerial s = true) :
    unicodeToUtf8 rtl (List.replicate SERIAL_BUFSZ 0) (unicodeString ws) = (.STATUS_SUCCESS, serialBuffer s) := by
  obtain ⟨hle, -⟩ := serial_bounds hs
  have hroom : s.length ≤ SERIAL_BUFSZ := hle.trans (by decide)
  have hsource : (unicodeString ws).buffer.map (·.take ((unicodeString ws).length / 2)) = some ws := by
    simp [unicodeString]
  have hlt : s.length < (overwrite (List.replicate SERIAL_BUFSZ (0 : Byte)) 0 s).length := by
    rw [length_overwrite, List.length_replicate]
    exact Nat.lt_of_le_of_lt hle (by decide)
  simp only [unicodeToUtf8, hsource, List.length_replicate, hfits s ws SERIAL_BUFSZ hconv hroom, if_pos hlt,
    overwrite_serial hle]

-- No field begins with the terminator.
def DeviceText.StartsPlain (wide : DeviceText WChar) : Prop :=
  wide.hostname.head? ≠ some 0 ∧ wide.service.head? ≠ some 0 ∧ wide.busid.head? ≠ some 0

theorem isEmpty_attributes (h : WideFormed wide) (serial : List Byte) :
    (isEmpty { wide.attributes with serial := serial }.nodeName ||
      isEmpty { wide.attributes with serial := serial }.serviceName ||
      isEmpty { wide.attributes with serial := serial }.busid) = true ↔ ¬wide.StartsPlain := by
  obtain ⟨hhostname, hservice, hbusid⟩ := h.nonempty
  simp only [DeviceText.attributes, isEmpty_headString hhostname, isEmpty_headString hservice,
    isEmpty_headString hbusid, DeviceText.StartsPlain, Bool.or_eq_true, beq_iff_eq]
  tauto

theorem hashLocation_success {r : DeviceAttributes}
    (h : 2 * (r.nodeName.chars.length + r.serviceName.chars.length + r.busid.chars.length + 3) ≤
      ushort (r.nodeName.length + r.serviceName.length + r.busid.length + 6)) :
    (hashLocation rtl true r).1 = .STATUS_SUCCESS := by
  simp only [hashLocation, List.length_append, List.length_cons]
  split
  · cases ‹true = false›
  · split
    · omega
    · rfl

-- The size of the text that is hashed is of 16 bits since there is a serial.
theorem hashLocation_attributes (hsize : 2 * (wide.join 44).length < 2 ^ 16) (hrest : 2 ≤ wide.rest.length)
    (serial : List Byte) : (hashLocation rtl true { wide.attributes with serial := serial }).1 = .STATUS_SUCCESS := by
  have hjoin : wide.join 44 = wide.hostname ++ 44 :: (wide.service ++ 44 :: (wide.busid ++ wide.rest)) := rfl
  rw [hjoin] at hsize
  simp only [List.length_append, List.length_cons] at hsize
  apply hashLocation_success
  simp only [DeviceText.attributes, chars_headString]
  simp only [headString, ushort]
  omega

theorem parseDeviceStr_withSerial {s : List Byte} {ws : List WChar}
    (hfits : ∀ (s : List Byte) (ws : List WChar) (room : Nat), utf.utf8ToWchar s = some ws → s.length ≤ room →
      rtl.unicodeToUTF8N (some ws) room = (.STATUS_SUCCESS, s))
    (h : WideFormed wide) (hsize : 2 * (wide.join 44).length < 2 ^ 16) (hserial : wide.serial = some ws)
    (hne : ws ≠ []) (hconv : utf.utf8ToWchar s = some ws) (hs : validateDeviceSerial s = true) :
    ((parseDeviceStr rtl true (unicodeString (wide.join 44))).1 = .STATUS_SUCCESS ↔ wide.StartsPlain) ∧
      ∃ hash, wide.StartsPlain → (parseDeviceStr rtl true (unicodeString (wide.join 44))).2 =
        { wide.attributes with serial := serialBuffer s, locationHash := hash } := by
  have htail : tailString (wide.serial.getD []) = unicodeString ws := by
    rw [hserial, Option.getD_some, tailString, if_neg hne]
  have hpos := List.length_pos_iff.mpr hne
  have hlength : wide.rest.length = ws.length + 1 := by
    rw [DeviceText.rest, hserial, Option.elim_some, List.length_cons]
  have hhash := @hashLocation_attributes rtl wide hsize (by omega) (serialBuffer s)
  have hempty := isEmpty_attributes h (serialBuffer s)
  rw [parseDeviceStr_join h hsize, htail, unicodeToUtf8_serial hfits hconv hs]
  simp only [ne_eq, not_true_eq_false, if_false, validateSerialNumber_serialBuffer hs]
  by_cases hplain : wide.StartsPlain
  · rw [if_neg (mt hempty.mp (not_not.mpr hplain))]
    exact ⟨⟨fun _ => hplain, fun _ => hhash⟩, _, fun _ => rfl⟩
  · rw [if_pos (hempty.mpr hplain)]
    have hrejected : NTSTATUS.STATUS_INVALID_PARAMETER ≠ .STATUS_SUCCESS := by decide
    exact ⟨iff_of_false hrejected hplain, 0, fun hplain' => absurd hplain' hplain⟩

end Parse

theorem convertsSerial_empty {utf : Utf} {serial : Option (List Byte)} {wide : Option (List WChar)}
    (h : ConvertsSerial utf serial wide) (hs : serial.getD [] = []) : wide.getD [] = [] := by
  match serial, wide, h with
  | some s, some ws, h =>
      obtain rfl : s = [] := hs
      simpa [ConvertsSerial] using h
  | none, none, _ => rfl

theorem convertsSerial_some {utf : Utf} {serial : Option (List Byte)} {wide : Option (List WChar)}
    (h : ConvertsSerial utf serial wide) (hs : serial.getD [] ≠ []) :
    ∃ s ws, serial = some s ∧ wide = some ws ∧ utf.utf8ToWchar s = some ws := by
  match serial, wide, h with
  | some s, some ws, h => exact ⟨s, ws, rfl, rfl, (if_neg hs).mp h⟩
  | none, none, _ => exact absurd rfl hs

-- The two parsers agree on a text if and only if there is a serial in it (and, what the registry has not, none of the
-- fields begins with a terminator).
theorem parseDeviceStr_agrees_iff (utf : Utf) (hutf : utf.Converts)
    (hcomma : ∀ s ws, utf.utf8ToWchar s = some ws → (44 ∈ ws ↔ COMMA ∈ s)) (rtl : Rtl)
    (hnull : ∀ room, (rtl.unicodeToUTF8N none room).1 ≠ .STATUS_SUCCESS)
    (hfits : ∀ (s : List Byte) (ws : List WChar) (room : Nat), utf.utf8ToWchar s = some ws → s.length ≤ room →
      rtl.unicodeToUTF8N (some ws) room = (.STATUS_SUCCESS, s))
    (text : DeviceText Byte) (wide : DeviceText WChar) (h : WellFormed text) (hc : Converted utf text wide)
    (hsize : 2 * (wide.join 44).length < 2 ^ 16) :
    (((parseDeviceStr rtl true (unicodeString (wide.join 44))).1 = .STATUS_SUCCESS ↔
        (parsePersistentDevice (text.join COMMA)).isMalformed = false) ∧
      ((parseDeviceStr rtl true (unicodeString (wide.join 44))).1 = .STATUS_SUCCESS →
        SameFields utf (parsePersistentDevice (text.join COMMA))
          (parseDeviceStr rtl true (unicodeString (wide.join 44))).2)) ↔
      (text.serial.getD [] ≠ [] ∧ wide.StartsPlain) := by
  have hw := wideFormed hutf hcomma h hc
  have hserial := hc.serial
  rw [parse_join h, device_wellFormed h]
  simp only [iff_true]
  by_cases hs : text.serial.getD [] = []
  · have hs' : wide.serial.getD [] = [] := convertsSerial_empty hserial hs
    have hrejected := parseDeviceStr_withoutSerial hnull hw hsize hs' true
    simp [hrejected, hs]
  · obtain ⟨s, ws, htext, hwide, hconv⟩ := convertsSerial_some hserial hs
    have hvalid := h.serial s htext
    have hne : ws ≠ [] := fun hnil => hutf.nonempty s (hnil ▸ hconv)
    obtain ⟨haccepts, hash, hattributes⟩ := parseDeviceStr_withSerial hfits hw hsize hwide hne hconv hvalid
    rw [haccepts]
    constructor
    · exact fun hboth => ⟨hs, hboth.1⟩
    · rintro ⟨-, hplain⟩
      refine ⟨hplain, fun _ => ?_⟩
      rw [hattributes hplain]
      have hdevice : text.device.serial = s := by rw [DeviceText.device, htext, Option.getD_some]
      refine ⟨?_, ?_, ?_, (cString_serialBuffer hvalid).trans hdevice.symm⟩
      · simpa [DeviceText.attributes, DeviceText.device] using hc.hostname
      · simpa [DeviceText.attributes, DeviceText.device] using hc.service
      · simpa [DeviceText.attributes, DeviceText.device] using hc.busid

-- The services for ASCII text.
def asciiRtl : Rtl where
  unicodeToUTF8N source room :=
    match source.map asciiUtf.wcharToUtf8 with
    | none => (.STATUS_INVALID_PARAMETER, [])
    | some none => (.failure 0x107, [])
    | some (some s) => if s.length ≤ room then (.STATUS_SUCCESS, s) else (.STATUS_BUFFER_TOO_SMALL, s.take room)
  hashUnicodeString ws := UInt32.ofNat (ws.map UInt16.toNat).sum

theorem asciiRtl_null (room : Nat) : (asciiRtl.unicodeToUTF8N none room).1 ≠ .STATUS_SUCCESS := by
  change NTSTATUS.STATUS_INVALID_PARAMETER ≠ .STATUS_SUCCESS
  decide

theorem asciiRtl_fits (s : List Byte) (ws : List WChar) (room : Nat) (h : asciiUtf.utf8ToWchar s = some ws)
    (hroom : s.length ≤ room) : asciiRtl.unicodeToUTF8N (some ws) room = (.STATUS_SUCCESS, s) := by
  simp only [asciiRtl, Option.map_some, asciiUtf_converts.decode s ws h, if_pos hroom]

theorem asciiUtf_comma (s : List Byte) (ws : List WChar) (h : asciiUtf.utf8ToWchar s = some ws) :
    44 ∈ ws ↔ COMMA ∈ s := by
  obtain ⟨-, rfl⟩ := asciiUtf_toWchar.mp h
  rw [List.mem_map]
  constructor
  · rintro ⟨c, hc, heq⟩
    have hnat := congrArg UInt16.toNat heq
    rw [toNat_ofNat_byte] at hnat
    obtain rfl : c = COMMA := UInt8.toNat_inj.mp hnat
    exact hc
  · exact fun hmem => ⟨COMMA, hmem, rfl⟩

-- "pc,3240,3-3" with a serial or without.
def pcText (serial : Option (List Byte)) : DeviceText Byte where
  hostname := [112, 99]
  service := [51, 50, 52, 48]
  busid := [51, 45, 51]
  serial := serial

def pcWide (serial : Option (List WChar)) : DeviceText WChar where
  hostname := [112, 99]
  service := [51, 50, 52, 48]
  busid := [51, 45, 51]
  serial := serial

theorem pcText_wellFormed {serial : Option (List Byte)} (h : ∀ s ∈ serial, validateDeviceSerial s = true) :
    WellFormed (pcText serial) :=
  ⟨by simp [pcText], by simp [pcText, COMMA], h⟩

theorem pcText_converted {serial : Option (List Byte)} {wide : Option (List WChar)}
    (h : ConvertsSerial asciiUtf serial wide) : Converted asciiUtf (pcText serial) (pcWide wide) :=
  ⟨rfl, rfl, rfl, h⟩

theorem parseDeviceStr_rejects_absent :
    ¬ ∀ (utf : Utf), utf.Converts → (∀ s ws, utf.utf8ToWchar s = some ws → (44 ∈ ws ↔ COMMA ∈ s)) →
      ∀ (rtl : Rtl), (∀ room, (rtl.unicodeToUTF8N none room).1 ≠ .STATUS_SUCCESS) →
      (∀ (s : List Byte) (ws : List WChar) (room : Nat), utf.utf8ToWchar s = some ws → s.length ≤ room →
        rtl.unicodeToUTF8N (some ws) room = (.STATUS_SUCCESS, s)) →
      ∀ (text : DeviceText Byte) (wide : DeviceText WChar), WellFormed text → Converted utf text wide →
      2 * (wide.join 44).length < 2 ^ 16 →
      ((parseDeviceStr rtl true (unicodeString (wide.join 44))).1 = .STATUS_SUCCESS ↔
        (parsePersistentDevice (text.join COMMA)).isMalformed = false) := by
  intro h
  have hformed := @pcText_wellFormed none (by simp)
  have hconverted := @pcText_converted none none trivial
  have hsize : 2 * ((pcWide none).join 44).length < 2 ^ 16 := by decide
  have hagrees := h asciiUtf asciiUtf_converts asciiUtf_comma asciiRtl asciiRtl_null asciiRtl_fits _ _ hformed
    hconverted hsize
  rw [parse_join hformed, device_wellFormed hformed] at hagrees
  have hwide := wideFormed asciiUtf_converts asciiUtf_comma hformed hconverted
  exact parseDeviceStr_withoutSerial asciiRtl_null hwide hsize rfl true (hagrees.mpr rfl)

theorem parseDeviceStr_agrees_serial :
    ((parseDeviceStr asciiRtl true (unicodeString ((pcWide (some [65, 49])).join 44))).1 = .STATUS_SUCCESS ↔
        (parsePersistentDevice ((pcText (some [65, 49])).join COMMA)).isMalformed = false) ∧
      ((parseDeviceStr asciiRtl true (unicodeString ((pcWide (some [65, 49])).join 44))).1 = .STATUS_SUCCESS →
        SameFields asciiUtf (parsePersistentDevice ((pcText (some [65, 49])).join COMMA))
          (parseDeviceStr asciiRtl true (unicodeString ((pcWide (some [65, 49])).join 44))).2) :=
  (parseDeviceStr_agrees_iff asciiUtf asciiUtf_converts asciiUtf_comma asciiRtl asciiRtl_null asciiRtl_fits
    (pcText (some [65, 49])) (pcWide (some [65, 49])) (pcText_wellFormed (by simp; decide))
    (pcText_converted (by simp [ConvertsSerial]; decide)) (by decide)).mpr
    ⟨by decide, by simp [DeviceText.StartsPlain, pcWide]⟩

end Usbip.Persistent

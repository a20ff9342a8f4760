import Usbip.Libusbip.Theorems
import Usbip.Persistent.Plugin
import Usbip.VhciIoctl.Imported.Theorems

namespace Usbip.Persistent.Plugin

open Usbip.Library.Words
open Usbip.Library.Writes
open Usbip.Libusbip (overwrite_all overwrite_of_append)
open Usbip.Libusbip.Persistent (DeviceLocation Utf WChar)
open Usbip.VhciIoctl
open Usbip.VhciIoctl.Imported (BUS_ID_SIZE sizeofService sizeofHost Field fillField fillFields fillField_eq
  fillLocation overwrite_eq_run set_run_terminator)
open Usbip.VhciIoctl.StopAttach (Services arrayAt initDeviceAttributes saveDeviceLocation saveString)

-- A text in an array whose rest is zero.
def padded (size : Nat) (text : List Byte) : List Byte := text ++ List.replicate (size - text.length) 0

-- The conversions of the driver are those of the library, and they fail on what there is no room for.
structure SameText (utf : Utf) (sys : Services) : Prop where
  converts : utf.Converts
  shorter : ∀ s ws, utf.utf8ToWchar s = some ws → ws.length ≤ s.length
  toUnicode : ∀ s ws, utf.utf8ToWchar s = some ws → sys.utf8ToUnicode s = (.STATUS_SUCCESS, ws)
  toUTF8 : ∀ s ws room, utf.utf8ToWchar s = some ws → s.length ≤ room →
    sys.rtl.unicodeToUTF8N (some ws) room = (.STATUS_SUCCESS, s)
  tooSmall : ∀ s ws room, utf.utf8ToWchar s = some ws → room < s.length →
    (sys.rtl.unicodeToUTF8N (some ws) room).1.isSuccess = false
  null : ∀ room, (sys.rtl.unicodeToUTF8N none room).1.isSuccess = false

section Arrays

variable {size offset : Nat} {text front rest : List Byte}

theorem length_padded (h : text.length ≤ size) : (padded size text).length = size := by
  rw [padded, List.length_append, List.length_replicate]
  omega

theorem cString_of_not_mem (h : 0 ∉ text) : cString text = text := Library.Separated.takeWhile_of_not_mem h

theorem cString_padded (h : 0 ∉ text) (size : Nat) : cString (padded size text) = text := by
  rw [padded]
  cases size - text.length with
  | zero => rw [List.replicate_zero, List.append_nil, cString_of_not_mem h]
  | succ n => exact Library.Separated.takeWhile_append_cons h

theorem arrayAt_append {array r : List Byte} (hr : r = front ++ (array ++ rest)) (hoffset : offset = front.length)
    (hsize : size = array.length) : arrayAt r offset size = array := by
  rw [arrayAt, hr, hoffset, hsize, List.drop_left, List.take_left]

-- A string is copied into an array of zeros that has room for it and its terminator.
theorem rtlStringCbCopyNA_zeros {src : List Byte} (h : (cString src).length < size) :
    rtlStringCbCopyNA (List.replicate size 0) src = (.STATUS_SUCCESS, padded size (cString src)) := by
  have hroom : (cString src).length ≤ (List.replicate size (0 : Byte)).length - 1 := by
    rw [List.length_replicate]
    omega
  simp only [rtlStringCbCopyNA, if_pos hroom]
  rw [overwrite_eq_run, Write.run_replicate h.le, padded]

end Arrays

section Strings

-- The string is this text, wherever it lies in memory.
structure Spells (s : UnicodeString) (ws : List WChar) : Prop where
  source : s.buffer.map (·.take (s.length / 2)) = some ws
  length : s.length = 2 * ws.length

variable {s : UnicodeString} {ws : List WChar} {utf : Utf} {sys : Services}

theorem Spells.chars (h : Spells s ws) : s.chars = ws := by
  have hsource := h.source
  unfold UnicodeString.chars
  cases hbuffer : s.buffer with
  | none => simp [hbuffer] at hsource
  | some b =>
      rw [hbuffer, Option.map_some] at hsource
      exact Option.some.inj hsource

theorem spells_append (ws rest : List WChar) :
    Spells { length := 2 * ws.length, maximumLength := 2 * ws.length, buffer := some (ws ++ rest) } ws := by
  refine ⟨?_, rfl⟩
  simp

variable {text : List Byte} {size : Nat}

-- One of the strings of a request, which ends inside its array.
theorem saveString_padded (hsame : SameText utf sys) (hconv : utf.utf8ToWchar text = some ws) (hnul : 0 ∉ text)
    (hfits : text.length < size) (hsize : size ≤ 2 ^ 15) :
    saveString sys (padded size text) = (.STATUS_SUCCESS, unicodeString ws) := by
  have hne : text ≠ [] := by
    rintro rfl
    exact absurd hconv (by
      intro h
      have hlength := hsame.shorter _ _ h
      obtain rfl : ws = [] := List.length_eq_zero_iff.mp (Nat.le_zero.mp hlength)
      exact hsame.converts.nonempty _ h)
  have hhead : (padded size text).head? ≠ some 0 := by
    obtain ⟨c, l, rfl⟩ := List.exists_cons_of_ne_nil hne
    intro h
    obtain rfl : c = 0 := by simpa [padded] using h
    exact hnul List.mem_cons_self
  have hterminated : (0 : Byte) ∈ padded size text := by
    obtain ⟨n, hn⟩ : ∃ n, size - text.length = n + 1 := ⟨size - text.length - 1, by omega⟩
    simp [padded, hn, List.replicate_succ]
  have hlength := hsame.shorter _ _ hconv
  have hushort : ushort (2 * ws.length) = 2 * ws.length := Nat.mod_eq_of_lt (by omega)
  simp only [saveString, if_neg hhead, hterminated, not_true_eq_false, if_false, cString_padded hnul,
    hsame.toUnicode _ _ hconv, hushort, unicodeString]

end Strings

section Locations

def wide (utf : Utf) (text : List Byte) : List WChar := (utf.utf8ToWchar text).getD []

-- The text can be converted, and has no terminator inside.
structure Convertible (utf : Utf) (text : List Byte) : Prop where
  converts : utf.utf8ToWchar text = some (wide utf text)
  noNul : 0 ∉ text

structure Spellable (utf : Utf) (d : DeviceLocation) : Prop where
  hostname : Convertible utf d.hostname
  service : Convertible utf d.service
  busid : Convertible utf d.busid

-- The strings of the device are those of the location.
structure Names (utf : Utf) (attr : DeviceAttributes) (d : DeviceLocation) : Prop where
  nodeName : Spells attr.nodeName (wide utf d.hostname)
  serviceName : Spells attr.serviceName (wide utf d.service)
  busid : Spells attr.busid (wide utf d.busid)

-- The text that the location is hashed as.
def hashed (utf : Utf) (d : DeviceLocation) : List WChar :=
  wide utf d.hostname ++ 44 :: (wide utf d.service ++ 44 :: wide utf d.busid)

variable {utf : Utf} {sys : Services} {d : DeviceLocation} {attr : DeviceAttributes}

theorem Names.hashLocation (h : Names utf attr d) (hsize : 2 * (hashed utf d).length + 2 < 2 ^ 16) (rtl : Rtl) :
    hashLocation rtl true attr = (.STATUS_SUCCESS, rtl.hashUnicodeString (hashed utf d)) := by
  have hlength : (hashed utf d).length =
      (wide utf d.hostname).length + (wide utf d.service).length + (wide utf d.busid).length + 2 := by
    simp only [hashed, List.length_append, List.length_cons]
    omega
  have htext : attr.nodeName.chars ++ 44 :: (attr.serviceName.chars ++ 44 :: attr.busid.chars) = hashed utf d := by
    rw [h.nodeName.chars, h.serviceName.chars, h.busid.chars, hashed]
  have hcb : ¬ushort (attr.nodeName.length + attr.serviceName.length + attr.busid.length + 6) <
      2 * ((hashed utf d).length + 1) := by
    rw [h.nodeName.length, h.serviceName.length, h.busid.length, ushort, hlength]
    omega
  simp only [Persistent.hashLocation, htext, if_neg hcb, Bool.true_eq_false, if_false]

end Locations

section Requests

-- The structure `plugin_hardware`; three bytes of padding are in front of the serial number.
def pluginBytes (busid service host serial : List Byte) : List Byte :=
  bytes32 (UInt32.ofNat sizeofPluginHardware) ++
    (bytes32 0 ++ (busid ++ (service ++ (host ++ (List.replicate 3 0 ++ serial)))))

-- The request for the device with this serial number.
def requestBytes (d : DeviceLocation) (serial : List Byte) : List Byte :=
  pluginBytes (padded BUS_ID_SIZE d.busid) (padded sizeofService d.service) (padded sizeofHost d.hostname)
    (padded SERIAL_BUFSZ serial)

def HasRoom (d : DeviceLocation) : Prop :=
  d.hostname.length ≤ sizeofHost ∧ d.service.length ≤ sizeofService ∧ d.busid.length ≤ BUS_ID_SIZE

instance (d : DeviceLocation) : Decidable (HasRoom d) := inferInstanceAs (Decidable (_ ∧ _))

variable {busid service host serial : List Byte}

-- Where each of the arrays is.
theorem busid_at (service host serial : List Byte) : ∃ front rest, front.length = offsetofBusid ∧
    ∀ busid, pluginBytes busid service host serial = front ++ (busid ++ rest) :=
  ⟨bytes32 (UInt32.ofNat sizeofPluginHardware) ++ bytes32 0, service ++ (host ++ (List.replicate 3 0 ++ serial)), rfl,
    fun _ => by simp only [pluginBytes, List.append_assoc]⟩

theorem service_at (hbusid : busid.length = BUS_ID_SIZE) (host serial : List Byte) :
    ∃ front rest, front.length = offsetofService ∧
      ∀ service, pluginBytes busid service host serial = front ++ (service ++ rest) := by
  refine ⟨bytes32 (UInt32.ofNat sizeofPluginHardware) ++ (bytes32 0 ++ busid),
    host ++ (List.replicate 3 0 ++ serial), ?_, fun _ => by simp only [pluginBytes, List.append_assoc]⟩
  simp only [List.length_append, hbusid]
  rfl

theorem host_at (hbusid : busid.length = BUS_ID_SIZE) (hservice : service.length = sizeofService)
    (serial : List Byte) : ∃ front rest, front.length = offsetofHost ∧
      ∀ host, pluginBytes busid service host serial = front ++ (host ++ rest) := by
  refine ⟨bytes32 (UInt32.ofNat sizeofPluginHardware) ++ (bytes32 0 ++ (busid ++ service)),
    List.replicate 3 0 ++ serial, ?_, fun _ => by simp only [pluginBytes, List.append_assoc]⟩
  simp only [List.length_append, hbusid, hservice]
  rfl

theorem serial_at (hbusid : busid.length = BUS_ID_SIZE) (hservice : service.length = sizeofService)
    (hhost : host.length = sizeofHost) : ∃ front, front.length = offsetofSerial ∧
      ∀ serial, pluginBytes busid service host serial = front ++ (serial ++ []) := by
  refine ⟨bytes32 (UInt32.ofNat sizeofPluginHardware) ++ (bytes32 0 ++ (busid ++ (service ++ (host ++
    List.replicate 3 0)))), ?_, fun _ => by simp only [pluginBytes, List.append_assoc, List.append_nil]⟩
  simp only [List.length_append, hbusid, hservice, hhost]
  rfl

theorem arrays_pluginBytes (hbusid : busid.length = BUS_ID_SIZE) (hservice : service.length = sizeofService)
    (hhost : host.length = sizeofHost) (hserial : serial.length = SERIAL_BUFSZ) :
    arrayAt (pluginBytes busid service host serial) offsetofHost sizeofHost = host ∧
      arrayAt (pluginBytes busid service host serial) offsetofService sizeofService = service ∧
      arrayAt (pluginBytes busid service host serial) offsetofBusid BUS_ID_SIZE = busid ∧
      arrayAt (pluginBytes busid service host serial) offsetofSerial SERIAL_BUFSZ = serial := by
  obtain ⟨_, _, hb, hbusidAt⟩ := busid_at service host serial
  obtain ⟨_, _, hs, hserviceAt⟩ := service_at hbusid host serial
  obtain ⟨_, _, hh, hhostAt⟩ := host_at hbusid hservice serial
  obtain ⟨_, hn, hserialAt⟩ := serial_at hbusid hservice hhost
  exact ⟨arrayAt_append (hhostAt host) hh.symm hhost.symm, arrayAt_append (hserviceAt service) hs.symm hservice.symm,
    arrayAt_append (hbusidAt busid) hb.symm hbusid.symm, arrayAt_append (hserialAt serial) hn.symm hserial.symm⟩

variable {utf : Utf} {sys : Services} {d : DeviceLocation} {attr : DeviceAttributes}

-- The location of a request whose strings end inside their arrays.
theorem saveDeviceLocation_padded (hsame : SameText utf sys) (hd : Spellable utf d)
    (hhost : d.hostname.length < sizeofHost) (hservice : d.service.length < sizeofService)
    (hbusid : d.busid.length < BUS_ID_SIZE) :
    saveDeviceLocation sys (padded sizeofHost d.hostname) (padded sizeofService d.service)
      (padded BUS_ID_SIZE d.busid) = (.STATUS_SUCCESS,
        { nodeName := unicodeString (wide utf d.hostname)
          serviceName := unicodeString (wide utf d.service)
          busid := unicodeString (wide utf d.busid) }) := by
  have hhost' := saveString_padded hsame hd.hostname.converts hd.hostname.noNul hhost (by decide)
  have hservice' := saveString_padded hsame hd.service.converts hd.service.noNul hservice (by decide)
  have hbusid' := saveString_padded hsame hd.busid.converts hd.busid.noNul hbusid (by decide)
  simp only [saveDeviceLocation, hhost', hservice', hbusid', ne_eq, not_true_eq_false, if_false]

theorem spells_unicodeString (ws : List WChar) : Spells (unicodeString ws) ws := by
  have h := spells_append ws []
  rwa [List.append_nil] at h

theorem length_wide_le (hsame : SameText utf sys) {text : List Byte} (h : Convertible utf text) :
    (wide utf text).length ≤ text.length := hsame.shorter _ _ h.converts

-- The attributes of such a location.
def named (utf : Utf) (rtl : Rtl) (d : DeviceLocation) (serial : List Byte) : DeviceAttributes where
  nodeName := unicodeString (wide utf d.hostname)
  serviceName := unicodeString (wide utf d.service)
  busid := unicodeString (wide utf d.busid)
  serial := serial
  locationHash := rtl.hashUnicodeString (hashed utf d)

theorem names_named (utf : Utf) (rtl : Rtl) (d : DeviceLocation) (serial : List Byte) :
    Names utf (named utf rtl d serial) d :=
  ⟨spells_unicodeString _, spells_unicodeString _, spells_unicodeString _⟩

theorem initDeviceAttributes_padded (hsame : SameText utf sys) (hallocated : sys.allocated = true)
    (hd : Spellable utf d) (hhost : d.hostname.length < sizeofHost) (hservice : d.service.length < sizeofService)
    (hbusid : d.busid.length < BUS_ID_SIZE) :
    initDeviceAttributes sys (padded sizeofHost d.hostname) (padded sizeofService d.service)
      (padded BUS_ID_SIZE d.busid) = (.STATUS_SUCCESS, named utf sys.rtl d (List.replicate SERIAL_BUFSZ 0)) := by
  have hnames : Names utf
      { nodeName := unicodeString (wide utf d.hostname)
        serviceName := unicodeString (wide utf d.service)
        busid := unicodeString (wide utf d.busid) } d :=
    ⟨spells_unicodeString _, spells_unicodeString _, spells_unicodeString _⟩
  have hsize : 2 * (hashed utf d).length + 2 < 2 ^ 16 := by
    have h1 := length_wide_le hsame hd.hostname
    have h2 := length_wide_le hsame hd.service
    have h3 := length_wide_le hsame hd.busid
    simp only [hashed, List.length_append, List.length_cons]
    simp only [sizeofHost, sizeofService, BUS_ID_SIZE] at hhost hservice hbusid
    omega
  simp only [initDeviceAttributes, saveDeviceLocation_padded hsame hd hhost hservice hbusid, ne_eq, not_true_eq_false,
    if_false, hallocated, hnames.hashLocation hsize, named]

-- The attributes that the driver makes of a request are those of its location, with the serial number.
theorem createDeviceCtxExt_requestBytes (hsame : SameText utf sys) (hallocated : sys.allocated = true)
    (hd : Spellable utf d) (hhost : d.hostname.length < sizeofHost) (hservice : d.service.length < sizeofService)
    (hbusid : d.busid.length < BUS_ID_SIZE) (hserial : serial.length < SERIAL_BUFSZ) (hnul : 0 ∉ serial) :
    createDeviceCtxExt sys (requestBytes d serial) =
      (.STATUS_SUCCESS, named utf sys.rtl d (padded SERIAL_BUFSZ serial)) := by
  obtain ⟨harrayHost, harrayService, harrayBusid, harraySerial⟩ := arrays_pluginBytes (length_padded hbusid.le)
    (length_padded hservice.le) (length_padded hhost.le) (length_padded hserial.le)
  have hcopy : rtlStringCbCopyNA (List.replicate SERIAL_BUFSZ 0) (padded SERIAL_BUFSZ serial) =
      (.STATUS_SUCCESS, padded SERIAL_BUFSZ serial) := by
    rw [rtlStringCbCopyNA_zeros (by rwa [cString_padded hnul]), cString_padded hnul]
  simp only [createDeviceCtxExt, requestBytes, harrayHost, harrayService, harrayBusid, harraySerial,
    initDeviceAttributes_padded hsame hallocated hd hhost hservice hbusid, ne_eq, not_true_eq_false, if_false, named,
    hcopy]

end Requests

section Buffers

variable {utf : Utf} {sys : Services} {d : DeviceLocation} {attr : DeviceAttributes}
variable {front rest text output : List Byte} {ws : List WChar} {f : Field}

-- A string is written into an array of zeros if there is room for it.
theorem fillField_zeros (hsame : SameText utf sys) (hs : Spells f.src ws) (hconv : utf.utf8ToWchar text = some ws)
    (houtput : output = front ++ (List.replicate f.size 0 ++ rest)) (hoffset : f.offset = front.length)
    (hroom : text.length ≤ f.size) :
    fillField sys.rtl output f = (.STATUS_SUCCESS, front ++ (padded f.size text ++ rest)) := by
  have harray : (output.drop f.offset).take f.size = List.replicate f.size 0 :=
    arrayAt_append houtput hoffset List.length_replicate.symm
  have hlength : (List.replicate f.size (0 : Byte)).length = (padded f.size text).length := by
    rw [length_padded hroom, List.length_replicate]
  have hterminated := set_run_terminator text (List.replicate f.size 0)
  rw [Write.run_replicate hroom, List.length_replicate, ← padded] at hterminated
  simp only [fillField, unicodeToUtf8, harray, hs.source, List.length_replicate, hsame.toUTF8 _ _ _ hconv hroom,
    overwrite_eq_run, Write.length_run, hterminated]
  rw [← overwrite_eq_run, overwrite_of_append houtput hoffset hlength]

-- The strings that convert are written until one of them has no room.
theorem fillFields_failure {rtl : Rtl} {fields : List Field} (h : ∀ f ∈ fields, f.offset + f.size ≤ output.length)
    (hstatus : ∀ f ∈ fields, (f.converted rtl).1 = .STATUS_SUCCESS ∨ (f.converted rtl).1.isSuccess = false)
    (hfail : ∃ f ∈ fields, (f.converted rtl).1.isSuccess = false) :
    (fillFields rtl fields output).1.isSuccess = false := by
  induction fields generalizing output with
  | nil => simp at hfail
  | cons f fields ih =>
      obtain ⟨hf, hfields⟩ := List.forall_mem_cons.mp h
      obtain ⟨hst, hstatus⟩ := List.forall_mem_cons.mp hstatus
      simp only [fillFields, fillField_eq hf]
      by_cases hsuccess : (f.converted rtl).1 = .STATUS_SUCCESS
      · simp only [hsuccess, ne_eq, not_true_eq_false, if_false]
        refine ih (by simpa using hfields) hstatus ?_
        obtain ⟨g, hg, hgfail⟩ := hfail
        obtain rfl | hg := List.mem_cons.mp hg
        · rw [hsuccess] at hgfail
          cases hgfail
        · exact ⟨g, hg, hgfail⟩
      · simp only [ne_eq, hsuccess, not_false_eq_true, if_true]
        exact hst.resolve_left hsuccess

-- The zeroed structure with its size.
theorem zeroed_eq :
    overwrite (List.replicate sizeofPluginHardware 0) 0 (bytes32 (UInt32.ofNat sizeofPluginHardware)) =
      pluginBytes (List.replicate BUS_ID_SIZE 0) (List.replicate sizeofService 0) (List.replicate sizeofHost 0)
        (List.replicate SERIAL_BUFSZ 0) := by
  have hport : bytes32 0 = List.replicate 4 0 := rfl
  have hsplit : List.replicate sizeofPluginHardware (0 : Byte) =
      [] ++ (List.replicate 4 0 ++ (bytes32 0 ++ (List.replicate BUS_ID_SIZE 0 ++ (List.replicate sizeofService 0 ++
        (List.replicate sizeofHost 0 ++ (List.replicate 3 0 ++ List.replicate SERIAL_BUFSZ 0)))))) := by
    simp only [hport, List.nil_append, List.replicate_append_replicate]
    rfl
  exact overwrite_of_append hsplit rfl rfl

-- The structure before the strings are written.
def unnamed (serial : List Byte) : List Byte :=
  pluginBytes (List.replicate BUS_ID_SIZE 0) (List.replicate sizeofService 0) (List.replicate sizeofHost 0) serial

theorem length_unnamed {serial : List Byte} (h : serial.length = SERIAL_BUFSZ) :
    (unnamed serial).length = sizeofPluginHardware := by
  simp only [unnamed, pluginBytes, bytes32, List.length_append, List.length_cons, List.length_nil,
    List.length_replicate, h]
  rfl

theorem fillLocation_of_room (hsame : SameText utf sys) (hd : Spellable utf d) (hnames : Names utf attr d)
    (serial : List Byte) (hroom : HasRoom d) :
    fillLocation sys.rtl (unnamed serial) sizeofBase (DeviceAttributes.strings attr) =
      (.STATUS_SUCCESS, pluginBytes (padded BUS_ID_SIZE d.busid) (padded sizeofService d.service)
        (padded sizeofHost d.hostname) serial) := by
  obtain ⟨hhost, hservice, hbusid⟩ := hroom
  have hzeros : ∀ n, (List.replicate n (0 : Byte)).length = n := fun _ => List.length_replicate
  obtain ⟨_, _, hh, hhostAt⟩ := host_at (hzeros BUS_ID_SIZE) (hzeros sizeofService) serial
  obtain ⟨_, _, hs, hserviceAt⟩ := service_at (hzeros BUS_ID_SIZE) (padded sizeofHost d.hostname) serial
  obtain ⟨_, _, hb, hbusidAt⟩ := busid_at (padded sizeofService d.service) (padded sizeofHost d.hostname) serial
  have hfill : fillField sys.rtl (unnamed serial)
      ⟨sizeofBase + VhciIoctl.Imported.offsetofHost, sizeofHost, attr.nodeName⟩ = _ :=
    fillField_zeros hsame hnames.nodeName hd.hostname.converts (hhostAt _) hh.symm hhost
  have hfill' : fillField sys.rtl _
      ⟨sizeofBase + VhciIoctl.Imported.offsetofService, sizeofService, attr.serviceName⟩ = _ :=
    fillField_zeros hsame hnames.serviceName hd.service.converts (hserviceAt _) hs.symm hservice
  have hfill'' : fillField sys.rtl _
      ⟨sizeofBase + VhciIoctl.Imported.offsetofBusid, BUS_ID_SIZE, attr.busid⟩ = _ :=
    fillField_zeros hsame hnames.busid hd.busid.converts (hbusidAt _) hb.symm hbusid
  rw [← hhostAt] at hfill
  rw [← hserviceAt] at hfill'
  rw [← hbusidAt] at hfill''
  simp only [fillLocation, VhciIoctl.Imported.DeviceCtx.fields, DeviceAttributes.strings, fillFields, hfill, hfill',
    hfill'', ne_eq, not_true_eq_false, if_false]

theorem converted_of_spells (hsame : SameText utf sys) (hs : Spells f.src ws) (hconv : utf.utf8ToWchar text = some ws) :
    (text.length ≤ f.size → (f.converted sys.rtl).1 = .STATUS_SUCCESS) ∧
      (¬text.length ≤ f.size → (f.converted sys.rtl).1.isSuccess = false) := by
  rw [Field.converted, hs.source]
  exact ⟨fun hroom => by rw [hsame.toUTF8 _ _ _ hconv hroom], fun hlong =>
    hsame.tooSmall _ _ _ hconv (Nat.lt_of_not_le hlong)⟩

theorem fillLocation_of_not_room (hsame : SameText utf sys) (hd : Spellable utf d) (hnames : Names utf attr d)
    {serial : List Byte} (hserial : serial.length = SERIAL_BUFSZ) (hroom : ¬HasRoom d) :
    (fillLocation sys.rtl (unnamed serial) sizeofBase (DeviceAttributes.strings attr)).1.isSuccess = false := by
  have hhost := converted_of_spells (f := ⟨sizeofBase + VhciIoctl.Imported.offsetofHost, sizeofHost, attr.nodeName⟩)
    hsame hnames.nodeName hd.hostname.converts
  have hservice := converted_of_spells
    (f := ⟨sizeofBase + VhciIoctl.Imported.offsetofService, sizeofService, attr.serviceName⟩)
    hsame hnames.serviceName hd.service.converts
  have hbusid := converted_of_spells (f := ⟨sizeofBase + VhciIoctl.Imported.offsetofBusid, BUS_ID_SIZE, attr.busid⟩)
    hsame hnames.busid hd.busid.converts
  refine fillFields_failure ?_ ?_ ?_
  · intro f hf
    rw [length_unnamed hserial]
    exact (VhciIoctl.Imported.mem_fields_le hf).trans (by decide)
  · simp only [VhciIoctl.Imported.DeviceCtx.fields, DeviceAttributes.strings, List.forall_mem_cons, List.not_mem_nil,
      false_imp_iff, implies_true, and_true]
    exact ⟨(Decidable.em _).imp hhost.1 hhost.2, (Decidable.em _).imp hservice.1 hservice.2,
      (Decidable.em _).imp hbusid.1 hbusid.2⟩
  · simp only [HasRoom, not_and_or] at hroom
    simp only [VhciIoctl.Imported.DeviceCtx.fields, DeviceAttributes.strings, List.exists_mem_cons_iff,
      List.not_mem_nil, false_and, exists_false, or_false]
    exact hroom.imp hhost.2 (Or.imp hservice.2 hbusid.2)

-- The request that the driver makes of its own is the one for the location, unless a string is longer than its array.
theorem initAttachCtx_eq (hsame : SameText utf sys) (hd : Spellable utf d) (hnames : Names utf attr d)
    (hserial : (cString attr.serial).length < SERIAL_BUFSZ) (vhci : Constants) :
    initAttachCtx sys.rtl vhci attr =
      if HasRoom d then
        some {
          locationHash := attr.locationHash
          ctx := { delay := vhci.reattachFirstDelay }
          inbuf := requestBytes d (cString attr.serial) }
      else none := by
  have hzeros : ∀ n, (List.replicate n (0 : Byte)).length = n := fun _ => List.length_replicate
  obtain ⟨-, -, -, harray⟩ := arrays_pluginBytes (hzeros BUS_ID_SIZE) (hzeros sizeofService) (hzeros sizeofHost)
    (hzeros SERIAL_BUFSZ)
  obtain ⟨_, hn, hserialAt⟩ := serial_at (hzeros BUS_ID_SIZE) (hzeros sizeofService) (hzeros sizeofHost)
  have hlength := length_padded hserial.le
  have hcopied : overwrite (pluginBytes (List.replicate BUS_ID_SIZE 0) (List.replicate sizeofService 0)
      (List.replicate sizeofHost 0) (List.replicate SERIAL_BUFSZ 0)) offsetofSerial
        (padded SERIAL_BUFSZ (cString attr.serial)) = unnamed (padded SERIAL_BUFSZ (cString attr.serial)) := by
    rw [unnamed, overwrite_of_append (hserialAt _) hn.symm (by rw [hlength, hzeros]), hserialAt]
  simp only [initAttachCtx, zeroed_eq, harray, rtlStringCbCopyNA_zeros hserial, hcopied, ne_eq, not_true_eq_false,
    if_false]
  by_cases hroom : HasRoom d
  · simp only [fillLocation_of_room hsame hd hnames _ hroom, if_pos hroom, NTSTATUS.isSuccess, if_true, requestBytes]
  · simp only [fillLocation_of_not_room hsame hd hnames hlength hroom, if_neg hroom, Bool.false_eq_true, if_false]

end Buffers

end Usbip.Persistent.Plugin

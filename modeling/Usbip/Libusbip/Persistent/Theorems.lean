import Usbip.Library.Separated
import Usbip.Libusbip.Persistent
import Usbip.Libusbip.Theorems

namespace Usbip.Libusbip.Persistent

open Usbip.Library.Separated
open Usbip.Library.Words
open Usbip.VhciIoctl

section Fields

variable {field rest s : List Byte}

theorem nextField_append (h : COMMA ∉ field) : nextField (some (field ++ COMMA :: rest)) = (field, some rest) := by
  simp only [nextField, takeWhile_append_cons h, dropWhile_append_cons h]

theorem nextField_last (h : COMMA ∉ field) : nextField (some field) = (field, none) := by
  simp only [nextField, takeWhile_of_not_mem h, dropWhile_of_not_mem h]

theorem isEmpty_append_cons (field rest : List Byte) (c : Byte) : (field ++ c :: rest).isEmpty = false := by
  cases field <;> rfl

theorem nextField_none : nextField none = ([], none) := rfl

variable {hostname service busid serial : List Byte}

theorem parse_one (h : COMMA ∉ hostname) : (parsePersistentDevice hostname).location.service = [] := by
  unfold parsePersistentDevice
  split <;> simp only [nextField_last h, nextField_none]

theorem parse_two (hhostname : COMMA ∉ hostname) (hservice : COMMA ∉ service) :
    (parsePersistentDevice (hostname ++ COMMA :: service)).location.busid = [] := by
  simp only [parsePersistentDevice, isEmpty_append_cons, Bool.false_eq_true, if_false, nextField_append hhostname,
    nextField_last hservice, nextField_none]

theorem parse_three (hhostname : COMMA ∉ hostname) (hservice : COMMA ∉ service) (hbusid : COMMA ∉ busid) :
    parsePersistentDevice (hostname ++ COMMA :: (service ++ COMMA :: busid)) =
      { location := { hostname := hostname, service := service, busid := busid } } := by
  simp only [parsePersistentDevice, isEmpty_append_cons, Bool.false_eq_true, if_false, nextField_append hhostname,
    nextField_append hservice, nextField_last hbusid, Option.getD_none]

theorem parse_four (hhostname : COMMA ∉ hostname) (hservice : COMMA ∉ service) (hbusid : COMMA ∉ busid) :
    parsePersistentDevice (hostname ++ COMMA :: (service ++ COMMA :: (busid ++ COMMA :: serial))) =
      { location := { hostname := hostname, service := service, busid := busid }, serial := serial } := by
  simp only [parsePersistentDevice, isEmpty_append_cons, Bool.false_eq_true, if_false, nextField_append hhostname,
    nextField_append hservice, nextField_append hbusid, Option.getD_some]

theorem parse_text {d : PersistentDevice} (h : d.location.IsPlain) : parsePersistentDevice d.text = d :=
  parse_four (h _ (by simp)).1 (h _ (by simp)).1 (h _ (by simp)).1

theorem isMalformed_of_service {d : PersistentDevice} (h : d.location.service = []) : d.isMalformed = true := by
  simp [PersistentDevice.isMalformed, DeviceLocation.isMalformed, h]

theorem isMalformed_of_busid {d : PersistentDevice} (h : d.location.busid = []) : d.isMalformed = true := by
  simp [PersistentDevice.isMalformed, DeviceLocation.isMalformed, h]

-- A string that is read has three fields at least, without commas. Its text comes with the comma before an absent
-- serial too.
theorem parse_spec {d : PersistentDevice} (hd : parsePersistentDevice s = d) (h : d.isMalformed = false) :
    (∀ field ∈ [d.location.hostname, d.location.service, d.location.busid],
      COMMA ∉ field ∧ ∀ c ∈ field, c ∈ s) ∧ (d.text = s ∨ d.text = s ++ [COMMA]) := by
  subst hd
  obtain hnone | ⟨hostname, rest, hhostname, rfl⟩ := eq_first_append COMMA s
  · rw [isMalformed_of_service (parse_one hnone)] at h
    cases h
  · obtain hnone | ⟨service, rest, hservice, rfl⟩ := eq_first_append COMMA rest
    · rw [isMalformed_of_busid (parse_two hhostname hnone)] at h
      cases h
    · obtain hbusid | ⟨busid, serial, hbusid, rfl⟩ := eq_first_append COMMA rest
      · rw [parse_three hhostname hservice hbusid]
        refine ⟨?_, .inr (by simp [PersistentDevice.text])⟩
        simp only [List.mem_cons, List.mem_append, List.not_mem_nil, or_false]
        rintro field (rfl | rfl | rfl)
        · exact ⟨hhostname, fun c hc => .inl hc⟩
        · exact ⟨hservice, fun c hc => .inr (.inr (.inl hc))⟩
        · exact ⟨hbusid, fun c hc => .inr (.inr (.inr (.inr hc)))⟩
      · rw [parse_four hhostname hservice hbusid]
        refine ⟨?_, .inl rfl⟩
        simp only [List.mem_cons, List.mem_append, List.not_mem_nil, or_false]
        rintro field (rfl | rfl | rfl)
        · exact ⟨hhostname, fun c hc => .inl hc⟩
        · exact ⟨hservice, fun c hc => .inr (.inr (.inl hc))⟩
        · exact ⟨hbusid, fun c hc => .inr (.inr (.inr (.inr (.inl hc))))⟩

end Fields

section Serial

-- A loop over the characters that stops at the terminator.
theorem isAsciiAlnum_lt {serial : List Byte} (h : 0 ∈ serial) (i : Nat) :
    isAsciiAlnum serial i < i + serial.length := by
  induction serial generalizing i with
  | nil => cases h
  | cons c rest ih =>
      rw [isAsciiAlnum, List.length_cons]
      by_cases hzero : c = 0
      · rw [if_pos hzero]
        omega
      · rw [if_neg hzero]
        have hrest : 0 ∈ rest := (List.mem_cons.mp h).resolve_left fun heq => hzero heq.symm
        have hlt := ih hrest (i + 1)
        split <;> push_cast at * <;> omega

theorem not_mem_of_validateDeviceSerial {serial : List Byte} (h : validateDeviceSerial serial = true) : 0 ∉ serial := by
  intro hmem
  have hlt := isAsciiAlnum_lt hmem 0
  simp only [validateDeviceSerial, Bool.and_eq_true, decide_eq_true_eq] at h
  push_cast at hlt
  omega

theorem not_mem_text {d : PersistentDevice} (hformed : d.isMalformed = false) (hplain : d.location.IsPlain) :
    0 ∉ d.text := by
  have hserial : validateDeviceSerial d.serial = true := by
    simp only [PersistentDevice.isMalformed, Bool.or_eq_false_iff, Bool.not_eq_false'] at hformed
    exact hformed.2
  have hcomma : (0 : Byte) ≠ COMMA := by decide
  simp only [PersistentDevice.text, List.mem_append, List.mem_cons, hcomma, false_or, not_or]
  exact ⟨(hplain _ (by simp)).2, (hplain _ (by simp)).2, (hplain _ (by simp)).2,
    not_mem_of_validateDeviceSerial hserial⟩

end Serial

section MultiSz

variable {ws rest str : List WChar}

theorem splitMultiSz_append (hne : ws ≠ []) (h : 0 ∉ ws) : splitMultiSz (ws ++ 0 :: rest) = ws :: splitMultiSz rest := by
  have hlen : min (ws.length + 1) (ws ++ 0 :: rest).length = (ws ++ [(0 : WChar)]).length := by simp
  have hempty : ws.isEmpty = false := by simpa using hne
  rw [splitMultiSz]
  simp only [takeWhile_append_cons h, hempty, Bool.false_eq_true, if_false, hlen]
  have hdrop : (ws ++ 0 :: rest).drop (ws ++ [(0 : WChar)]).length = rest := by
    rw [List.append_cons ws 0 rest, List.drop_left]
  rw [hdrop]

theorem splitMultiSz_nil : splitMultiSz [] = [] := by
  rw [splitMultiSz]
  rfl

theorem splitMultiSz_zero (rest : List WChar) : splitMultiSz (0 :: rest) = [] := by
  rw [splitMultiSz]
  simp

-- The strings are not empty, have no terminator inside and lie one after another.
theorem splitMultiSz_spec (str : List WChar) :
    (∀ ws ∈ splitMultiSz str, ws ≠ [] ∧ 0 ∉ ws) ∧
      ((splitMultiSz str).map fun ws => ws.length + 1).sum ≤ str.length + 1 := by
  induction str using splitMultiSz.induct with
  | case1 str ws hempty =>
      have hsplit : splitMultiSz str = [] := by
        rw [splitMultiSz]
        exact if_pos hempty
      rw [hsplit]
      exact ⟨fun ws hws => absurd hws List.not_mem_nil, Nat.zero_le _⟩
  | case2 str ws hempty ih =>
      have hsplit : splitMultiSz str = ws :: splitMultiSz (str.drop (min (ws.length + 1) str.length)) := by
        rw [splitMultiSz]
        exact if_neg hempty
      have hle : ws.length ≤ str.length := (List.takeWhile_sublist _).length_le
      rw [hsplit]
      refine ⟨?_, ?_⟩
      · intro x hx
        obtain rfl | hx := List.mem_cons.mp hx
        · exact ⟨mt List.isEmpty_iff.mpr hempty, not_mem_takeWhile⟩
        · exact ih.1 x hx
      · have hsum := ih.2
        rw [List.map_cons, List.sum_cons]
        clear_value ws
        by_cases hmin : ws.length + 1 ≤ str.length
        · rw [Nat.min_eq_left hmin, List.length_drop] at hsum
          rw [Nat.min_eq_left hmin]
          omega
        · rw [Nat.min_eq_right (by omega), List.drop_length, splitMultiSz_nil, List.map_nil, List.sum_nil]
          omega

theorem two_mul_length_le {strings : List (List WChar)} (h : ∀ ws ∈ strings, ws ≠ []) :
    2 * strings.length ≤ (strings.map fun ws => ws.length + 1).sum := by
  induction strings with
  | nil => exact Nat.zero_le _
  | cons ws rest ih =>
      have hpos := List.length_pos_iff.mpr (h ws (by simp))
      have hrest := ih fun x hx => h x (List.mem_cons_of_mem ws hx)
      rw [List.length_cons, List.map_cons, List.sum_cons]
      omega

end MultiSz

section Encoding

variable {utf : Utf}

-- What is known of a device that is encoded as a string.
structure Encodes (utf : Utf) (d : PersistentDevice) (ws : List WChar) : Prop where
  wellFormed : d.isMalformed = false
  converted : utf.utf8ToWchar d.text = some ws

theorem appendDevices_spec (devices : List PersistentDevice) {acc multiSz : List WChar}
    (h : appendDevices utf devices acc = .ok multiSz) :
    ∃ strings, List.Forall₂ (Encodes utf) devices strings ∧ multiSz = acc ++ strings.flatMap (· ++ [0]) := by
  induction devices generalizing acc with
  | nil =>
      obtain rfl := Except.ok.inj h
      exact ⟨[], .nil, by simp⟩
  | cons d rest ih =>
      rw [appendDevices] at h
      split at h
      · cases h
      · rename_i hformed
        split at h
        · rename_i ws hws
          obtain ⟨strings, hstrings, rfl⟩ := ih h
          exact ⟨ws :: strings, .cons ⟨Bool.eq_false_iff.mpr hformed, hws⟩ hstrings, by simp⟩
        · cases h

theorem makeMultiSz_spec {devices : List PersistentDevice} {multiSz : List WChar}
    (h : makeMultiSz utf devices = .ok multiSz) :
    ∃ strings, List.Forall₂ (Encodes utf) devices strings ∧
      multiSz = strings.flatMap (· ++ [0]) ++ List.replicate (if devices.isEmpty then 2 else 1) 0 := by
  rw [makeMultiSz] at h
  cases happend : appendDevices utf devices [] with
  | error err =>
      rw [happend] at h
      cases h
  | ok acc =>
      rw [happend] at h
      obtain rfl := Except.ok.inj h
      obtain ⟨strings, hstrings, rfl⟩ := appendDevices_spec devices happend
      exact ⟨strings, hstrings, rfl⟩

theorem isMalformed_of_mem {devices : List PersistentDevice} {strings : List (List WChar)}
    (h : List.Forall₂ (Encodes utf) devices strings) : ∀ d ∈ devices, d.isMalformed = false := by
  induction h with
  | nil => exact fun d hd => absurd hd List.not_mem_nil
  | cons hfirst _ ih =>
      intro d hd
      obtain rfl | hd := List.mem_cons.mp hd
      · exact hfirst.wellFormed
      · exact ih d hd

-- The length of the string of a device with its terminator.
def stringSize (utf : Utf) (d : PersistentDevice) : Nat := ((utf.utf8ToWchar d.text).getD []).length + 1

theorem sum_stringSize {devices : List PersistentDevice} {strings : List (List WChar)}
    (h : List.Forall₂ (Encodes utf) devices strings) :
    (devices.map (stringSize utf)).sum = (strings.flatMap (· ++ [0])).length := by
  induction h with
  | nil => rfl
  | cons hd _ ih =>
      rw [List.map_cons, List.sum_cons, ih, stringSize, hd.converted, List.flatMap_cons, List.length_append]
      simp

theorem splitMultiSz_strings (hutf : utf.Converts) {devices : List PersistentDevice} {strings : List (List WChar)}
    (h : List.Forall₂ (Encodes utf) devices strings) (hnul : ∀ d ∈ devices, 0 ∉ d.text) (n : Nat) :
    splitMultiSz (strings.flatMap (· ++ [0]) ++ List.replicate n 0) = strings := by
  induction h with
  | nil =>
      cases n with
      | zero => exact splitMultiSz_nil
      | succ n => exact splitMultiSz_zero _
  | @cons d ws devices strings hd _ ih =>
      have hne : ws ≠ [] := by
        rintro rfl
        exact hutf.nonempty _ hd.converted
      have hclean : 0 ∉ ws := mt (hutf.terminator _ _ hd.converted).mp (hnul d (by simp))
      have hrest := ih fun x hx => hnul x (List.mem_cons_of_mem d hx)
      simp only [List.flatMap_cons, List.append_assoc, List.cons_append, List.nil_append]
      rw [splitMultiSz_append hne hclean, hrest]

theorem filterMap_strings (hutf : utf.Converts) {devices : List PersistentDevice} {strings : List (List WChar)}
    (h : List.Forall₂ (Encodes utf) devices strings) (hplain : ∀ d ∈ devices, d.location.IsPlain) :
    strings.filterMap (readDevice utf) = devices := by
  induction h with
  | nil => rfl
  | @cons d ws devices strings hd _ ih =>
      have hread : readDevice utf ws = some d := by
        have hparse := parse_text (hplain d (by simp))
        simp only [readDevice, hutf.decode _ _ hd.converted, Option.bind_some, hparse, hd.wellFormed,
          Bool.false_eq_true, if_false]
      rw [List.filterMap_cons_some hread, ih fun x hx => hplain x (List.mem_cons_of_mem d hx)]

-- A device that is read is plain, and its string is hardly longer than what was read.
theorem readDevice_spec (hutf : utf.Converts) {ws : List WChar} {d : PersistentDevice} (hnul : 0 ∉ ws)
    (h : readDevice utf ws = some d) : d.location.IsPlain ∧ stringSize utf d ≤ ws.length + 2 := by
  obtain ⟨s, hs, hd⟩ := Option.bind_eq_some_iff.mp h
  have hws := hutf.encode s ws hs
  dsimp only at hd
  split at hd
  · cases hd
  · rename_i hformed
    have hparse := Option.some.inj hd
    rw [hparse] at hformed
    obtain ⟨hfields, htext⟩ := parse_spec hparse (Bool.eq_false_iff.mpr hformed)
    refine ⟨fun field hfield => ?_, ?_⟩
    · obtain ⟨hcomma, hsub⟩ := hfields field hfield
      exact ⟨hcomma, fun hzero => hnul ((hutf.terminator s ws hws).mpr (hsub 0 hzero))⟩
    · rw [stringSize]
      obtain htext | htext := htext
      · rw [htext, hws]
        exact Nat.le_succ _
      · cases hws' : utf.utf8ToWchar d.text with
        | none => exact Nat.succ_le_succ (Nat.zero_le _)
        | some ws' =>
            obtain rfl := hutf.comma s ws ws' hws (htext ▸ hws')
            simp

theorem filterMap_spec (hutf : utf.Converts) (strings : List (List WChar)) (hnul : ∀ ws ∈ strings, 0 ∉ ws) :
    (∀ d ∈ strings.filterMap (readDevice utf), d.location.IsPlain) ∧
      ((strings.filterMap (readDevice utf)).map (stringSize utf)).sum ≤
        (strings.map fun ws => ws.length + 1).sum + strings.length := by
  induction strings with
  | nil => exact ⟨fun d hd => absurd hd List.not_mem_nil, Nat.le_refl _⟩
  | cons ws rest ih =>
      obtain ⟨hplain, hsize⟩ := ih fun x hx => hnul x (List.mem_cons_of_mem ws hx)
      cases hread : readDevice utf ws with
      | none =>
          rw [List.filterMap_cons_none hread, List.map_cons, List.sum_cons, List.length_cons]
          exact ⟨hplain, by omega⟩
      | some d =>
          obtain ⟨hd, hlen⟩ := readDevice_spec hutf (hnul ws (by simp)) hread
          rw [List.filterMap_cons_some hread, List.map_cons, List.map_cons, List.sum_cons, List.sum_cons,
            List.length_cons]
          refine ⟨fun x hx => ?_, by omega⟩
          obtain rfl | hx := List.mem_cons.mp hx
          · exact hd
          · exact hplain x hx

end Encoding

section Bytes

theorem length_wcharBytes (ws : List WChar) : (wcharBytes ws).length = 2 * ws.length := by
  simp [wcharBytes, Nat.mul_comm]

theorem wcharBytes_append (ws rest : List WChar) : wcharBytes (ws ++ rest) = wcharBytes ws ++ wcharBytes rest :=
  List.flatMap_append

theorem take_wcharBytes (ws : List WChar) (n : Nat) : (wcharBytes ws).take (2 * n) = wcharBytes (ws.take n) := by
  by_cases hn : n ≤ ws.length
  · have hlen : 2 * n = (wcharBytes (ws.take n)).length := by rw [length_wcharBytes, List.length_take_of_le hn]
    conv_lhs => rw [← List.take_append_drop n ws, wcharBytes_append, hlen, List.take_left]
  · have hle : ws.length ≤ n := Nat.le_of_not_le hn
    rw [List.take_of_length_le hle, List.take_of_length_le]
    rw [length_wcharBytes]
    omega

theorem le16_wcharBytes (c : WChar) : le16 (UInt8.ofNat c.toNat) (UInt8.ofNat (c.toNat / 2 ^ 8)) = c := by
  apply UInt16.toNat_inj.mp
  have hc := c.toNat_lt
  rw [le16, UInt16.toNat_ofNat_of_lt']
  · simp only [UInt8.toNat_ofNat']
    omega
  · simp only [UInt8.toNat_ofNat', UInt16.size]
    omega

theorem wchars_wcharBytes (ws : List WChar) : wchars (wcharBytes ws) = ws := by
  induction ws with
  | nil => rfl
  | cons c rest ih =>
      change le16 _ _ :: wchars (wcharBytes rest) = _
      rw [ih, le16_wcharBytes]

theorem length_resizeString (str : List WChar) (n : Nat) : (resizeString str n).length = n := by
  rw [resizeString, List.length_append, List.length_take, List.length_replicate]
  omega

theorem resizeString_append (str rest : List WChar) : resizeString (str ++ rest) str.length = str := by
  have hle : str.length ≤ (str ++ rest).length := by simp
  rw [resizeString, List.take_left, Nat.sub_eq_zero_of_le hle, List.replicate_zero, List.append_nil]

end Bytes

section Ioctl

variable {utf : Utf} {env : Env}

-- What the driver has stored of an accepted list is what its size as a `DWORD` covers.
theorem setPersistent_accepted {pool : Nat → Byte} {devices : List PersistentDevice}
    (h : (setPersistent utf env pool devices).1 = none) :
    ∃ multiSz, makeMultiSz utf devices = .ok multiSz ∧
      (setPersistent utf env pool devices).2 =
        some (wcharBytes (multiSz.take (2 * multiSz.length % 2 ^ 32 / 2))) := by
  cases hmake : makeMultiSz utf devices with
  | error err => simp [setPersistent, hmake] at h
  | ok multiSz =>
      refine ⟨multiSz, rfl, ?_⟩
      have hlen : (wcharBytes multiSz).length % 2 ^ 32 = 2 * (2 * multiSz.length % 2 ^ 32 / 2) := by
        rw [length_wcharBytes]
        omega
      simp only [setPersistent, hmake, hlen, take_wcharBytes] at h ⊢
      generalize wcharBytes (multiSz.take (2 * multiSz.length % 2 ^ 32 / 2)) = input at h ⊢
      have hbuffer : (systemRequest input 0 pool).buffer.take input.length = input := by
        simp [systemRequest]
      simp only [deviceIoControl, VhciIoctl.setPersistent, List.length_nil] at h ⊢
      by_cases herr : retrieveBuffer (systemRequest input 0 pool).inputLength 0 ≠ .STATUS_SUCCESS
      · simp [herr, Request.reply] at h
      · by_cases hopen : env.openPersistentState ≠ .STATUS_SUCCESS
        · simp [herr, hopen, Request.reply] at h
        · by_cases hassign : env.assignValue = .STATUS_SUCCESS
          · rw [if_neg herr, if_neg hopen]
            simp only [hassign, if_true]
            exact congrArg some hbuffer
          · simp [herr, hopen, hassign, Request.reply] at h

variable {stored : List WChar} (hopen : env.openPersistentState = .STATUS_SUCCESS)
  (hvalue : env.persistent = .value REG_MULTI_SZ (wcharBytes stored))

include hopen hvalue

-- A round of the loop: the value, or a buffer of its size for the next one.
theorem getPersistentDevices_succ (pool : Nat → Nat → Byte) (fuel : Nat) {val : List WChar} (hval : val ≠ []) :
    ∃ next : List WChar, next.length = stored.length ∧
      getPersistentDevices env pool (fuel + 1) val =
        if val.length < stored.length then getPersistentDevices env pool fuel next else some (.ok stored) := by
  have hpos : 0 < val.length := List.length_pos_iff.mpr hval
  have hretrieve : retrieveBuffer (2 * val.length) 0 = .STATUS_SUCCESS := by rw [retrieveBuffer, if_neg (by omega)]
  generalize hreq : systemRequest [] (2 * val.length) (pool fuel) = r
  have houtput : r.outputLength = 2 * val.length := by rw [← hreq]; rfl
  have hbuffer : r.buffer.length = 2 * val.length := by rw [Request.size, ← hreq]; exact Nat.zero_max _
  have hlength := length_wcharBytes stored
  by_cases hshort : val.length < stored.length
  · have hless : 2 * val.length < 2 * stored.length := by omega
    have hreply : VhciIoctl.getPersistent env r =
        { status := .STATUS_BUFFER_OVERFLOW
          information := 2 * stored.length
          output := overwrite r.buffer 0 ((wcharBytes stored).take (2 * val.length)) } := by
      simp [VhciIoctl.getPersistent, houtput, hretrieve, hopen, hvalue, queryValue, hlength, hless]
    simp only [hshort, if_true]
    refine ⟨resizeString (wchars (overwrite (wcharBytes val) 0
      ((overwrite r.buffer 0 ((wcharBytes stored).take (2 * val.length))).take (2 * stored.length)))) stored.length,
      length_resizeString _ _, ?_⟩
    simp [getPersistentDevices, deviceIoControl, length_wcharBytes, hreq, hreply, NTSTATUS.isError, dosError]
  · have hfits : ¬2 * val.length < 2 * stored.length := by omega
    have hreply : VhciIoctl.getPersistent env r =
        { status := .STATUS_SUCCESS
          information := 2 * stored.length
          output := overwrite r.buffer 0 (wcharBytes stored) } := by
      have htake : (wcharBytes stored).take (2 * val.length) = wcharBytes stored :=
        List.take_of_length_le (by omega)
      simp [VhciIoctl.getPersistent, houtput, hretrieve, hopen, hvalue, queryValue, hlength, hfits, htake]
    have hcopied : (overwrite r.buffer 0 (wcharBytes stored)).take (2 * stored.length) = wcharBytes stored := by
      rw [← hlength]
      exact take_overwrite_zero (by omega)
    have hread : resizeString (wchars (overwrite (wcharBytes val) 0 (wcharBytes stored))) stored.length = stored := by
      have hval' : wcharBytes val =
          [] ++ (wcharBytes (val.take stored.length) ++ wcharBytes (val.drop stored.length)) := by
        rw [← wcharBytes_append, List.take_append_drop, List.nil_append]
      have hold : (wcharBytes (val.take stored.length)).length = (wcharBytes stored).length := by
        rw [length_wcharBytes, length_wcharBytes, List.length_take_of_le (Nat.le_of_not_lt hshort)]
      have hcopy : overwrite (wcharBytes val) 0 (wcharBytes stored) =
          [] ++ (wcharBytes stored ++ wcharBytes (val.drop stored.length)) :=
        overwrite_of_append hval' rfl hold
      rw [hcopy, List.nil_append, ← wcharBytes_append, wchars_wcharBytes, resizeString_append]
    simp only [hshort, if_false]
    refine ⟨stored, rfl, ?_⟩
    simp [getPersistentDevices, deviceIoControl, length_wcharBytes, hreq, hreply, NTSTATUS.isError,
      NTSTATUS.isSuccess, hcopied, hread]

theorem getPersistentDevices_eq (pool : Nat → Nat → Byte) (fuel : Nat) :
    getPersistentDevices env pool (fuel + 2) (List.replicate 512 0) = some (.ok stored) := by
  have hinitial : List.replicate 512 (0 : WChar) ≠ [] :=
    List.ne_nil_of_length_pos (by rw [List.length_replicate]; decide)
  obtain ⟨next, hnext, heq⟩ := getPersistentDevices_succ hopen hvalue pool (fuel + 1) hinitial
  rw [heq]
  by_cases hshort : (List.replicate 512 (0 : WChar)).length < stored.length
  · rw [if_pos hshort]
    have hne : next ≠ [] := by
      rintro rfl
      rw [← hnext] at hshort
      exact absurd hshort (Nat.not_lt_zero _)
    obtain ⟨next', -, heq'⟩ := getPersistentDevices_succ hopen hvalue pool fuel hne
    rw [heq', hnext, if_neg (Nat.lt_irrefl _)]
  · rw [if_neg hshort]

theorem getPersistent_eq (utf : Utf) (pool : Nat → Nat → Byte) (fuel : Nat) :
    getPersistent utf env pool (fuel + 2) = some (.ok ((splitMultiSz stored).filterMap (readDevice utf))) := by
  rw [getPersistent, getPersistentDevices_eq hopen hvalue pool fuel]
  rfl

end Ioctl

section RoundTrip

variable {utf : Utf} (hutf : utf.Converts) {devices : List PersistentDevice} {multiSz : List WChar}
  (hmake : makeMultiSz utf devices = .ok multiSz)

include hutf hmake

-- All of the list is read back if it is stored as a whole and no device has a separator in its text.
theorem read_multiSz (hplain : ∀ d ∈ devices, d.location.IsPlain) :
    (splitMultiSz multiSz).filterMap (readDevice utf) = devices := by
  obtain ⟨strings, hstrings, rfl⟩ := makeMultiSz_spec hmake
  have hnul : ∀ d ∈ devices, 0 ∉ d.text := fun d hd =>
    not_mem_text (isMalformed_of_mem hstrings d hd) (hplain d hd)
  rw [splitMultiSz_strings hutf hstrings hnul, filterMap_strings hutf hstrings hplain]

omit hutf in
theorem length_multiSz (hne : devices ≠ []) : 2 * multiSz.length = multiSzSize utf devices := by
  obtain ⟨strings, hstrings, rfl⟩ := makeMultiSz_spec hmake
  have hempty : devices.isEmpty = false := by simpa using hne
  have hsize : multiSzSize utf devices = 2 * ((devices.map (stringSize utf)).sum + 1) := rfl
  rw [hsize, sum_stringSize hstrings, List.length_append, hempty]
  rfl

omit hmake in
-- Whatever is read of the first characters of a list, the text of it is not much longer than these.
theorem multiSzSize_le {n : Nat} (h : (splitMultiSz (multiSz.take n)).filterMap (readDevice utf) = devices) :
    (∀ d ∈ devices, d.location.IsPlain) ∧ multiSzSize utf devices ≤ 2 * (n + (n + 1) / 2 + 2) := by
  obtain ⟨hstrings, hsum⟩ := splitMultiSz_spec (multiSz.take n)
  obtain ⟨hplain, hsize⟩ := filterMap_spec hutf (splitMultiSz (multiSz.take n)) fun ws hws => (hstrings ws hws).2
  have hcount : 2 * (splitMultiSz (multiSz.take n)).length ≤
      ((splitMultiSz (multiSz.take n)).map fun ws => ws.length + 1).sum :=
    two_mul_length_le fun ws hws => (hstrings ws hws).1
  have htake : (multiSz.take n).length ≤ n := List.length_take_le n multiSz
  rw [h] at hplain hsize
  refine ⟨hplain, ?_⟩
  change 2 * ((devices.map (stringSize utf)).sum + 1) ≤ _
  omega

end RoundTrip

-- An accepted list is read back as it was if and only if the text of its devices has no separators and its size
-- is that of a `DWORD`.
theorem persistent_roundTrip_iff (utf : Utf) (hutf : utf.Converts) (env : Env) (pool : Nat → Byte)
    (devices : List PersistentDevice) (haccepted : (setPersistent utf env pool devices).1 = none) :
    ∃ stored, (setPersistent utf env pool devices).2 = some stored ∧
      ∀ (env' : Env) (pool' : Nat → Nat → Byte) (fuel : Nat), env'.openPersistentState = .STATUS_SUCCESS →
        env'.persistent = .value REG_MULTI_SZ stored →
        (getPersistent utf env' pool' (fuel + 2) = some (.ok devices) ↔
          (∀ d ∈ devices, d.location.IsPlain) ∧ multiSzSize utf devices < 2 ^ 32) := by
  obtain ⟨multiSz, hmake, hstored⟩ := setPersistent_accepted haccepted
  refine ⟨_, hstored, fun env' pool' fuel hopen hvalue => ?_⟩
  rw [getPersistent_eq hopen hvalue utf pool' fuel, Option.some_inj, Except.ok.injEq]
  constructor
  · intro hread
    obtain ⟨hplain, hle⟩ := multiSzSize_le hutf hread
    refine ⟨hplain, ?_⟩
    by_contra hlarge
    have hne : devices ≠ [] := by
      rintro rfl
      exact hlarge (by simp [multiSzSize])
    have hlength := length_multiSz hmake hne
    omega
  · rintro ⟨hplain, hsize⟩
    have hfits : 2 * multiSz.length < 2 ^ 32 := by
      by_cases hempty : devices = []
      · subst hempty
        obtain rfl := Except.ok.inj hmake
        decide
      · rwa [length_multiSz hmake hempty]
    have htake : multiSz.take (2 * multiSz.length % 2 ^ 32 / 2) = multiSz :=
      List.take_of_length_le (by omega)
    rw [htake]
    exact read_multiSz hutf hmake hplain

-- The conversions of ASCII text.
def asciiUtf : Utf where
  utf8ToWchar s :=
    if s ≠ [] ∧ s.all (fun c => c.toNat < 128) then some (s.map fun c => UInt16.ofNat c.toNat) else none
  wcharToUtf8 ws :=
    if ws ≠ [] ∧ ws.all (fun c => c.toNat < 128) then some (ws.map fun c => UInt8.ofNat c.toNat) else none

theorem asciiUtf_toWchar {s : List Byte} {ws : List WChar} :
    asciiUtf.utf8ToWchar s = some ws ↔
      (s ≠ [] ∧ ∀ c ∈ s, c.toNat < 128) ∧ ws = s.map fun c => UInt16.ofNat c.toNat := by
  simp only [asciiUtf, Option.ite_none_right_eq_some, Option.some_inj, List.all_eq_true, decide_eq_true_eq]
  rw [eq_comm]

theorem asciiUtf_toUtf8 {s : List Byte} {ws : List WChar} :
    asciiUtf.wcharToUtf8 ws = some s ↔
      (ws ≠ [] ∧ ∀ c ∈ ws, c.toNat < 128) ∧ s = ws.map fun c => UInt8.ofNat c.toNat := by
  simp only [asciiUtf, Option.ite_none_right_eq_some, Option.some_inj, List.all_eq_true, decide_eq_true_eq]
  rw [eq_comm]

theorem toNat_ofNat_byte {c : Byte} : (UInt16.ofNat c.toNat).toNat = c.toNat :=
  UInt16.toNat_ofNat_of_lt' (lt_trans c.toNat_lt (by decide))

theorem toNat_ofNat_wchar {c : WChar} (h : c.toNat < 128) : (UInt8.ofNat c.toNat).toNat = c.toNat :=
  UInt8.toNat_ofNat_of_lt' (lt_trans h (by decide))

theorem asciiUtf_converts : asciiUtf.Converts where
  nonempty s h := by
    obtain ⟨⟨hne, -⟩, hmap⟩ := asciiUtf_toWchar.mp h
    exact hne (List.map_eq_nil_iff.mp hmap.symm)
  decode s ws h := by
    obtain ⟨⟨hne, hascii⟩, rfl⟩ := asciiUtf_toWchar.mp h
    refine asciiUtf_toUtf8.mpr ⟨⟨by simpa using hne, ?_⟩, ?_⟩
    · intro c hc
      obtain ⟨b, hb, rfl⟩ := List.mem_map.mp hc
      rw [toNat_ofNat_byte]
      exact hascii b hb
    · rw [List.map_map]
      exact (List.map_id'' (fun c => UInt8.toNat_inj.mp (by simp)) s).symm
  encode s ws h := by
    obtain ⟨⟨hne, hascii⟩, rfl⟩ := asciiUtf_toUtf8.mp h
    refine asciiUtf_toWchar.mpr ⟨⟨by simpa using hne, ?_⟩, ?_⟩
    · intro c hc
      obtain ⟨b, hb, rfl⟩ := List.mem_map.mp hc
      rw [toNat_ofNat_wchar (hascii b hb)]
      exact hascii b hb
    · rw [List.map_map]
      refine (List.map_congr_left fun c hc => ?_).trans (List.map_id ws) |>.symm
      exact UInt16.toNat_inj.mp (toNat_ofNat_byte.trans (toNat_ofNat_wchar (hascii c hc)))
  terminator s ws h := by
    obtain ⟨-, rfl⟩ := asciiUtf_toWchar.mp h
    rw [List.mem_map]
    constructor
    · rintro ⟨c, hc, hzero⟩
      have hnat := congrArg UInt16.toNat hzero
      rw [toNat_ofNat_byte] at hnat
      obtain rfl : c = 0 := UInt8.toNat_inj.mp hnat
      exact hc
    · exact fun hzero => ⟨0, hzero, rfl⟩
  comma s ws ws' h h' := by
    obtain ⟨-, rfl⟩ := asciiUtf_toWchar.mp h
    obtain ⟨-, rfl⟩ := asciiUtf_toWchar.mp h'
    rw [List.map_append]
    rfl

def deviceWithComma : PersistentDevice where
  location := { hostname := [97, 44, 98], service := [51, 50, 52, 48], busid := [49, 45, 49] }

theorem persistent_comma_lost :
    ¬ ∀ (utf : Utf), utf.Converts → ∀ (env : Env) (pool : Nat → Byte) (devices : List PersistentDevice),
      (setPersistent utf env pool devices).1 = none →
      ∀ (stored : List Byte), (setPersistent utf env pool devices).2 = some stored →
      ∀ (env' : Env) (pool' : Nat → Nat → Byte) (fuel : Nat), env'.openPersistentState = .STATUS_SUCCESS →
        env'.persistent = .value REG_MULTI_SZ stored →
        getPersistent utf env' pool' (fuel + 2) = some (.ok devices) := by
  intro h
  have haccepted : (setPersistent asciiUtf {} (fun _ => 0) [deviceWithComma]).1 = none := by decide
  obtain ⟨multiSz, hmake, hstored⟩ := setPersistent_accepted haccepted
  have hread := h asciiUtf asciiUtf_converts {} (fun _ => 0) _ haccepted _ hstored
    { persistent := .value REG_MULTI_SZ _ } (fun _ _ => 0) 0 rfl rfl
  rw [getPersistent_eq rfl rfl asciiUtf (fun _ _ => 0) 0] at hread
  have hplain := (multiSzSize_le asciiUtf_converts (Except.ok.inj (Option.some.inj hread))).1
  exact absurd (hplain deviceWithComma (by simp)) (by decide)

def plainDevice : PersistentDevice where
  location := { hostname := [112, 99], service := [51, 50, 52, 48], busid := [51, 45, 51] }

theorem persistent_roundTrip_one :
    ∃ stored, (setPersistent asciiUtf {} (fun _ => 0) [plainDevice]).2 = some stored ∧
      ∀ (env' : Env) (pool' : Nat → Nat → Byte) (fuel : Nat), env'.openPersistentState = .STATUS_SUCCESS →
        env'.persistent = .value REG_MULTI_SZ stored →
        (getPersistent asciiUtf env' pool' (fuel + 2) = some (.ok [plainDevice]) ↔
          (∀ d ∈ [plainDevice], d.location.IsPlain) ∧ multiSzSize asciiUtf [plainDevice] < 2 ^ 32) :=
  persistent_roundTrip_iff asciiUtf asciiUtf_converts {} (fun _ => 0) [plainDevice] (by decide)

end Usbip.Libusbip.Persistent

import Usbip.DeviceFilter.Check.Theorems
import Usbip.Libusbip.Remote.Theorems
import Usbip.VhciIoctl.Import
import Usbip.VhciIoctl.Imported.Theorems

namespace Usbip.VhciIoctl.Import

open Usbip.DeviceFilter (RegistryQuery checkDevice callService callService_triple recv_triple)
open Usbip.Library.Hoare
open Usbip.Library.Separated
open Usbip.Library.Words
open Usbip.Library.Writes
open Usbip.Libusbip.Remote (UsbipUsbDevice BUS_ID_SIZE USBIP_VERSION byteswap le16At le32At sizeofUsbDevice swap16
  beBytes16 bytes16_le16 bytes16_swap16 swap16_swap16)
open Usbip.Persistent (Rtl UnicodeString unicodeToUtf8 cString)
open Usbip.VhciIoctl.Imported (overwrite_eq_run set_run_terminator)

variable {rtl : Rtl} {w t : World}

section Services

variable {c d : DeviceFilter.World} {bytes : List Byte} {len : Nat}

theorem callService_eq_ok :
    callService c = .ok () d ↔ c.service c.calls = none ∧ d = { c with calls := c.calls + 1 } := by
  have hcall : callService c = (c.service c.calls).elim (.ok () { c with calls := c.calls + 1 })
      (fun st => .error (.status st) { c with calls := c.calls + 1 }) := by
    rw [callService, run_get_bind, run_modify_bind]
    cases c.service c.calls <;> rfl
  rw [hcall]
  cases c.service c.calls with
  | none => simp [eq_comm]
  | some st => simp

theorem recv_of_served (len : Nat) (h : c.service c.calls = none) : DeviceFilter.recv len c =
    if c.stream.length < len then .error (.status .STATUS_RECEIVE_PARTIAL) { c with calls := c.calls + 1 }
    else .ok (c.stream.take len) { c with calls := c.calls + 1, stream := c.stream.drop len } := by
  rw [DeviceFilter.recv, bind_of_ok (callService_eq_ok.mpr ⟨h, rfl⟩)]
  change (if c.stream.length < len then _ else _ : DeviceFilter.Check _) _ = _
  split <;> rfl

theorem recv_eq_ok : DeviceFilter.recv len c = .ok bytes d ↔ c.service c.calls = none ∧
    bytes.length = len ∧ ∃ rest, c.stream = bytes ++ rest ∧ d = { c with calls := c.calls + 1, stream := rest } := by
  constructor
  · intro h
    obtain ⟨⟨⟩, u, hcall, -⟩ := bind_eq_ok.mp h
    have hserved := (callService_eq_ok.mp hcall).1
    rw [recv_of_served len hserved] at h
    split at h
    · cases h
    · rename_i hlen
      cases h
      exact ⟨hserved, List.length_take_of_le (Nat.not_lt.mp hlen), c.stream.drop len,
        (List.take_append_drop len c.stream).symm, rfl⟩
  · rintro ⟨hserved, hlen, rest, hstream, rfl⟩
    have henough : ¬c.stream.length < len := by
      rw [hstream, List.length_append]
      omega
    rw [recv_of_served len hserved, if_neg henough, hstream, List.take_left' hlen, List.drop_left' hlen]

theorem ofCheck_eq_ok {α : Type} {x : DeviceFilter.Check α} {a : α} :
    ofCheck x w = .ok a t ↔ ∃ d, x w.connection = .ok a d ∧ t = { w with connection := d } := by
  unfold ofCheck
  cases x w.connection with
  | ok b d =>
      constructor
      · rintro ⟨⟩
        exact ⟨d, rfl, rfl⟩
      · rintro ⟨d', ⟨rfl⟩, rfl⟩
        rfl
  | error stop d => simp

-- What the code does before `check_device` leaves the context of the device as it is.
structure Keeps (w₀ w : World) : Prop where
  busid : w.busid = w₀.busid
  vendor : w.vendor = w₀.vendor
  product : w.product = w₀.product
  ext : w.connection.ext = w₀.connection.ext

theorem ofCheck_triple {α : Type} {x : DeviceFilter.Check α} {w₀ : World} {Q : α → DeviceFilter.World → Prop}
    (h : Triple (DeviceFilter.At w₀.connection.ext) x Q (DeviceFilter.Failed w₀.connection.ext))
    (hQ : ∀ a d, Q a d → DeviceFilter.At w₀.connection.ext d) :
    Triple (Keeps w₀) (ofCheck x) (fun _ => Keeps w₀) fun _ => Keeps w₀ := by
  intro w hw
  unfold ofCheck
  cases hx : x w.connection with
  | ok a d => exact ⟨hw.busid, hw.vendor, hw.product, hQ a d (h.ok hw.ext hx)⟩
  | error stop d => exact ⟨hw.busid, hw.vendor, hw.product, (h.error hw.ext hx).2⟩

end Services

section Strings

variable {n : Nat} {first second : List Byte}

theorem cString_cons (c : Byte) (bytes : List Byte) :
    cString (c :: bytes) = if c = 0 then [] else c :: cString bytes := by
  by_cases hc : c = 0
  · simp [cString, hc]
  · simp [cString, hc]

theorem cString_append_zero (bytes rest : List Byte) : cString (bytes ++ 0 :: rest) = cString bytes := by
  induction bytes with
  | nil => rfl
  | cons c bytes ih => rw [List.cons_append, cString_cons, cString_cons, ih]

-- The string in an array that a text was written to, with a terminator if there is room for it.
theorem cString_run {text : List Byte} {dst : Vector Byte n} (hroom : text.length ≤ n) :
    cString (Write.run ⟨0, text ++ [0]⟩ dst.toList) = cString text := by
  simp only [Write.run, List.take_zero, List.nil_append, Nat.zero_add, Vector.length_toList]
  by_cases hfull : text.length = n
  · rw [List.append_assoc, List.take_append_of_le_length hfull.ge, List.take_of_length_le hfull.le]
  · obtain ⟨k, hk⟩ := Nat.exists_eq_add_of_lt (Nat.lt_of_le_of_ne hroom hfull)
    have hrest : n - text.length = k + 1 := by omega
    rw [List.append_assoc, List.take_append, List.take_of_length_le hroom, hrest, List.singleton_append,
      List.take_succ_cons, cString_append_zero]

-- The two arrays hold the same string.
theorem strncmpEqual_iff (hfirst : first.length = n) (hsecond : second.length = n) :
    strncmpEqual n first second = true ↔ cString first = cString second := by
  induction n generalizing first second with
  | zero =>
      obtain rfl := List.length_eq_zero_iff.mp hfirst
      obtain rfl := List.length_eq_zero_iff.mp hsecond
      simp [strncmpEqual]
  | succ n ih =>
      obtain ⟨a, first, rfl⟩ := List.exists_cons_of_length_eq_add_one hfirst
      obtain ⟨b, second, rfl⟩ := List.exists_cons_of_length_eq_add_one hsecond
      have hrest := ih (Nat.succ_inj.mp hfirst) (Nat.succ_inj.mp hsecond)
      rw [strncmpEqual, cString_cons, cString_cons, Bool.and_eq_true, Bool.or_eq_true, beq_iff_eq, beq_iff_eq, hrest]
      by_cases ha : a = 0
      · rw [if_pos ha]
        by_cases hb : b = 0
        · simp [ha, hb]
        · rw [if_neg hb]
          simp [ha, Ne.symm hb]
      · rw [if_neg ha]
        by_cases hb : b = 0
        · simp [ha, hb]
        · simp [ha, if_neg hb]

-- The conversion of the bus id for an array of its size.
def converted (rtl : Rtl) (w : World) : NTSTATUS × List Byte :=
  rtl.unicodeToUTF8N (w.busid.buffer.map (·.take (w.busid.length / 2))) BUS_ID_SIZE

theorem busidToUtf8_eq_ok {dst : Vector Byte BUS_ID_SIZE} {array : List Byte} :
    busidToUtf8 rtl dst w = .ok array t ↔ (converted rtl w).1 = .STATUS_SUCCESS ∧
      array = Write.run ⟨0, (converted rtl w).2 ++ [0]⟩ dst.toList ∧ t = w := by
  have harray : unicodeToUtf8 rtl dst.toList w.busid =
      ((converted rtl w).1, Write.run ⟨0, (converted rtl w).2 ++ [0]⟩ dst.toList) := by
    rw [← set_run_terminator]
    simp only [unicodeToUtf8, overwrite_eq_run, Write.length_run, Vector.length_toList, converted]
  have hrun : busidToUtf8 rtl dst w = if (converted rtl w).1 ≠ .STATUS_SUCCESS then .error (.status (converted rtl w).1) w
      else .ok (Write.run ⟨0, (converted rtl w).2 ++ [0]⟩ dst.toList) w := by
    rw [busidToUtf8, run_get_bind]
    simp only [harray]
    split <;> rfl
  rw [hrun]
  by_cases hst : (converted rtl w).1 = .STATUS_SUCCESS
  · simp [hst, eq_comm]
  · simp [hst]

end Strings

section Messages

-- An `op_common` as it is sent.
def opCommonBytes (code : UInt16) (status : UInt32) : List Byte :=
  beBytes16 USBIP_VERSION ++ (beBytes16 code ++ beBytes status)

theorem beBytes16_of_swap16 {b0 b1 : Byte} {word : UInt16} (h : swap16 (le16 b0 b1) = word) :
    [b0, b1] = beBytes16 word := by
  rw [← bytes16_le16, ← bytes16_swap16, ← h, swap16_swap16]

theorem beBytes_of_swap32 {b0 b1 b2 b3 : Byte} {word : UInt32} (h : swap32 (le32 b0 b1 b2 b3) = word) :
    [b0, b1, b2, b3] = beBytes word := by
  obtain ⟨h0, h1, h2, h3⟩ := byteOf_le32 b0 b1 b2 b3
  rw [← bytes32_swap32_eq_beBytes, ← h, swap32_swap32, bytes32, h0, h1, h2, h3]

theorem eq_opCommonBytes {r : List Byte} {code : UInt16} {status : UInt32} (hlen : r.length = 8)
    (hversion : swap16 (le16At r 0) = USBIP_VERSION) (hcode : swap16 (le16At r 2) = code)
    (hstatus : swap32 (le32At r 4) = status) : r = opCommonBytes code status := by
  rcases r with _ | ⟨b0, _ | ⟨b1, _ | ⟨b2, _ | ⟨b3, _ | ⟨b4, _ | ⟨b5, _ | ⟨b6, _ | ⟨b7, rest⟩⟩⟩⟩⟩⟩⟩⟩
  all_goals simp only [List.length_cons, List.length_nil, Nat.reduceAdd, Nat.reduceEqDiff] at hlen
  obtain rfl : rest = [] := List.length_eq_zero_iff.mp (by omega)
  rw [opCommonBytes, ← beBytes16_of_swap16 hversion, ← beBytes16_of_swap16 hcode, ← beBytes_of_swap32 hstatus]
  rfl

theorem opStatusError_eq_none {status : UInt32} : opStatusError status = none ↔ status = ST_OK := by
  constructor
  · intro h
    by_contra hne
    have hsigned : signed status ≠ 0 := by
      intro h0
      apply hne
      rw [← ofSigned_signed status, h0]
      rfl
    simp only [opStatusError, if_neg hsigned] at h
    split_ifs at h
  · rintro rfl
    decide

theorem recvOpCommon_eq_ok : recvOpCommon OP_REP_IMPORT w = .ok () t ↔
    w.connection.service w.connection.calls = none ∧
      ∃ rest, w.connection.stream = opCommonBytes OP_REP_IMPORT ST_OK ++ rest ∧
        t = { w with connection := { w.connection with calls := w.connection.calls + 1, stream := rest } } := by
  rw [recvOpCommon, bind_eq_ok]
  constructor
  · rintro ⟨r, u, hr, hcheck⟩
    obtain ⟨d, hd, rfl⟩ := ofCheck_eq_ok.mp hr
    obtain ⟨hserved, hlen, rest, hstream, rfl⟩ := recv_eq_ok.mp hd
    by_cases hversion : swap16 (le16At r 0) = USBIP_VERSION
    · by_cases hcode : swap16 (le16At r 2) = OP_REP_IMPORT
      · simp only [hversion, hcode, ne_eq, not_true_eq_false, if_false] at hcheck
        cases hst : opStatusError (swap32 (le32At r 4)) with
        | some err =>
            rw [hst] at hcheck
            cases hcheck
        | none =>
            rw [hst] at hcheck
            cases hcheck
            refine ⟨hserved, rest, ?_, rfl⟩
            rw [hstream, eq_opCommonBytes hlen hversion hcode (opStatusError_eq_none.mp hst)]
      · simp only [hversion, hcode, ne_eq, not_true_eq_false, not_false_eq_true, if_false, if_true] at hcheck
        cases hcheck
    · simp only [hversion, ne_eq, not_false_eq_true, if_true] at hcheck
      cases hcheck
  · rintro ⟨hserved, rest, hstream, rfl⟩
    have hversion : swap16 (le16At (opCommonBytes OP_REP_IMPORT ST_OK) 0) = USBIP_VERSION := by decide
    have hcode : swap16 (le16At (opCommonBytes OP_REP_IMPORT ST_OK) 2) = OP_REP_IMPORT := by decide
    have hstatus : opStatusError (swap32 (le32At (opCommonBytes OP_REP_IMPORT ST_OK) 4)) = none := by decide
    refine ⟨opCommonBytes OP_REP_IMPORT ST_OK, _, ofCheck_eq_ok.mpr ⟨_, recv_eq_ok.mpr
      ⟨hserved, rfl, rest, hstream, rfl⟩, rfl⟩, ?_⟩
    simp only [hversion, hcode, hstatus, ne_eq, not_true_eq_false, if_false]
    rfl

-- The request for the device with this bus id; the rest of the array is zero.
def requestBytes (busid : List Byte) : List Byte :=
  opCommonBytes OP_REQ_IMPORT ST_OK ++ (busid ++ List.replicate (BUS_ID_SIZE - busid.length) 0)

-- The world once the request has been sent.
def requested (busid : List Byte) (w : World) : World :=
  { w with
    sent := w.sent ++ requestBytes busid
    connection := { w.connection with calls := w.connection.calls + 1 } }

theorem sendReqImport_eq_ok (hroom : (converted rtl w).2.length ≤ BUS_ID_SIZE) :
    sendReqImport rtl w = .ok () t ↔ (converted rtl w).1 = .STATUS_SUCCESS ∧
      w.connection.service w.connection.calls = none ∧ t = requested (converted rtl w).2 w := by
  have harray : Write.run ⟨0, (converted rtl w).2 ++ [0]⟩ (Vector.replicate BUS_ID_SIZE (0 : Byte)).toList =
      (converted rtl w).2 ++ List.replicate (BUS_ID_SIZE - (converted rtl w).2.length) 0 := by
    rw [Vector.toList_replicate, Write.run_replicate hroom]
  have hheader : bytes16 (swap16 USBIP_VERSION) ++ (bytes16 (swap16 OP_REQ_IMPORT) ++ bytes32 (swap32 ST_OK)) =
      opCommonBytes OP_REQ_IMPORT ST_OK := by
    rw [opCommonBytes, bytes16_swap16, bytes16_swap16, bytes32_swap32_eq_beBytes]
  rw [sendReqImport, bind_eq_ok]
  constructor
  · rintro ⟨array, u, hbusid, hsend⟩
    obtain ⟨hst, rfl, rfl⟩ := busidToUtf8_eq_ok.mp hbusid
    obtain ⟨⟨⟩, v, hcall, hmodify⟩ := bind_eq_ok.mp hsend
    obtain ⟨d, hd, rfl⟩ := ofCheck_eq_ok.mp hcall
    obtain ⟨hserved, rfl⟩ := callService_eq_ok.mp hd
    cases hmodify
    refine ⟨hst, hserved, ?_⟩
    rw [requested, requestBytes, ← hheader, ← harray]
    simp only [List.append_assoc]
  · rintro ⟨hst, hserved, rfl⟩
    refine ⟨_, w, busidToUtf8_eq_ok.mpr ⟨hst, rfl, rfl⟩, bind_eq_ok.mpr ⟨(), _, ofCheck_eq_ok.mpr
      ⟨_, callService_eq_ok.mpr ⟨hserved, rfl⟩, rfl⟩, ?_⟩⟩
    rw [requested, requestBytes, ← hheader, ← harray]
    simp only [List.append_assoc]
    rfl

theorem recvRepImport_eq_ok {noise : Vector Byte BUS_ID_SIZE} {udev : UsbipUsbDevice}
    (hroom : (converted rtl w).2.length ≤ BUS_ID_SIZE) :
    recvRepImport rtl noise w = .ok udev t ↔ (converted rtl w).1 = .STATUS_SUCCESS ∧
      w.connection.service w.connection.calls = none ∧ w.connection.service (w.connection.calls + 1) = none ∧
      cString udev.busid = cString (converted rtl w).2 ∧
      ∃ bytes rest, bytes.length = sizeofUsbDevice ∧ udev = byteswap (.ofBytes bytes) ∧
        w.connection.stream = opCommonBytes OP_REP_IMPORT ST_OK ++ (bytes ++ rest) ∧
        t = { w with connection := { w.connection with calls := w.connection.calls + 2, stream := rest } } := by
  have hsize : ∀ bytes : List Byte, bytes.length = sizeofUsbDevice →
      (byteswap (.ofBytes bytes)).busid.length = BUS_ID_SIZE := by
    intro bytes hlen
    simp only [byteswap, UsbipUsbDevice.ofBytes, List.length_take, List.length_drop, hlen]
    rfl
  have hstring : cString (Write.run ⟨0, (converted rtl w).2 ++ [0]⟩ noise.toList) = cString (converted rtl w).2 :=
    cString_run hroom
  have harray : (Write.run ⟨0, (converted rtl w).2 ++ [0]⟩ noise.toList).length = BUS_ID_SIZE := by simp
  rw [recvRepImport, bind_eq_ok]
  constructor
  · rintro ⟨⟨⟩, u, hcommon, hrest⟩
    obtain ⟨hserved, tail, hstream, rfl⟩ := recvOpCommon_eq_ok.mp hcommon
    obtain ⟨bytes, v, hreply, hrest⟩ := bind_eq_ok.mp hrest
    obtain ⟨d, hd, rfl⟩ := ofCheck_eq_ok.mp hreply
    obtain ⟨hserved', hlen, rest, htail, rfl⟩ := recv_eq_ok.mp hd
    obtain ⟨array, x, hbusid, hcompare⟩ := bind_eq_ok.mp hrest
    obtain ⟨hst, rfl, rfl⟩ := busidToUtf8_eq_ok.mp hbusid
    by_cases heq : strncmpEqual BUS_ID_SIZE (byteswap (.ofBytes bytes)).busid
        (Write.run ⟨0, (converted rtl w).2 ++ [0]⟩ noise.toList) = true
    · have hsame := (strncmpEqual_iff (hsize bytes hlen) harray).mp heq
      change (if strncmpEqual BUS_ID_SIZE (byteswap (.ofBytes bytes)).busid
        (Write.run ⟨0, (converted rtl w).2 ++ [0]⟩ noise.toList) = false then _ else _ : ImportM _) _ = _ at hcompare
      rw [if_neg (by simp [heq])] at hcompare
      cases hcompare
      refine ⟨hst, hserved, hserved', hsame.trans hstring, bytes, rest, hlen, rfl, ?_, rfl⟩
      rw [hstream, ← htail]
    · change (if strncmpEqual BUS_ID_SIZE (byteswap (.ofBytes bytes)).busid
        (Write.run ⟨0, (converted rtl w).2 ++ [0]⟩ noise.toList) = false then _ else _ : ImportM _) _ = _ at hcompare
      rw [if_pos (by simpa using heq)] at hcompare
      cases hcompare
  · rintro ⟨hst, hserved, hserved', hbusid, bytes, rest, hlen, rfl, hstream, rfl⟩
    have heq := (strncmpEqual_iff (hsize bytes hlen) harray).mpr (hbusid.trans hstring.symm)
    refine ⟨(), _, recvOpCommon_eq_ok.mpr ⟨hserved, _, hstream, rfl⟩, bind_eq_ok.mpr ⟨bytes, _, ofCheck_eq_ok.mpr
      ⟨_, recv_eq_ok.mpr ⟨hserved', hlen, rest, rfl, rfl⟩, rfl⟩, bind_eq_ok.mpr ⟨_, _, busidToUtf8_eq_ok.mpr
      ⟨hst, rfl, rfl⟩, ?_⟩⟩⟩
    change (if strncmpEqual BUS_ID_SIZE (byteswap (.ofBytes bytes)).busid
      (Write.run ⟨0, (converted rtl w).2 ++ [0]⟩ noise.toList) = false then _ else _ : ImportM _) _ = _
    rw [if_neg (by simp [heq])]
    rfl

end Messages

section Handshake

-- The request can be sent, and the server answers it with the device that was asked for; `rest` is what follows.
structure Granted (rtl : Rtl) (w : World) (udev : UsbipUsbDevice) (rest : List Byte) : Prop where
  converted : (converted rtl w).1 = .STATUS_SUCCESS
  served : ∀ n < 3, w.connection.service (w.connection.calls + n) = none
  busid : cString udev.busid = cString (Import.converted rtl w).2
  reply : ∃ bytes, bytes.length = sizeofUsbDevice ∧ udev = byteswap (.ofBytes bytes) ∧
    w.connection.stream = opCommonBytes OP_REP_IMPORT ST_OK ++ (bytes ++ rest)

-- The world in which `check_device` begins then.
def granted (rtl : Rtl) (w : World) (udev : UsbipUsbDevice) (rest : List Byte) : World :=
  setProperties udev
    { w with
      sent := w.sent ++ requestBytes (converted rtl w).2
      connection := { w.connection with calls := w.connection.calls + 3, stream := rest } }

variable {noise : Vector Byte BUS_ID_SIZE}

theorem granted_iff (hroom : (converted rtl w).2.length ≤ BUS_ID_SIZE) {udev : UsbipUsbDevice} :
    (sendReqImport rtl >>= fun _ => recvRepImport rtl noise) w = .ok udev t ↔ ∃ rest, Granted rtl w udev rest ∧
      t = { w with
        sent := w.sent ++ requestBytes (converted rtl w).2
        connection := { w.connection with calls := w.connection.calls + 3, stream := rest } } := by
  have hsame : converted rtl (requested (converted rtl w).2 w) = converted rtl w := rfl
  rw [bind_eq_ok]
  constructor
  · rintro ⟨⟨⟩, u, hsend, hrecv⟩
    obtain ⟨hst, h0, rfl⟩ := (sendReqImport_eq_ok hroom).mp hsend
    obtain ⟨-, h1, h2, hbusid, bytes, rest, hlen, hudev, hstream, rfl⟩ :=
      (recvRepImport_eq_ok (by rwa [hsame])).mp hrecv
    refine ⟨rest, ⟨hst, fun n hn => ?_, hbusid, bytes, hlen, hudev, hstream⟩, rfl⟩
    obtain rfl | rfl | rfl : n = 0 ∨ n = 1 ∨ n = 2 := by omega
    · exact h0
    · exact h1
    · exact h2
  · rintro ⟨rest, ⟨hst, hserved, hbusid, bytes, hlen, hudev, hstream⟩, rfl⟩
    refine ⟨(), _, (sendReqImport_eq_ok hroom).mpr ⟨hst, hserved 0 (by omega), rfl⟩, ?_⟩
    rw [recvRepImport_eq_ok (by rwa [hsame])]
    exact ⟨hst, hserved 1 (by omega), hserved 2 (by omega), hbusid, bytes, rest, hlen, hudev, hstream, rfl⟩

theorem keeps_of_handshake (rtl : Rtl) (noise : Vector Byte BUS_ID_SIZE) (w₀ : World) :
    Triple (Keeps w₀) (sendReqImport rtl >>= fun _ => recvRepImport rtl noise) (fun _ => Keeps w₀)
      fun _ => Keeps w₀ := by
  have hbusid : ∀ dst, Triple (Keeps w₀) (busidToUtf8 rtl dst) (fun _ => Keeps w₀) fun _ => Keeps w₀ := by
    intro dst
    refine Triple.get_bind fun w => ?_
    exact Triple.ite (fun _ => Triple.throw _ fun _ h => h.2) fun _ => Triple.pure _ fun _ h => h.2
  have hrecv : ∀ len, Triple (Keeps w₀) (recv len) (fun _ => Keeps w₀) fun _ => Keeps w₀ :=
    fun len => ofCheck_triple (recv_triple _ len) fun _ _ h => h.2
  refine Triple.bind (Q := fun _ => Keeps w₀) ?_ fun _ => ?_
  · refine (hbusid _).bind fun _ => Triple.bind (Q := fun _ => Keeps w₀) ?_ fun _ => Triple.update fun _ h => ?_
    · exact ofCheck_triple (callService_triple _) fun _ _ h => h
    · exact ⟨h.busid, h.vendor, h.product, h.ext⟩
  · refine Triple.bind (Q := fun _ => Keeps w₀) ((hrecv 8).bind fun r => ?_) fun _ => ?_
    · refine Triple.ite (fun _ => Triple.throw _ fun _ => id) fun _ => ?_
      refine Triple.ite (fun _ => Triple.throw _ fun _ => id) fun _ => ?_
      cases opStatusError (swap32 (le32At r 4)) with
      | some err => exact Triple.throw _ fun _ => id
      | none => exact Triple.pure _ fun _ => id
    · refine (hrecv _).bind fun _ => (hbusid _).bind fun _ => ?_
      exact Triple.ite (fun _ => Triple.throw _ fun _ => id) fun _ => Triple.pure _ fun _ => id

-- The device is checked if and only if the server grants the one that was asked for, with what follows its reply; in
-- any other case the import fails and has set nothing.
theorem import_handshake (hroom : ∀ src room, (rtl.unicodeToUTF8N src room).2.length ≤ room)
    (parse : ParseDescriptors) (noise : Vector Byte BUS_ID_SIZE) (garbage : Nat → Byte) (query : RegistryQuery)
    (w : World) :
    (∀ udev rest, Granted rtl w udev rest → importRemoteDevice rtl parse noise garbage query w =
      ofCheck (checkDevice parse garbage query (filtered udev)) (granted rtl w udev rest)) ∧
    ((¬∃ udev rest, Granted rtl w udev rest) → ∃ stop final,
      importRemoteDevice rtl parse noise garbage query w = .error stop final ∧ Keeps w final) := by
  have hassoc : importRemoteDevice rtl parse noise garbage query =
      (sendReqImport rtl >>= fun _ => recvRepImport rtl noise) >>= fun udev =>
        (modify (setProperties udev) >>= fun _ => ofCheck (checkDevice parse garbage query (filtered udev))) := by
    rw [bind_assoc]
    rfl
  rw [hassoc]
  constructor
  · intro udev rest hgranted
    rw [bind_of_ok ((granted_iff (hroom _ _)).mpr ⟨rest, hgranted, rfl⟩)]
    rfl
  · intro hnone
    cases hrun : (sendReqImport rtl >>= fun _ => recvRepImport rtl noise) w with
    | ok udev t =>
        obtain ⟨rest, hgranted, -⟩ := (granted_iff (hroom _ _)).mp hrun
        exact absurd ⟨udev, rest, hgranted⟩ hnone
    | error stop t =>
        rw [bind_of_error hrun]
        exact ⟨stop, t, rfl, (keeps_of_handshake rtl noise w).error ⟨rfl, rfl, rfl, rfl⟩ hrun⟩

end Handshake

open Usbip.DeviceFilter (storageQuery storageWorld)
open Usbip.Libusbip.Persistent (WChar)
open Usbip.Libusbip.Remote (ExportedDevice byteswap_ofBytes exportedDrive)
open Usbip.Persistent (asciiRtl unicodeString)

theorem asciiRtl_room (src : Option (List WChar)) (room : Nat) :
    (asciiRtl.unicodeToUTF8N src room).2.length ≤ room := by
  simp only [asciiRtl]
  split
  · exact Nat.zero_le _
  · exact Nat.zero_le _
  · split_ifs with hroom
    · exact hroom
    · exact List.length_take_le _ _

-- A device with this bus id is asked for, and the server grants the drive.
def driveWorld (busid : List WChar) : World where
  busid := unicodeString busid
  connection := { storageWorld with
    stream := opCommonBytes OP_REP_IMPORT ST_OK ++ (exportedDrive.bytes ++ storageWorld.stream) }

-- What the array has before.
def stackNoise : Vector Byte BUS_ID_SIZE := Vector.replicate BUS_ID_SIZE 255

theorem import_handshake_drive :
    importRemoteDevice asciiRtl usbdParseDescriptors stackNoise (fun _ => 0) storageQuery (driveWorld [49, 45, 51]) =
      ofCheck (checkDevice usbdParseDescriptors (fun _ => 0) storageQuery
        (filtered (byteswap (.ofBytes exportedDrive.bytes))))
        (granted asciiRtl (driveWorld [49, 45, 51]) (byteswap (.ofBytes exportedDrive.bytes)) storageWorld.stream) ∧
    ∃ stop final, importRemoteDevice asciiRtl usbdParseDescriptors stackNoise (fun _ => 0) storageQuery
      (driveWorld [49, 45, 52]) = .error stop final ∧ Keeps (driveWorld [49, 45, 52]) final := by
  constructor
  · refine (import_handshake asciiRtl_room usbdParseDescriptors stackNoise _ storageQuery _).1 _ _
      ⟨by decide, fun n hn => rfl, ?_, exportedDrive.bytes, exportedDrive.length_bytes, rfl, rfl⟩
    rw [byteswap_ofBytes]
    decide
  · refine (import_handshake asciiRtl_room usbdParseDescriptors stackNoise _ storageQuery _).2 ?_
    rintro ⟨udev, rest, hgranted⟩
    obtain ⟨bytes, hlen, hudev, hstream⟩ := hgranted.reply
    have hsame : exportedDrive.bytes ++ storageWorld.stream = bytes ++ rest := List.append_cancel_left hstream
    have hdrive := (List.append_inj hsame (exportedDrive.length_bytes.trans hlen.symm)).1
    have hbusid := hgranted.busid
    rw [hudev, ← hdrive, byteswap_ofBytes] at hbusid
    revert hbusid
    decide

end Usbip.VhciIoctl.Import

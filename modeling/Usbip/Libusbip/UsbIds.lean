import Usbip.Basic
import Usbip.Library.Separated

namespace Usbip.Libusbip.UsbIds

open Usbip.Library.Separated

-- `std::string_view` into the text of the database. `none` of the functions below is a read or a removal past the
-- end of a view.
abbrev Text := List Char

def hexDigit (c : Char) : Option Nat :=
  if '0' ≤ c ∧ c ≤ '9' then some (c.toNat - 48)
  else if 'a' ≤ c ∧ c ≤ 'f' then some (c.toNat - 87)
  else if 'A' ≤ c ∧ c ≤ 'F' then some (c.toNat - 55)
  else none

-- The digits at the start of a text, as a number, and how many there are.
def scanHex (val : Nat) : Text → Nat × Nat
  | [] => (val, 0)
  | c :: s =>
    match hexDigit c with
    | some digit =>
      let (val, used) := scanHex (16 * val + digit) s
      (val, used + 1)
    | none => (val, 0)

-- `std::from_chars` with base 16, up to four characters: the value, unless there are no digits, and how many
-- characters it has accepted.
def fromChars (s : Text) : Option Int × Nat :=
  match s with
  | '-' :: digits =>
    let (val, used) := scanHex 0 digits
    if used = 0 then (none, 1) else (some (-val), used + 1)
  | _ =>
    let (val, used) := scanHex 0 s
    if used = 0 then (none, 0) else (some val, used)

-- `string_view::remove_prefix`
def removePrefix (s : Text) (n : Nat) : Option Text := if n ≤ s.length then some (s.drop n) else none

-- The number and what is left of the text. All of a text that is too short is accepted only if the characters
-- behind it are looked at too. The assertions are those of a debug build.
def removePrefixHex (s : Text) (cnt : Nat) : Option (UInt16 × Text) :=
  let (val, used) := fromChars (s.take cnt)
  if s.length < cnt ∧ used = s.length then none
  else
    match val with
    | none => some (0, s)
    | some val => (removePrefix s cnt).map fun rest => (UInt16.ofInt val, rest)

def startsWith (line pre : Text) : Bool := pre.isPrefixOf line

-- `f` is given a line and the text after it, and tells whether to stop.
def forEachLine {σ : Type} (f : Text → Text → σ → Option (Bool × σ)) (text : Text) (st : σ) : Option σ :=
  if text = [] then some st
  else
    let line := text.takeWhile (· ≠ '\n')
    match _hdrop : text.dropWhile (· ≠ '\n') with
    | [] => (f text [] st).map Prod.snd
    | _ :: tail =>
      if line = [] then forEachLine f tail st
      else
        match f line tail st with
        | none => none
        | some (true, st) => some st
        | some (false, st) => forEachLine f tail st
termination_by text.length
decreasing_by
  all_goals
    have hlength := (List.dropWhile_sublist (l := text) (· ≠ '\n')).length_le
    rw [_hdrop, List.length_cons] at hlength
    omega

section Maps

variable {κ ν : Type} [DecidableEq κ]

-- `std::unordered_map::emplace` keeps an element that is there already.
def emplace (m : κ → Option ν) (key : κ) (val : ν) : κ → Option ν :=
  if (m key).isSome then m else Function.update m key (some val)

abbrev Names (κ : Type) := κ → Option Text

-- Names of two levels: `vendors_t` with `products_t`, and `subclass_t` with `proto_t`.
abbrev Table (κ : Type) := κ → Option (Text × Names κ)

def emplaceName (t : Table κ) (key : κ) (name : Text) : Table κ := emplace t key (name, fun _ => none)

-- `t[key].second.emplace(item, name)`: a key that is not there yet gets an empty name.
def emplaceItem (t : Table κ) (key item : κ) (name : Text) : Table κ :=
  let entry := (t key).getD ([], fun _ => none)
  Function.update t key (some (entry.1, emplace entry.2 item name))

-- An empty view for a name that is not found.
def findNames (t : Table κ) (key item : κ) : Text × Text :=
  match t key with
  | none => ([], [])
  | some (name, items) => (name, (items item).getD [])

end Maps

structure Ids where
  vendor : Table UInt16 := fun _ => none
  cls : UInt8 → Option (Text × Table UInt8) := fun _ => none

-- `m_class[cls].second = f(m_class[cls].second)`
def Ids.modifyClass (ids : Ids) (cls : UInt8) (f : Table UInt8 → Table UInt8) : Ids :=
  let entry := (ids.cls cls).getD ([], fun _ => none)
  { ids with cls := Function.update ids.cls cls (some (entry.1, f entry.2)) }

-- The database and the variables that `load` and the lambda in `parse_vid_pid` capture.
structure VendorState where
  ids : Ids := {}
  vid : UInt16 := 0
  pid : UInt16 := 0

structure ClassState where
  ids : Ids
  cls : UInt8 := 0
  subcls : UInt8 := 0

def audioTerminalTypes : Text := "# List of Audio Class Terminal Types".toList
def knownClasses : Text := "# List of known device classes, subclasses and protocols".toList

def parseClassSubProto (line _tail : Text) (st : ClassState) : Option (Bool × ClassState) :=
  if startsWith line audioTerminalTypes then some (true, st)
  else if startsWith line ['#'] then some (false, st)
  else if startsWith line ['\t', '\t'] then do
    let line ← removePrefix line 2
    let (prot, line) ← removePrefixHex line 2
    if prot.toUInt8 ≠ 0 then
      let line ← removePrefix line 2
      return (false,
        { st with ids := st.ids.modifyClass st.cls fun sub => emplaceItem sub st.subcls prot.toUInt8 line })
    else return (false, st)
  else if startsWith line ['\t'] then do
    let line ← removePrefix line 1
    let (subcls, line) ← removePrefixHex line 2
    let st := { st with subcls := subcls.toUInt8 }
    if st.subcls ≠ 0 then
      let line ← removePrefix line 2
      return (false, { st with ids := st.ids.modifyClass st.cls fun sub => emplaceName sub st.subcls line })
    else return (false, st)
  else if startsWith line ['C', ' '] then do
    let line ← removePrefix line 2
    let (cls, line) ← removePrefixHex line 2
    let line ← removePrefix line 2
    return (false,
      { st with
        cls := cls.toUInt8
        ids := { st.ids with cls := emplace st.ids.cls cls.toUInt8 (line, fun _ => none) } })
  else return (false, st)

def parseVidPid (line tail : Text) (st : VendorState) : Option (Bool × VendorState) :=
  if startsWith line knownClasses then do
    let classes ← forEachLine parseClassSubProto tail { ids := st.ids }
    return (true, { st with ids := classes.ids })
  else if startsWith line ['#'] then some (false, st)
  else if startsWith line ['\t', '\t'] then some (false, st) -- an interface; asserted not to be there
  else if startsWith line ['\t'] then do
    let line ← removePrefix line 1
    let (pid, line) ← removePrefixHex line 4
    let st := { st with pid := pid }
    if st.pid ≠ 0 then
      let line ← removePrefix line 2
      return (false, { st with ids := { st.ids with vendor := emplaceItem st.ids.vendor st.vid st.pid line } })
    else return (false, st)
  else do
    let (vid, line) ← removePrefixHex line 4
    let st := { st with vid := vid }
    if st.vid ≠ 0 then
      let line ← removePrefix line 2
      return (false, { st with ids := { st.ids with vendor := emplaceName st.ids.vendor st.vid line } })
    else return (false, st)

-- `load` of a database that is empty
def load (content : Text) : Option Ids := (forEachLine parseVidPid content {}).map VendorState.ids

def Ids.findProduct (ids : Ids) (vid pid : UInt16) : Text × Text := findNames ids.vendor vid pid

def Ids.findClassSubclassProto (ids : Ids) (classId subclassId protId : UInt8) : Text × Text × Text :=
  match ids.cls classId with
  | none => ([], [], [])
  | some (name, subclasses) => (name, findNames subclasses subclassId protId)

end Usbip.Libusbip.UsbIds

import Usbip.Libusbip.UsbIds

namespace Usbip.Libusbip.UsbIds

open Usbip.Library.Separated

-- A text without a line ending.
abbrev OneLine := {line : Text // '\n' ∉ line}

structure HexId (n : Nat) where
  digits : Text
  size : digits.length = n
  hex : ∀ c ∈ digits, (hexDigit c).isSome

def HexId.value {n : Nat} (id : HexId n) : Nat :=
  id.digits.foldl (fun val c => 16 * val + (hexDigit c).getD 0) 0

-- A line without an entry: a blank one, or a comment that is not the one that ends the section.
structure Filler (stop : Text) where
  line : OneLine
  kind : line.val = [] ∨ startsWith line.val ['#'] = true ∧ startsWith line.val stop = false

-- An entry with an id and a name, and the lines in front of it.
structure Item (n : Nat) (stop : Text) where
  before : List (Filler stop)
  id : HexId n
  name : OneLine

-- A vendor with its products, or a subclass with its protocols.
structure Group (n : Nat) (stop : Text) extends Item n stop where
  items : List (Item n stop)
  distinct : (items.map fun item => item.id.value).Nodup

structure UsbClass extends Item 2 audioTerminalTypes where
  subclasses : List (Group 2 audioTerminalTypes)
  distinct : (subclasses.map fun sub => sub.id.value).Nodup

-- `rest` are the lists that follow that of the classes, if there are any.
structure Database where
  vendors : List (Group 4 knownClasses)
  distinctVendors : (vendors.map fun vendor => vendor.id.value).Nodup
  beforeClasses : List (Filler knownClasses)
  classes : List UsbClass
  distinctClasses : (classes.map fun cls => cls.id.value).Nodup
  afterClasses : List (Filler audioTerminalTypes)
  rest : List OneLine
  restStart : ∀ line ∈ rest.head?, startsWith line.val audioTerminalTypes = true

def entryLine {n : Nat} (indent : Text) (id : HexId n) (name : OneLine) : Text :=
  indent ++ (id.digits ++ ' ' :: ' ' :: name.val)

def fillerLines {stop : Text} (fillers : List (Filler stop)) : List Text := fillers.map fun filler => filler.line.val

def Item.lines {n : Nat} {stop : Text} (indent : Text) (item : Item n stop) : List Text :=
  fillerLines item.before ++ [entryLine indent item.id item.name]

def Group.lines {n : Nat} {stop : Text} (outer inner : Text) (group : Group n stop) : List Text :=
  group.toItem.lines outer ++ group.items.flatMap (Item.lines inner)

def UsbClass.lines (cls : UsbClass) : List Text :=
  cls.toItem.lines ['C', ' '] ++ cls.subclasses.flatMap (Group.lines ['\t'] ['\t', '\t'])

def Database.classLines (db : Database) : List Text :=
  db.classes.flatMap UsbClass.lines ++ (fillerLines db.afterClasses ++ db.rest.map Subtype.val)

def Database.lines (db : Database) : List Text :=
  db.vendors.flatMap (Group.lines [] ['\t']) ++ (fillerLines db.beforeClasses ++ knownClasses :: db.classLines)

-- A text that ends with a line ending has a blank line as its last one.
def Database.text (db : Database) : Text := ['\n'].intercalate db.lines

section Lines

variable {σ : Type} {f : Text → Text → σ → Option (Bool × σ)} {st st' st'' : σ} {line : Text} {lines lines' : List Text}

-- `for_each_line` over lines that are already taken apart.
def runLines (f : Text → Text → σ → Option (Bool × σ)) : List Text → σ → Option σ
  | [], st => some st
  | line :: rest, st =>
    if line = [] then runLines f rest st
    else
      match f line (['\n'].intercalate rest) st with
      | none => none
      | some (true, st) => some st
      | some (false, st) => runLines f rest st

theorem forEachLine_last (h : '\n' ∉ line) : forEachLine f line st = runLines f [line] st := by
  by_cases hne : line = []
  · rw [forEachLine, runLines, if_pos hne, if_pos hne, runLines]
  · rw [forEachLine, runLines, if_neg hne, if_neg hne]
    dsimp only
    split
    case h_1 =>
      rw [List.intercalate_nil]
      cases f line [] st with
      | none => rfl
      | some res =>
        obtain ⟨stop, st'⟩ := res
        cases stop <;> rfl
    case h_2 hdrop =>
      rw [dropWhile_of_not_mem h] at hdrop
      cases hdrop

theorem forEachLine_cons (h : '\n' ∉ line) (tail : Text) :
    forEachLine f (line ++ '\n' :: tail) st =
      if line = [] then forEachLine f tail st
      else
        match f line tail st with
        | none => none
        | some (true, st) => some st
        | some (false, st) => forEachLine f tail st := by
  rw [forEachLine, if_neg (List.append_ne_nil_of_right_ne_nil _ (List.cons_ne_nil _ _)), takeWhile_append_cons h]
  dsimp only
  split
  case h_1 hdrop =>
    rw [dropWhile_append_cons h] at hdrop
    cases hdrop
  case h_2 hdrop =>
    rw [dropWhile_append_cons h] at hdrop
    cases hdrop
    rfl

theorem forEachLine_intercalate (h : ∀ line ∈ lines, '\n' ∉ line) :
    forEachLine f (['\n'].intercalate lines) st = runLines f lines st := by
  induction lines generalizing st with
  | nil =>
    rw [List.intercalate_nil, forEachLine, if_pos rfl]
    rfl
  | cons line rest ih =>
    have hline := h line List.mem_cons_self
    have hrest := fun line hline => h line (List.mem_cons_of_mem _ hline)
    cases rest with
    | nil =>
      rw [List.intercalate_singleton]
      exact forEachLine_last hline
    | cons next rest =>
      have hloop (st : σ) : forEachLine f (['\n'].intercalate (next :: rest)) st = runLines f (next :: rest) st :=
        ih hrest
      rw [List.intercalate_cons_cons, List.append_assoc, List.singleton_append, forEachLine_cons hline, runLines]
      simp only [hloop]

-- A line that does not stop the loop, whatever follows it.
def Passes (f : Text → Text → σ → Option (Bool × σ)) (line : Text) (st st' : σ) : Prop :=
  line = [] ∧ st' = st ∨ line ≠ [] ∧ ∀ tail, f line tail st = some (false, st')

-- Lines none of which stops the loop.
inductive Runs (f : Text → Text → σ → Option (Bool × σ)) : List Text → σ → σ → Prop
  | nil (st : σ) : Runs f [] st st
  | cons {line : Text} {lines : List Text} {st st' st'' : σ} (hline : Passes f line st st')
      (hlines : Runs f lines st' st'') : Runs f (line :: lines) st st''

theorem Runs.append (h : Runs f lines st st') (h' : Runs f lines' st' st'') : Runs f (lines ++ lines') st st'' := by
  induction h with
  | nil => exact h'
  | cons hline _ ih => exact .cons hline (ih h')

theorem Runs.single (h : Passes f line st st') : Runs f [line] st st' := .cons h (.nil st')

theorem Runs.runLines_append (h : Runs f lines st st') : runLines f (lines ++ lines') st = runLines f lines' st' := by
  induction h with
  | nil => rfl
  | cons hline _ ih =>
    rw [List.cons_append, runLines]
    rcases hline with ⟨hnil, rfl⟩ | ⟨hne, hpass⟩
    · rw [if_pos hnil, ih]
    · simp only [if_neg hne, hpass, ih]

theorem runLines_stop {lines : List Text} (hne : line ≠ [])
    (h : f line (['\n'].intercalate lines) st = some (true, st')) : runLines f (line :: lines) st = some st' := by
  simp only [runLines, if_neg hne, h]

end Lines

section HexId

variable {n : Nat}

theorem scanHex_of_hex {s : Text} (h : ∀ c ∈ s, (hexDigit c).isSome) (val : Nat) :
    scanHex val s = (s.foldl (fun val c => 16 * val + (hexDigit c).getD 0) val, s.length) := by
  induction s generalizing val with
  | nil => rfl
  | cons c s ih =>
    obtain ⟨digit, hdigit⟩ := Option.isSome_iff_exists.mp (h c List.mem_cons_self)
    simp only [scanHex, hdigit, ih (fun c hc => h c (List.mem_cons_of_mem _ hc)), List.foldl_cons, Option.getD_some,
      List.length_cons]

theorem char_le (a b : Char) : a ≤ b ↔ a.toNat ≤ b.toNat := Iff.rfl

theorem hexDigit_lt {c : Char} {digit : Nat} (h : hexDigit c = some digit) : digit < 16 := by
  unfold hexDigit at h
  simp only [char_le] at h
  have h9 : '9'.toNat = 57 := rfl
  have hf : 'f'.toNat = 102 := rfl
  have hF : 'F'.toNat = 70 := rfl
  split_ifs at h <;> simp only [Option.some.injEq] at h <;> omega

theorem foldl_lt {s : Text} (h : ∀ c ∈ s, (hexDigit c).isSome) (val : Nat) :
    s.foldl (fun val c => 16 * val + (hexDigit c).getD 0) val < (val + 1) * 16 ^ s.length := by
  induction s generalizing val with
  | nil => simp
  | cons c s ih =>
    obtain ⟨digit, hdigit⟩ := Option.isSome_iff_exists.mp (h c List.mem_cons_self)
    have hlt := hexDigit_lt hdigit
    have hrest := ih (fun c hc => h c (List.mem_cons_of_mem _ hc)) (16 * val + digit)
    rw [List.foldl_cons, hdigit, Option.getD_some, List.length_cons, Nat.pow_succ]
    have hle : 16 * val + digit + 1 ≤ 16 * (val + 1) := by omega
    calc _ < (16 * val + digit + 1) * 16 ^ s.length := hrest
      _ ≤ 16 * (val + 1) * 16 ^ s.length := Nat.mul_le_mul_right _ hle
      _ = (val + 1) * (16 ^ s.length * 16) := by rw [Nat.mul_comm 16, Nat.mul_assoc, Nat.mul_comm 16]

theorem HexId.value_lt (id : HexId n) : id.value < 16 ^ n := by
  have h := foldl_lt id.hex 0
  rw [id.size] at h
  simpa [HexId.value] using h

theorem HexId.fromChars_digits (id : HexId n) (hn : n ≠ 0) : fromChars id.digits = (some (id.value : Int), n) := by
  have hscan := scanHex_of_hex id.hex 0
  unfold fromChars
  split
  case h_1 digits hdigits =>
    have hminus := id.hex '-' (by rw [hdigits]; exact List.mem_cons_self)
    exact absurd hminus (by decide)
  case h_2 =>
    rw [hscan]
    simp only [id.size, if_neg hn]
    rfl

-- The id at the start of a text, and what is behind it.
theorem HexId.removePrefixHex_append (id : HexId n) (hn : n ≠ 0) (rest : Text) :
    removePrefixHex (id.digits ++ rest) n = some (UInt16.ofNat id.value, rest) := by
  have htake : (id.digits ++ rest).take n = id.digits := List.take_left' id.size
  have hlong : n ≤ (id.digits ++ rest).length := by
    rw [List.length_append, id.size]
    exact Nat.le_add_right _ _
  have hshort : ¬ ((id.digits ++ rest).length < n ∧ n = (id.digits ++ rest).length) :=
    fun h => absurd h.1 (Nat.not_lt.mpr hlong)
  rw [removePrefixHex, htake, id.fromChars_digits hn]
  simp only [if_neg hshort, removePrefix, if_pos hlong, Option.map_some, List.drop_left' id.size]
  have hword : UInt16.ofInt (id.value : Int) = UInt16.ofNat id.value := by
    apply UInt16.toNat_inj.mp
    rw [UInt16.ofInt, UInt16.toNat_ofNat', UInt16.toNat_ofNat']
    omega
  rw [hword]

end HexId

end Usbip.Libusbip.UsbIds

import Usbip.Library.Comparators
import Usbip.Libusbip.Persistent

namespace Usbip.Wusbip

open Usbip.Libusbip.Persistent (WChar)
open Usbip.Library.Comparators

abbrev Text := List WChar

-- What is used of wxString: the number that the whole of a string is, and the comparison without case.
structure WxString where
  toInt : Text → Option Int
  toInt_empty : toInt [] = none
  isSameAs : Text → Text → Bool

-- `wxString::Cmp`
def cmp (left right : Text) : Int := sign (List.compareLex compare left right)

def DOT : WChar := 46
def HYPHEN : WChar := 45

def beforeFirst (ch : WChar) (s : Text) : Text := s.takeWhile (· ≠ ch)

-- What `BeforeFirst` gives back as the rest.
def afterFirst (ch : WChar) (s : Text) : Text := (s.dropWhile (· ≠ ch)).drop 1

-- The first of the characters of a string that is `ch`, if there is one, becomes `by`.
def replaceFirst (ch sub : WChar) (s : Text) : Option Text :=
  if ch ∈ s then some (beforeFirst ch s ++ sub :: afterFirst ch s) else none

theorem length_afterFirst_lt {s : Text} (ch : WChar) (h : s ≠ []) : (afterFirst ch s).length < s.length := by
  have hpos := List.length_pos_iff.mpr h
  have hdrop := (List.dropWhile_suffix (l := s) (· ≠ ch)).length_le
  rw [afterFirst, List.length_drop]
  omega

-- The loop of `parse_busid`.
def parseFields (wx : WxString) (busid : Text) : List Int :=
  match _hval : wx.toInt (beforeFirst DOT busid) with
  | none => []
  | some val => val :: parseFields wx (afterFirst DOT busid)
termination_by busid.length
decreasing_by
  refine length_afterFirst_lt DOT ?_
  rintro rfl
  have hempty := wx.toInt_empty.symm.trans _hval
  cases hempty

def parseBusid (wx : WxString) (busid : Text) : List Int :=
  match replaceFirst HYPHEN DOT busid with
  | none => []
  | some busid =>
    let v := parseFields wx busid
    if v.length < 2 then [] else v

-- "Low", "Full", "High" and "Super", by USB_DEVICE_SPEED
def usbSpeedStr : List Text :=
  [[76, 111, 119], [70, 117, 108, 108], [72, 105, 103, 104], [83, 117, 112, 101, 114]]

def getSpeedVal (wx : WxString) (speed : Text) : Option Nat := usbSpeedStr.findIdx? fun str => wx.isSameAs speed str

inductive Column where
  | busid
  | port
  | speed
  | vendor
  | product
  | state
  | persistent
  | notes
  | devid
  | serial
  | sourceId
  deriving DecidableEq, Repr

-- An item of the tree; that of a device is below the item of its server.
structure TreeItem where
  text : Column → Text
  isDevice : Bool

-- `TreeListItemComparator::Compare`
def compareItems (wx : WxString) (column : Column) (first second : TreeItem) : Int :=
  let left := first.text column
  let right := second.text column
  if column = .busid ∧ first.isDevice then
    let a := parseBusid wx left
    let b := parseBusid wx right
    if a.isEmpty = false ∧ b.isEmpty = false then sign (List.compareLex compare a b) else cmp left right
  else if column = .speed then
    match getSpeedVal wx left, getSpeedVal wx right with
    | some a, some b => sign (compare a b)
    | _, _ => cmp left right
  else cmp left right

end Usbip.Wusbip

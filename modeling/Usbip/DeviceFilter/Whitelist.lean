import Usbip.DeviceFilter.Policy

namespace Usbip.DeviceFilter.Whitelist

-- A string of the log up to its terminator.
abbrev Text := List Char

def hexDigit (n : Nat) : Char := if n < 10 then Char.ofNat (48 + n) else Char.ofNat (55 + n)

-- "%02X"
def hex (v : Byte) : Text := [hexDigit (v.toNat / 16), hexDigit (v.toNat % 16)]

-- `RtlStringCchCopyW` and `RtlStringCchPrintfW` into a buffer of `cch` characters: what has no room is cut off.
def rtlStringCchCopy (cch : Nat) (src : Text) : Text := src.take (cch - 1)

def rtlStringCchCat (cch : Nat) (dst src : Text) : Text := (dst ++ src).take (cch - 1)

def formatMatchField (matched : Bool) (v : Byte) : Text :=
  if matched then rtlStringCchCopy 3 (hex v) else ['*', '*']

def SLASH : Char := '/'

-- The class, the subclass and the protocol of an entry.
def triple (e : DeviceFilterEntry) : Text :=
  formatMatchField (e.matchFlags &&& FILTER_MATCH_CLASS != 0) e.bClass ++
    SLASH :: (formatMatchField (e.matchFlags &&& FILTER_MATCH_SUBCLASS != 0) e.bSubClass ++
      SLASH :: formatMatchField (e.matchFlags &&& FILTER_MATCH_PROTOCOL != 0) e.bProtocol)

def separator : Text := [',', ' ']
def ellipsis : Text := [',', ' ', '.', '.', '.']
def emptyText : Text := ['(', 'e', 'm', 'p', 't', 'y', ')']

def item (i : Nat) (e : DeviceFilterEntry) : Text :=
  rtlStringCchCopy 20 (if i ≠ 0 then separator ++ triple e else triple e)

-- `RTL_NUMBER_OF(L", ...")`
def reserveForEllipsis : Nat := ellipsis.length + 1

-- The loop of `format_whitelist` from the entry `i` on.
def formatEntries (cch : Nat) : Nat → List DeviceFilterEntry → Text → Text
  | _, [], buf => buf
  | i, e :: entries, buf =>
    if cch ≤ buf.length + (item i e).length + reserveForEllipsis then rtlStringCchCat cch buf ellipsis
    else formatEntries cch (i + 1) entries (rtlStringCchCat cch buf (item i e))

def whitelist (p : Policy) : List DeviceFilterEntry := p.entries.toList.take p.count.toNat

def formatWhitelist (p : Policy) (cch : Nat) : Text :=
  if p.count = 0 then rtlStringCchCopy cch emptyText else formatEntries cch 0 (whitelist p) []

end Usbip.DeviceFilter.Whitelist

import Usbip.Basic
import Usbip.Library.Words

namespace Usbip

open Usbip.Library.Words

-- `seqnum_t`
abbrev Seqnum := UInt32

def CMD_SUBMIT : UInt32 := 1
def CMD_UNLINK : UInt32 := 2
def RET_SUBMIT : UInt32 := 3
def RET_UNLINK : UInt32 := 4

-- `enum direction { out, in }`
def directionOut : UInt32 := 0
def directionIn : UInt32 := 1

def maxIsoPackets : Int := 1024
def numberOfPacketsNonIsoch : Int := -1

def isValidNumberOfPackets (numberOfPackets : Int) : Bool :=
  decide (0 ≤ numberOfPackets ∧ numberOfPackets ≤ maxIsoPackets)

-- The 48 bytes of `struct header` as the twelve words the host reads there. The
-- last seven words are the storage of the union.
structure Header where
  command : UInt32 := 0
  seqnum : Seqnum := 0
  devid : UInt32 := 0
  direction : UInt32 := 0
  ep : UInt32 := 0
  u0 : UInt32 := 0
  u1 : UInt32 := 0
  u2 : UInt32 := 0
  u3 : UInt32 := 0
  u4 : UInt32 := 0
  u5 : UInt32 := 0
  u6 : UInt32 := 0
  deriving DecidableEq, Repr

namespace Header

def size : Nat := 48

-- The view `cmd_submit` of the union; words `u5` and `u6` are `setup`.
def transferBufferLength (hdr : Header) : Int := signed hdr.u1
def cmdNumberOfPackets (hdr : Header) : Int := signed hdr.u3
def cmdTransferFlags (hdr : Header) : UInt32 := hdr.u0
def cmdStartFrame (hdr : Header) : Int := signed hdr.u2
def cmdInterval (hdr : Header) : Int := signed hdr.u4
def cmdSetup (hdr : Header) : List Byte := bytes32 hdr.u5 ++ bytes32 hdr.u6

-- The view `ret_submit`.
def status (hdr : Header) : Int := signed hdr.u0
def actualLength (hdr : Header) : Int := signed hdr.u1
def startFrame (hdr : Header) : Int := signed hdr.u2
def numberOfPackets (hdr : Header) : Int := signed hdr.u3
def errorCount (hdr : Header) : Int := signed hdr.u4

-- The views `cmd_unlink` and `ret_unlink`.
def unlinkSeqnum (hdr : Header) : Seqnum := hdr.u0
def unlinkStatus (hdr : Header) : Int := signed hdr.u0

def ofWords (word : Nat → UInt32) : Header where
  command := word 0
  seqnum := word 1
  devid := word 2
  direction := word 3
  ep := word 4
  u0 := word 5
  u1 := word 6
  u2 := word 7
  u3 := word 8
  u4 := word 9
  u5 := word 10
  u6 := word 11

def words (hdr : Header) : List UInt32 :=
  [hdr.command, hdr.seqnum, hdr.devid, hdr.direction, hdr.ep,
    hdr.u0, hdr.u1, hdr.u2, hdr.u3, hdr.u4, hdr.u5, hdr.u6]

-- The header whose storage holds these bytes, and the bytes of its storage.
def ofBytes (bytes : List Byte) : Header :=
  ofWords fun i => le32 (bytes.getD (4 * i) 0) (bytes.getD (4 * i + 1) 0)
    (bytes.getD (4 * i + 2) 0) (bytes.getD (4 * i + 3) 0)

def bytes (hdr : Header) : List Byte := hdr.words.flatMap bytes32

end Header

inductive SwapDir where
  | host2net
  | net2host
  deriving DecidableEq

def bswapBasic (r : Header) : Header :=
  { r with
    command := swap32 r.command
    seqnum := swap32 r.seqnum
    devid := swap32 r.devid
    direction := swap32 r.direction
    ep := swap32 r.ep }

def bswapCmdSubmit (r : Header) : Header :=
  { r with u0 := swap32 r.u0, u1 := swap32 r.u1, u2 := swap32 r.u2, u3 := swap32 r.u3, u4 := swap32 r.u4 }

def bswapRetSubmit (r : Header) : Header :=
  { r with u0 := swap32 r.u0, u1 := swap32 r.u1, u2 := swap32 r.u2, u3 := swap32 r.u3, u4 := swap32 r.u4 }

def bswapCmdUnlink (r : Header) : Header := { r with u0 := swap32 r.u0 }

def bswapRetUnlink (r : Header) : Header := { r with u0 := swap32 r.u0 }

-- The `switch (hdr.command)` of `byteswap_header`; an unknown command swaps nothing.
def bswapUnion (hdr : Header) : Header :=
  if hdr.command = CMD_SUBMIT then bswapCmdSubmit hdr
  else if hdr.command = RET_SUBMIT then bswapRetSubmit hdr
  else if hdr.command = CMD_UNLINK then bswapCmdUnlink hdr
  else if hdr.command = RET_UNLINK then bswapRetUnlink hdr
  else hdr

def byteswapHeader (hdr : Header) : SwapDir → Header
  | .net2host => bswapUnion (bswapBasic hdr)
  | .host2net => bswapBasic (bswapUnion hdr)

-- Conversion of a signed value to a 64-bit `size_t`.
def toSize (value : Int) : Nat := (value % 2 ^ 64).toNat

-- The distance of the isochronous descriptors from the end of the header and their count.
def getIsocDescr (hdr : Header) : Int × Nat :=
  let dirOut := hdr.direction == directionOut
  let (bufEnd, cnt) :=
    if hdr.command = CMD_SUBMIT then
      (if dirOut then hdr.transferBufferLength else 0, toSize hdr.cmdNumberOfPackets)
    else if hdr.command = RET_SUBMIT then
      (if dirOut then 0 else hdr.actualLength, toSize hdr.numberOfPackets)
    else (0, 0)
  (bufEnd, if cnt = toSize numberOfPacketsNonIsoch then 0 else cnt)

def sizeofIsoPacketDescriptor : Nat := 16

def getTotalSize (hdr : Header) : Nat :=
  let (isoc, cnt) := getIsocDescr hdr
  toSize (Header.size + isoc + sizeofIsoPacketDescriptor * cnt)

def getPayloadSize (hdr : Header) : Nat := toSize ((getTotalSize hdr : Int) - Header.size)

-- The low bit of a sequence number is the direction of its transfer.
def extractNum (seqnum : Seqnum) : UInt32 := seqnum >>> 1
def extractDir (seqnum : Seqnum) : UInt32 := seqnum &&& 1
def isValidSeqnum (seqnum : Seqnum) : Bool := extractNum seqnum != 0

end Usbip

import Usbip.Library.Expand
import Usbip.Send

namespace Usbip.Isoc

open Usbip.Library.Expand
open Usbip.Library.Words

-- What the URB and the descriptors of the server say about a packet.
def offset (urb : Urb) (i : Nat) : Nat := ((urb.isoPacket[i]?).map fun dd => dd.offset.toNat).getD 0

def actualLength (isoc : List Byte) (i : Nat) : Nat :=
  ((IsoPacketDescriptor.at isoc i).map fun sd => sd.actualLength.toNat).getD 0

-- Where the data of a packet begins in the compacted payload.
def sliceStart (isoc : List Byte) (i : Nat) : Nat := ((List.range i).map (actualLength isoc)).sum

-- The data of a packet and its place, if the payload begins at `start`.
def piece (urb : Urb) (isoc : List Byte) (start i : Nat) : Piece where
  dst := offset urb i
  src := start + sliceStart isoc i
  length := actualLength isoc i

def pieces (urb : Urb) (isoc : List Byte) (start n : Nat) : List Piece := (List.range n).map (piece urb isoc start)

-- `repack` has accepted the packets at submission.
def Accepted (urb : Urb) : Prop :=
  urb.numberOfPackets.toNat ≤ urb.isoPacket.length ∧
    (Send.repackPackets urb.transferBufferLength (urb.isoPacket.take urb.numberOfPackets.toNat)).2 = .STATUS_SUCCESS

instance (urb : Urb) : Decidable (Accepted urb) := inferInstanceAs (Decidable (_ ∧ _))

-- Every packet has its slice of the payload at its offset, and its length is set.
def PlacesPackets (urb urb' : Urb) (isoc : List Byte) : Prop :=
  ∀ i < urb.numberOfPackets.toNat,
    (urb'.memory.drop (offset urb i)).take (actualLength isoc i) =
      (urb.memory.drop (sliceStart isoc i)).take (actualLength isoc i) ∧
    (urb'.isoPacket[i]?).map (fun dd => dd.length.toNat) = some (actualLength isoc i)

-- The arithmetic and the moves of `fill_isoc_data`; `keep` is a packet that is at its place already.
inductive Operation where
  | sub (x y : UInt32)
  | add (x y : UInt32)
  | move (i : Nat) (dst src length : UInt32)
  | keep (i : Nat) (place length : UInt32)
  deriving DecidableEq, Repr

-- What `fillIsocPacket` does, in its order.
def packetOperations (urb : Urb) (dirOut : Bool) (isoc : List Byte) (i : Nat) (length : UInt32) : List Operation :=
  match IsoPacketDescriptor.at isoc i, urb.isoPacket[i]? with
  | some sd, some dd =>
    if dirOut then []
    else if sd.actualLength = 0 then []
    else if sd.actualLength > sd.length then []
    else if sd.offset ≠ dd.offset then []
    else if length < sd.actualLength then []
    else
      let rest := length - sd.actualLength
      if dd.offset + sd.actualLength > urb.transferBufferLength then
        [.sub length sd.actualLength, .add dd.offset sd.actualLength]
      else if dd.offset < rest then [.sub length sd.actualLength, .add dd.offset sd.actualLength]
      else if dd.offset > rest then
        [.sub length sd.actualLength, .add dd.offset sd.actualLength, .move i dd.offset rest sd.actualLength]
      else [.sub length sd.actualLength, .add dd.offset sd.actualLength, .keep i rest sd.actualLength]
  | _, _ => []

-- What `fillIsocLoop` does, to its end or to the packet that it gives up at.
def operations (dirOut : Bool) (isoc : List Byte) : Nat → Urb → UInt32 → List Operation
  | 0, _, _ => []
  | i + 1, urb, length =>
    packetOperations urb dirOut isoc i length ++
      match fillIsocPacket urb dirOut isoc i length with
      | some (st, urb, length) => if st = .STATUS_SUCCESS then operations dirOut isoc i urb length else []
      | none => []

def Operation.Writes (x : Nat) : Operation → Prop
  | .move _ dst _ length => dst.toNat ≤ x ∧ x < dst.toNat + length.toNat
  | .keep _ _ _ | .sub _ _ | .add _ _ => False

-- The bytes of the payload that a packet has to find where it has been compacted.
def Operation.Reads (x : Nat) : Operation → Prop
  | .move _ _ src length => src.toNat ≤ x ∧ x < src.toNat + length.toNat
  | .keep _ place length => place.toNat ≤ x ∧ x < place.toNat + length.toNat
  | .sub _ _ | .add _ _ => False

-- Inside the transfer buffer, and without a wrap around.
def Operation.InBounds (transferBufferLength : Nat) : Operation → Prop
  | .sub x y => y.toNat ≤ x.toNat
  | .add x y => x.toNat + y.toNat < 2 ^ 32
  | .move _ dst src length =>
    dst.toNat + length.toNat ≤ transferBufferLength ∧ src.toNat + length.toNat ≤ transferBufferLength
  | .keep _ place length => place.toNat + length.toNat ≤ transferBufferLength

def Operation.apply (memory : List Byte) : Operation → Option (List Byte)
  | .move _ dst src length => moveMemory memory dst.toNat src.toNat length.toNat
  | .keep _ _ _ | .sub _ _ | .add _ _ => some memory

end Usbip.Isoc

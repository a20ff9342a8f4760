import Usbip.Library.Heap
import Usbip.Send
import Mathlib.Logic.Function.Iterate

namespace Usbip.Filter

open Usbip.Library.Heap
open Usbip.Library.Words
open Usbip.Send

-- Handles of pipes and addresses of URBs, zero if null.
abbrev PipeHandle := Nat
abbrev Pointer := Nat

-- `USBD_PIPE_INFORMATION`
structure PipeInfo where
  endpointAddress : Byte
  pipeHandle : PipeHandle
  deriving DecidableEq, Repr

-- `USBD_INTERFACE_INFORMATION` with the first `NumberOfPipes` entries of its array.
structure InterfaceInfo where
  interfaceNumber : Byte := 0
  alternateSetting : Byte := 0
  pipes : List PipeInfo := []
  deriving DecidableEq, Repr

structure ConfigurationDescriptor where
  bNumInterfaces : Byte
  bConfigurationValue : Byte
  deriving DecidableEq, Repr

-- `_URB_SELECT_CONFIGURATION`. `interface n` is what `libdrv::next` comes to in `n` steps from `Interface`.
structure SelectConfiguration where
  configurationDescriptor : Option ConfigurationDescriptor := none
  interface : Nat → InterfaceInfo := fun _ => {}

-- The union `_URB`, as each of its members reads the same storage. `invalidPipeHandle` tells whether the
-- status in the header is USBD_STATUS_INVALID_PIPE_HANDLE.
structure UrbUnion where
  function : UInt16
  pipeRequest : PipeHandle := 0
  selectInterface : InterfaceInfo := {}
  selectConfiguration : SelectConfiguration := {}
  invalidPipeHandle : Bool := false

namespace Select

-- Offsets of the members behind the header: the handle of a pipe request and the pointer to the descriptor of a
-- configuration, `Interface` in `_URB_SELECT_INTERFACE` and in `_URB_SELECT_CONFIGURATION`; of `Pipes` in
-- USBD_INTERFACE_INFORMATION, and the size of USBD_PIPE_INFORMATION.
def offsetPointer : Nat := 24
def offsetSelectInterface : Nat := 32
def offsetInterface : Nat := 40
def offsetPipes : Nat := 24
def sizeofPipe : Nat := 24

def USBD_STATUS_INVALID_PIPE_HANDLE : UInt32 := 0x80000600

def wTotalLength (cd : Memory) : Nat := (word16 cd 2).toNat
def bNumInterfaces (cd : Memory) : Byte := cd 4
def bConfigurationValue (cd : Memory) : Byte := cd 5

-- Members of the interface record at an offset.
def recordLength (memory : Memory) (r : Nat) : Nat := (word16 memory r).toNat
def interfaceNumber (memory : Memory) (r : Nat) : Byte := memory (r + 2)
def alternateSetting (memory : Memory) (r : Nat) : Byte := memory (r + 3)
def numberOfPipes (memory : Memory) (r : Nat) : Nat := (word32 memory (r + 16)).toNat

def pipeOffset (r j : Nat) : Nat := r + offsetPipes + sizeofPipe * j

def pipeAt (memory : Memory) (r j : Nat) : PipeInfo where
  endpointAddress := memory (pipeOffset r j + 2)
  pipeHandle := word64 memory (pipeOffset r j + 8)

def interfaceAt (memory : Memory) (r : Nat) : InterfaceInfo where
  interfaceNumber := interfaceNumber memory r
  alternateSetting := alternateSetting memory r
  pipes := (List.range (numberOfPipes memory r)).map (pipeAt memory r)

-- `libdrv::next`
def next (memory : Memory) (r : Nat) : Nat := r + recordLength memory r

end Select

open Select

-- A URB at an address, and what lies at each address.
structure RawUrb where
  heap : Memory
  address : Nat

namespace RawUrb

def memory (urb : RawUrb) : Memory := view urb.heap urb.address

def length (urb : RawUrb) : Nat := (word16 urb.memory 0).toNat
def function (urb : RawUrb) : UInt16 := word16 urb.memory 2
def status (urb : RawUrb) : UInt32 := word32 urb.memory 4
def pipeRequest (urb : RawUrb) : PipeHandle := word64 urb.memory offsetPointer
def descriptorAddress (urb : RawUrb) : Nat := word64 urb.memory offsetPointer

def configurationDescriptor (urb : RawUrb) : Option Memory :=
  if urb.descriptorAddress = 0 then none else some (view urb.heap urb.descriptorAddress)

def toUnion (urb : RawUrb) : UrbUnion where
  function := urb.function
  pipeRequest := urb.pipeRequest
  selectInterface := interfaceAt urb.memory offsetSelectInterface
  selectConfiguration :=
    { configurationDescriptor := urb.configurationDescriptor.map fun cd =>
        { bNumInterfaces := bNumInterfaces cd, bConfigurationValue := bConfigurationValue cd }
      interface := fun n => interfaceAt urb.memory ((next urb.memory)^[n] offsetInterface) }
  invalidPipeHandle := urb.status == USBD_STATUS_INVALID_PIPE_HANDLE

-- `cd_len` of `clone`
def descriptorLength (urb : RawUrb) : Nat :=
  match urb.configurationDescriptor with
  | none => 0
  | some cd => Select.wTotalLength cd

end RawUrb

-- The first `Hdr.Length` bytes, in memory that is not initialized.
def copyUrb (dst : Nat) (src : RawUrb) : RawUrb where
  heap := copy src.heap dst src.address src.length
  address := dst

-- The copy with its pointer to what follows it.
def pointed (dst : Nat) (src : RawUrb) : Memory :=
  store64 (copyUrb dst src).heap (dst + offsetPointer) (dst + src.length)

-- `libdrv::clone`, if it gets memory. The descriptor is found by the pointer of the source, once that of the copy
-- is set.
def clone (dst : Nat) (src : RawUrb) : RawUrb :=
  if src.descriptorLength = 0 then copyUrb dst src
  else
    { heap := copy (pointed dst src) (dst + src.length) (word64 (view (pointed dst src) src.address) offsetPointer)
        src.descriptorLength
      address := dst }

-- The copy that `send_urb` makes.
def copyOf (dst : Nat) (src : RawUrb) : RawUrb :=
  if src.function.toNat = URB_FUNCTION_SELECT_CONFIGURATION then clone dst src else copyUrb dst src

-- What is allocated for a clone is not the memory of the URB or of its descriptor.
def Fresh (dst : Nat) (src : RawUrb) : Prop :=
  src.function.toNat = URB_FUNCTION_SELECT_CONFIGURATION → src.descriptorAddress ≠ 0 →
    dst + (src.length + src.descriptorLength) ≤ 2 ^ 64 ∧
      Apart dst (src.length + src.descriptorLength) src.address src.length ∧
      Apart dst (src.length + src.descriptorLength) src.descriptorAddress (max 6 src.descriptorLength)

instance (dst : Nat) (src : RawUrb) : Decidable (Fresh dst src) := inferInstanceAs (Decidable (_ → _))

end Usbip.Filter

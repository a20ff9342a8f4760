import Usbip.Basic

namespace Usbip.DeviceFilter

structure InterfaceClass where
  number : Byte := 0
  alternateSetting : Byte := 0
  cls : Byte := 0
  subcls : Byte := 0
  protocol : Byte := 0
  deriving DecidableEq, Repr

inductive DescriptorError where
  | none
  | configurationHeaderTooShort
  | invalidConfigurationHeader
  | totalLengthMismatch
  | descriptorHeaderTruncated
  | invalidDescriptorLength
  | invalidInterfaceDescriptor
  | invalidEndpointDescriptor
  | noInterfaces
  | interfaceCountMismatch
  | interfaceNotAllowed
  deriving DecidableEq, Repr

structure DescriptorResult where
  error : DescriptorError := .none
  declaredInterfaces : Nat := 0
  observedInterfaces : Nat := 0
  offendingInterface : InterfaceClass := {}
  deriving DecidableEq, Repr

def descriptorErrorReason : DescriptorError → String
  | .none => "valid"
  | .configurationHeaderTooShort => "configuration descriptor header too short"
  | .invalidConfigurationHeader => "invalid configuration descriptor header"
  | .totalLengthMismatch => "configuration wTotalLength mismatch"
  | .descriptorHeaderTruncated => "trailing partial descriptor header"
  | .invalidDescriptorLength => "invalid descriptor length"
  | .invalidInterfaceDescriptor => "short interface descriptor"
  | .invalidEndpointDescriptor => "short endpoint descriptor"
  | .noInterfaces => "configuration has no interfaces"
  | .interfaceCountMismatch => "bNumInterfaces does not match descriptors"
  | .interfaceNotAllowed => "interface class not in whitelist"

def configurationDescriptorSize : Nat := 9
def interfaceDescriptorSize : Nat := 9
def endpointDescriptorSize : Nat := 7
def configurationDescriptorType : Byte := 0x02
def interfaceDescriptorType : Byte := 0x04
def endpointDescriptorType : Byte := 0x05

-- The locals of `evaluate_configuration` that live across iterations of its loop.
structure Walk where
  result : DescriptorResult
  seenInterfaces : Byte → Bool := fun _ => false
  interfaceDescriptors : Nat := 0

def Walk.fail (walk : Walk) (error : DescriptorError) : Walk :=
  { walk with result := { walk.result with error := error } }

-- `++interface_descriptors` and the first-occurrence update of the 256-entry table.
def Walk.observe (walk : Walk) (intf : InterfaceClass) : Walk :=
  { result :=
      if walk.seenInterfaces intf.number then walk.result
      else { walk.result with observedInterfaces := walk.result.observedInterfaces + 1 }
    seenInterfaces := fun n => n == intf.number || walk.seenInterfaces n
    interfaceDescriptors := walk.interfaceDescriptors + 1 }

def Walk.reject (walk : Walk) (intf : InterfaceClass) : Walk :=
  { walk with
    result := { walk.result with error := .interfaceNotAllowed, offendingInterface := intf } }

-- The interface fields of the descriptor at `offset`, each an in-bounds read.
def readInterface (p : List Byte) (offset : Nat) : Option InterfaceClass := do
  let number ← p[offset + 2]?
  let alternateSetting ← p[offset + 3]?
  let cls ← p[offset + 5]?
  let subcls ← p[offset + 6]?
  let protocol ← p[offset + 7]?
  return { number, alternateSetting, cls, subcls, protocol }

-- The `while (offset < bytes.size)` loop. `none` is a read outside the buffer or a
-- walk that outlives its fuel; neither happens (`walkLoop_spec`).
def walkLoop (p : List Byte) (isAllowed : InterfaceClass → Bool) :
    Nat → Nat → Walk → Option Walk
  | 0, _, _ => none
  | fuel + 1, offset, walk =>
    if offset < p.length then
      if p.length - offset < 2 then some (walk.fail .descriptorHeaderTruncated)
      else do
        let length ← p[offset]?
        let type ← p[offset + 1]?
        if length.toNat < 2 ∨ p.length - offset < length.toNat then
          some (walk.fail .invalidDescriptorLength)
        else if type = interfaceDescriptorType then
          if length.toNat < interfaceDescriptorSize then
            some (walk.fail .invalidInterfaceDescriptor)
          else do
            let intf ← readInterface p offset
            if isAllowed intf then
              walkLoop p isAllowed fuel (offset + length.toNat) (walk.observe intf)
            else some ((walk.observe intf).reject intf)
        else if type = endpointDescriptorType ∧ length.toNat < endpointDescriptorSize then
          some (walk.fail .invalidEndpointDescriptor)
        else walkLoop p isAllowed fuel (offset + length.toNat) walk
    else some walk

-- The checks after the loop.
def Walk.finish (walk : Walk) : DescriptorResult :=
  if walk.result.error ≠ .none then walk.result
  else if walk.interfaceDescriptors = 0 then { walk.result with error := .noInterfaces }
  else if walk.result.observedInterfaces ≠ walk.result.declaredInterfaces then
    { walk.result with error := .interfaceCountMismatch }
  else walk.result

-- A null `descriptor_bytes::data` is `none`.
def evaluateConfiguration (bytes : Option (List Byte)) (isAllowed : InterfaceClass → Bool) :
    Option DescriptorResult :=
  match bytes with
  | none => some { error := .configurationHeaderTooShort }
  | some p =>
    if p.length < configurationDescriptorSize then
      some { error := .configurationHeaderTooShort }
    else do
      let b0 ← p[0]?
      let b1 ← p[1]?
      if b0.toNat ≠ configurationDescriptorSize ∨ b1 ≠ configurationDescriptorType then
        some { error := .invalidConfigurationHeader }
      else do
        let b2 ← p[2]?
        let b3 ← p[3]?
        if b2.toNat + 256 * b3.toNat ≠ p.length then some { error := .totalLengthMismatch }
        else do
          let b4 ← p[4]?
          let walk ← walkLoop p isAllowed (p.length + 1) 0
            { result := { declaredInterfaces := b4.toNat } }
          return walk.finish

end Usbip.DeviceFilter

import Usbip.WskContext

namespace Usbip.TransferBuffer

open Usbip.Wsk

-- The address of a byte in physical memory, and where virtual addresses lead to.
abbrev Physical := Nat

abbrev AddressSpace := Nat → Physical

-- The bytes that a locked or mapped MDL describes.
structure Mdl where
  bytes : List Physical
  size : bytes.length < 2 ^ 32

-- The members of a URB for its buffer; `transferBufferMDL` are the MDLs of the chain.
structure UrbTransfer where
  transferBufferLength : UInt32 := 0
  transferBuffer : Option Nat := none
  transferBufferMDL : List Mdl := []

-- What the system answers. `systemAddress` is that of the first MDL of the chain.
structure Env where
  addressSpace : AddressSpace
  systemAddress : Option Nat := none
  allocated : Bool := true
  locked : Bool := true

-- `size`
def size (chain : List Mdl) : Nat := (chain.map fun mdl => mdl.bytes.length).sum

-- What an MDL for a virtual address describes, be it locked or built for nonpaged pool.
def range (addressSpace : AddressSpace) (address length : Nat) : List Physical :=
  (List.range length).map fun i => addressSpace (address + i)

-- `IoBuildPartialMdl`
def partialMdl (source : Mdl) (offset length : Nat) : List Physical := (source.bytes.drop offset).take length

def URB_BUF_LEN : UInt32 := 0xFFFFFFFF

-- What the MDL that is made for an accepted size describes; none if there is no MDL afterwards.
def mapTransferBuffer (env : Env) (mdlSize : Nat) (operation : LockOperation) (r : UrbTransfer) :
    NTSTATUS × Option (List Physical) :=
  match r.transferBufferMDL with
  | head :: rest =>
    let len := size (head :: rest) % 2 ^ 32
    if len < mdlSize ∧ (rest ≠ [] ∨ operation = .IoReadAccess) then (.STATUS_BUFFER_TOO_SMALL, none)
    else if rest = [] then
      if env.allocated then (.STATUS_SUCCESS, some (partialMdl head 0 (min len mdlSize)))
      else (.STATUS_INSUFFICIENT_RESOURCES, none)
    else
      match env.systemAddress with
      | none => (.STATUS_UNSUCCESSFUL, none)
      | some buf => -- `prepare_nonpaged`
        if env.allocated then (.STATUS_SUCCESS, some (range env.addressSpace buf mdlSize))
        else (.STATUS_INSUFFICIENT_RESOURCES, none)
  | [] =>
    match r.transferBuffer with
    | none => (.STATUS_INVALID_PARAMETER, none)
    | some buf => -- `prepare_paged`
      if env.allocated = false then (.STATUS_INSUFFICIENT_RESOURCES, none)
      else if env.locked then (.STATUS_SUCCESS, some (range env.addressSpace buf mdlSize))
      else (.STATUS_LOCK_NOT_GRANTED, none)

def makeTransferBufferMdl (env : Env) (mdlSize : UInt32) (operation : LockOperation) (r : UrbTransfer) :
    NTSTATUS × Option (List Physical) :=
  if mdlSize ≠ URB_BUF_LEN ∧ r.transferBufferLength < mdlSize then (.STATUS_INVALID_PARAMETER, none)
  else
    let mdlSize := (if mdlSize = URB_BUF_LEN then r.transferBufferLength else mdlSize).toNat
    if mdlSize = 0 then (.STATUS_SUCCESS, none) else mapTransferBuffer env mdlSize operation r

end Usbip.TransferBuffer

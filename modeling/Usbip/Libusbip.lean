import Usbip.VhciIoctl

namespace Usbip.Libusbip

open Usbip.VhciIoctl

inductive Win32Error where
  | ERROR_INSUFFICIENT_BUFFER
  | ERROR_MORE_DATA
  | ERROR_INVALID_PARAMETER
  | USBIP_ERROR_DRIVER_RESPONSE
  | other (status : NTSTATUS)
  deriving DecidableEq, Repr

-- `RtlNtStatusToDosError`
def dosError : NTSTATUS → Win32Error
  | .STATUS_BUFFER_TOO_SMALL => .ERROR_INSUFFICIENT_BUFFER
  | .STATUS_BUFFER_OVERFLOW => .ERROR_MORE_DATA
  | .STATUS_INVALID_PARAMETER => .ERROR_INVALID_PARAMETER
  | st => .other st

-- The buffer of the system: the input, and what was in its memory before.
def systemRequest (input : List Byte) (outputLength : Nat) (pool : Nat → Byte) : Request where
  inputLength := input.length
  outputLength := outputLength
  buffer := input ++ (List.range (outputLength - input.length)).map pool
  size := by
    rw [List.length_append, List.length_map, List.length_range]
    omega

-- What `DeviceIoControl` comes back with; `output` is the caller's buffer then.
structure IoResult where
  error : Option Win32Error
  bytesReturned : Nat
  output : List Byte

-- A completed request has another status than STATUS_PENDING. Unless it is an error, the system copies as many bytes
-- as the driver has reported, of those that the caller's buffer has room for.
def deviceIoControl (handler : Request → Reply) (pool : Nat → Byte) (input output : List Byte) : IoResult :=
  let reply := handler (systemRequest input output.length pool)
  { error := if reply.status = .STATUS_SUCCESS then none else some (dosError reply.status)
    bytesReturned := if reply.status.isError then 0 else reply.information
    output := if reply.status.isError then output else overwrite output 0 (reply.output.take reply.information) }

-- `std::vector<char>::resize`
def resize (buf : List Byte) (n : Nat) : List Byte := buf.take n ++ List.replicate (n - buf.length) 0

end Usbip.Libusbip

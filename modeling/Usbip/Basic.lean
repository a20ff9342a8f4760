import Mathlib.Algebra.BigOperators.Group.List.Basic
import Mathlib.Algebra.Order.Ring.Int

namespace Usbip

abbrev Byte := UInt8

-- The statuses the modelled functions return or compare with; `failure` is any other
-- error of a system service.
inductive NTSTATUS where
  | STATUS_SUCCESS
  | STATUS_PENDING
  | STATUS_BUFFER_OVERFLOW
  | STATUS_CANCELLED
  | STATUS_NOT_SUPPORTED
  | STATUS_INVALID_PARAMETER
  | STATUS_INVALID_BUFFER_SIZE
  | STATUS_INVALID_HANDLE
  | STATUS_INVALID_DEVICE_STATE
  | STATUS_INSUFFICIENT_RESOURCES
  | STATUS_BUFFER_TOO_SMALL
  | STATUS_LOCK_NOT_GRANTED
  | STATUS_RECEIVE_PARTIAL
  | STATUS_CONNECTION_DISCONNECTED
  | STATUS_DEVICE_NOT_CONNECTED
  | STATUS_FILE_FORCED_CLOSED
  | STATUS_UNSUCCESSFUL
  | STATUS_INVALID_CONFIG_VALUE
  | USBIP_ERROR_GENERAL
  | USBIP_ERROR_ABI
  | USBIP_ERROR_SERIAL_NUMBER
  | USBIP_ERROR_PORTFULL
  | USBIP_ERROR_PROTOCOL
  | USBIP_ERROR_DEVICE_FILTERED
  | failure (code : Nat)
  deriving DecidableEq, Repr

-- `NT_SUCCESS`
def NTSTATUS.isSuccess : NTSTATUS → Bool
  | .STATUS_SUCCESS | .STATUS_PENDING => true
  | _ => false

-- `NT_ERROR`; STATUS_BUFFER_OVERFLOW is a warning.
def NTSTATUS.isError : NTSTATUS → Bool
  | .STATUS_BUFFER_OVERFLOW => false
  | st => !st.isSuccess

end Usbip

import Usbip.Libusbip.Imported
import Usbip.Vhci.DeviceState

namespace Usbip.Libusbip.Events

open Usbip.Library.Words
open Usbip.Libusbip.Imported (ImportedDevice makeImportedDevice)
open Usbip.Vhci.DeviceState (offsetofState offsetofSourceId sizeofDeviceState)
open Usbip.VhciIoctl

-- `none` is a value that has no name.
def stateOf? (code : UInt32) : Option Attach.DeviceState :=
  if code = 0 then some .unplugged
  else if code = 1 then some .connecting
  else if code = 2 then some .connected
  else if code = 3 then some .plugged
  else if code = 4 then some .disconnected
  else if code = 5 then some .unplugging
  else none

structure DeviceState where
  device : ImportedDevice
  state : Option Attach.DeviceState
  sourceId : UInt32
  deriving DecidableEq, Repr

def makeDeviceState (r : List Byte) : DeviceState where
  device := makeImportedDevice r sizeofBase
  state := stateOf? (ulongAt r offsetofState)
  sourceId := ulongAt r offsetofSourceId

def getDeviceState (data : List Byte) : Except Win32Error DeviceState :=
  if data.length ≠ sizeofDeviceState then .error .ERROR_INVALID_PARAMETER
  else if ulongAt data 0 ≠ UInt32.ofNat sizeofDeviceState then .error (.other .USBIP_ERROR_ABI)
  else .ok (makeDeviceState data)

def STATUS_END_OF_FILE : NTSTATUS := .failure 0xC0000011
def ERROR_HANDLE_EOF : Win32Error := .other STATUS_END_OF_FILE

-- What is made of the completion of the read. ReadFile returns TRUE for STATUS_END_OF_FILE.
def readDeviceState (reply : NTSTATUS × List Byte) : Except Win32Error DeviceState :=
  if reply.1.isSuccess = false ∧ reply.1 ≠ STATUS_END_OF_FILE then .error (dosError reply.1)
  else if reply.2.length = 0 then .error ERROR_HANDLE_EOF
  else getDeviceState reply.2

end Usbip.Libusbip.Events

import Usbip.Libusbip.Remote
import Usbip.Libusbip.StopAttach

namespace Usbip.Libusbip.Imported

open Usbip.Library.Words
open Usbip.Libusbip.Persistent (DeviceLocation)
open Usbip.Libusbip.Remote (WindowsSpeed UsbDeviceSpeed winSpeed)
open Usbip.Persistent (Rtl cString)
open Usbip.VhciIoctl hiding offsetofPort offsetofBusid offsetofService offsetofHost offsetofSerial
open Usbip.VhciIoctl.Imported (BUS_ID_SIZE sizeofService sizeofHost offsetofPort offsetofBusid offsetofService
  offsetofHost offsetofProperties DeviceCtx)
open Usbip.VhciIoctl.StopAttach (arrayAt)

structure ImportedDevice where
  location : DeviceLocation := {}
  port : Int := 0
  devid : UInt32 := 0
  speed : WindowsSpeed := .UsbLowSpeed
  vendor : UInt16 := 0
  product : UInt16 := 0
  serial : List Byte := []
  deriving DecidableEq, Repr

def ushortAt (buffer : List Byte) (offset : Nat) : UInt16 := le16 (byteAt buffer offset) (byteAt buffer (offset + 1))

-- The layout of `imported_device_properties`.
def offsetofSpeed : Nat := 4
def offsetofVendor : Nat := 8
def offsetofProduct : Nat := 10
def offsetofSerial : Nat := 12

def makeDeviceLocation (buf : List Byte) (base : Nat) : DeviceLocation where
  hostname := cString (arrayAt buf (base + offsetofHost) sizeofHost)
  service := cString (arrayAt buf (base + offsetofService) sizeofService)
  busid := cString (arrayAt buf (base + offsetofBusid) BUS_ID_SIZE)

-- Of the structure that begins at `base`.
def makeImportedDevice (buf : List Byte) (base : Nat) : ImportedDevice :=
  let properties := base + offsetofProperties
  { location := makeDeviceLocation buf base
    port := signed (ulongAt buf (base + offsetofPort))
    devid := ulongAt buf properties
    speed := winSpeed (UsbDeviceSpeed.ofUInt32? (ulongAt buf (properties + offsetofSpeed)))
    vendor := ushortAt buf (properties + offsetofVendor)
    product := ushortAt buf (properties + offsetofProduct)
    serial := cString (arrayAt buf (properties + offsetofSerial) SERIAL_BUFSZ) }

-- The loop of `get_imported_devices`. `tables round` are the devices that the driver has when it is called in that
-- round, `pool` is the memory of the system, `none` the end of the fuel.
def readImportedDevices (rtl : Rtl) (tables : Nat → List (Option DeviceCtx)) (pool : Nat → Nat → Byte) :
    Nat → Nat → Nat → List Byte → Option (Except Win32Error (List Byte))
  | 0, _, _, _ => none
  | fuel + 1, round, cnt, buf =>
    let buf := overwrite (resize buf (getImportedDevicesSize cnt)) 0 (bytes32 (UInt32.ofNat sizeofGetImportedDevices))
    let res := deviceIoControl (VhciIoctl.Imported.getImportedDevices rtl (tables round)) (pool round)
      (buf.take sizeofBase) buf
    match res.error with
    | none =>
      if res.bytesReturned < offsetofDevices then some (.error .USBIP_ERROR_DRIVER_RESPONSE)
      else some (.ok (resize res.output res.bytesReturned))
    | some err =>
      if err = .ERROR_INSUFFICIENT_BUFFER then
        readImportedDevices rtl tables pool fuel (round + 1) (2 * cnt) res.output
      else some (.error err)

def makeImportedDevices (buf : List Byte) : Except Win32Error (List ImportedDevice) :=
  let devicesSize := buf.length - offsetofDevices
  if devicesSize % sizeofImportedDevice ≠ 0 then .error .USBIP_ERROR_DRIVER_RESPONSE
  else .ok ((List.range (devicesSize / sizeofImportedDevice)).map fun i =>
    makeImportedDevice buf (getImportedDevicesSize i))

def getImportedDevices (rtl : Rtl) (tables : Nat → List (Option DeviceCtx)) (pool : Nat → Nat → Byte) (fuel : Nat) :
    Option (Except Win32Error (List ImportedDevice)) :=
  (readImportedDevices rtl tables pool fuel 0 4 []).map fun res => res.bind makeImportedDevices

end Usbip.Libusbip.Imported

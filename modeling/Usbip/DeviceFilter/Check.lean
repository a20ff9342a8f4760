import Usbip.DescriptorPatch
import Usbip.DeviceFilter.Parser
import Usbip.DeviceFilter.Policy
import Usbip.Proto

namespace Usbip.DeviceFilter

open Usbip.Library.Words

-- The fields of `usbip_usb_device` that the filter reads.
structure UsbipUsbDevice where
  idVendor : UInt16 := 0
  idProduct : UInt16 := 0
  bcdDevice : UInt16 := 0
  bDeviceClass : Byte := 0
  bDeviceSubClass : Byte := 0
  bDeviceProtocol : Byte := 0
  bNumConfigurations : Byte := 0
  deriving DecidableEq, Repr

-- `USB_DEVICE_DESCRIPTOR`
structure DeviceDescriptor where
  bLength : Byte := 0
  bDescriptorType : Byte := 0
  bcdUSB : UInt16 := 0
  bDeviceClass : Byte := 0
  bDeviceSubClass : Byte := 0
  bDeviceProtocol : Byte := 0
  bMaxPacketSize0 : Byte := 0
  idVendor : UInt16 := 0
  idProduct : UInt16 := 0
  bcdDevice : UInt16 := 0
  iManufacturer : Byte := 0
  iProduct : Byte := 0
  iSerialNumber : Byte := 0
  bNumConfigurations : Byte := 0
  deriving DecidableEq, Repr

def sizeofUsbDeviceDescriptor : Nat := 18
def USB_DEVICE_DESCRIPTOR_TYPE : Byte := 1
def USB_CONFIGURATION_DESCRIPTOR_TYPE : Byte := 2
def MAX_CONFIG_DESCRIPTOR_SIZE : Nat := 0xFFFF
def MAXUCHAR : Byte := 0xFF

-- A zeroed descriptor whose first bytes were received.
def DeviceDescriptor.ofBytes (b : List Byte) : DeviceDescriptor where
  bLength := b.getD 0 0
  bDescriptorType := b.getD 1 0
  bcdUSB := le16 (b.getD 2 0) (b.getD 3 0)
  bDeviceClass := b.getD 4 0
  bDeviceSubClass := b.getD 5 0
  bDeviceProtocol := b.getD 6 0
  bMaxPacketSize0 := b.getD 7 0
  idVendor := le16 (b.getD 8 0) (b.getD 9 0)
  idProduct := le16 (b.getD 10 0) (b.getD 11 0)
  bcdDevice := le16 (b.getD 12 0) (b.getD 13 0)
  iManufacturer := b.getD 14 0
  iProduct := b.getD 15 0
  iSerialNumber := b.getD 16 0
  bNumConfigurations := b.getD 17 0

def DeviceDescriptor.isValid (d : DeviceDescriptor) : Bool :=
  d.bLength.toNat == sizeofUsbDeviceDescriptor && d.bDescriptorType == USB_DEVICE_DESCRIPTOR_TYPE

-- `libdrv::is_valid(USB_CONFIGURATION_DESCRIPTOR)` of the bytes of the header.
def isValidConfiguration (head : List Byte) : Bool :=
  (head.getD 0 0).toNat == configurationDescriptorSize &&
    head.getD 1 0 == USB_CONFIGURATION_DESCRIPTOR_TYPE &&
    decide ((head.getD 0 0).toNat < (head.getD 2 0).toNat + 256 * (head.getD 3 0).toNat)

-- A null `data` is `none`.
structure ConfigurationDescriptorSnapshot where
  data : Option (List Byte) := none
  length : Nat := 0
  deriving DecidableEq, Repr

structure DescriptorSnapshot where
  device : DeviceDescriptor := {}
  configurations : List ConfigurationDescriptorSnapshot := []
  configurationCount : Byte := 0
  ready : Bool := false
  deriving DecidableEq, Repr

structure Properties where
  devid : UInt32 := 0
  speed : Int := 0
  serial : String := ""
  iserial : Byte := 0
  deriving DecidableEq, Repr

structure DeviceCtxExt where
  properties : Properties := {}
  descriptors : DescriptorSnapshot := {}
  deriving DecidableEq, Repr

-- The arguments of `report_rejection` that differ from call to call.
structure Rejection where
  reason : String
  ifnum : Int := -1
  cls : Byte := 0
  sub : Byte := 0
  proto : Byte := 0
  deriving DecidableEq, Repr

-- What `check_device` works on: the device, its own `seqnum`, the bytes the server has
-- yet to deliver, the headers sent to it and the event log. `service n` is what the n-th
-- send, receive or allocation fails with, if it does.
structure World where
  ext : DeviceCtxExt := {}
  seqnum : UInt32 := 0
  stream : List Byte := []
  service : Nat → Option NTSTATUS := fun _ => none
  calls : Nat := 0
  sent : List Header := []
  log : List Rejection := []

-- `stuck` is an access outside a buffer or a loop that does not end.
inductive Stop where
  | status (st : NTSTATUS)
  | stuck
  deriving DecidableEq, Repr

abbrev Check := EStateM Stop World

def callService : Check Unit := do
  let w ← get
  modify fun w => { w with calls := w.calls + 1 }
  match w.service w.calls with
  | some st => throw (.status st)
  | none => pure ()

def send (hdr : Header) : Check Unit := do
  callService
  modify fun w => { w with sent := w.sent ++ [hdr] }

-- All of the requested bytes or an error.
def recv (len : Nat) : Check (List Byte) := do
  callService
  let w ← get
  if w.stream.length < len then throw (.status .STATUS_RECEIVE_PARTIAL)
  else
    modify fun w => { w with stream := w.stream.drop len }
    return w.stream.take len

-- `report_rejection` and the return after it.
def reject {α : Type} (rejection : Rejection) : Check α := do
  modify fun w => { w with log := w.log ++ [rejection] }
  throw (.status .USBIP_ERROR_DEVICE_FILTERED)

-- `if (auto err = x) { report_rejection(...); return USBIP_ERROR_DEVICE_FILTERED; }`
def orReject {α : Type} (x : Check α) (reason : String) : Check α :=
  tryCatch x fun
    | .status _ => reject { reason := reason }
    | .stuck => throw .stuck

def getDescriptorHeader (seqnum devid : UInt32) (type index : Byte) (len : Nat) : Header where
  command := CMD_SUBMIT
  seqnum := seqnum
  devid := devid
  direction := directionIn
  ep := 0
  u0 := 0
  u1 := UInt32.ofNat len
  u2 := 0
  u3 := ofSigned numberOfPacketsNonIsoch
  u4 := 0
  u5 := le32 0x80 0x06 index type
  u6 := le32 0 0 (UInt8.ofNat len) (UInt8.ofNat (len / 256))

-- The bytes received; `actual` is their number.
def getDescriptor (type index : Byte) (len : Nat) : Check (List Byte) := do
  let w ← get
  modify fun w => { w with seqnum := w.seqnum + 1 }
  send (byteswapHeader (getDescriptorHeader w.seqnum w.ext.properties.devid type index len) .host2net)
  let rep ← recv Header.size
  let rep := byteswapHeader (Header.ofBytes rep) .net2host
  if rep.command ≠ RET_SUBMIT then throw (.status .USBIP_ERROR_PROTOCOL)
  else if rep.status ≠ 0 then throw (.status .USBIP_ERROR_GENERAL)
  else if rep.actualLength < 0 ∨ (len : Int) < rep.actualLength then
    throw (.status .USBIP_ERROR_PROTOCOL)
  else if rep.actualLength ≠ 0 then recv rep.actualLength.toNat
  else return []

def consistent (device : DeviceDescriptor) (udev : UsbipUsbDevice) : Bool :=
  device.idVendor == udev.idVendor &&
  device.idProduct == udev.idProduct &&
  device.bcdDevice == udev.bcdDevice &&
  device.bDeviceClass == udev.bDeviceClass &&
  device.bDeviceSubClass == udev.bDeviceSubClass &&
  device.bDeviceProtocol == udev.bDeviceProtocol &&
  device.bNumConfigurations == udev.bNumConfigurations

-- A device with a generated serial number gets an index for it.
def serialIndex (props : Properties) (device : DeviceDescriptor) : DeviceDescriptor :=
  if props.serial ≠ "" ∧ device.iSerialNumber = 0 then { device with iSerialNumber := MAXUCHAR }
  else device

def publishDevice (device : DeviceDescriptor) (ext : DeviceCtxExt) : DeviceCtxExt where
  properties :=
    if ext.properties.serial ≠ "" then
      { ext.properties with iserial := (serialIndex ext.properties device).iSerialNumber }
    else ext.properties
  descriptors := { ext.descriptors with device := serialIndex ext.properties device }

def snapshotDeviceDescriptor (udev : UsbipUsbDevice) : Check Unit := do
  let bytes ← orReject (getDescriptor USB_DEVICE_DESCRIPTOR_TYPE 0 sizeofUsbDeviceDescriptor)
    "device descriptor fetch failed"
  let device := DeviceDescriptor.ofBytes bytes
  if bytes.length ≠ sizeofUsbDeviceDescriptor ∨ device.isValid = false then
    reject { reason := "invalid device descriptor" }
  else if consistent device udev = false then
    reject { reason := "device descriptor differs from import identity"
             cls := device.bDeviceClass
             sub := device.bDeviceSubClass
             proto := device.bDeviceProtocol }
  else modify fun w => { w with ext := publishDevice device w.ext }

-- The lambda that bridges the parser's class tuple to the policy.
def policyAllows (p : Policy) (i : InterfaceClass) : Bool := isAllowed p i.cls i.subcls i.protocol

def rejectionOf (result : DescriptorResult) : Rejection :=
  let bad := result.offendingInterface
  if result.error = .interfaceNotAllowed then
    { reason := descriptorErrorReason result.error
      ifnum := bad.number.toNat
      cls := bad.cls
      sub := bad.subcls
      proto := bad.protocol }
  else { reason := descriptorErrorReason result.error }

def publishConfiguration (i : Nat) (data : List Byte) (ext : DeviceCtxExt) : DeviceCtxExt :=
  { ext with
    descriptors :=
      { ext.descriptors with
        configurations := ext.descriptors.configurations.set i
          { data := some data, length := data.length } } }

def checkConfiguration (parse : ParseDescriptors) (p : Policy) (cfgIndex : Nat) : Check Unit := do
  let fetch := getDescriptor USB_CONFIGURATION_DESCRIPTOR_TYPE (UInt8.ofNat cfgIndex)
  let head ← orReject (fetch configurationDescriptorSize) "config descriptor header fetch failed"
  let total := (head.getD 2 0).toNat + 256 * (head.getD 3 0).toNat
  if head.length < configurationDescriptorSize ∨ isValidConfiguration head = false then
    reject { reason := "invalid config descriptor" }
  else if total < configurationDescriptorSize ∨ MAX_CONFIG_DESCRIPTOR_SIZE < total then
    reject { reason := "bad config wTotalLength" }
  else
    orReject callService "out of memory for config descriptor"
    let full ← orReject (fetch total) "full config descriptor fetch failed"
    if full.length < total then reject { reason := "short config descriptor" }
    else
      match evaluateConfiguration (some full) (policyAllows p) with
      | none => throw .stuck
      | some result =>
        if result.error ≠ .none then reject (rejectionOf result)
        else
          let w ← get
          match patchConfigurationForUdecx parse full w.ext.properties.speed with
          | none => throw .stuck
          | some patched => modify fun w => { w with ext := publishConfiguration cfgIndex patched w.ext }

def isClassMeaningful (cls : Byte) : Bool := cls != 0 && cls != 0xEF

def allocateConfigurations (count : Byte) (ext : DeviceCtxExt) : DeviceCtxExt :=
  { ext with
    descriptors :=
      { ext.descriptors with
        configurations := List.replicate count.toNat {}
        configurationCount := count } }

def publishSnapshot (ext : DeviceCtxExt) : DeviceCtxExt :=
  { ext with descriptors := { ext.descriptors with ready := true } }

-- `check_device` after `load(p)`.
def checkDeviceAgainst (parse : ParseDescriptors) (p : Policy) (udev : UsbipUsbDevice) : Check Unit := do
  if isClassMeaningful udev.bDeviceClass ∧
      isAllowed p udev.bDeviceClass udev.bDeviceSubClass udev.bDeviceProtocol = false then
    reject { reason := "device class not in whitelist"
             cls := udev.bDeviceClass
             sub := udev.bDeviceSubClass
             proto := udev.bDeviceProtocol }
  else if udev.bNumConfigurations = 0 then reject { reason := "device reports no configurations" }
  else
    modify fun w => { w with seqnum := 1 }
    snapshotDeviceDescriptor udev
    orReject callService "out of memory for descriptor snapshot"
    modify fun w => { w with ext := allocateConfigurations udev.bNumConfigurations w.ext }
    (List.range udev.bNumConfigurations.toNat).forM (checkConfiguration parse p)
    modify fun w => { w with ext := publishSnapshot w.ext }

def checkDevice (parse : ParseDescriptors) (garbage : Nat → Byte) (query : RegistryQuery)
    (udev : UsbipUsbDevice) : Check Unit :=
  checkDeviceAgainst parse (load garbage query) udev

-- What `UdecxUsbDeviceInitAddDescriptor` and its `WithIndex` variant were given.
inductive Registered where
  | device (descriptor : DeviceDescriptor)
  | configuration (index : Nat) (data : List Byte)
  deriving DecidableEq, Repr

abbrev Register := EStateM Stop (List Registered)

-- `outcome` is the status of a call made when so many descriptors are registered.
def addDescriptor (outcome : Nat → NTSTATUS) (descriptor : Registered) : Register Unit := do
  let registered ← get
  if outcome registered.length ≠ .STATUS_SUCCESS then throw (.status (outcome registered.length))
  else set (registered ++ [descriptor])

def addConfiguration (outcome : Nat → NTSTATUS) (snapshot : DescriptorSnapshot) (i : Nat) :
    Register Unit :=
  match snapshot.configurations[i]? with
  | none => throw .stuck
  | some config =>
    match config.data with
    | none => throw (.status .STATUS_INVALID_DEVICE_STATE)
    | some data =>
      if config.length = 0 then throw (.status .STATUS_INVALID_DEVICE_STATE)
      else addDescriptor outcome (.configuration i (data.take config.length))

def addSnapshotDescriptors (outcome : Nat → NTSTATUS) (snapshot : DescriptorSnapshot) : Register Unit :=
  if snapshot.ready = false then pure ()
  else do
    addDescriptor outcome (.device snapshot.device)
    (List.range snapshot.configurationCount.toNat).forM (addConfiguration outcome snapshot)

end Usbip.DeviceFilter

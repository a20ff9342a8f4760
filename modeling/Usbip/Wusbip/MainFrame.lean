import Usbip.Wusbip.DeviceTree

namespace Usbip.Wusbip.MainFrame

open Usbip.Library.Keyed
open Usbip.Libusbip.Events (DeviceState)
open Usbip.Libusbip.Imported (ImportedDevice)
open Usbip.Libusbip.Persistent (DeviceLocation PersistentDevice Utf)
open Usbip.Libusbip.Remote (UsbDevice)
open Usbip.Libusbip.UsbIds (Ids)
open Usbip.Wusbip.DeviceTree

-- The conversions of the system, the database of the names, and what `wxConfig` reads back of a text, in which it
-- expands the variables of the environment.
structure Env where
  utf : Utf
  ids : Ids
  readConfig : Text → Text := id

variable (env : Env)

section Config

-- What is written for a device, and read of a group.
def savedColumns (url : Text) (row : Row) : DeviceColumns where
  url := url
  text col := if savedKeys.contains col then row col else []

-- The groups of the configuration in the order in which the system has them; what has no url or no bus id is left out.
def getSaved (groups : List DeviceColumns) : List DeviceColumns :=
  (groups.map fun group => savedColumns (env.readConfig group.url) fun col => env.readConfig (group.text col)).filter
    fun dev => !dev.url.isEmpty && !(dev.text .busid).isEmpty

end Config

section Events

def locationKey (loc : DeviceLocation) : Text × Text := (makeServerUrl env.utf loc, fromUTF8 env.utf loc.busid)

-- The state and the source of a device are those of an event if there is no source yet or the device is plugged.
def accepts (row : Row) (st : DeviceState) : Bool :=
  (row .sourceId).isEmpty || st.state == some .plugged || toWxstring st.sourceId == row .sourceId

-- This could be the last event for the source.
def isLast (state : Option Attach.DeviceState) : Bool := state == some .disconnected || state == some .unplugged

def clearSource (st : DeviceState) : DeviceState := if isLast st.state then { st with sourceId := 0 } else st

-- The columns of an event itself.
def ownColumns (st : DeviceState) : DeviceColumns × Flags :=
  let (dc, flags) := makeDeviceColumns env.utf env.ids (clearSource st)
  if dc.text .port ≠ [] ∧ isPortResidual st.state then (dc.set .port [], flags.add [.port]) else (dc, flags)

-- `fresh`: what was saved of the device is to be shown.
def eventColumns (st : DeviceState) (fresh : Bool) (persistent : List PersistentDevice) (saved : List DeviceColumns) :
    DeviceColumns × Flags :=
  let (dc, flags) := ownColumns env st
  if fresh then updateFromSaved env.utf dc flags persistent saved false else (dc, flags)

def onDeviceState (groups : List DeviceColumns) (persistent : List PersistentDevice) (tree : Tree) (st : DeviceState) :
    Tree :=
  let (url, busid) := locationKey env st.device.location
  let (tree, added) := findOrAddDevice tree url busid
  let row := (findLeaf url busid tree).getD (newRow busid)
  if st.state = some .disconnected ∧ isEmptyRow row then removeDevice tree url busid -- connection has failed
  else if accepts row st = false then tree
  else
    updateDevice tree url busid
      (eventColumns env st (added || isEmptyDevice st.device) persistent (getSaved env groups))

end Events

section Loading

-- One round of the loop of `on_load`.
def loadDevice (persistent : List PersistentDevice) (tree : Tree) (dc : DeviceColumns) : Tree :=
  let busid := dc.text .busid
  let (tree, added) := findOrAddDevice tree dc.url busid
  let row := (findLeaf dc.url busid tree).getD (newRow busid)
  if added = false ∧ isEmptyRow row = false then tree
  else
    let dc := dc.set .state (stateText (some .unplugged))
    let flags := (noFlags.add savedKeys).add [.state]
    updateDevice tree dc.url busid (updateFromSaved env.utf dc flags persistent [] false)

def onLoad (groups : List DeviceColumns) (persistent : List PersistentDevice) (tree : Tree) : Tree :=
  (getSaved env groups).foldl (loadDevice env persistent) tree

def reloadDevice (groups : List DeviceColumns) (persistent : List PersistentDevice) (tree : Tree)
    (dev : ImportedDevice) : Tree :=
  let (url, busid) := locationKey env dev.location
  let (tree, _) := findOrAddDevice tree url busid
  let (dc, flags) := makeDeviceColumns env.utf env.ids { device := dev, state := some .plugged, sourceId := 0 }
  updateDevice tree url busid (updateFromSaved env.utf dc flags persistent (getSaved env groups) true)

-- `none`: the driver cannot tell its devices. `load`: the list is loaded once.
def onReload (groups : List DeviceColumns) (persistent : List PersistentDevice) (load : Bool)
    (devices : Option (List ImportedDevice)) : Tree :=
  match devices with
  | none => []
  | some devices =>
    let tree := devices.foldl (reloadDevice env groups persistent) []
    if load then onLoad env groups persistent tree else tree

end Loading

section Exported

def makeDevid (busnum devnum : UInt32) : UInt32 := (busnum <<< 16) ||| (devnum &&& 0xFFFF)

def makeImportedDevice (hostname service : List Byte) (dev : UsbDevice) : ImportedDevice where
  location := { hostname := hostname, service := service, busid := dev.busid }
  devid := makeDevid dev.busnum dev.devnum
  speed := dev.speed
  vendor := dev.idVendor
  product := dev.idProduct

-- An exported device with the reason for which the driver would block it, if there is one.
abbrev Exported := UsbDevice × Option Reason

variable (hostname service : List Byte)

-- The columns of an exported device, with the state of a new one.
def exportedColumns (groups : List DeviceColumns) (persistent : List PersistentDevice) (dev : UsbDevice) :
    DeviceColumns × Flags :=
  let (dc, flags) := makeDeviceColumns env.utf env.ids
    { device := makeImportedDevice hostname service dev, state := some .unplugged, sourceId := 0 }
  updateFromSaved env.utf dc flags persistent (getSaved env groups) true

-- The callback for a device.
def addExportedDevice (groups : List DeviceColumns) (persistent : List PersistentDevice) (tree : Tree)
    (dev : UsbDevice) : Tree :=
  let (dc, flags) := exportedColumns env hostname service groups persistent dev
  let busid := dc.text .busid
  let (tree, added) := findOrAddDevice tree dc.url busid
  let flags : Flags := if added then flags else fun col => flags col && col != .state
  updateDevice tree dc.url busid (dc, flags)

-- A device that the driver would block is flagged.
def flagDevice (groups : List DeviceColumns) (persistent : List PersistentDevice) (tree : Tree) (flagged : Exported) :
    Tree :=
  match flagged.2 with
  | none => tree
  | some reason =>
    let dc := (exportedColumns env hostname service groups persistent flagged.1).1.set .notes (ascii reason.text)
    let busid := dc.text .busid
    let (tree, _) := findOrAddDevice tree dc.url busid
    updateDevice tree dc.url busid (dc, noFlags.add [.notes])

-- `add_exported_devices` for the devices that the server has listed.
def addExportedDevices (groups : List DeviceColumns) (persistent : List PersistentDevice) (devices : List Exported)
    (tree : Tree) : Tree :=
  let tree := (devices.map Prod.fst).foldl (addExportedDevice env hostname service groups persistent) tree
  devices.foldl (flagDevice env hostname service groups persistent) tree

end Exported

section Saving

-- All devices in the order of the tree, without those that are empty.
def getDevices (tree : Tree) : List (Text × Row) :=
  (tree.flatMap fun server => server.2.map fun device => (server.1, device.2)).filter fun device => !isEmptyRow device.2

def isPersistent (row : Row) : Bool := !(row .persistent).isEmpty

-- The groups, and the list that the driver is given.
def save (devices : List (Text × Row)) : List DeviceColumns × List PersistentDevice :=
  (devices.map fun device => savedColumns device.1 device.2,
    (devices.filter fun device => isPersistent device.2).map fun device =>
      makePersistentDevice env.utf device.1 (device.2 .busid) (device.2 .serial))

end Saving

section Runs

-- `groups` is the configuration; `loaded`: the list was loaded when it was shown for the first time.
structure State where
  tree : Tree := []
  groups : List DeviceColumns := []
  loaded : Bool := false

-- `persistent` is the list that the driver gives at that time. The text of a column is edited in a dialog, or it is
-- the mark of a persistent device that is toggled. `selected` are the devices that are saved. The system has the
-- groups of the configuration in an order of its own, and they may be written by another window.
inductive Action where
  | deviceState (persistent : List PersistentDevice) (st : DeviceState)
  | load (persistent : List PersistentDevice)
  | reload (persistent : List PersistentDevice) (devices : Option (List ImportedDevice))
  | addExported (persistent : List PersistentDevice) (hostname service : List Byte) (devices : List Exported)
  | editNotes (url busid value : Text)
  | editSerial (url busid value : Text)
  | toggleAuto (url busid : Text)
  | save (selected : Text × Row → Bool)
  | config (groups : List DeviceColumns)

def setText (col : Column) (value : Text) (row : Row) : Row := Function.update row col value

def toggleMark (row : Row) : Row := setText .persistent (if isPersistent row then [] else persistentMark) row

def step (s : State) : Action → State
  | .deviceState persistent st => { s with tree := onDeviceState env s.groups persistent s.tree st }
  | .load persistent => { s with tree := onLoad env s.groups persistent s.tree }
  | .reload persistent devices =>
    { s with
      tree := onReload env s.groups persistent (!s.loaded) devices
      loaded := s.loaded || devices.isSome }
  | .addExported persistent hostname service devices =>
    { s with tree := addExportedDevices env hostname service s.groups persistent devices s.tree }
  | .editNotes url busid value => { s with tree := modifyDevice s.tree url busid (setText .notes value) }
  | .editSerial url busid value => { s with tree := modifyDevice s.tree url busid (setText .serial value) }
  | .toggleAuto url busid => { s with tree := modifyDevice s.tree url busid toggleMark }
  | .save selected => { s with groups := (save env ((getDevices s.tree).filter selected)).1 }
  | .config groups => { s with groups := groups }

def run (s : State) (actions : List Action) : State := actions.foldl (step env) s

end Runs

section Views

-- What is to be shown of a device that is plugged; the source is zero if it is not known.
structure Plugged where
  port : Int
  source : UInt32
  deriving DecidableEq, Repr

-- An event of another source than that of the device does not unplug it.
def afterEvent (st : DeviceState) (shown : Option Plugged) : Option Plugged :=
  if st.state = some .plugged then some { port := st.device.port, source := st.sourceId }
  else shown.filter fun p => p.source ≠ 0 ∧ p.source ≠ st.sourceId

def exportedKey (hostname service : List Byte) (dev : UsbDevice) : Text × Text :=
  locationKey env (makeImportedDevice hostname service dev).location

-- What is to be shown of the device of a key: after a reload the source is not known, nor once the server has
-- exported the device.
def afterAction (key : Text × Text) (shown : Option Plugged) : Action → Option Plugged
  | .deviceState _ st => if locationKey env st.device.location = key then afterEvent st shown else shown
  | .reload _ devices =>
    ((devices.getD []).filter fun dev => locationKey env dev.location = key).getLast?.map fun dev =>
      { port := dev.port, source := 0 }
  | .addExported _ hostname service devices =>
    if devices.any fun dev => exportedKey env hostname service dev.1 = key then
      shown.map fun p => { p with source := 0 }
    else shown
  | _ => shown

def shownAfter (key : Text × Text) (actions : List Action) : Option Plugged := actions.foldl (afterAction env key) none

-- A device that is plugged has a number on its server and a port, and one that was saved has a number.
def isImported (dev : ImportedDevice) : Bool := !isEmptyDevice dev && dev.port != 0

def Action.isReal : Action → Bool
  | .deviceState _ st => st.state != some .plugged || isImported st.device
  | .reload _ devices => (devices.getD []).all isImported
  | .config groups => groups.all fun group => !(group.text .devid).isEmpty
  | _ => true

end Views

end Usbip.Wusbip.MainFrame

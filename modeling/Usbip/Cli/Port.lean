import Usbip.Libusbip.Attach
import Usbip.Libusbip.Imported

namespace Usbip.Cli.Port

open Usbip.Libusbip.Attach (AttachArgs Call attach)
open Usbip.Libusbip.Imported (ImportedDevice getImportedDevices)
open Usbip.Libusbip.Persistent
open Usbip.Persistent (Rtl)
open Usbip.Libusbip (Win32Error)
open Usbip.VhciIoctl.Imported (DeviceCtx)

structure PortArgs where
  ports : List Int := []
  persistent : Bool := false
  deriving DecidableEq, Repr

inductive CommandError where
  | notOpened
  | lastError (err : Win32Error)
  deriving DecidableEq, Repr

-- What `cmd_port` has done: the devices that it has printed, the error that is logged, what the driver has assigned to
-- the value of the registry, and the result.
structure Outcome where
  printed : List ImportedDevice := []
  error : Option CommandError := none
  stored : Option (List Byte) := none
  ok : Bool := false
  deriving DecidableEq, Repr

-- The variables of the loop of `cmd_port`.
structure Shown where
  found : Bool := false
  printed : List ImportedDevice := []
  persistent : List PersistentDevice := []
  deriving DecidableEq, Repr

def persistentDevice (d : ImportedDevice) : PersistentDevice := { location := d.location, serial := d.serial }

def isShown (ports : List Int) (d : ImportedDevice) : Bool := ports.isEmpty || ports.contains d.port

def showDevice (args : PortArgs) (shown : Shown) (d : ImportedDevice) : Shown :=
  if isShown args.ports d then
    { found := true
      printed := shown.printed ++ [d]
      persistent := if args.persistent then shown.persistent ++ [persistentDevice d] else shown.persistent }
  else shown

-- `none` is the end of the fuel of the loop that reads the devices.
def cmdPort (utf : Utf) (rtl : Rtl) (env : VhciIoctl.Env) (opened : Bool) (tables : Nat → List (Option DeviceCtx))
    (getPool : Nat → Nat → Byte) (setPool : Nat → Byte) (fuel : Nat) (args : PortArgs) : Option Outcome :=
  if opened = false then some { error := some .notOpened }
  else
    (getImportedDevices rtl tables getPool fuel).map fun
      | .error err => { error := some (.lastError err) }
      | .ok devices =>
        let shown := devices.foldl (showDevice args) {}
        let ok := shown.found || args.ports.isEmpty
        if args.persistent then
          match setPersistent utf env setPool shown.persistent with
          | (none, stored) => { printed := shown.printed, stored := stored, ok := ok }
          | (some err, stored) =>
            { printed := shown.printed, error := some (.lastError err), stored := stored, ok := false }
        else { printed := shown.printed, ok := ok }

def COLON : Byte := 58
def SLASH : Byte := 47
def SPACE : Byte := 32

-- `std::println("{}:{}/{} {}", ...)`
def persistentLine (d : PersistentDevice) : List Byte :=
  d.location.hostname ++ COLON :: (d.location.service ++ SLASH :: (d.location.busid ++ SPACE :: d.serial))

-- `usbip list --stashed`: the error, or the lines that are printed.
def listPersistentDevices (utf : Utf) (env : VhciIoctl.Env) (opened : Bool) (pool : Nat → Nat → Byte) (fuel : Nat) :
    Option (Except CommandError (List (List Byte))) :=
  if opened = false then some (.error .notOpened)
  else
    (getPersistent utf env pool fuel).map fun
      | .error err => .error (.lastError err)
      | .ok devices => .ok (devices.map persistentLine)

-- What the driver has when it is called for the device `i` of the list.
structure Driver where
  env : Nat → VhciIoctl.Env
  vhci : Nat → Vhci.VhciCtx
  pool : Nat → Nat → Byte

-- The loop of `attach_persistent_devices`, which goes on if a device is not attached. `none`: a request is never
-- completed.
def attachLoop (driver : Driver) (rest : Nat → Byte) : Nat → List PersistentDevice → Option (List (List Byte × Call))
  | _, [] => some []
  | i, d :: devices =>
    (attach (driver.env i) (driver.vhci i) rest (driver.pool i) { location := d.location, serial := d.serial }).bind
      fun call => (attachLoop driver rest (i + 1) devices).map ((persistentLine d, call) :: ·)

-- `usbip attach --stashed`: the error, or the lines that are printed with the calls of the driver.
def attachPersistentDevices (utf : Utf) (env : VhciIoctl.Env) (opened : Bool) (pool : Nat → Nat → Byte) (fuel : Nat)
    (driver : Driver) (rest : Nat → Byte) : Option (Except CommandError (List (List Byte × Call))) :=
  if opened = false then some (.error .notOpened)
  else
    (getPersistent utf env pool fuel).bind fun
      | .error err => some (.error (.lastError err))
      | .ok devices => (attachLoop driver rest 0 devices).map .ok

end Usbip.Cli.Port

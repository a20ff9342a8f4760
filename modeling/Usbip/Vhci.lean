import Usbip.Basic

namespace Usbip.Vhci

-- `UDECXUSBDEVICE`
abbrev Device := Nat

def USB_SPEED_SUPER : Int := 5

-- The fields of `device_ctx` that plug-in and detach go by; the speed comes with the import reply.
structure DeviceCtx where
  speed : Int := 0
  port : Int := 0
  unplugged : Bool := false
  deriving DecidableEq, Repr

-- `vhci_ctx` with the contexts of all devices; `devices_cnt` is the length of the table.
structure VhciCtx where
  usb2Ports : Nat
  devices : List (Option Device)
  device : Device → DeviceCtx := fun _ => {}

def VhciCtx.set (vhci : VhciCtx) (d : Device) (ctx : DeviceCtx) : VhciCtx :=
  { vhci with device := fun e => if e = d then ctx else vhci.device e }

def isValidPort (vhci : VhciCtx) (port : Int) : Bool :=
  decide (0 < port) && decide (port ≤ vhci.devices.length)

def getPortRange (vhci : VhciCtx) (speed : Int) : Nat × Nat :=
  if speed < USB_SPEED_SUPER then (0, vhci.usb2Ports) else (vhci.usb2Ports, vhci.devices.length)

-- The slot the loop of `claim_roothub_port` stops at.
def freeSlot (vhci : VhciCtx) (d : Device) : Option Nat :=
  let (first, last) := getPortRange vhci (vhci.device d).speed
  (List.range' first (last - first)).find? fun i => vhci.devices[i]? = some none

def claimRoothubPort (vhci : VhciCtx) (d : Device) : VhciCtx × Int :=
  match freeSlot vhci d with
  | none => (vhci, 0)
  | some i =>
    let port : Int := i + 1
    ({ vhci.set d { vhci.device d with port := port } with devices := vhci.devices.set i (some d) }, port)

def reclaimRoothubPort (vhci : VhciCtx) (d : Device) : VhciCtx × Int :=
  let port := (vhci.device d).port
  if port = 0 then (vhci, 0)
  else
    ({ vhci.set d { vhci.device d with port := 0 } with
       devices := vhci.devices.set (port - 1).toNat none }, port)

def getDevice (vhci : VhciCtx) (port : Int) : Option Device :=
  if isValidPort vhci port then (vhci.devices[(port - 1).toNat]?).join else none

end Usbip.Vhci

import Mathlib.Logic.Function.Basic
import Usbip.Library.Runs
import Usbip.Library.Words
import Usbip.Vhci

namespace Usbip.Vhci

open Function
open Usbip.Library.Runs
open Usbip.Library.Words

def MIN_PORTS : Int := 1
def DEF_PORTS : Int := 30
def MAX_PORTS : Int := 254
def MAX_TOTAL_PORTS : Int := 255

-- The values under the driver's registry key; a value may be missing.
structure PortsParameters where
  numberOfUsb20Ports : Option UInt32
  numberOfUsb30Ports : Option UInt32

structure PortsCnt where
  usb3 : Int
  usb2 : Int

-- `none` stands for a key that cannot be opened. A value goes from `ULONG` to `int`.
def queryUsbPortsCnt (key : Option PortsParameters) (defCnt : Int) : PortsCnt :=
  match key with
  | none => { usb3 := defCnt, usb2 := defCnt }
  | some params =>
    { usb3 := (params.numberOfUsb30Ports.map signed).getD defCnt
      usb2 := (params.numberOfUsb20Ports.map signed).getD defCnt }

-- One round of the loop of `set_usb_ports_cnt`.
def clampPorts (total n : Int) : Int :=
  let n := min MAX_PORTS (max MIN_PORTS n)
  if total + n > MAX_TOTAL_PORTS then MAX_TOTAL_PORTS - total else n

def setUsbPortsCnt (key : Option PortsParameters) : PortsCnt :=
  let v := queryUsbPortsCnt key DEF_PORTS
  let usb3 := clampPorts 0 v.usb3
  { usb3 := usb3, usb2 := clampPorts usb3 v.usb2 }

def allocDevices (key : Option PortsParameters) (allocated : Bool) : Except NTSTATUS VhciCtx :=
  let v := setUsbPortsCnt key
  if allocated then
    .ok { usb2Ports := v.usb2.toNat, devices := List.replicate (v.usb2 + v.usb3).toNat none }
  else .error .STATUS_INSUFFICIENT_RESOURCES

namespace Ports

-- `attempted`: the device has been through `claim_roothub_port`. `detaching`: the call of `detach` that has set
-- the flag has yet to reclaim the port. `claims`, `reclaims` and `undone` count the claims that took a port,
-- the sections of `reclaim_roothub_port` after the claim and those that freed a port.
structure State where
  vhci : VhciCtx
  attempted : Device → Bool := fun _ => false
  detaching : Device → Bool := fun _ => false
  claims : Device → Nat := fun _ => 0
  reclaims : Device → Nat := fun _ => 0
  undone : Device → Nat := fun _ => 0

inductive Action where
  | claim (d : Device)
  | reclaim (d : Device)
  | detach (d : Device)
  | detachReclaim (d : Device)
  | getDevice (port : Int)
  deriving DecidableEq, Repr

-- `claim_roothub_port` under `devices_lock`.
def claim (st : State) (d : Device) : State :=
  let (vhci, port) := claimRoothubPort st.vhci d
  { st with
    vhci := vhci
    attempted := update st.attempted d true
    claims := update st.claims d (if port = 0 then st.claims d else st.claims d + 1) }

-- `reclaim_roothub_port` under `devices_lock`, in a call of its own or in `detach`.
def reclaim (st : State) (d : Device) : State :=
  let (vhci, port) := reclaimRoothubPort st.vhci d
  { st with
    vhci := vhci
    reclaims := update st.reclaims d (if st.attempted d then st.reclaims d + 1 else st.reclaims d)
    undone := update st.undone d (if port = 0 then st.undone d else st.undone d + 1) }

-- A device is claimed once, by `connected`; one that was not initialized is detached by its cleanup and never claimed.
-- A later call of `detach` finds the flag set and returns.
def step (st : State) : Action → Option State
  | .claim d => if st.attempted d ∨ (st.vhci.device d).unplugged then none else some (claim st d)
  | .reclaim d => some (reclaim st d)
  | .detach d =>
    let ctx := st.vhci.device d
    if ctx.unplugged then some st
    else
      some { st with
        vhci := st.vhci.set d { ctx with unplugged := true }
        detaching := update st.detaching d true }
  | .detachReclaim d =>
    if st.detaching d then some { reclaim st d with detaching := update st.detaching d false } else none
  | .getDevice _ => some st

-- A controller that has been made, and devices of any speed.
def machine : Machine State Action where
  init st := ∃ (key : Option PortsParameters) (speed : Device → Int) (vhci : VhciCtx),
    allocDevices key true = .ok vhci ∧ st = { vhci := { vhci with device := fun d => { speed := speed d } } }
  step := step

end Ports

end Usbip.Vhci

import Usbip.Basic
import Usbip.Library.Novelty
import Usbip.Library.Runs

namespace Usbip.Filter.Pnp

open Usbip.Library.Novelty
open Usbip.Library.Runs

-- The address of a physical device object.
abbrev Pdo := Nat

-- `filter_ext` of a device below a hub.
structure FilterExt where
  self : Nat
  pdo : Pdo
  deriving DecidableEq, Repr

-- The filter of a hub. `previous` is its copy of the relations; the next two are for the query in progress:
-- the PDOs that `do_add_device` is called for and those that it has created a device object for.
structure State where
  previous : Option (List Pdo) := none
  devices : List FilterExt := []
  nextObject : Nat := 0
  attempted : List Pdo := []
  created : List Pdo := []
  history : List (Look Pdo) := []
  deriving DecidableEq, Repr

-- What the services answer that `do_add_device` calls; `target` tells whether the stack has one.
structure AddEnv where
  ioCreateDevice : NTSTATUS := .STATUS_SUCCESS
  target : Bool := true
  usbdCreateHandle : NTSTATUS := .STATUS_SUCCESS
  deriving DecidableEq, Repr

def STATUS_NO_SUCH_DEVICE : NTSTATUS := .failure 0xC000000E

def destroy (st : State) (fltr : FilterExt) : State := { st with devices := st.devices.erase fltr }

-- `do_add_device` with a parent.
def doAddDevice (env : AddEnv) (pdo : Pdo) (st : State) : NTSTATUS × State :=
  let st := { st with attempted := st.attempted ++ [pdo] }
  if env.ioCreateDevice ≠ .STATUS_SUCCESS then (env.ioCreateDevice, st)
  else
    let fltr : FilterExt := { self := st.nextObject, pdo := pdo }
    let st :=
      { st with
        devices := fltr :: st.devices
        nextObject := st.nextObject + 1
        created := st.created ++ [pdo] }
    if env.target = false then (STATUS_NO_SUCH_DEVICE, destroy st fltr)
    else if env.usbdCreateHandle ≠ .STATUS_SUCCESS then (env.usbdCreateHandle, destroy st fltr)
    else (.STATUS_SUCCESS, st)

-- `previous && contains(*previous, pdo)`
def isKnown (previous : Option (List Pdo)) (pdo : Pdo) : Bool := previous.any (List.contains · pdo)

-- The loop over the relations, from the entry `i` on.
def addLoop (env : Nat → AddEnv) (i : Nat) : List Pdo → State → State
  | [], st => st
  | pdo :: rest, st =>
    addLoop env (i + 1) rest (if isKnown st.previous pdo then st else (doAddDevice (env i) pdo st).2)

-- `clone` tells whether there is memory for the copy, `add i` what happens to the device of entry `i`.
structure QueryEnv where
  add : Nat → AddEnv := fun _ => {}
  clone : Bool := true

def queryBusRelations (env : QueryEnv) (r : List Pdo) (st : State) : State :=
  let st := addLoop env.add 0 r { st with attempted := [], created := [] }
  { st with
    previous := if r = [] then none else if env.clone then some r else st.previous
    history := { members := r, attempted := st.attempted, given := st.created } :: st.history }

-- IRP_MN_QUERY_DEVICE_RELATIONS with the status and the relations that it comes back with, and
-- IRP_MN_REMOVE_DEVICE for the filter of a device.
inductive Action where
  | query (status : NTSTATUS) (relations : Option (List Pdo)) (env : QueryEnv)
  | removeDevice (fltr : FilterExt)

def step (st : State) : Action → Option State
  | .query status relations env =>
    match relations with
    | some r => some (if status.isSuccess then queryBusRelations env r st else st)
    | none => some st
  | .removeDevice fltr => if fltr ∈ st.devices then some (destroy st fltr) else none

def machine : Machine State Action where
  init st := st = {}
  step := step

-- After the query `previous` has the members of the relations, and no device that is new is in them twice.
def Remembers (previous : Option (List Pdo)) (env : QueryEnv) (r : List Pdo) : Prop :=
  (r.filter fun pdo => !isKnown previous pdo).Nodup ∧
    (r = [] ∨ env.clone = true ∨ (∀ p ∈ r, p ∈ previous.getD []) ∧ ∀ p ∈ previous.getD [], p ∈ r)

instance (previous : Option (List Pdo)) (env : QueryEnv) (r : List Pdo) : Decidable (Remembers previous env r) :=
  inferInstanceAs (Decidable (_ ∧ _))

def Remembered (st : State) : Action → Prop
  | .query status relations env => status.isSuccess = true → ∀ r ∈ relations, Remembers st.previous env r
  | .removeDevice _ => True

instance (st : State) : (a : Action) → Decidable (Remembered st a)
  | .query status relations env =>
    inferInstanceAs (Decidable (status.isSuccess = true → ∀ r ∈ relations, Remembers st.previous env r))
  | .removeDevice _ => .isTrue trivial

end Usbip.Filter.Pnp

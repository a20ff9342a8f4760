import Usbip.Proto

namespace Usbip.Device

-- `WDFREQUEST` and `UDECXUSBENDPOINT`
abbrev Handle := Nat
abbrev Endpoint := Nat

-- What WDF knows of the cancellation of a request: `cancelled` without a callback,
-- `armed` with one, `fired` once the callback has been or is going to be run.
inductive Cancellation where
  | idle
  | cancelled
  | armed
  | fired
  deriving DecidableEq, Repr

-- The `request_ctx` of a request and what WDF keeps about it: how often it was handed to
-- the driver and how often it was completed since then.
structure Request where
  endpoint : Endpoint := 0
  seqnum : Seqnum := 0
  cancelable : Bool := false
  cancellation : Cancellation := .idle
  deliveries : Nat := 0
  completed : Nat := 0
  deriving DecidableEq, Repr

-- `device_ctx::requests` and the contexts of all requests.
structure RequestList where
  entries : List Handle := []
  request : Handle → Request := fun _ => {}

def RequestList.set (dev : RequestList) (r : Handle) (req : Request) : RequestList :=
  { dev with request := fun h => if h = r then req else dev.request h }

-- `request_search`
inductive RequestSearch where
  | seqnum (n : Seqnum)
  | request (r : Handle)
  | endpoint (e : Endpoint)
  deriving DecidableEq, Repr

def RequestSearch.multimatch : RequestSearch → Bool
  | .endpoint _ => true
  | _ => false

def RequestSearch.matches (crit : RequestSearch) (r : Handle) (req : Request) : Bool :=
  match crit with
  | .seqnum n => n == req.seqnum
  | .request h => h == r
  | .endpoint e => e == req.endpoint

-- `append_request`: the context is not zeroed, every field of it is set here.
def appendRequest (dev : RequestList) (r : Handle) (seqnum : Seqnum) (endpoint : Endpoint) : RequestList :=
  let dev := dev.set r { dev.request r with endpoint := endpoint, seqnum := seqnum, cancelable := false }
  { dev with entries := dev.entries ++ [r] }

-- `WdfRequestMarkCancelableEx` arms the callback unless the request is cancelled already.
def markCancelable (req : Request) : NTSTATUS × Request :=
  if req.cancellation = .idle then (.STATUS_SUCCESS, { req with cancellation := .armed })
  else (.STATUS_CANCELLED, req)

def markRequestCancelable (dev : RequestList) (seqnum : Seqnum) : NTSTATUS × RequestList :=
  match dev.entries.find? (fun r => (dev.request r).seqnum == seqnum) with
  | none => (.STATUS_SUCCESS, dev)
  | some r =>
    let (err, req) := markCancelable (dev.request r)
    if err = .STATUS_SUCCESS then (.STATUS_SUCCESS, dev.set r { req with cancelable := true })
    else (err, { dev with entries := dev.entries.erase r })

-- The loop of `remove_request` over the entries ahead: what stays in the list and what is
-- returned. `WdfRequestUnmarkCancelable` is STATUS_CANCELLED for a request whose callback fired.
def removeLoop (request : Handle → Request) (crit : RequestSearch) (unmarkCancelable : Bool) :
    List Handle → List Handle × Option Handle
  | [] => ([], none)
  | r :: rest =>
    if crit.matches r (request r) = false then
      let (left, picked) := removeLoop request crit unmarkCancelable rest
      (r :: left, picked)
    else if unmarkCancelable ∧ (request r).cancelable ∧ (request r).cancellation = .fired then
      if crit.multimatch then removeLoop request crit unmarkCancelable rest else (rest, none)
    else (rest, some r)

-- A request returned after a successful unmark has no callback any more.
def unmark (req : Request) : Request :=
  if req.cancelable then { req with cancellation := .idle } else req

def removeRequest (dev : RequestList) (crit : RequestSearch) (unmarkCancelable : Bool) :
    RequestList × Option Handle :=
  let (left, picked) := removeLoop dev.request crit unmarkCancelable dev.entries
  let dev := { dev with entries := left }
  match picked with
  | none => (dev, none)
  | some r => (if unmarkCancelable then dev.set r (unmark (dev.request r)) else dev, some r)

end Usbip.Device

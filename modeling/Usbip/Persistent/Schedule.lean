import Usbip.Basic

namespace Usbip.Persistent

-- What the arithmetic below must not run into. The fuel is that of the loop of `get_max_attach_attempts`.
inductive Fault where
  | wrapped
  | outOfFuel
  deriving DecidableEq, Repr

-- An unsigned value of so many bits; a value that does not fit would wrap around.
def unsigned (bits value : Nat) : Except Fault Nat := if value < 2 ^ bits then .ok value else .error .wrapped

def getNextDelay (delay maxDelay : Nat) : Except Fault Nat :=
  if delay ≠ maxDelay then do
    let product ← unsigned 64 (3 * delay)
    if product / 2 < maxDelay then unsigned 32 (product / 2) else return maxDelay
  else return delay

def countAttempts (maxDelay maxTotalDelay : Nat) : Nat → Nat → Nat → Nat → Except Fault Nat
  | 0, _, _, _ => .error .outOfFuel
  | fuel + 1, delay, total, cnt => do
    let total ← unsigned 32 (total + delay)
    if total ≤ maxTotalDelay then do
      let delay ← getNextDelay delay maxDelay
      let cnt ← unsigned 32 (cnt + 1)
      countAttempts maxDelay maxTotalDelay fuel delay total cnt
    else return cnt

def getMaxAttachAttempts (firstDelay maxDelay maxTotalDelay : Nat) : Except Fault Nat :=
  countAttempts maxDelay maxTotalDelay (maxTotalDelay + 1) firstDelay 0 0

-- Seconds.
def HOUR : Nat := 60 * 60
def DEF_FIRST_DELAY : Nat := 30
def DEF_MAX_DELAY : Nat := 8 * 60
def MIN_DELAY : Nat := 1
def MAX_DELAY : Nat := HOUR
def MAX_TOTAL_DELAY : Nat := 72 * HOUR

-- The values under the driver's registry key; a value may be missing.
structure ReattachParameters where
  reattachMaxAttempts : Option UInt32
  reattachFirstDelay : Option UInt32
  reattachMaxDelay : Option UInt32

-- The constants of `vhci_ctx`, zero when the context is new.
structure Constants where
  reattachMaxAttempts : Nat := 0
  reattachFirstDelay : Nat := 0
  reattachMaxDelay : Nat := 0
  deriving DecidableEq, Repr

def inRange (val : Nat) : Nat := max MIN_DELAY (min val MAX_DELAY)

-- `none` stands for a key that cannot be opened.
def initConstants : Option ReattachParameters → Except Fault Constants
  | none => do
    let maxAttempts ← getMaxAttachAttempts DEF_FIRST_DELAY DEF_MAX_DELAY (2 * HOUR)
    return {
      reattachMaxAttempts := maxAttempts
      reattachFirstDelay := DEF_FIRST_DELAY
      reattachMaxDelay := DEF_MAX_DELAY }
  | some params => do
    let value (param : Option UInt32) (field : Nat) : Nat := (param.map UInt32.toNat).getD field
    let maxAttempts := value params.reattachMaxAttempts 0
    let firstDelay := value params.reattachFirstDelay 0
    let maxDelay := value params.reattachMaxDelay 0
    let firstDelay := if firstDelay ≠ 0 then inRange firstDelay else DEF_FIRST_DELAY
    let maxDelay := if maxDelay ≠ 0 then inRange maxDelay else DEF_MAX_DELAY
    let (firstDelay, maxDelay) := if firstDelay > maxDelay then (maxDelay, firstDelay) else (firstDelay, maxDelay)
    let n ← getMaxAttachAttempts firstDelay maxDelay MAX_TOTAL_DELAY
    return {
      reattachMaxAttempts := if maxAttempts > n then n else maxAttempts
      reattachFirstDelay := firstDelay
      reattachMaxDelay := maxDelay }

-- The fields of `attach_ctx` that the schedule goes by.
structure AttachCtx where
  retryCnt : Nat := 0
  delay : Nat
  deriving DecidableEq, Repr

-- With what a request comes back, and what the completion routine is told then.
structure Completion where
  status : NTSTATUS
  canReattach : Bool
  removing : Bool
  reuse : NTSTATUS
  deriving DecidableEq, Repr

-- The delay until the next attempt; `none` if the request is deleted.
def onPluginHardware (vhci : Constants) (req : AttachCtx) (completion : Completion) :
    Except Fault (Option (Nat × AttachCtx)) := do
  let retryCnt := req.retryCnt
  let retryCnt' ← unsigned 32 (req.retryCnt + 1)
  let failed := completion.status.isError
  let retry := failed && decide (retryCnt < vhci.reattachMaxAttempts) && completion.canReattach
  if (retry && !completion.removing) = false then return none
  else if completion.reuse ≠ .STATUS_SUCCESS then return none
  else do
    let delay := req.delay
    let delay' ← getNextDelay delay vhci.reattachMaxDelay
    return some (delay, { retryCnt := retryCnt', delay := delay' })

-- The context with which `start_attach_attempts` leaves a request to the target or to the timer.
def startAttachAttempts (vhci : Constants) (delayed : Bool) : AttachCtx :=
  { retryCnt := if delayed then 1 else 0, delay := vhci.reattachFirstDelay }

-- An attempt: it is not sent at all, and then the request is deleted, or it is sent and completed.
inductive Attempt where
  | notSent
  | sent (completion : Completion)
  deriving DecidableEq, Repr

-- How many requests are sent, and the delays of the timer in between.
def attempts (vhci : Constants) : AttachCtx → List Attempt → Except Fault (Nat × List Nat)
  | _, [] => return (0, [])
  | _, .notSent :: _ => return (0, [])
  | req, .sent completion :: rest => do
    match ← onPluginHardware vhci req completion with
    | none => return (1, [])
    | some (delay, req) =>
      let (sent, delays) ← attempts vhci req rest
      return (sent + 1, delay :: delays)

end Usbip.Persistent

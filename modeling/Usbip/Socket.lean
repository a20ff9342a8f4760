import Usbip.Library.Pool
import Usbip.Library.Runs

namespace Usbip.Socket

open Usbip.Library.Pool
open Usbip.Library.Runs

-- The three highest bits of `invoke_cnt` are flags.
def SIGN : UInt64 := (1 : UInt64) <<< 63
def EVENT_SET : UInt64 := (1 : UInt64) <<< 62
def CLOSING : UInt64 := (1 : UInt64) <<< 61
def COUNT_MASK : UInt64 := ~~~(SIGN ||| EVENT_SET ||| CLOSING)

-- Where a call of `invoke` (the first four) or of `wsk::close` stands.
inductive Task where
  | executing
  | leaving
  | bitTest
  | setEvent
  | waiting
  | bitSet
  | check
  | proceeds
  deriving DecidableEq, Repr

def Task.isInvoker : Task → Bool
  | .executing | .leaving | .bitTest | .setEvent => true
  | _ => false

-- The calls that `invoke_cnt` counts.
def Task.isCounted : Task → Bool
  | .executing | .leaving => true
  | _ => false

-- `sets` counts the calls of KeSetEvent and `verified` is false once an assertion has failed.
structure State where
  invokeCnt : UInt64 := 0
  canClose : Bool := false
  sets : Nat := 0
  verified : Bool := true
  tasks : List Task := []

def State.inside (st : State) : Nat := st.tasks.countP Task.isCounted

-- Each interlocked operation is a step, and so are the return of the wrapped function,
-- the wait and the plain read in the last assertion of `wait_invokers`.
inductive Action where
  | increment
  | returned
  | decrement
  | bitTest
  | setEvent
  | close
  | wake
  | bitSet
  | check
  deriving DecidableEq, Repr

def setClosing (st : State) : State :=
  let n := st.invokeCnt
  let st := { st with invokeCnt := n ||| CLOSING }
  if n &&& CLOSING ≠ 0 then st -- STATUS_NOT_SUPPORTED
  else if n ≠ 0 then
    { st with tasks := .waiting :: st.tasks, verified := st.verified && (n &&& COUNT_MASK == n) }
  else { st with tasks := .bitSet :: st.tasks }

-- A call in progress has a kernel stack, so there are always fewer than 2^61 of them.
def step (st : State) : Action → Option State
  | .increment =>
    if st.inside + 1 < 2 ^ 61 then
      let n := st.invokeCnt + 1
      some { st with
        invokeCnt := n
        tasks := (if n &&& CLOSING ≠ 0 then .leaving else .executing) :: st.tasks }
    else none
  | .returned =>
    if .executing ∈ st.tasks then some { st with tasks := advance st.tasks .executing [.leaving] } else none
  | .decrement =>
    if .leaving ∈ st.tasks then
      let n := st.invokeCnt - 1
      some { st with
        invokeCnt := n
        tasks := advance st.tasks .leaving (if n = CLOSING then [.bitTest] else []) }
    else none
  | .bitTest =>
    if .bitTest ∈ st.tasks then
      some { st with
        invokeCnt := st.invokeCnt ||| EVENT_SET
        tasks := advance st.tasks .bitTest (if st.invokeCnt &&& EVENT_SET = 0 then [.setEvent] else []) }
    else none
  | .setEvent =>
    if .setEvent ∈ st.tasks then
      some { st with
        canClose := true
        sets := st.sets + 1
        verified := st.verified && !st.canClose
        tasks := advance st.tasks .setEvent [] }
    else none
  | .close => some (setClosing st)
  | .wake =>
    if .waiting ∈ st.tasks ∧ st.canClose then some { st with tasks := advance st.tasks .waiting [.check] }
    else none
  | .bitSet =>
    if .bitSet ∈ st.tasks then
      some { st with
        invokeCnt := st.invokeCnt ||| EVENT_SET
        tasks := advance st.tasks .bitSet [.check] }
    else none
  | .check =>
    if .check ∈ st.tasks then
      some { st with
        verified := st.verified && (st.invokeCnt &&& COUNT_MASK == 0)
        tasks := advance st.tasks .check [.proceeds] }
    else none

def machine : Machine State Action where
  init st := st = {}
  step := step

end Usbip.Socket

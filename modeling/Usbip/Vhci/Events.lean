import Mathlib.Logic.Function.Basic
import Usbip.Basic
import Usbip.Library.Runs

namespace Usbip.Vhci.Events

open Function
open Usbip.Library.Runs

-- `WDFFILEOBJECT`, a read request, and the `WDFMEMORY` with a `device_state`.
abbrev FileObject := Nat
abbrev Request := Nat
abbrev Event := Nat

-- An event that had to make room and the queue it was taken from.
structure Drop where
  event : Event
  queue : List Event
  deriving DecidableEq, Repr

-- `fileobject_ctx`, and what has become of the events: those that reads were completed with and those that were
-- dropped. `firstRead` is the number of events emitted before the first read.
structure FileobjectCtx where
  processEvents : Bool := false
  events : List Event := []
  delivered : List Event := []
  dropped : List Drop := []
  firstRead : Nat := 0

-- `checking` calls of `device_state_changed` have seen no subscribers and are about to look again under the lock.
-- `loop` is the event that `process_event` hands out under the lock, with the file objects it has still to look at.
structure State where
  devicesCnt : Nat
  fileobjects : List FileObject := []
  opened : List FileObject := []
  file : FileObject → FileobjectCtx := fun _ => {}
  reads : List (FileObject × Request) := []
  eventsSubscribers : Int := 0
  checking : Nat := 0
  made : Nat := 0
  unprocessed : List Event := []
  emitted : List Event := []
  loop : Option (Event × List FileObject) := none

inductive Action where
  | fileCreate (f : FileObject)
  | read (f : FileObject) (request : Request) (fits : Bool)
  | canceledOnQueue (read : FileObject × Request)
  | fileCleanup (f : FileObject)
  | stateChanged
  | recheck
  | processEvent (evt : Event)
  | nextFile
  | release
  deriving DecidableEq, Repr

-- `WdfIoQueueRetrieveRequestByFileObject`
def retrieveRequest (reads : List (FileObject × Request)) (f : FileObject) : Option (FileObject × Request) :=
  reads.find? fun read => read.1 = f

def completeRead (fobj : FileobjectCtx) (evt : Event) : FileobjectCtx :=
  { fobj with delivered := fobj.delivered ++ [evt] }

-- The event is appended; if there are too many then, the first one goes.
def queueEvent (fobj : FileobjectCtx) (evt : Event) (maxEvents : Nat) : FileobjectCtx :=
  match fobj.events ++ [evt] with
  | [] => fobj
  | head :: rest =>
    if maxEvents < (head :: rest).length then
      { fobj with events := rest, dropped := fobj.dropped ++ [{ event := head, queue := head :: rest }] }
    else { fobj with events := head :: rest }

-- `process_event` for one file object.
def processEvent (st : State) (f : FileObject) (evt : Event) : State :=
  match retrieveRequest st.reads f with
  | some read =>
    { st with
      reads := st.reads.erase read
      file := update st.file f (completeRead (st.file f) evt) }
  | none => { st with file := update st.file f (queueEvent (st.file f) evt (4 * st.devicesCnt)) }

-- The part of `device_read` under the lock.
def subscribe (st : State) (f : FileObject) : State :=
  if (st.file f).processEvents then st
  else
    { st with
      eventsSubscribers := st.eventsSubscribers + 1
      file := update st.file f { st.file f with processEvents := true, firstRead := st.emitted.length } }

def deviceRead (st : State) (f : FileObject) (request : Request) : State :=
  let st := subscribe st f
  match (st.file f).events with
  | evt :: rest => { st with file := update st.file f { completeRead (st.file f) evt with events := rest } }
  | [] => { st with reads := st.reads ++ [(f, request)] }

-- `make_device_state`
def makeDeviceState (st : State) : State :=
  { st with made := st.made + 1, unprocessed := st.made :: st.unprocessed }

-- Allocations succeed, the queue of the reads takes what it is given, and nothing is read from a file object
-- after its cleanup. A read of another length is completed at once with STATUS_INVALID_BUFFER_SIZE.
-- Reads are cancelled whoever has the lock.
def step (st : State) : Action → Option State
  | .fileCreate f =>
    if st.loop = none ∧ f ∉ st.opened then
      some { st with fileobjects := st.fileobjects ++ [f], opened := f :: st.opened }
    else none
  | .read f request fits =>
    if f ∉ st.fileobjects then none
    else if fits = false then some st
    else if st.loop = none then some (deviceRead st f request)
    else none
  | .canceledOnQueue read => if read ∈ st.reads then some { st with reads := st.reads.erase read } else none
  | .fileCleanup f =>
    if st.loop = none ∧ f ∈ st.fileobjects then
      some { st with
        fileobjects := st.fileobjects.erase f
        eventsSubscribers := if (st.file f).processEvents then st.eventsSubscribers - 1 else st.eventsSubscribers }
    else none
  | .stateChanged =>
    some (if st.eventsSubscribers = 0 then { st with checking := st.checking + 1 } else makeDeviceState st)
  | .recheck =>
    if st.loop = none ∧ 0 < st.checking then
      let st := { st with checking := st.checking - 1 }
      some (if st.eventsSubscribers = 0 then st else makeDeviceState st)
    else none
  | .processEvent evt =>
    if st.loop = none ∧ evt ∈ st.unprocessed then
      some { st with
        unprocessed := st.unprocessed.erase evt
        emitted := st.emitted ++ [evt]
        loop := some (evt, st.fileobjects) }
    else none
  | .nextFile =>
    match st.loop with
    | some (evt, f :: rest) =>
      let st := { st with loop := some (evt, rest) }
      some (if (st.file f).processEvents then processEvent st f evt else st)
    | _ => none
  | .release =>
    match st.loop with
    | some (_, []) => some { st with loop := none }
    | _ => none

def machine : Machine State Action where
  init st := ∃ devicesCnt, st = { devicesCnt := devicesCnt }
  step := step

end Usbip.Vhci.Events

import Steward.Control
import Steward.Handshake
import Steward.Link.Basic
import Steward.Text.Wide

/-!
# Registry — runs by the id the host knows them by

The host calls back with a number only.  Every run is registered under an id of its own, which is
never used again; a call with an id that is unknown, or was deregistered, does nothing.  A call with
a live id acts on that run and on no other.
-/

namespace Steward

/-- A run as the host's calls see it. -/
structure Registration where
  id : Context
  name : String
  guard : Guard
  /-- What the run's host answers to a registration of the callback. -/
  onRegister : RegisterAnswer
  /-- The names the host was asked to register the callback for. -/
  asked : List String
  /-- The id that the host was told to call back with, once it has accepted the callback. -/
  callback : Option Context
  handshake : Handshake
  /-- Where its control events go; closed once nobody receives them. -/
  control : Link ControlEvent
  /-- Calls with the id reach the run. -/
  live : Bool

/-- The registered runs, in the order of their registration, those that are gone included. -/
structure Registry where
  runs : List Registration

namespace Registry

/-- No run was ever registered. -/
def empty : Registry := ⟨[]⟩

/-- The id of the next run.  Zero is never given out. -/
def nextId (r : Registry) : Context := UInt64.ofNat (r.runs.length + 1)

/-- Register a run under a new id. -/
def register (r : Registry) (name : String) (guard : Guard) (onRegister : RegisterAnswer) :
    Registry × Context :=
  (⟨r.runs ++ [⟨r.nextId, name, guard, onRegister, [], none, .fresh, .fresh, true⟩]⟩, r.nextId)

/-- The live run with the given id. -/
def lookup (r : Registry) (id : Context) : Option Registration :=
  r.runs.find? fun e => e.live && e.id == id

/-- Change the live run with the given id. -/
def update (r : Registry) (id : Context) (f : Registration → Registration) : Registry :=
  ⟨r.runs.map fun e => if e.live && e.id == id then f e else e⟩

/-- Take a run out of the table; the answer is the run that was there. -/
def deregister (r : Registry) (id : Context) : Registry × Option Registration :=
  (r.update id fun e => { e with live := false }, r.lookup id)

end Registry

namespace Registration

/-- The host enters the service with an id: the callback is registered for this id, and the outcome
published. -/
def enter (e : Registration) (id : Context) (raw : List (List UInt16)) : Registration :=
  { e with
    asked := e.asked ++ [e.name]
    callback := if e.onRegister.isOk then some id else e.callback
    handshake := (e.handshake.publish (e.onRegister.map (⟨·, Wide.decodeArgs raw⟩))).1 }

end Registration

/-- The answer to a control call that reached its run. -/
def noError : UInt32 := 0

/-- The answer to a control call for a run that is not there. -/
def callNotImplemented : UInt32 := 120

namespace Registry

/-- The host enters the service with the given id. -/
def main (r : Registry) (id : Context) (raw : List (List UInt16)) : Registry :=
  r.update id (·.enter id raw)

/-- A control call on the thread `caller`, and the number it returns.  The caller waits on the
link until the event is taken; a closed link lets it go at once. -/
def control (r : Registry) (caller : ThreadId) (call : ControlCall) : Registry × UInt32 :=
  match r.lookup call.context with
  | none => (r, callNotImplemented)
  | some _ =>
    (r.update call.context fun e =>
      { e with control := e.control.send ⟨0, e.guard.stamp caller call⟩ }, noError)

/-! ## Operations -/

/-- What may be done with the table.  `run` counts registrations from zero; whoever can receive
control events takes one as soon as it is there. -/
inductive Op where
  | register (name : String) (thread : ThreadId) (onRegister : RegisterAnswer)
  | lookup (run : Nat)
  | deregister (run : Nat)
  | main (run : Nat) (raw : List (List UInt16))
  /-- Ask for the outcome of a run. -/
  | outcome (run : Nat)
  /-- Stop receiving control events. -/
  | dropTake (run : Nat)
  | control (run : Nat) (caller : ThreadId) (code eventType : UInt32) (eventData : UInt64)

/-- The answer to an operation. -/
inductive Answer where
  /-- The number of the run, and whether its id is new and not zero. -/
  | registered (run : Nat) (fresh : Bool)
  | name (n : Option String)
  | noRun
  /-- The names the host was asked for, and whether the callback was registered with the id of the
  run, if it was. -/
  | entered (names : List String) (ownId : Option Bool)
  | outcome (p : Handshake.Poll)
  | flag (b : Bool)
  /-- What the call returned, and the event with whether it carries the id of the run. -/
  | returned (result : UInt32) (event : Option (ControlEvent × Bool))

/-- The id of a run by its number.  A run nobody registered has an id nobody has. -/
def idOf (r : Registry) (run : Nat) : Context := ((r.runs[run]?).map (·.id)).getD 0

/-- Change a run by its number, live or not. -/
def modify (r : Registry) (run : Nat) (f : Registration → Registration) : Registry :=
  ⟨r.runs.modify run f⟩

/-- The id is not zero and larger than all given out before. -/
def isFresh (r : Registry) (id : Context) : Bool := id != 0 && r.runs.all (·.id < id)

/-- One operation. -/
def step (r : Registry) : Op → Registry × Answer
  | .register name thread onRegister =>
    let (r', id) := r.register name (.capture thread) onRegister
    (r', .registered r.runs.length (r.isFresh id))
  | .lookup run => (r, .name ((r.lookup (r.idOf run)).map (·.name)))
  | .deregister run =>
    let (r', gone) := r.deregister (r.idOf run)
    (r', .name (gone.map (·.name)))
  | .main run raw =>
    let r' := r.main (r.idOf run) raw
    match r'.runs[run]? with
    | none => (r', .noRun)
    | some e => (r', .entered e.asked (e.callback.map (· == e.id)))
  | .outcome run =>
    match r.runs[run]? with
    | none => (r, .noRun)
    | some e => (r.modify run fun e => { e with handshake := e.handshake.poll.1 },
        .outcome e.handshake.poll.2)
  | .dropTake run =>
    (r.modify run fun e => { e with control := e.control.close },
     .flag (((r.runs[run]?).map fun e => !e.control.closed).getD false))
  | .control run caller code eventType eventData =>
    let id := r.idOf run
    let (r', result) := r.control caller ⟨code, eventType, eventData, id⟩
    let event := (r'.runs[run]?).bind (·.control.slot) |>.map (·.item)
    (r'.modify run fun e => { e with control := e.control.take },
     .returned result (event.map fun e => (e, e.context == id)))

/-- The answers to a list of operations. -/
def run (r : Registry) : List Op → List Answer
  | [] => []
  | op :: ops => (r.step op).2 :: run (r.step op).1 ops

end Registry

end Steward

import Steward.Control
import Steward.Event.Basic
import Steward.Handshake
import Steward.Host.Record
import Steward.Link.Basic

/-!
# Bridge/Basic — the state of one run

A bridge stands between the host and the handler.  Three links meet in it: control events come in
from the host, requests go out to the handler, statuses come back from the handler.

* `Stage` says where the run is: it waits for the outcome of the start, drives the handler, makes
  the last report, gives everything back, and has ended.
* `Mailbox` holds the one request that is under way.  While it does, no control event is read.
* `Arm` says which source the bridge looks at next.  It looks at one after the other, and others may
  act between two looks.
* The log of a bridge tells, in order, everything that could be seen from outside; `events`,
  `reports`, `delivered` and the like are views of it.
-/

namespace Steward

/-- How a handler ended. -/
inductive Completion where
  | exited (exit : ExitCode)
  | panicked (info : String)
  deriving DecidableEq

/-- The exit code of a run that ends with its handler. -/
def Completion.exit : Completion → ExitCode
  | exited exit => exit
  | panicked _ => .ofService ExitCode.handlerPanicked

/-- Where the handler is. -/
inductive HandlerStage where
  | absent
  | running
  | ended (c : Completion)
  deriving DecidableEq

/-- How far the handing over of a request is. -/
inductive Delivery where
  /-- It is not on the handler's link yet. -/
  | fresh (r : Request)
  /-- It is on the link and waits to be taken. -/
  | placed
  /-- It was taken, or can be taken no more. -/
  | resolved (r : SendResult)
  deriving DecidableEq

/-- The place between the control link and the handler. -/
inductive Mailbox where
  /-- Empty: the next control event may be read. -/
  | awaiting
  /-- One request is under way. -/
  | holding (command : Command) (delivery : Delivery)
  /-- The handler has given up its requests: control events are read and dropped. -/
  | detached
  deriving DecidableEq

/-- A request is under way. -/
def Mailbox.isHolding : Mailbox → Bool
  | holding _ _ => true
  | _ => false

/-- What a bridge that drives the handler looks at, one after the other. -/
inductive Arm where
  /-- The control link, or the request under way. -/
  | mailbox
  /-- The status link. -/
  | status
  /-- The end of the handler. -/
  | completion
  deriving DecidableEq

/-- What is looked at next; after the last arm comes the first. -/
def Arm.next : Arm → Arm
  | mailbox => status
  | status => completion
  | completion => mailbox

/-- What a bridge keeps while it drives the handler. -/
structure Driving where
  handle : Handle
  mailbox : Mailbox
  /-- The last status the host agreed to. -/
  current : Status
  /-- Statuses may still come. -/
  statusesOpen : Bool
  deriving DecidableEq

/-- How a run ended. -/
inductive Ending where
  /-- The service was not started. -/
  | notStarted (e : Option HostError)
  /-- The last report was made; the handler may still be there. -/
  | stopped (exit : ExitCode) (handlerLeft : Bool)
  deriving DecidableEq

/-- What is still to be given back when a run has ended. -/
inductive Release where
  | closeControl
  | deregister
  | announce
  | signal
  deriving DecidableEq

/-- Where a run is. -/
inductive Stage where
  /-- Nothing is known about the start of the service yet. -/
  | waiting
  | driving (d : Driving)
  /-- The handler is cut off; the last report is to be made. -/
  | finishing (handle : Handle) (exit : ExitCode) (handlerLeft : Bool)
  | releasing (ending : Ending) (next : Release)
  | ended (ending : Ending)
  deriving DecidableEq

/-- Why a status was reported. -/
inductive ReportSource where
  /-- The handler sent it with this ticket. -/
  | relayed (ticket : Nat) (status : Status)
  /-- It is the last report, with the exit code of the run. -/
  | final (exit : ExitCode)
  deriving DecidableEq

/-- Something that could be seen from outside. -/
inductive Happening where
  | published (e : Event)
  /-- The bridge took an event from the control link. -/
  | read (e : ControlEvent)
  /-- A sender on the control link is done. -/
  | controlSent (ticket : Nat) (r : SendResult)
  /-- A sender on the status link is done. -/
  | statusSent (ticket : Nat) (r : SendResult)
  /-- The host's report function was called. -/
  | reported (source : ReportSource) (handle : Handle) (record : Record)
      (r : Except HostError Unit)
  /-- The handler took a request. -/
  | delivered (r : Request)

/-- One run: the bridge, what it is connected to, and what has happened. -/
structure Bridge (σ : Type) where
  /-- The name of the service. -/
  name : String
  handlerName : String
  /-- The id of the run. -/
  context : Context
  host : σ
  handshake : Handshake
  /-- The host's calls still reach the run. -/
  registered : Bool
  /-- From the host to the bridge. -/
  control : Link ControlEvent
  /-- From the bridge to the handler; without ends until the handler is started. -/
  requests : Link Request
  /-- From the handler to the bridge; without ends until the handler is started. -/
  updates : Link Status
  stage : Stage
  /-- What a driving bridge looks at next: the first arm, or what follows those it has just looked at in
  vain. -/
  arm : Arm
  handler : HandlerStage
  /-- The handler has given its requests to another task, which may outlive it. -/
  lent : Bool
  /-- The handler still has the sending handle for statuses it was given. -/
  holdsUpdates : Bool
  /-- The number of further sending handles for statuses. -/
  clones : Nat
  /-- The arguments the handler was started with. -/
  args : Option (List String)
  log : List Happening

namespace Bridge

variable {σ : Type}

/-- A run before its start. -/
def fresh (name handlerName : String) (context : Context) (host : σ) : Bridge σ where
  name := name
  handlerName := handlerName
  context := context
  host := host
  handshake := .fresh
  registered := true
  control := .fresh
  requests := .unconnected
  updates := .unconnected
  stage := .waiting
  arm := .mailbox
  handler := .absent
  lent := false
  holdsUpdates := false
  clones := 0
  args := none
  log := []

/-- Add to the log. -/
def note (b : Bridge σ) (h : Happening) : Bridge σ := { b with log := b.log ++ [h] }

/-- Publish an event of this service. -/
def publish (b : Bridge σ) (e : Event) : Bridge σ := b.note (.published (e.withService b.name))

/-- Publish an event about a command. -/
def publishCommand (b : Bridge σ) (kind : EventKind) (c : Command) : Bridge σ :=
  b.publish ((Event.ofKind kind).withCommand c)

/-! ## Views of the log -/

/-- The events published, in order. -/
def events (log : List Happening) : List Event :=
  log.filterMap fun | .published e => some e | _ => none

/-- The control events read, in order. -/
def controlsRead (log : List Happening) : List ControlEvent :=
  log.filterMap fun | .read e => some e | _ => none

/-- The requests the handler took, in order. -/
def requestsDelivered (log : List Happening) : List Request :=
  log.filterMap fun | .delivered r => some r | _ => none

/-- The calls of the host's report function, in order. -/
def reports (log : List Happening) : List (Handle × Record × Except HostError Unit) :=
  log.filterMap fun | .reported _ h record r => some (h, record, r) | _ => none

/-- The senders on the control link that are done, in order. -/
def controlsSent (log : List Happening) : List (Nat × SendResult) :=
  log.filterMap fun | .controlSent t r => some (t, r) | _ => none

/-- The senders on the status link that are done, in order. -/
def statusesSent (log : List Happening) : List (Nat × SendResult) :=
  log.filterMap fun | .statusSent t r => some (t, r) | _ => none

/-- How the sender with this ticket fared on the control link, if it is done. -/
def controlResult? (b : Bridge σ) (ticket : Nat) : Option SendResult :=
  (controlsSent b.log).lookup ticket

/-- How the sender with this ticket fared on the status link, if it is done. -/
def statusResult? (b : Bridge σ) (ticket : Nat) : Option SendResult :=
  (statusesSent b.log).lookup ticket

/-- The run has ended, in this way. -/
def ending? (b : Bridge σ) : Option Ending :=
  match b.stage with
  | .ended ending => some ending
  | _ => none

end Bridge

end Steward

import Steward.Bridge.Action
import Steward.Bridge.Handler
import Steward.Rota

/-!
# Bridge/Session — a run under a fair scheduler

The bridge, the handler and every sender are *actors*.  Those that can go on are on a rota; the
first one runs until it has to wait, then the next.  An actor comes to the end of the queue when
something happens that it waits for:

* the bridge, when the outcome of the start is there, when an item enters a link it listens on or
  the last sending handle of that link is given up, when the request under way is resolved, and
  when the handler ends;
* the handler, when it is started, when it has a next step to do, and when what it waits for on a
  link has come;
* a sender, when it is its turn to put its item into the link, and when it is done.

A bridge that takes an item first lets the next sender in line run, then the one of the item.

Only the handler can be given more in one turn than its share, and step aside.
-/

namespace Steward.Bridge

/-- Who can run. -/
inductive Actor where
  | bridge
  | handler
  /-- The sender of a control event. -/
  | control (number : Nat)
  /-- A sender of a status other than the handler. -/
  | aux (number : Nat)
  deriving DecidableEq

/-- A run and its scheduler. -/
structure Session (σ : Type) where
  bridge : Bridge σ
  rota : Rota Actor
  /-- The bridge was started. -/
  spawned : Bool
  /-- Control events can be sent. -/
  offering : Bool
  /-- A further sending handle for statuses is kept when the handler starts. -/
  keepsAux : Bool
  /-- That handle is there. -/
  holdsAux : Bool
  /-- What the handler is told to do next. -/
  steps : List (Nat × HandlerStep)
  /-- The handler may be told more. -/
  stepsOpen : Bool
  doing : Doing
  /-- How much the handler may still be given in its turn: steps, requests, the slot of the status
  link, and word of what came of a status it sent. -/
  share : Nat
  /-- A waiting handler is called when that comes which it waits for.  One that stepped aside
  instead has to be called back first. -/
  listens : Bool
  /-- How many numbers were given out.  Each handler step has one, also if it comes too late, and
  so has each control event and each further status that is sent. -/
  issued : Nat
  /-- Control events whose senders have not run yet. -/
  newControls : List (Nat × ControlEvent)
  /-- Further statuses whose senders have not run yet. -/
  newStatuses : List (Nat × Status)
  /-- The numbers of all further statuses. -/
  auxNumbers : List Nat
  /-- What came of the handler's steps, in order of completion. -/
  results : List (Nat × HandlerResult)

namespace Session

variable {σ : Type}

/-- A run before its start. -/
def ofBridge (bridge : Bridge σ) (keepsAux : Bool) : Session σ where
  bridge := bridge
  rota := .empty
  spawned := false
  offering := true
  keepsAux := keepsAux
  holdsAux := false
  steps := []
  stepsOpen := true
  doing := .unstarted
  share := Rota.allowance
  listens := false
  issued := 0
  newControls := []
  newStatuses := []
  auxNumbers := []
  results := []

/-! ## Waking -/

/-- An actor comes to the end of the queue, unless it is in it. -/
def wake (s : Session σ) (a : Actor) : Session σ := { s with rota := s.rota.wake a }

/-- Actors come to the end of the queue in order. -/
def wakeAll (s : Session σ) (as : List Actor) : Session σ := { s with rota := s.rota.wakeAll as }

/-- Waking touches the rota only. -/
@[simp] theorem bridge_wakeAll (s : Session σ) (as : List Actor) :
    (s.wakeAll as).bridge = s.bridge := rfl

/-- The handler steps aside: what comes now does not call it. -/
def stepAside (s : Session σ) : Session σ :=
  { s with rota := s.rota.stepAside .handler, listens := false }

/-- Wake the bridge if it listens. -/
def wakeBridge (s : Session σ) (listens : Bool) : Session σ :=
  if s.spawned && listens then s.wake .bridge else s

/-- A waiting bridge listens on the control link. -/
def hearsControl (s : Session σ) : Bool :=
  match s.bridge.stage with
  | .driving d => !d.mailbox.isHolding
  | _ => false

/-- A waiting bridge listens on the status link. -/
def hearsUpdates (s : Session σ) : Bool :=
  match s.bridge.stage with
  | .driving d => d.statusesOpen
  | _ => false

/-- A waiting bridge listens to the request under way. -/
def hearsDelivery (s : Session σ) : Bool :=
  match s.bridge.stage with
  | .driving d => d.mailbox.isHolding
  | _ => false

/-- A waiting bridge listens to the end of the handler. -/
def hearsHandler (s : Session σ) : Bool :=
  match s.bridge.stage with
  | .driving _ => true
  | _ => false

/-- The outcome of the start has come to a waiting bridge. -/
def startCame (s : Session σ) (b : Bridge σ) : Bool :=
  match s.bridge.stage with
  | .waiting => !s.bridge.handshake.ready && b.handshake.ready
  | _ => false

/-- A link that was waited on has news: an item, or the loss of the last sending handle. -/
def hasNews {α : Type} (before after : Link α) : Bool :=
  before.slot.isNone && after.slot.isSome || before.offers != 0 && after.offers == 0

/-- Something on the control link has come to a waiting bridge. -/
def controlCame (s : Session σ) (b : Bridge σ) : Bool :=
  s.hearsControl && hasNews s.bridge.control b.control

/-- Something on the status link has come to a waiting bridge. -/
def updateCame (s : Session σ) (b : Bridge σ) : Bool :=
  s.hearsUpdates && hasNews s.bridge.updates b.updates

/-- The request under way was resolved. -/
def deliveryCame (s : Session σ) (b : Bridge σ) : Bool :=
  s.hearsDelivery && s.bridge.requests.slot.isSome && b.requests.slot.isNone

/-- The handler has ended. -/
def endCame (s : Session σ) (b : Bridge σ) : Bool := s.hearsHandler && s.bridge.handler != b.handler

/-- Something happens to the bridge, which is woken if it waits for that. -/
def act (s : Session σ) (a : Action) : Session σ :=
  let b := s.bridge.act a
  { s with bridge := b }.wakeBridge
    (s.startCame b || s.controlCame b || s.updateCame b || s.deliveryCame b || s.endCame b)

/-- A sender in line for the status link. -/
def inLine (s : Session σ) (p : Parcel Status) : Actor :=
  if s.doing = .inLine p.ticket then .handler else .aux p.ticket

/-- The sender of the status in the slot, if word of that status calls it. -/
def informed (s : Session σ) (p : Placed Status) : List Actor :=
  if !p.awaited then []
  else if s.doing = .sending p.ticket then if s.listens then [.handler] else []
  else [.aux p.ticket]

/-- The handler, if a request calls it. -/
def receiver (s : Session σ) : List Actor :=
  match s.doing with
  | .receiving _ => if s.listens then [.handler] else []
  | _ => []

/-- Those who are woken when the handler is cut off. -/
def cutOff (s : Session σ) (updates : Link Status) : List Actor :=
  updates.line.map s.inLine ++ updates.slot.toList.flatMap s.informed ++ s.receiver

/-- Those who are woken by a move of the bridge, in order. -/
def woken [StatusHost σ] (s : Session σ) (m : Move) : List Actor :=
  let b := s.bridge
  let left := match (b.perform m).stage with
    | .finishing _ _ _ => true
    | _ => false
  match m with
  | .start _ => [.handler]
  | .read p =>
    (b.control.line.head?.map fun q => Actor.control q.ticket).toList ++
      (if p.awaited then [.control p.ticket] else []) ++
      if left then s.cutOff b.updates else []
  | .place _ => if b.requests.closed then [] else s.receiver
  | .relay p =>
    (b.updates.line.head?.map s.inLine).toList ++ s.informed p ++
      if left then s.cutOff b.updates.take else []
  | .complete _ => s.cutOff b.updates
  | .release =>
    match b.stage with
    | .releasing _ .closeControl => b.control.unfinished.map .control
    | _ => []
  | _ => []

end Session

end Steward.Bridge

import Steward.Subscriber.Audience

/-!
# Subscriber/Schedule — an audience, step by step

The operations on a `Fanout` let all workers run to their end, or none.  Between any two events a single
worker may as well get ahead by one event or permit; so the histories of a `Fanout` are lists of
`Action`s, and every operation is such a list (`apply_eq_after`).

The `Effect` of an action is what can be said of it from outside: which event came in, what became of it
with each member that wanted it, and what was published.
-/

namespace Steward

/-- An event is offered to a member. -/
structure Offering where
  /-- The number of the member. -/
  member : Nat
  /-- The name of its subscriber. -/
  name : String
  event : Event
  /-- Why it was dropped; `none` if it was queued. -/
  dropped : Option DropReason
  deriving DecidableEq

namespace Offering

/-- What is announced of an offering: a dropped event is, except for an announcement. -/
def announced (o : Offering) : List Event :=
  match o.dropped with
  | some reason => if o.event.isOverflow then [] else [Event.overflow o.name reason.text]
  | none => []

/-- The events queued for a member, in order. -/
def queuedFor (member : Nat) (os : List Offering) : List Event :=
  (os.filter fun o => o.member = member && o.dropped.isNone).map (·.event)

end Offering

/-- Nothing is left for the worker, or it has ended. -/
def Worker.isFinished (w : Worker) : Bool := w.ended || (w.held.isNone && w.queue.isEmpty)

/-- A member is offered an event if it wants to see it. -/
def Member.offering? (m : Member) (number : Nat) (e : Event) : Option Offering :=
  if m.subscriber.interested e.kind then
    some ⟨number, m.subscriber.name, e, (m.worker.offer m.subscriber e).2⟩
  else none

namespace Audience

/-- The members that an event is offered to, in order. -/
def offerings (a : Audience) (e : Event) : List Offering :=
  a.members.zipIdx.flatMap fun (m, number) => (m.offering? number e).toList

/-- One worker gets ahead, if it can: it is given a permit, or an event. -/
def advance (a : Audience) (member : Nat) : Audience × List Event :=
  match a.members[member]? with
  | none => (a, [])
  | some m =>
    match m.worker.next? m.subscriber with
    | none => (a, [])
    | some (worker, published) =>
      ({ a with members := a.members.set member { m with worker := worker } }, published)

end Audience

namespace Fanout

/-- One thing that happens to an audience beside a bus. -/
inductive Action where
  /-- An event comes in. -/
  | emit (e : Event)
  /-- One worker gets ahead. -/
  | advance (member : Nat)
  /-- The workers run until they can only wait. -/
  | run
  /-- A member gets permits. -/
  | permit (member n : Nat)
  /-- The queues are closed: no event comes in any more. -/
  | close

/-- What can be said of an action from outside. -/
structure Effect where
  /-- The events that came in. -/
  emitted : List Event := []
  /-- What became of them. -/
  offered : List Offering := []
  /-- What went to the bus. -/
  published : List Event := []

/-- The effect of an action. -/
def effect (f : Fanout) : Action → Effect
  | .emit e =>
    if f.isShut then {} else
      { emitted := [e], offered := f.audience.offerings e, published := (f.audience.emit e).2 }
  | .advance member => { published := (f.audience.advance member).2 }
  | .run => { published := f.audience.run.2 }
  | .permit _ _ | .close => {}

/-- The state after an action. -/
def act (f : Fanout) : Action → Fanout
  | .emit e => f.emit e
  | .advance member =>
    let (audience, published) := f.audience.advance member
    { f with audience := audience, bus := f.bus.publishAll published }
  | .run => f.run
  | .permit member n => { f with audience := f.audience.permit member n }
  | .close => { f with isShut := true }

/-- The state after a history. -/
def after (f : Fanout) (history : List Action) : Fanout := history.foldl act f

/-- The effects of the actions of a history. -/
def effects (f : Fanout) : List Action → List Effect
  | [] => []
  | a :: later => f.effect a :: (f.act a).effects later

/-- The events that came in along a history. -/
def emitted (f : Fanout) (history : List Action) : List Event :=
  (f.effects history).flatMap (·.emitted)

/-- What became of them. -/
def offered (f : Fanout) (history : List Action) : List Offering :=
  (f.effects history).flatMap (·.offered)

/-- What went to the bus along a history. -/
def published (f : Fanout) (history : List Action) : List Event :=
  (f.effects history).flatMap (·.published)

/-- The queues are closed and nothing is left for any worker: a shutdown has come to its end. -/
def isOver (f : Fanout) : Bool := f.isShut && f.audience.members.all (·.worker.isFinished)

/-- The actions that an operation is made of. -/
def Op.actions : Op → List Action
  | .emit es => es.map .emit
  | .run => [.run]
  | .release member n => [.permit member n, .run]
  | .shutdown => [.run, .close]

/-- **An operation is a history.** -/
theorem apply_eq_after (f : Fanout) (op : Op) : f.apply op = f.after op.actions := by
  cases op with
  | emit es => exact (List.foldl_map (f := Action.emit) (g := act)).symm
  | run | release | shutdown => rfl

end Fanout

end Steward

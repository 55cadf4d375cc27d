import Steward.Service.Course

/-!
# Service/Vigil — a run with the host's calls and the wait for its handler

A `Course` is as much of a run as its result depends on.  A `Vigil` is the whole of it, from the
thread that registers the run to the moment when that thread leaves the handler alone:

* a control call of the host looks for the run in the table, is stamped by the guard, and then sends
  its event; a call that finds no run returns at once;
* when the bridge has stopped and dispatching is over, a handler that was left has its grace
  period.

Anything may happen between any two of these steps, so a call that found the run may send its event
when the run is no longer there.
-/

namespace Steward

/-- The event for a handler that was left by the end of its run and has not ended yet. -/
def Bridge.overstay? {σ : Type} (b : Bridge σ) (grace? : Option Duration) : Option Event :=
  match b.ending?, b.handler with
  | some (.stopped _ true), .ended _ => none
  | some (.stopped _ true), _ =>
    some (((Event.ofKind .graceExceeded).withService b.name).withGrace (grace?.getD .zero))
  | _, _ => none

/-- A run from its registration to the end of the grace period. -/
structure Vigil (σ : Type) extends Course σ where
  /-- The thread that registered the run. -/
  guard : Guard
  /-- The time a handler may outlive the run, if any. -/
  grace? : Option Duration
  /-- The events stamped for the host's calls, in order. -/
  stamped : List ControlEvent
  /-- The calls that have their event and have not sent it yet. -/
  calling : List (Parcel ControlEvent)
  /-- The calls that found no run, in order. -/
  missed : List Nat
  /-- The event for a handler that outlived its grace period. -/
  overstay : Option Event
  /-- The thread that runs the service has left the handler alone. -/
  departed : Bool

namespace Vigil

variable {σ : Type}

/-- A run that was just registered. -/
def fresh (name handlerName : String) (context : Context) (host : σ) (guard : Guard)
    (grace? : Option Duration) : Vigil σ where
  toCourse := .fresh name handlerName context host
  guard := guard
  grace? := grace?
  stamped := []
  calling := []
  missed := []
  overstay := none
  departed := false

/-- One step of a run. -/
inductive Step where
  | course (s : Course.Step)
  /-- The host calls back on the thread `caller`, and the call gets as far as its event. -/
  | call (ticket : Nat) (caller : ThreadId) (call : ControlCall)
  /-- A call sends its event. -/
  | send (ticket : Nat)
  /-- The thread that runs the service leaves the handler alone: it has ended, or its time is up. -/
  | leave

/-- A call looks for the run in the table; it keeps the link of the run it finds, and stamps its
event. -/
def call (v : Vigil σ) (ticket : Nat) (caller : ThreadId) (call : ControlCall) : Vigil σ :=
  if v.bridge.registered && call.context == v.bridge.context then
    { v with
      bridge := v.bridge.act .cloneControl
      stamped := v.stamped ++ [v.guard.stamp caller call]
      calling := v.calling ++ [⟨ticket, v.guard.stamp caller call⟩] }
  else { v with missed := v.missed ++ [ticket] }

/-- The call with this ticket sends its event, if it has one. -/
def send (v : Vigil σ) (ticket : Nat) : Vigil σ :=
  match v.calling.find? (·.ticket == ticket) with
  | some p =>
    { v with
      bridge := v.bridge.act (.offerControl p.ticket p.item)
      calling := v.calling.erase p }
  | none => v

/-- Leave the handler alone, once dispatching is over and the bridge has stopped. -/
def leave (v : Vigil σ) : Vigil σ :=
  if v.dispatch.isSome && v.bridge.ending?.isSome && !v.departed then
    { v with overstay := v.bridge.overstay? v.grace?, departed := true }
  else v

/-- The state after a step. -/
def step [StatusHost σ] (v : Vigil σ) : Step → Vigil σ
  | .course s => { v with toCourse := v.toCourse.step s }
  | .call ticket caller call => v.call ticket caller call
  | .send ticket => v.send ticket
  | .leave => v.leave

/-- The state after a history. -/
def after [StatusHost σ] (v : Vigil σ) (history : List Step) : Vigil σ := history.foldl step v

theorem after_append [StatusHost σ] (v : Vigil σ) (h₁ h₂ : List Step) :
    v.after (h₁ ++ h₂) = (v.after h₁).after h₂ := List.foldl_append

/-! ## What can be seen of a run -/

/-- The events of the bridge, and after them that of the thread that runs the service. -/
def events (v : Vigil σ) : List Event := Bridge.events v.bridge.log ++ v.overstay.toList

/-- What the calls returned: those without a run at once, the others when their send was done. -/
def returned (v : Vigil σ) : List (Nat × UInt32) :=
  v.missed.map (·, callNotImplemented) ++
    (Bridge.controlsSent v.bridge.log).map fun d => (d.1, noError)

/-- What the caller gets, once the handler was left alone. -/
def result? (v : Vigil σ) : Option (Except RunError ExitCode) :=
  if v.departed then v.toCourse.result? else none

/-- What can be seen of a run from outside. -/
structure Sight where
  stamped : List ControlEvent
  returned : List (Nat × UInt32)
  events : List Event
  requests : List Request
  reports : List (Handle × Record × Except HostError Unit)
  result : Option (Except RunError ExitCode)

/-- What can be seen of this run. -/
def sight (v : Vigil σ) : Sight where
  stamped := v.stamped
  returned := v.returned
  events := v.events
  requests := Bridge.requestsDelivered v.bridge.log
  reports := Bridge.reports v.bridge.log
  result := v.result?

end Vigil

/-- A service waits for its handler as a vigil does. -/
theorem Service.overstay_awaitHandler {σ : Type} (s : Service σ) :
    s.awaitHandler.overstay = (s.bridge.overstay? s.config.grace?).or s.overstay := by
  unfold awaitHandler Bridge.overstay? handlerEnded
  cases s.bridge.ending? with
  | none => rfl
  | some ending =>
    cases ending with
    | notStarted e => rfl
    | stopped exit left =>
      cases left with
      | false => rfl
      | true => cases s.bridge.handler <;> rfl

end Steward

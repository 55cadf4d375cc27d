import Steward.Bridge.Session.Round
import Steward.Config
import Steward.Registry
import Steward.Service.Feed

/-!
# Service/Basic — a whole run

The thread that runs a service registers it, starts the bridge, and then belongs to the host's
dispatcher until that comes back.  The dispatcher enters the service, which publishes the outcome
of the registration; if the dispatcher comes back before, its return is the outcome.  When the
bridge has stopped, a handler that is still there has a grace period to end.

`Service.result?` is what the caller gets: the exit code of the last report, or the reason why the
service was never started.
-/

namespace Steward

/-- A whole run. -/
structure Service (σ : Type) where
  session : Bridge.Session σ
  config : Config
  feed : Feed
  /-- What dispatching came to, once it is over: the error, if it is the reason why the service was
  never started. -/
  dispatch : Option (Option HostError)
  /-- The event for a handler that outlived its grace period. -/
  overstay : Option Event

namespace Service

variable {σ : Type}

/-- The id of the run; each run of a service has a table of its own here. -/
def runId : Context := 1

/-- Everything is set up and the bridge waits for the outcome of the start. -/
def launch [StatusHost σ] (name handlerName : String) (host : σ) (config : Config)
    (subs : List Subscriber) (keepsAux : Bool) : Service σ :=
  let session := Bridge.Session.ofBridge (.fresh name handlerName runId host) keepsAux
  { session := (session.round [.start]).1
    config := config
    feed := .ofList subs config.busSlots
    dispatch := none
    overstay := none }

/-- The bridge of the run. -/
def bridge (s : Service σ) : Bridge σ := s.session.bridge

/-- Do something with the run from outside and let everything come to rest. -/
def round [StatusHost σ] (s : Service σ) (ops : List Bridge.Session.Op) :
    Service σ × Bridge.Session.View :=
  let (session, view) := s.session.round ops
  ({ s with session := session, feed := s.feed.absorb (Bridge.events view.log) }, view)

/-- The host enters the service with the given id.  Only the id of a registered run does
anything. -/
def main [StatusHost σ] (s : Service σ) (id : Context) (answer : RegisterAnswer)
    (raw : List (List UInt16)) : Service σ :=
  if s.bridge.registered && id == s.bridge.context then
    (s.round [.publish (answer.map (⟨·, Wide.decodeArgs raw⟩))]).1
  else s

/-- A control call of the host.  The caller gets a number as soon as the bridge took the event;
without a number it still waits. -/
def control [StatusHost σ] (s : Service σ) (caller : ThreadId) (call : ControlCall) :
    Service σ × Option UInt32 :=
  if s.bridge.registered && call.context == s.bridge.context then
    let (s', view) := s.round [.control caller call]
    (s', if (Bridge.controlsSent view.log).isEmpty then none else some noError)
  else (s, some callNotImplemented)

/-- The dispatcher comes back.  If nothing was published before, this is the outcome of the start
and the dispatcher is to blame. -/
def dispatchReturns [StatusHost σ] (s : Service σ) (r : Except HostError Unit) : Service σ :=
  let e := match r with
    | .ok () => .notStarted
    | .error e => e
  let first := !s.bridge.handshake.isSettled
  let s' := (s.round [.publish (.error e)]).1
  { s' with dispatch := some (if first then some e else none) }

/-- The result of a run that ended in this way. -/
def resultOf (dispatchError : Option HostError) : Ending → Except RunError ExitCode
  | .stopped exit _ => .ok exit
  | .notStarted e =>
    match dispatchError with
    | some d => .error (.dispatch d)
    | none => .error (.registration (e.getD .notStarted))

/-- What the caller gets, once the dispatcher came back and the bridge has stopped. -/
def result? (s : Service σ) : Option (Except RunError ExitCode) :=
  match s.dispatch, s.bridge.ending? with
  | some d, some ending => some (resultOf d ending)
  | _, _ => none

/-- The handler has ended. -/
def handlerEnded (s : Service σ) : Bool :=
  match s.bridge.handler with
  | .ended _ => true
  | _ => false

/-- Wait for a handler that outlived the run, as long as the grace period lasts. -/
def awaitHandler (s : Service σ) : Service σ :=
  match s.bridge.ending? with
  | some (.stopped _ true) =>
    if s.handlerEnded then s
    else
      let e := ((Event.ofKind .graceExceeded).withService s.bridge.name).withGrace
        (s.config.grace?.getD .zero)
      { s with overstay := some e, feed := s.feed.absorb [e] }
  | _ => s

/-- All events of the run, in order. -/
def events (s : Service σ) : List Event := Bridge.events s.bridge.log ++ s.overstay.toList

/-- Nothing is asked of the handler any more: an idle handler ends.  Without a grace period a
handler that outlived the bridge is not waited for. -/
def endHandler [StatusHost σ] (s : Service σ) : Service σ :=
  if s.bridge.ending?.isSome && s.config.grace?.isNone then s else (s.round [.endSteps]).1

/-! ## What happens to a run from outside -/

/-- Something done to the handler's side of a run. -/
inductive Op where
  | tell (step : Bridge.HandlerStep)
  | aux (s : Status)
  | dropAux

/-- The answer to an operation on the handler's side. -/
inductive Answer where
  | result (r : Bridge.HandlerResult)
  /-- The handler did what ends it. -/
  | ended
  | handlerGone
  /-- What was told is not done yet. -/
  | waiting
  | sent (r : SendResult)
  | noAux
  | flag (b : Bool)

/-- One operation on the handler's side. -/
def step [StatusHost σ] (s : Service σ) : Op → Service σ × Answer
  | .tell step =>
    let (s', view) := s.round [.tell step]
    match view.answers, view.results with
    | [.handlerGone], _ => (s', .handlerGone)
    | _, (_, r) :: _ => (s', .result r)
    | _, [] => (s', if s'.handlerEnded then .ended else .waiting)
  | .aux st =>
    let (s', view) := s.round [.aux st]
    match view.answers, view.aux with
    | [.noAux], _ => (s', .noAux)
    | _, (_, r) :: _ => (s', .sent r)
    | _, [] => (s', .waiting)
  | .dropAux =>
    let (s', view) := s.round [.dropAux]
    match view.answers with
    | [.flag b] => (s', .flag b)
    | _ => (s', .flag false)

end Service

end Steward

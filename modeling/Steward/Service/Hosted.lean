import Steward.Host.Dispatcher
import Steward.Service.Vigil

/-!
# Service/Hosted — a run on a simulated host, with all that happens there

A `Vigil` is a run on any host; a `Dispatcher` is a host that calls back whoever registered.  Here the
host of the run is such a dispatcher, and its calls are the control calls of the run.  A call first looks
for its run and gets as far as its event, then sends it, and returns when the event was taken or refused.

The thread that dispatches is the one that registered the run.  Whatever else the run does, by itself
and with its handler, and whatever else is done at the host, may happen between any two of these steps.
-/

namespace Steward

/-- The thread on which a call is made. -/
def SimulatedHost.Callback.thread (k : Callback) : ThreadId :=
  if k.foreign then .other 0 else .home

/-- It has to do with those who send control events. -/
def Bridge.Action.concernsCallers : Bridge.Action → Bool
  | .offerControl _ _ | .cloneControl | .dropControl => true
  | _ => false

/-- It has to do with a control call, but for the send of its event. -/
def Vigil.Step.concernsCallers : Vigil.Step → Bool
  | .call _ _ _ => true
  | .course (.act a _) => a.concernsCallers
  | .course _ | .send _ | .leave => false

/-- The callback returns. -/
def Dispatcher.Step.isAnswer : Dispatcher.Step → Bool
  | .answer _ => true
  | _ => false

/-- A run on a simulated host. -/
structure Hosted where
  run : Vigil Dispatcher
  /-- The callback has the word, and has looked for its run. -/
  inside : Bool

namespace Hosted

/-- A run that was just registered, on a host where nobody dispatches yet. -/
def fresh (name handlerName : String) (context : Context) (h : SimulatedHost)
    (grace? : Option Duration) : Hosted :=
  ⟨.fresh name handlerName context (.idle h) (.capture .home) grace?, false⟩

/-- The host of the run. -/
def host (r : Hosted) : Dispatcher := r.run.bridge.host

/-- The number of calls that have returned. -/
def ticket (r : Hosted) : Nat := (Dispatcher.returnedIn r.host.log).length

/-- Change the host of a run. -/
def withHost (v : Vigil Dispatcher) (d : Dispatcher) : Vigil Dispatcher :=
  { v with bridge := { v.bridge with host := d } }

/-- One step of a run on a simulated host. -/
inductive Step where
  /-- The run goes on by itself or with its handler, or a call sends its event. -/
  | run (s : Vigil.Step) (aside : s.concernsCallers = false)
  /-- Anybody uses the host, or the thread that dispatches goes on. -/
  | host (s : Dispatcher.Step) (aside : s.isAnswer = false)
  /-- The callback looks for its run, and gets as far as its event. -/
  | enter
  /-- The callback returns, if it can. -/
  | answer

/-- The callback looks for its run, and gets as far as its event. -/
def enter (r : Hosted) : Hosted :=
  match r.host.duty with
  | .calling k => if r.inside then r else ⟨r.run.call r.ticket k.thread k.call, true⟩
  | _ => r

/-- The callback returns, when no event of it is under way any more: it was taken or refused, or there
was no run.  A call that found its run gives back the sending handle it had. -/
def answer (r : Hosted) : Hosted :=
  if r.inside && r.run.calling.isEmpty && r.run.bridge.control.unfinished.isEmpty then
    if r.run.missed.contains r.ticket then
      ⟨withHost r.run (r.host.answer callNotImplemented), false⟩
    else
      ⟨withHost { r.run with bridge := r.run.bridge.act .dropControl } (r.host.answer noError), false⟩
  else r

/-- The state after a step. -/
def step (r : Hosted) : Step → Hosted
  | .run s _ => ⟨r.run.step s, r.inside⟩
  | .host s _ => ⟨withHost r.run (r.host.step s), r.inside⟩
  | .enter => r.enter
  | .answer => r.answer

/-- The state after a history. -/
def after (r : Hosted) (history : List Step) : Hosted := history.foldl step r

end Hosted

end Steward

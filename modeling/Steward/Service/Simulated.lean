import Steward.Host.Simulated
import Steward.Service.Basic

/-!
# Service/Simulated — a run on a simulated host

The simulated host enters the service once and then delivers what its queue holds, one control
call after the other, each on the dispatch thread or on a thread of its own.  A call waits until
the bridge took its event.
-/

namespace Steward.Service

/-- A run on a simulated host. -/
structure Simulated where
  service : Service SimulatedHost
  /-- A control call is under way. -/
  calling : Bool

namespace Simulated

/-- The host of the run. -/
def host (s : Simulated) : SimulatedHost := s.service.bridge.host

/-- Change the host of the run. -/
def withHost (s : Service SimulatedHost) (h : SimulatedHost) : Service SimulatedHost :=
  { s with session := { s.session with bridge := { s.session.bridge with host := h } } }

/-- The dispatcher enters the service: it registers the callback and publishes the outcome. -/
def enter (s : Service SimulatedHost) (raw : List (List UInt16)) : Service SimulatedHost :=
  let (h, answer) := s.bridge.host.register s.bridge.context
  (withHost s h).main s.bridge.context answer raw

/-- The dispatcher is called. -/
def launch (s : Service SimulatedHost) : Simulated :=
  match s.bridge.host.beginDispatch s.bridge.name with
  | (h, .returns r) => ⟨(withHost s h).dispatchReturns r, false⟩
  | (h, .enters raw) => ⟨enter (withHost s h) raw, false⟩

/-- The callback has returned a number. -/
def record (s : Simulated) (result : UInt32) : Simulated :=
  let h := s.host
  ⟨withHost s.service { h with results := h.results ++ [result] }, false⟩

/-- The dispatcher takes a command from the queue and carries it out. -/
def deliver (s : Simulated) (c : QueuedCommand) : Simulated :=
  match s.host.callback? c with
  | none => s
  | some k =>
    let caller := if k.foreign then ThreadId.other 0 else ThreadId.home
    let (service, result) := s.service.control caller k.call
    match result with
    | some r => record ⟨service, false⟩ r
    | none => ⟨service, true⟩

/-- The dispatcher goes on until its queue is empty, a call has to wait, or it comes back; it
takes at most `n` commands. -/
def pump (s : Simulated) : Nat → Simulated
  | 0 => s
  | n + 1 =>
    if s.host.stage ≠ .serving || s.calling then s
    else
      match s.host.queue with
      | [] => s
      | c :: rest =>
        let s := { s with service := withHost s.service { s.host with queue := rest } }
        if c = .exit then
          ⟨(withHost s.service s.host.endDispatch).dispatchReturns (.ok ()), false⟩
        else (s.deliver c).pump n

/-- A waiting call returns when the bridge took its event or closed the link. -/
def resume (s : Simulated) : Simulated :=
  if s.calling && s.service.bridge.control.unfinished.isEmpty then s.record noError else s

/-- Everything comes to rest. -/
def settle (s : Simulated) : Simulated := s.resume.pump (s.host.queue.length + 4)

/-- Something done to the run. -/
inductive Op where
  | handler (op : Service.Op)
  /-- Queue a command at the host. -/
  | command (c : QueuedCommand)

/-- The answer to an operation. -/
inductive Answer where
  | handler (a : Service.Answer)
  | returned (result : UInt32)
  /-- The host calls nobody back. -/
  | ignored

/-- One operation. -/
def step (s : Simulated) : Op → Simulated × Answer
  | .handler op =>
    let (service, a) := s.service.step op
    ({ s with service := service }.settle, .handler a)
  | .command c =>
    let s' := { s with service := withHost s.service (s.host.enqueue c) }.settle
    match s'.host.results.drop s.host.results.length with
    | [] => (s', .ignored)
    | r :: _ => (s', .returned r)

/-- Operations one after the other, with their answers. -/
def steps (s : Simulated) : List Op → Simulated × List Answer
  | [] => (s, [])
  | op :: ops =>
    let (s₁, a) := s.step op
    let (s₂, as) := s₁.steps ops
    (s₂, a :: as)

/-- The run comes to its end. -/
def finish (s : Simulated) : Service SimulatedHost :=
  ({ s with service := s.service.endHandler }.settle).service.awaitHandler

/-- A whole run: the dispatcher is called, things are done to the run, and it comes to its end. -/
def play (s : Service SimulatedHost) (ops : List Op) : Service SimulatedHost × List Answer :=
  let (run, answers) := (launch s).settle.steps ops
  (run.finish, answers)

/-- A whole run of a handler that knows from the start what it will do. -/
def playAlone (s : Service SimulatedHost) (steps : List Bridge.HandlerStep) :
    Service SimulatedHost :=
  (play (s.round (steps.map .tell ++ [.endSteps])).1 []).1

end Simulated

end Steward.Service

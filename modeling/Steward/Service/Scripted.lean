import Steward.Host.Report
import Steward.Service.Basic

/-!
# Service/Scripted — a run on a host that does as it is told

The host enters the service when it is told to, as often as it is told to, calls the registered
callback, and comes back with the result it is given.
-/

namespace Steward.Service

/-- A run on a host that does as it is told. -/
structure Scripted where
  service : Service ScriptedHost
  /-- What the host answers to a registration of the callback. -/
  onRegister : RegisterAnswer
  /-- The names the callback was registered for. -/
  asked : List String
  /-- The host has accepted the callback. -/
  callback : Bool

namespace Scripted

/-- The dispatcher is called and waits for orders. -/
def launch (s : Service ScriptedHost) (onRegister : RegisterAnswer) : Scripted :=
  ⟨s, onRegister, [], false⟩

/-- Something done to the run. -/
inductive Op where
  | handler (op : Service.Op)
  /-- Enter the service with this id. -/
  | main (id : Context) (raw : List (List UInt16))
  /-- Call the registered callback on the given thread. -/
  | control (caller : ThreadId) (call : ControlCall)
  /-- The dispatcher comes back. -/
  | returns (r : Except HostError Unit)

/-- The answer to an operation. -/
inductive Answer where
  | handler (a : Service.Answer)
  | entered
  | noCallback
  | returned (result : UInt32)
  /-- The call still waits. -/
  | waiting
  | done

/-- The host enters the service. -/
def main (s : Scripted) (id : Context) (raw : List (List UInt16)) : Scripted :=
  if s.service.bridge.registered && id == s.service.bridge.context then
    { s with
      service := s.service.main id s.onRegister raw
      asked := s.asked ++ [s.service.bridge.name]
      callback := s.callback || s.onRegister.isOk }
  else s

/-- One operation. -/
def step (s : Scripted) : Op → Scripted × Answer
  | .handler op =>
    let (service, a) := s.service.step op
    ({ s with service := service }, .handler a)
  | .main id raw => (s.main id raw, .entered)
  | .control caller call =>
    if s.callback then
      let (service, result) := s.service.control caller call
      ({ s with service := service },
       match result with
       | some r => .returned r
       | none => .waiting)
    else (s, .noCallback)
  | .returns r =>
    (if s.service.dispatch.isNone then { s with service := s.service.dispatchReturns r } else s,
     .done)

/-- Operations one after the other, with their answers. -/
def steps (s : Scripted) : List Op → Scripted × List Answer
  | [] => (s, [])
  | op :: ops =>
    let (s₁, a) := s.step op
    let (s₂, as) := s₁.steps ops
    (s₂, a :: as)

/-- The run comes to its end; a dispatcher that still waits for orders comes back. -/
def finish (s : Scripted) : Service ScriptedHost :=
  let ended := s.service.endHandler
  (if ended.dispatch.isNone then ended.dispatchReturns (.ok ()) else ended).awaitHandler

/-- A whole run: the dispatcher is called, things are done to the run, and it comes to its end.
The answer has the state before the end too. -/
def play (s : Service ScriptedHost) (onRegister : RegisterAnswer) (ops : List Op) :
    Scripted × Service ScriptedHost × List Answer :=
  let (run, answers) := (launch s onRegister).steps ops
  (run, run.finish, answers)

end Scripted

end Steward.Service

/-!
# Host/Error — what can go wrong between a service and its host

`HostError` is an answer of the host; `RunError` says at which stage a run failed.  Both have a
short label, a message for logs and a text for people.
-/

namespace Steward

/-- An error of the host. -/
inductive HostError where
  /-- The host gave a number. -/
  | numbered (code : UInt32)
  /-- The host gave a text. -/
  | described (text : String)
  deriving DecidableEq, Inhabited

namespace HostError

/-- The number of the error, if the host gave one. -/
def code? : HostError → Option UInt32
  | numbered code => some code
  | described _ => none

/-- The name of the kind of error. -/
def label : HostError → String
  | numbered _ => "host_os_error"
  | described _ => "host_failure"

/-- The message written to logs. -/
def message : HostError → String
  | numbered code => s!"os error: {code}"
  | described text => s!"failure: {text}"

/-- The text shown to people. -/
def display : HostError → String
  | numbered code => s!"host error {code}"
  | described text => s!"host failure: {text}"

/-- The dispatcher came back and the service had never been started. -/
def notStarted : HostError := described "dispatcher returned without starting the service"

end HostError

/-- Why a run never got a status handle. -/
inductive RunError where
  /-- The machinery for the run could not be set up. -/
  | setup (cause : String)
  /-- The host refused the control callback. -/
  | registration (e : HostError)
  /-- The host's dispatcher failed, or came back before the service was started. -/
  | dispatch (e : HostError)
  deriving DecidableEq, Inhabited

namespace RunError

/-- The name of the stage that failed. -/
def label : RunError → String
  | setup _ => "run_runtime_failed"
  | registration _ => "run_registration_failed"
  | dispatch _ => "run_dispatch_failed"

/-- The message written to logs. -/
def message : RunError → String
  | setup cause => s!"runtime: {cause}"
  | registration e => "registration: " ++ e.message
  | dispatch e => "dispatch: " ++ e.message

/-- The text shown to people. -/
def display : RunError → String
  | setup cause => s!"failed to build service runtime: {cause}"
  | registration e => "control handler registration failed: " ++ e.display
  | dispatch e => "service dispatcher failed: " ++ e.display

end RunError

end Steward

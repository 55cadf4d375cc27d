import Steward.Event.Basic
import Steward.Text.Quoted

/-!
# Event/Line — an event as a line of a log

Each kind has a tag in square brackets and prints the details that belong to it.  Texts are
quoted, except the names and the panic information of observers.
-/

namespace Steward.Event

/-- The command an event is about, as logs name it. -/
def commandText (e : Event) : String := (e.command.map Command.label).getD "none"

/-- The state an event is about, as logs name it. -/
def stateText (e : Event) : String := (e.state.map ServiceState.label).getD "none"

/-- The exit code an event carries. -/
def exitText (e : Event) : String :=
  match e.exit with
  | some ⟨true, code⟩ => s!"{code}(specific)"
  | some ⟨false, code⟩ => s!"{code}"
  | none => "none"

/-- The line of an event, without its end. -/
def line (e : Event) : String :=
  let name := e.service.getD "unknown"
  let info := e.reason.getD ""
  let service := " service=" ++ Quoted.quote name
  let reason := Quoted.quote info
  let command := " cmd=" ++ e.commandText
  let state := " state=" ++ e.stateText
  let exit := " exit=" ++ e.exitText
  match e.kind with
  | .dispatcherReady => "[dispatcher-ready]" ++ service ++ s!" args={e.args.getD 0}"
  | .registrationFailed => "[registration-failed]" ++ service ++ " err=" ++ reason
  | .handlerStarted => "[handler-started]" ++ service ++ " handler=" ++ reason
  | .controlReceived => "[control]" ++ service ++ command
  | .requestDelivered => "[delivered]" ++ service ++ command
  | .requestDropped => "[dropped]" ++ service ++ command
  | .affinityViolation => "[affinity-violation]" ++ service ++ exit
  | .statusReported => "[status]" ++ service ++ state
  | .statusReportFailed => "[status-failed]" ++ service ++ state ++ exit ++ " err=" ++ reason
  | .handlerExited => "[handler-exited]" ++ service ++ exit
  | .handlerPanicked => "[handler-panicked]" ++ service ++ " info=" ++ reason
  | .finalStatusReported =>
    "[final-status]" ++ service ++ exit ++ if info.isEmpty then "" else " err=" ++ reason
  | .bridgeStopped => "[bridge-stopped]" ++ service
  | .graceExceeded => "[grace-exceeded]" ++ service ++ s!" grace_ms={e.graceMillis.getD 0}"
  | .subscriberOverflow => "[subscriber-overflow] subscriber=" ++ name ++ " reason=" ++ reason
  | .subscriberPanicked => "[subscriber-panicked] subscriber=" ++ name ++ " info=" ++ info

/-- What a log holds for an event: its line, ended by a line break. -/
def logText (e : Event) : String := e.line ++ "\n"

end Steward.Event

import Steward.Status.Basic

/-!
# Event/Basic — what observers of a run are told

An event has a kind and those details that make sense for it.  Five kinds are *terminal*: after
one of them the run only reports its end.  Two kinds are about the observers themselves.
-/

namespace Steward

/-- What happened. -/
inductive EventKind where
  | subscriberPanicked
  | subscriberOverflow
  | dispatcherReady
  | registrationFailed
  | handlerStarted
  | controlReceived
  | requestDelivered
  | requestDropped
  | affinityViolation
  | statusReported
  | statusReportFailed
  | handlerExited
  | handlerPanicked
  | finalStatusReported
  | bridgeStopped
  | graceExceeded
  deriving DecidableEq, Inhabited

namespace EventKind

/-- All kinds. -/
def all : List EventKind :=
  [subscriberPanicked, subscriberOverflow, dispatcherReady, registrationFailed, handlerStarted,
   controlReceived, requestDelivered, requestDropped, affinityViolation, statusReported,
   statusReportFailed, handlerExited, handlerPanicked, finalStatusReported, bridgeStopped,
   graceExceeded]

/-- The name of a kind. -/
def label : EventKind → String
  | subscriberPanicked => "subscriber_panicked"
  | subscriberOverflow => "subscriber_overflow"
  | dispatcherReady => "dispatcher_ready"
  | registrationFailed => "registration_failed"
  | handlerStarted => "handler_started"
  | controlReceived => "control_received"
  | requestDelivered => "request_delivered"
  | requestDropped => "request_dropped"
  | affinityViolation => "affinity_violation"
  | statusReported => "status_reported"
  | statusReportFailed => "status_report_failed"
  | handlerExited => "handler_exited"
  | handlerPanicked => "handler_panicked"
  | finalStatusReported => "final_status_reported"
  | bridgeStopped => "bridge_stopped"
  | graceExceeded => "grace_exceeded"

/-- The kind with the given name, if there is one. -/
def ofLabel? (s : String) : Option EventKind := all.find? (·.label == s)

/-- After such an event the run only reports its end. -/
def isTerminal : EventKind → Bool
  | registrationFailed | affinityViolation | statusReportFailed | handlerExited
  | handlerPanicked => true
  | _ => false

end EventKind

/-- Something that happened in a run, with the details that are known. -/
structure Event where
  kind : EventKind
  /-- The name of the service, or of the observer if the event is about one. -/
  service : Option String := none
  command : Option Command := none
  state : Option ServiceState := none
  exit : Option ExitCode := none
  /-- The number of startup arguments. -/
  args : Option UInt32 := none
  /-- A grace period in milliseconds. -/
  graceMillis : Option UInt32 := none
  reason : Option String := none
  deriving DecidableEq, Inhabited

namespace Event

/-- An event without details. -/
def ofKind (kind : EventKind) : Event where
  kind := kind

/-- Attach the name of the service, or of the observer. -/
def withService (e : Event) (service : String) : Event := { e with service := some service }
/-- Attach a command. -/
def withCommand (e : Event) (command : Command) : Event := { e with command := some command }
/-- Attach a state. -/
def withState (e : Event) (state : ServiceState) : Event := { e with state := some state }
/-- Attach an exit code. -/
def withExit (e : Event) (exit : ExitCode) : Event := { e with exit := some exit }
/-- Attach a reason. -/
def withReason (e : Event) (reason : String) : Event := { e with reason := some reason }

/-- Attach a count of startup arguments; a count beyond a word becomes the largest word. -/
def withArgs (e : Event) (n : Nat) : Event :=
  { e with args := some (UInt32.ofNat (min n (UInt32.size - 1))) }

/-- Attach a grace period; one beyond a word of milliseconds becomes the largest word. -/
def withGrace (e : Event) (d : Duration) : Event := { e with graceMillis := some d.millisWord }

/-- An observer's queue took no more. -/
def overflow (subscriber reason : String) : Event :=
  ((ofKind .subscriberOverflow).withService subscriber).withReason
    s!"subscriber={subscriber} reason={reason}"

/-- An observer panicked over an event. -/
def panicked (subscriber info : String) : Event :=
  ((ofKind .subscriberPanicked).withService subscriber).withReason info

/-- The event announces that an observer dropped an event. -/
def isOverflow (e : Event) : Bool := e.kind == .subscriberOverflow

/-- The event is of a terminal kind. -/
def isTerminal (e : Event) : Bool := e.kind.isTerminal

/-! ## Numbers

Events are numbered in the order in which they are made. -/

/-- Events with consecutive numbers from `first` on. -/
def number {α : Type} (first : Nat) : List α → List (Nat × α)
  | [] => []
  | e :: es => (first, e) :: number (first + 1) es

/-- Each number is larger than the one before. -/
def increasing : List Nat → Bool
  | a :: b :: ns => a < b && increasing (b :: ns)
  | _ => true

end Event

end Steward

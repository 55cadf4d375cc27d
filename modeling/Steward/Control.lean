import Steward.Status.Basic

/-!
# Control — control calls, and the thread they come on

The host calls back on the thread on which a run was registered.  A `Guard` remembers that thread
and stamps every call: a call on another thread loses its content and carries an error instead.
-/

namespace Steward

/-- The identity of a thread. -/
abbrev ThreadId := Nat

/-- The thread that registered the run. -/
def ThreadId.home : ThreadId := 0

/-- The threads other than the one that registered the run, numbered. -/
def ThreadId.other (n : Nat) : ThreadId := n + 1

/-- A control call as the host makes it. -/
structure ControlCall where
  code : UInt32
  eventType : UInt32
  eventData : UInt64
  context : Context
  deriving DecidableEq, Inhabited

/-- A control call after the thread check. -/
structure ControlEvent where
  command : Command
  eventType : UInt32
  eventData : UInt64
  context : Context
  /-- Set if the call came on a thread that is not the run's. -/
  error : Option UInt32
  deriving DecidableEq, Inhabited

/-- The request an event becomes, given the status the host last agreed to. -/
def ControlEvent.request (e : ControlEvent) (current : Status) : Request :=
  ⟨e.command, e.eventType, e.eventData, e.context, current⟩

/-- The thread on which control calls are expected. -/
structure Guard where
  expected : ThreadId
  deriving DecidableEq, Inhabited

namespace Guard

/-- A guard for the calling thread. -/
def capture (caller : ThreadId) : Guard := ⟨caller⟩

/-- The event for a call made on the thread `caller`.  On any but the expected thread only the
context is kept. -/
def stamp (g : Guard) (caller : ThreadId) (call : ControlCall) : ControlEvent :=
  if caller = g.expected then
    ⟨.ofRaw call.code, call.eventType, call.eventData, call.context, none⟩
  else
    ⟨.other 0, 0, 0, call.context, some ExitCode.crossThreadCall⟩

end Guard

end Steward

import Steward.Event.Panic
import Steward.Host.Error
import Steward.Link.Basic
import Steward.Status.Basic

/-!
# Bridge/Handler — a handler that does what it is told

A handler is told what to do, step by step.  Most steps come to an end with a result; some have to
wait for the bridge first, and two of them end the handler.
-/

namespace Steward.Bridge

/-- Something a handler can be told to do. -/
inductive HandlerStep where
  /-- Wait for a request. -/
  | receive
  /-- Look for a request once. -/
  | poll
  | send (s : Status)
  | isClosed
  | dropRequests
  | dropUpdates
  | exit (e : ExitCode)
  | panic (p : PanicPayload)
  /-- Do nothing any more, for ever. -/
  | hang

/-- What came of a handler's step. -/
inductive HandlerResult where
  | request (r : Request)
  | ended
  | pending
  | sent (r : SendResult)
  | flag (b : Bool)
  | noRequests
  | noUpdates
  | unknown
  | hanging

/-- What a handler is at. -/
inductive Doing where
  /-- It has not run yet. -/
  | unstarted
  /-- It waits for something to do. -/
  | idle
  | receiving (number : Nat)
  /-- It stands in line with a status. -/
  | inLine (number : Nat)
  /-- Its status is in the slot, and it waits for word that it was taken. -/
  | sending (number : Nat)
  | hanging
  | ended
  deriving DecidableEq

end Steward.Bridge

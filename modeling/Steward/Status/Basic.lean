import Steward.Status.Accepted
import Steward.Status.Exit
import Steward.Status.State

/-!
# Status/Basic — statuses and requests

A `Status` is what a handler tells the host about itself, a `Request` what the host asks of the
handler, together with the status the host last agreed to.
-/

namespace Steward

/-- A span of time: whole seconds and a rest below one second. -/
structure Duration where
  secs : UInt64
  nanos : UInt32
  nanos_lt : nanos < 1000000000 := by decide
  deriving DecidableEq

namespace Duration

/-- No time at all. -/
def zero : Duration := ⟨0, 0, by decide⟩

instance : Inhabited Duration := ⟨zero⟩

/-- The span with the given parts, if the rest is below one second. -/
def ofParts? (secs : UInt64) (nanos : UInt32) : Option Duration :=
  if h : nanos < 1000000000 then some ⟨secs, nanos, h⟩ else none

/-- A span of whole seconds. -/
def ofSecs (secs : UInt64) : Duration := ⟨secs, 0, by decide⟩

/-- Whole milliseconds, rounded down. -/
def millis (d : Duration) : Nat := d.secs.toNat * 1000 + d.nanos.toNat / 1000000

/-- Whole milliseconds as a word, or the largest word if there are more. -/
def millisWord (d : Duration) : UInt32 := UInt32.ofNat (min d.millis (UInt32.size - 1))

end Duration

/-- What a handler tells the host about itself. -/
structure Status where
  state : ServiceState
  accepted : Accepted
  /-- Progress of a long pending operation. -/
  checkpoint : UInt32
  /-- Estimated time until the pending operation progresses. -/
  wait : Duration
  deriving DecidableEq

namespace Status

/-- A state with nothing accepted and no progress to tell. -/
def ofState (state : ServiceState) : Status := ⟨state, .empty, 0, .zero⟩

/-- The last status of every run, and the one that counts before the first report. -/
def stopped : Status := ofState .stopped

instance : Inhabited Status := ⟨stopped⟩

end Status

/-- The id of a run, handed to the host and back. -/
abbrev Context := UInt64

/-- What the host asks of the handler. -/
structure Request where
  command : Command
  eventType : UInt32
  eventData : UInt64
  context : Context
  /-- The last status the host agreed to before the command was read. -/
  status : Status
  deriving DecidableEq, Inhabited

end Steward

import Steward.Status.Basic

/-!
# Host/Record — a status in the host's form

The host wants seven numbers.  The flags of the accepted set move to the host's own bits, an exit
code is split over two fields, and the wait hint becomes a word of milliseconds.
-/

namespace Steward

/-- A status report in the host's form. -/
structure Record where
  serviceType : UInt32
  currentState : UInt32
  controlsAccepted : UInt32
  exitCode : UInt32
  specificExitCode : UInt32
  checkpoint : UInt32
  waitHintMillis : UInt32
  deriving DecidableEq, Inhabited

/-- The host's bit for each known flag. -/
def Accepted.hostBits : List (Accepted × UInt32) :=
  [(.stop, 0x1), (.pauseContinue, 0x2), (.shutdown, 0x4), (.preShutdown, 0x100)]

/-- The accepted set in the host's bits; bits without a meaning are left out. -/
def Accepted.mask (a : Accepted) : UInt32 :=
  (hostBits.filter fun f => a.contains f.1).foldl (fun m f => m ||| f.2) 0

/-- The number that tells the host to look at the service's own exit code. -/
def ExitCode.serviceMarker : UInt32 := 1066

/-- The two exit fields of a record.  Zero is no error, whoever defined it. -/
def ExitCode.fields (e : ExitCode) : UInt32 × UInt32 :=
  if e.isSuccess then (0, 0)
  else if e.specific then (serviceMarker, e.code)
  else (e.code, 0)

namespace Record

/-- The service has a process of its own. -/
def ownProcess : UInt32 := 0x10

/-- A status and an exit code in the host's form. -/
def ofStatus (s : Status) (e : ExitCode) : Record where
  serviceType := ownProcess
  currentState := s.state.raw
  controlsAccepted := s.accepted.mask
  exitCode := e.fields.1
  specificExitCode := e.fields.2
  checkpoint := s.checkpoint
  waitHintMillis := s.wait.millisWord

/-- A record of a state, with zeros in all other fields. -/
def ofState (state : UInt32) : Record := ⟨0, state, 0, 0, 0, 0, 0⟩

/-- The record tells the host that the service has stopped. -/
def isStopped (r : Record) : Bool := r.currentState == ServiceState.stopped.raw

end Record

end Steward

/-!
# Status/Exit — how a service ended

An exit code is a number of the host or a number of the service's own.  Three numbers from the
host's application range are reserved for the supervisor itself, see `ExitCode.isSentinel`.
-/

namespace Steward

/-- The code a service leaves behind. -/
structure ExitCode where
  /-- The code is the service's own and not one of the host's numbers. -/
  specific : Bool
  code : UInt32
  deriving DecidableEq, Inhabited

namespace ExitCode

/-- A clean exit. -/
def success : ExitCode := ⟨false, 0⟩

/-- A code of the service's own. -/
def ofService (code : UInt32) : ExitCode := ⟨true, code⟩

/-- Reserved: the host refused a status report and gave no number. -/
def statusReportFailed : UInt32 := 0x20000000
/-- Reserved: a control call came on a thread that is not the host's. -/
def crossThreadCall : UInt32 := 0x20000001
/-- Reserved: the handler panicked. -/
def handlerPanicked : UInt32 := 0x20000002

/-- The three reserved codes. -/
def sentinels : List UInt32 := [statusReportFailed, crossThreadCall, handlerPanicked]

/-- Zero is success, whoever defined it. -/
def isSuccess (e : ExitCode) : Bool := e.code == 0

/-- The code is one the supervisor itself gives. -/
def isSentinel (e : ExitCode) : Bool := e.specific && sentinels.contains e.code

end ExitCode

end Steward

import Steward.Control
import Steward.Host.Report
import Steward.Text.Wide

/-!
# Host/Simulated — a simulated host

A host that lives in the program, for tests and demonstrations.  It takes control commands into a
queue, enters the service on `dispatch`, then calls the registered callback for one command after
the other, and comes back when it takes an exit command.  An accepted `stopped` report removes the
callback and puts an exit command at the end of the queue.

Faults can be built in: dispatching, registering and one report attempt may fail, and the host may
come back without entering the service.
-/

namespace Steward

/-- What waits in the queue of a simulated host. -/
inductive QueuedCommand where
  /-- A control call on the dispatch thread. -/
  | control (code eventType : UInt32) (eventData : UInt64)
  /-- A control call on some other thread. -/
  | foreign (code : UInt32)
  /-- The end of dispatching. -/
  | exit
  deriving DecidableEq

/-- Who has the receiving end of the queue. -/
inductive DispatchStage where
  /-- Nobody has dispatched yet. -/
  | fresh
  | serving
  /-- Dispatching is over: what is queued now is lost. -/
  | ended
  deriving DecidableEq

/-- A simulated host. -/
structure SimulatedHost where
  /-- Startup arguments after the name of the service. -/
  args : List String := []
  dispatchFault : Option HostError := none
  /-- Dispatching comes back without entering the service. -/
  noStart : Bool := false
  registerFault : Option HostError := none
  /-- The number of the report attempt that fails, counted from zero, and its error. -/
  reportFault : Option (Nat × HostError) := none
  queue : List QueuedCommand := []
  stage : DispatchStage := .fresh
  /-- The context to call back with, once the callback is registered. -/
  callback : Option Context := none
  /-- The number of report attempts so far, in a word that starts over when it is full. -/
  attempts : UInt64 := 0
  /-- The records accepted so far, oldest first. -/
  accepted : List Record := []
  /-- What the callback returned so far. -/
  results : List UInt32 := []

namespace SimulatedHost

/-- The handle a simulated host gives out. -/
def handle : Handle := 0x5157

/-- The error for a handle the host did not give out. -/
def invalidHandle : HostError := .numbered 6

/-- Queue a command; without a receiving end it is lost. -/
def enqueue (h : SimulatedHost) (c : QueuedCommand) : SimulatedHost :=
  if h.stage = .ended then h else { h with queue := h.queue ++ [c] }

/-- Queue a command for the dispatch thread. -/
def send (h : SimulatedHost) (c : Command) : SimulatedHost := h.enqueue (.control c.raw 0 0)

/-- Register the callback. -/
def register (h : SimulatedHost) (context : Context) : SimulatedHost × RegisterAnswer :=
  match h.registerFault with
  | some e => (h.enqueue .exit, .error e)
  | none => ({ h with callback := some context }, .ok handle)

/-- A record is accepted. -/
def accept (h : SimulatedHost) (r : Record) : SimulatedHost := { h with accepted := h.accepted ++ [r] }

/-- The callback is taken away: nothing is called back any more. -/
def clear (h : SimulatedHost) : SimulatedHost := { h with callback := none }

/-- A report, up to the acceptance of its record.  Only a report with the right handle counts as an
attempt, and exactly the attempt with the number of the fault fails. -/
def attempt (h : SimulatedHost) (given : Handle) (r : Record) :
    SimulatedHost × Except HostError Unit :=
  if given ≠ handle then (h, .error invalidHandle)
  else
    let counted := { h with attempts := h.attempts + 1 }
    match h.reportFault with
    | some (number, e) =>
      if number = h.attempts.toNat then (counted, .error e) else (counted.accept r, .ok ())
    | none => (counted.accept r, .ok ())

/-- A report.  A stopped record that is accepted takes the callback away, and then puts an exit into
the queue. -/
def report (h : SimulatedHost) (given : Handle) (r : Record) :
    SimulatedHost × Except HostError Unit :=
  let (h', answer) := h.attempt given r
  (if answer.isOk && r.isStopped then h'.clear.enqueue .exit else h', answer)

instance : StatusHost SimulatedHost := ⟨report⟩

/-- A record with the given state was accepted. -/
def hasReported (h : SimulatedHost) (state : UInt32) : Bool :=
  h.accepted.any (·.currentState == state)

/-! ## Dispatching -/

/-- How dispatching begins. -/
inductive Entry where
  /-- It comes back at once. -/
  | returns (r : Except HostError Unit)
  /-- The service is entered with these arguments. -/
  | enters (raw : List (List UInt16))

/-- What dispatching comes back with if the service is not entered. -/
def unentered (h : SimulatedHost) : Except HostError Unit :=
  match h.dispatchFault with
  | some e => .error e
  | none => if h.noStart then .ok () else .error (.described "dispatcher already running")

/-- Begin to dispatch a service.  A host without these faults enters one service, once. -/
def beginDispatch (h : SimulatedHost) (name : String) : SimulatedHost × Entry :=
  if h.dispatchFault.isNone && !h.noStart && h.stage == .fresh then
    ({ h with stage := .serving }, .enters ((name :: h.args).map Wide.encode))
  else (h, .returns h.unentered)

/-- Dispatching is over. -/
def endDispatch (h : SimulatedHost) : SimulatedHost := { h with stage := .ended, queue := [] }

/-- A call of the callback. -/
structure Callback where
  call : ControlCall
  /-- It runs on a thread of its own. -/
  foreign : Bool
  deriving DecidableEq

/-- The call a command asks for, if a callback is registered.  A call on a thread of its own
carries no type and no data. -/
def callback? (h : SimulatedHost) : QueuedCommand → Option Callback
  | .control code eventType eventData =>
    h.callback.map fun context => ⟨⟨code, eventType, eventData, context⟩, false⟩
  | .foreign code => h.callback.map fun context => ⟨⟨code, 0, 0, context⟩, true⟩
  | .exit => none

/-- What a service does in its callback: the states it reports, and the number it returns. -/
structure Responder where
  reports : ControlCall → List UInt32
  result : ControlCall → UInt32

/-- What happened while a service was dispatched. -/
inductive Incident where
  | called (c : Callback)
  | reported (state : UInt32) (r : Except HostError Unit)

/-- Report states one after the other. -/
def reportAll (h : SimulatedHost) : List UInt32 → SimulatedHost × List Incident
  | [] => (h, [])
  | s :: ss =>
    let (h₁, r) := h.report handle (.ofState s)
    let (h₂, rest) := h₁.reportAll ss
    (h₂, .reported s r :: rest)

/-- Carry out a command taken from the queue. -/
def perform (h : SimulatedHost) (on : Responder) (c : QueuedCommand) :
    SimulatedHost × List Incident :=
  match h.callback? c with
  | none => (h, [])
  | some k =>
    let (h', incidents) := h.reportAll (on.reports k.call)
    ({ h' with results := h'.results ++ [on.result k.call] }, .called k :: incidents)

/-- The commands in the queue that are no exit. -/
def calls (h : SimulatedHost) : List QueuedCommand := h.queue.filter (· ≠ .exit)

@[simp] theorem calls_enqueue_exit (h : SimulatedHost) : (h.enqueue .exit).calls = h.calls := by
  unfold enqueue calls
  split <;> simp

@[simp] theorem calls_attempt (h : SimulatedHost) (n : Handle) (r : Record) :
    (h.attempt n r).1.calls = h.calls := by
  unfold attempt
  split
  · rfl
  · dsimp only
    split
    · split <;> rfl
    · rfl

/-- Reports never put a call into the queue. -/
@[simp] theorem calls_report (h : SimulatedHost) (n : Handle) (r : Record) :
    (h.report n r).1.calls = h.calls := by
  have hcalls := h.calls_attempt n r
  unfold report
  dsimp only
  split
  · rw [calls_enqueue_exit]
    exact hcalls
  · exact hcalls

@[simp] theorem calls_reportAll (h : SimulatedHost) (states : List UInt32) :
    (h.reportAll states).1.calls = h.calls := by
  induction states generalizing h with
  | nil => rfl
  | cons s ss ih => simp [reportAll, ih]

theorem calls_perform (h : SimulatedHost) (on : Responder) (c : QueuedCommand) :
    (h.perform on c).1.calls = h.calls := by
  unfold perform
  split
  · rfl
  · rename_i k _
    exact calls_reportAll h (on.reports k.call)

/-- Take commands from the queue and carry them out, up to the first exit.  With an empty queue
the host would wait for more; `true` says that it found an exit. -/
def drain (h : SimulatedHost) (on : Responder) : SimulatedHost × List Incident × Bool :=
  match _hq : h.queue with
  | [] => (h, [], false)
  | c :: rest =>
    if _hc : c = .exit then ({ h with queue := rest }, [], true)
    else
      let done := { h with queue := rest }.perform on c
      let later := done.1.drain on
      (later.1, done.2 ++ later.2.1, later.2.2)
termination_by h.calls.length
decreasing_by
  rw [calls_perform]
  simp [calls, _hq, _hc]

/-! ## Operations -/

/-- What may be done with a host between dispatches, or by the entered service. -/
inductive Op where
  | report (state : UInt32) (given : Handle)
  | register (context : Context)
  | queue (c : QueuedCommand)
  | reports
  | results
  /-- Ask whether a state was reported. -/
  | hasReported (state : UInt32)
  /-- Ask whether so many reports were accepted. -/
  | hasCount (n : Nat)

/-- The answer to an operation. -/
inductive Answer where
  | silent
  | result (r : Except HostError Unit)
  | registered (r : RegisterAnswer)
  | words (l : List UInt32)
  | flag (b : Bool)

/-- One operation. -/
def step (h : SimulatedHost) : Op → SimulatedHost × Answer
  | .report state given =>
    let (h', r) := h.report given (.ofState state)
    (h', .result r)
  | .register context =>
    let (h', r) := h.register context
    (h', .registered r)
  | .queue c => (h.enqueue c, .silent)
  | .reports => (h, .words (h.accepted.map (·.currentState)))
  | .results => (h, .words h.results)
  | .hasReported state => (h, .flag (h.hasReported state))
  | .hasCount n => (h, .flag (n ≤ h.accepted.length))

/-- What an entered service does, one thing after the other. -/
inductive MainStep where
  | op (op : Op)
  /-- Dispatch once more. -/
  | dispatch
  | panic

/-- What can be seen of a dispatch, in order of happening. -/
inductive Trace where
  | entered (context : Context) (raw : List (List UInt16))
  | answer (a : Answer)
  | incident (i : Incident)
  /-- The entered service dispatched once more.  The host does not enter again, and that dispatch
  takes with it all that was to be seen before. -/
  | dispatchedAgain (before : List Trace) (result : Except HostError Unit)

/-- Run the entered service after this trace; `false` says that it panicked. -/
def runMain (h : SimulatedHost) (trace : List Trace) :
    List MainStep → SimulatedHost × List Trace × Bool
  | [] => (h, trace, true)
  | .panic :: _ => (h, trace, false)
  | .dispatch :: rest => h.runMain [.dispatchedAgain trace h.unentered] rest
  | .op op :: rest => (h.step op).1.runMain (trace ++ [.answer (h.step op).2]) rest

/-- Dispatch a service that does `main` when entered and answers calls with `on`.  Without a result
the host still waits for a command. -/
def dispatch (h : SimulatedHost) (name : String) (context : Context) (main : List MainStep)
    (on : Responder) : SimulatedHost × List Trace × Option (Except HostError Unit) :=
  match h.beginDispatch name with
  | (h, .returns r) => (h, [], some r)
  | (h, .enters raw) =>
    let (h₁, trace, ok) := h.runMain [.entered context raw] main
    if ok then
      let (h₂, incidents, ended) := h₁.drain on
      let trace := trace ++ incidents.map .incident
      if ended then (h₂.endDispatch, trace, some (.ok ())) else (h₂, trace, none)
    else (h₁.endDispatch, trace, some (.error (.described "service entry point panicked")))

/-- Something done to a host: a dispatch, or one of the other operations. -/
inductive Task where
  | op (op : Op)
  | dispatch (name : String) (context : Context)

/-- What came of it. -/
inductive Report where
  | answer (a : Answer)
  /-- A dispatch, with its result unless the host still waits for a command. -/
  | dispatched (trace : List Trace) (result : Option (Except HostError Unit))

/-- Do one thing after the other; every service that is entered does `main` and answers calls with
`on`. -/
def tasks (h : SimulatedHost) (main : List MainStep) (on : Responder) : List Task → List Report
  | [] => []
  | .op op :: rest => .answer (h.step op).2 :: (h.step op).1.tasks main on rest
  | .dispatch name context :: rest =>
    let (h', trace, result) := h.dispatch name context main on
    .dispatched trace result :: h'.tasks main on rest

end SimulatedHost

end Steward

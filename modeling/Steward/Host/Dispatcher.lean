import Steward.Host.Simulated

/-!
# Host/Dispatcher — a dispatch at a simulated host, step by step

While a simulated host dispatches, its queue is filled and emptied at the same time, and its callback
comes and goes.  The service that was entered and the callback use the host from inside, controllers
and other threads use it from outside, and somebody may dispatch once more.

A `Dispatcher` is a host with the thread that dispatches there.  What anybody does with the host, and
what that thread does next, are `Step`s, which may follow each other in any order.  A step that is not
possible at present changes nothing.

* The thread takes a command, then looks for the callback, then calls it.  So the callback may be gone, or
  be another one, when it looks; and what it found when it looked is what it calls, also if the callback is
  gone by then.  A callback does not panic here.
* A report of a stopped record is over in three steps: the record is accepted, the callback is taken away,
  an exit comes into the queue.  In between others see the record, and may still find the callback.
-/

namespace Steward

/-- What the thread that dispatches is at. -/
inductive Duty where
  /-- Nobody dispatches, or dispatching is over. -/
  | off
  /-- The service was entered and has the word. -/
  | entering
  /-- It goes on with the next command as soon as there is one. -/
  | waiting
  /-- It took a command and has not looked for the callback yet. -/
  | holding (c : QueuedCommand)
  /-- It found the callback and has not called it yet. -/
  | bound (k : SimulatedHost.Callback)
  /-- The callback has the word. -/
  | calling (k : SimulatedHost.Callback)
  deriving DecidableEq

/-- Something that happened at a host. -/
inductive Notice where
  /-- A command came into the queue. -/
  | queued (c : QueuedCommand)
  /-- A callback was registered. -/
  | registered (context : Context)
  /-- A record was accepted. -/
  | accepted (r : Record)
  /-- The callback was taken away. -/
  | cleared
  /-- A service was entered. -/
  | entered (context : Context) (raw : List (List UInt16))
  /-- The dispatcher took a command. -/
  | took (c : QueuedCommand)
  /-- It looked for the callback. -/
  | looked (c : QueuedCommand) (k : Option SimulatedHost.Callback)
  /-- It called the callback. -/
  | called (k : SimulatedHost.Callback)
  /-- The callback returned. -/
  | returned (result : UInt32)
  /-- Dispatching is over. -/
  | cameBack (r : Except HostError Unit)
  /-- A dispatch came back at once. -/
  | refused (r : Except HostError Unit)

/-- A host with the thread that dispatches there, and what has happened. -/
structure Dispatcher where
  host : SimulatedHost
  duty : Duty
  /-- The number of reports whose stopped record was accepted, and which have yet to take the callback
  away. -/
  clearing : Nat
  /-- The number of those which have done that, and have yet to put an exit into the queue. -/
  exiting : Nat
  log : List Notice

namespace Dispatcher

/-- Nobody dispatches at the host yet. -/
def idle (h : SimulatedHost) : Dispatcher := ⟨h, .off, 0, 0, []⟩

/-- The error of a service that panicked when it was entered. -/
def entryPanicked : HostError := .described "service entry point panicked"

/-- Something that may happen at a host. -/
inductive Step where
  /-- Somebody makes a report, and has the answer. -/
  | report (given : Handle) (r : Record)
  /-- Somebody whose stopped record was accepted takes the callback away. -/
  | clear
  /-- And then puts an exit into the queue. -/
  | exit
  | register (context : Context)
  | queue (c : QueuedCommand)
  /-- Somebody dispatches a service. -/
  | dispatch (name : String) (context : Context)
  /-- The service that was entered returns or panics. -/
  | leave (panicked : Bool)
  /-- The dispatcher takes the next command. -/
  | take
  /-- It looks for the callback. -/
  | look
  /-- It calls the callback it found. -/
  | call
  /-- The callback returns. -/
  | answer (result : UInt32)
  deriving DecidableEq

/-- The commands that came into the queue when the host changed. -/
def arrivals (before after : SimulatedHost) : List Notice :=
  (after.queue.drop before.queue.length).map .queued

/-- A report that anybody makes.  The rest of it, after a stopped record, is left to be done. -/
def report (d : Dispatcher) (given : Handle) (r : Record) : Dispatcher × Except HostError Unit :=
  let (h, answer) := d.host.attempt given r
  ({ d with
     host := h
     clearing := if answer.isOk && r.isStopped then d.clearing + 1 else d.clearing
     log := d.log ++ if answer.isOk then [.accepted r] else [] }, answer)

/-- The callback is taken away, after a stopped record. -/
def clear (d : Dispatcher) : Dispatcher :=
  { d with
    host := d.host.clear
    clearing := d.clearing - 1
    exiting := d.exiting + 1
    log := d.log ++ [.cleared] }

/-- An exit comes into the queue, after a stopped record. -/
def exit (d : Dispatcher) : Dispatcher :=
  { d with
    host := d.host.enqueue .exit
    exiting := d.exiting - 1
    log := d.log ++ arrivals d.host (d.host.enqueue .exit) }

instance : StatusHost Dispatcher := ⟨report⟩

/-- A registration that anybody makes. -/
def register (d : Dispatcher) (context : Context) : Dispatcher × RegisterAnswer :=
  let (h, answer) := d.host.register context
  ({ d with
     host := h
     log := d.log ++ ((if answer.isOk then [.registered context] else []) ++ arrivals d.host h) },
   answer)

/-- A command that anybody queues. -/
def queue (d : Dispatcher) (c : QueuedCommand) : Dispatcher :=
  { d with host := d.host.enqueue c, log := d.log ++ arrivals d.host (d.host.enqueue c) }

/-- Somebody dispatches a service: it is entered, or that dispatch comes back at once. -/
def dispatch (d : Dispatcher) (name : String) (context : Context) : Dispatcher :=
  match d.host.beginDispatch name with
  | (h, .enters raw) =>
    { d with host := h, duty := .entering, log := d.log ++ [.entered context raw] }
  | (h, .returns r) => { d with host := h, log := d.log ++ [.refused r] }

/-- Dispatching is over. -/
def finish (d : Dispatcher) (r : Except HostError Unit) : Dispatcher :=
  { d with host := d.host.endDispatch, duty := .off, log := d.log ++ [.cameBack r] }

/-- The dispatcher takes the next command; an exit ends dispatching. -/
def take (d : Dispatcher) : Dispatcher :=
  match d.host.queue with
  | [] => d
  | c :: rest =>
    let taken : Dispatcher :=
      { d with host := { d.host with queue := rest }, duty := .holding c, log := d.log ++ [.took c] }
    if c = .exit then taken.finish (.ok ()) else taken

/-- The dispatcher looks for the callback on behalf of a command. -/
def look (d : Dispatcher) (c : QueuedCommand) : Dispatcher :=
  { d with
    duty := match d.host.callback? c with
      | some k => .bound k
      | none => .waiting
    log := d.log ++ [.looked c (d.host.callback? c)] }

/-- The dispatcher calls the callback it found. -/
def call (d : Dispatcher) (k : SimulatedHost.Callback) : Dispatcher :=
  { d with duty := .calling k, log := d.log ++ [.called k] }

/-- The callback returns. -/
def answer (d : Dispatcher) (result : UInt32) : Dispatcher :=
  { d with
    host := { d.host with results := d.host.results ++ [result] }
    duty := .waiting
    log := d.log ++ [.returned result] }

/-- The state after a step. -/
def step (d : Dispatcher) : Step → Dispatcher
  | .report given r => (d.report given r).1
  | .clear => if d.clearing = 0 then d else d.clear
  | .exit => if d.exiting = 0 then d else d.exit
  | .register context => (d.register context).1
  | .queue c => d.queue c
  | .dispatch name context => d.dispatch name context
  | .leave panicked =>
    if d.duty = .entering then
      if panicked then d.finish (.error entryPanicked) else { d with duty := .waiting }
    else d
  | .take => if d.duty = .waiting then d.take else d
  | .look =>
    match d.duty with
    | .holding c => d.look c
    | _ => d
  | .call =>
    match d.duty with
    | .bound k => d.call k
    | _ => d
  | .answer result =>
    match d.duty with
    | .calling _ => d.answer result
    | _ => d

/-- The state after a history. -/
def after (d : Dispatcher) (history : List Step) : Dispatcher := history.foldl step d

@[simp] theorem after_nil (d : Dispatcher) : d.after [] = d := rfl

theorem after_cons (d : Dispatcher) (s : Step) (later : List Step) :
    d.after (s :: later) = (d.step s).after later := rfl

theorem after_append (d : Dispatcher) (h₁ h₂ : List Step) :
    d.after (h₁ ++ h₂) = (d.after h₁).after h₂ := List.foldl_append

/-! ## Views of the log -/

/-- The commands that came into the queue, in order. -/
def queuedIn (log : List Notice) : List QueuedCommand :=
  log.filterMap fun | .queued c => some c | _ => none

/-- The contexts that were registered, in order. -/
def registeredIn (log : List Notice) : List Context :=
  log.filterMap fun | .registered context => some context | _ => none

/-- The services that were entered, in order. -/
def enteredIn (log : List Notice) : List (Context × List (List UInt16)) :=
  log.filterMap fun | .entered context raw => some (context, raw) | _ => none

/-- The commands the dispatcher took, in order. -/
def tookIn (log : List Notice) : List QueuedCommand :=
  log.filterMap fun | .took c => some c | _ => none

/-- The commands for which the dispatcher looked for the callback, with what it found, in order. -/
def looksIn (log : List Notice) : List (QueuedCommand × Option SimulatedHost.Callback) :=
  log.filterMap fun | .looked c k => some (c, k) | _ => none

/-- What it found, in order. -/
def foundIn (log : List Notice) : List SimulatedHost.Callback := (looksIn log).filterMap (·.2)

/-- The calls of the callback, in order. -/
def callsIn (log : List Notice) : List SimulatedHost.Callback :=
  log.filterMap fun | .called k => some k | _ => none

/-- What the callback returned, in order. -/
def returnedIn (log : List Notice) : List UInt32 :=
  log.filterMap fun | .returned result => some result | _ => none

/-- What dispatching came to, once it is over. -/
def cameBackIn (log : List Notice) : List (Except HostError Unit) :=
  log.filterMap fun | .cameBack r => some r | _ => none

/-- The context of the callback, given the one before: the last one registered, unless it was taken away
since. -/
def slotAfter (slot : Option Context) (log : List Notice) : Option Context :=
  log.foldl (fun slot n => match n with
    | .registered context => some context
    | .cleared => none
    | _ => slot) slot

@[simp] theorem queuedIn_append (l l' : List Notice) :
    queuedIn (l ++ l') = queuedIn l ++ queuedIn l' := List.filterMap_append

@[simp] theorem registeredIn_append (l l' : List Notice) :
    registeredIn (l ++ l') = registeredIn l ++ registeredIn l' := List.filterMap_append

@[simp] theorem enteredIn_append (l l' : List Notice) :
    enteredIn (l ++ l') = enteredIn l ++ enteredIn l' := List.filterMap_append

@[simp] theorem tookIn_append (l l' : List Notice) :
    tookIn (l ++ l') = tookIn l ++ tookIn l' := List.filterMap_append

@[simp] theorem looksIn_append (l l' : List Notice) :
    looksIn (l ++ l') = looksIn l ++ looksIn l' := List.filterMap_append

@[simp] theorem foundIn_append (l l' : List Notice) :
    foundIn (l ++ l') = foundIn l ++ foundIn l' := by
  rw [foundIn, looksIn_append, List.filterMap_append]
  rfl

@[simp] theorem callsIn_append (l l' : List Notice) :
    callsIn (l ++ l') = callsIn l ++ callsIn l' := List.filterMap_append

@[simp] theorem returnedIn_append (l l' : List Notice) :
    returnedIn (l ++ l') = returnedIn l ++ returnedIn l' := List.filterMap_append

@[simp] theorem cameBackIn_append (l l' : List Notice) :
    cameBackIn (l ++ l') = cameBackIn l ++ cameBackIn l' := List.filterMap_append

theorem slotAfter_append (slot : Option Context) (l l' : List Notice) :
    slotAfter slot (l ++ l') = slotAfter (slotAfter slot l) l' := List.foldl_append

end Dispatcher

end Steward

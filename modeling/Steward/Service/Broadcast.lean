import Steward.Service.Relay
import Steward.Service.Vigil

/-!
# Service/Broadcast — a run and those who watch it

A `Vigil` writes down the events of a run, and a `Relay` brings events to the subscribers.  In a
`Broadcast` both go on side by side: the events go to the bus one by one, in the order in which they were
written, at any time after that, and meanwhile the listener and the workers are as far as they happen to be.

When the handler was left alone and all events are on the bus, the listener is called off.  The thread that
runs the service waits until the listener and all workers are done, and then returns.
-/

namespace Steward

/-- A run with its subscribers. -/
structure Broadcast (σ : Type) where
  vigil : Vigil σ
  relay : Relay

namespace Broadcast

variable {σ : Type}

/-- A run that was just registered, with a listener for these subscribers. -/
def fresh (name handlerName : String) (context : Context) (host : σ) (guard : Guard)
    (grace? : Option Duration) (subs : List Subscriber) (capacity : Nat) : Broadcast σ where
  vigil := .fresh name handlerName context host guard grace?
  relay := .ofList subs capacity

/-- One step of a run with its subscribers. -/
inductive Step where
  /-- The run goes on. -/
  | vigil (s : Vigil.Step)
  /-- The next event of the run goes to the bus. -/
  | tell
  /-- Something else happens between the bus and the audience. -/
  | relay (a : Relay.Action) (aside : a.isOfRun = false)
  /-- The listener is called off, if the run is over and was told of to the end. -/
  | callOff

/-- The state after a step. -/
def step [StatusHost σ] (b : Broadcast σ) : Step → Broadcast σ
  | .vigil s => { b with vigil := b.vigil.step s }
  | .tell =>
    match b.vigil.events[b.relay.told.length]? with
    | some e => { b with relay := b.relay.act (.tell e) }
    | none => b
  | .relay a _ => { b with relay := b.relay.act a }
  | .callOff =>
    if b.vigil.departed && b.relay.told.length == b.vigil.events.length then
      { b with relay := b.relay.act .callOff }
    else b

/-- The state after a history. -/
def after [StatusHost σ] (b : Broadcast σ) (history : List Step) : Broadcast σ := history.foldl step b

theorem after_append [StatusHost σ] (b : Broadcast σ) (h₁ h₂ : List Step) :
    b.after (h₁ ++ h₂) = (b.after h₁).after h₂ := List.foldl_append

/-- What the caller gets, once the listener and the workers are done. -/
def result? (b : Broadcast σ) : Option (Except RunError ExitCode) :=
  if b.relay.isOver then b.vigil.result? else none

end Broadcast

end Steward

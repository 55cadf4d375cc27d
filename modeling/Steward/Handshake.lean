import Steward.Host.Error

/-!
# Handshake — the start and the end of a run

Two signals tie the dispatcher of the host to the bridge.  *Dispatcher-ready* is set when it is
known whether the service was started; the first outcome published is the one that counts, and it
is taken once.  *Bridge-stopped* is set when the bridge has nothing more to do.  A signal once set
stays set.
-/

namespace Steward

/-- The host's handle for the status reports of a run. -/
abbrev Handle := UInt64

/-- What a host says to a registration of the control callback. -/
abbrev RegisterAnswer := Except HostError Handle

/-- What the host gave a started service. -/
structure Dispatched where
  handle : Handle
  args : List String
  deriving DecidableEq, Inhabited

/-- How starting the service went. -/
abbrev Outcome := Except HostError Dispatched

/-- The two signals, and the outcome that goes with the first. -/
structure Handshake where
  /-- The outcome published and not yet taken. -/
  outcome : Option Outcome
  /-- Dispatcher-ready. -/
  ready : Bool
  /-- Bridge-stopped. -/
  stopped : Bool

namespace Handshake

/-- Nothing has happened yet. -/
def fresh : Handshake := ⟨none, false, false⟩

/-- An outcome was published already. -/
def isSettled (h : Handshake) : Bool := h.outcome.isSome || h.ready

/-- Put the outcome down, the first half of publishing; refused if there was one before. -/
def store (h : Handshake) (o : Outcome) : Handshake × Bool :=
  if h.isSettled then (h, false) else ({ h with outcome := some o }, true)

/-- A second outcome is refused. -/
theorem store_of_settled {h : Handshake} (hs : h.isSettled = true) (o : Outcome) :
    h.store o = (h, false) := if_pos hs

/-- The first one is there. -/
theorem store_of_unsettled {h : Handshake} (hs : h.isSettled = false) (o : Outcome) :
    h.store o = ({ h with outcome := some o }, true) := by
  rw [store, hs]
  rfl

/-- Set dispatcher-ready, the second half of publishing. -/
def announce (h : Handshake) : Handshake := { h with ready := true }

/-- An outcome was put down, and dispatcher-ready is not set yet. -/
def isStored (h : Handshake) : Bool := h.outcome.isSome && !h.ready

/-- Publish an outcome; only the first one counts. -/
def publish (h : Handshake) (o : Outcome) : Handshake × Bool :=
  if (h.store o).2 then ((h.store o).1.announce, true) else (h, false)

/-- What one finds who asks for the outcome. -/
inductive Poll where
  /-- Dispatcher-ready is not set. -/
  | pending
  | outcome (o : Outcome)
  /-- The outcome was taken before. -/
  | gone

/-- Ask for the outcome and take it. -/
def poll (h : Handshake) : Handshake × Poll :=
  if h.ready then
    match h.outcome with
    | some o => ({ h with outcome := none }, .outcome o)
    | none => (h, .gone)
  else (h, .pending)

/-- Set bridge-stopped. -/
def stop (h : Handshake) : Handshake := { h with stopped := true }

/-! ## Waiters -/

/-- A handshake and a signal of their own, each with those who wait for it. -/
structure Session where
  handshake : Handshake
  signal : Bool
  /-- The waiters for the outcome, first come first served. -/
  forOutcome : List Nat
  /-- The waiters for the signal. -/
  forSignal : List Nat
  /-- How many waiters there were so far. -/
  issued : Nat

/-- What may be done. -/
inductive Op where
  | publish (o : Outcome)
  | poll
  | await
  | stop
  | setSignal
  | signalIsSet
  | awaitSignal

/-- What a waiter gets. -/
inductive Waited where
  | outcome (p : Poll)
  | signal

/-- The answer to an operation. -/
inductive Answer where
  | silent
  | flag (b : Bool)
  | outcome (p : Poll)
  | waiter (n : Nat)

namespace Session

/-- A handshake and a signal that nobody waits for. -/
def fresh : Session := ⟨.fresh, false, [], [], 0⟩

/-- Serve waiters for the outcome, in order. -/
def serve (h : Handshake) : List Nat → Handshake × List (Nat × Waited)
  | [] => (h, [])
  | n :: ns =>
    let (h₁, p) := h.poll
    let (h₂, rest) := serve h₁ ns
    (h₂, (n, .outcome p) :: rest)

/-- Serve everybody whose signal is set. -/
def settle (s : Session) : Session × List (Nat × Waited) :=
  let (handshake, served) := if s.handshake.ready then serve s.handshake s.forOutcome
    else (s.handshake, [])
  let set := if s.signal then s.forSignal.map (·, Waited.signal) else []
  ({ s with
     handshake := handshake
     forOutcome := if s.handshake.ready then [] else s.forOutcome
     forSignal := if s.signal then [] else s.forSignal },
   served ++ set)

/-- The state and the answer of an operation, before the waiters are served. -/
def apply (s : Session) : Op → Session × Answer
  | .publish o =>
    ({ s with handshake := (s.handshake.publish o).1 }, .flag (s.handshake.publish o).2)
  | .poll => ({ s with handshake := s.handshake.poll.1 }, .outcome s.handshake.poll.2)
  | .await =>
    ({ s with forOutcome := s.forOutcome ++ [s.issued], issued := s.issued + 1 },
     .waiter s.issued)
  | .stop => ({ s with handshake := s.handshake.stop }, .silent)
  | .setSignal => ({ s with signal := true }, .silent)
  | .signalIsSet => (s, .flag s.signal)
  | .awaitSignal =>
    ({ s with forSignal := s.forSignal ++ [s.issued], issued := s.issued + 1 },
     .waiter s.issued)

/-- One operation, with its answer and the waiters it served. -/
def step (s : Session) (op : Op) : Session × Answer × List (Nat × Waited) :=
  let (s₁, answer) := s.apply op
  let (s₂, served) := s₁.settle
  (s₂, answer, served)

/-- The answers to a list of operations. -/
def run (s : Session) : List Op → List (Answer × List (Nat × Waited))
  | [] => []
  | op :: ops => (s.step op).2 :: run (s.step op).1 ops

end Session

end Handshake

end Steward

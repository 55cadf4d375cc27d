import Steward.Status.Basic

/-!
# Config — the settings of a run

Zero has a meaning of its own in two of the settings: no choice of a worker count, and no waiting
for a handler that outlives the run.
-/

namespace Steward

/-- The settings of a run. -/
structure Config where
  /-- How many events the bus keeps for a slow receiver. -/
  busCapacity : Nat
  /-- How many workers to use; zero leaves the choice open. -/
  workers : Nat
  /-- How long a handler may outlive the run; zero is not at all. -/
  grace : Duration

namespace Config

/-- The settings of a run for which none were chosen. -/
def default : Config := ⟨1024, 0, .ofSecs 30⟩

instance : Inhabited Config := ⟨default⟩

/-- The number of workers, if one was chosen. -/
def workers? (c : Config) : Option Nat := if c.workers = 0 then none else some c.workers

/-- The time a handler may outlive the run, if any. -/
def grace? (c : Config) : Option Duration := if c.grace = .zero then none else some c.grace

/-- The bus keeps at least one event. -/
def busSlots (c : Config) : Nat := max 1 c.busCapacity

end Config

end Steward

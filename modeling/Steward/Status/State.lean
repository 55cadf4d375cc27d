/-!
# Status/State — the seven states of a service

A service is in one of seven states.  The host knows each by a number, logs know it by a label.
Four of the states are *pending*: only there do a checkpoint and a wait hint carry meaning.
-/

namespace Steward

/-- The state of a service as its host sees it. -/
inductive ServiceState where
  | stopped
  | startPending
  | stopPending
  | running
  | continuePending
  | pausePending
  | paused
  deriving DecidableEq, Inhabited

namespace ServiceState

/-- All states, in the order of their numbers. -/
def all : List ServiceState :=
  [stopped, startPending, stopPending, running, continuePending, pausePending, paused]

/-- The number the host uses for a state. -/
def raw : ServiceState → UInt32
  | stopped => 1
  | startPending => 2
  | stopPending => 3
  | running => 4
  | continuePending => 5
  | pausePending => 6
  | paused => 7

/-- The state with the given number, if there is one. -/
def ofRaw? (n : UInt32) : Option ServiceState := all.find? (·.raw == n)

/-- The name a state has in logs. -/
def label : ServiceState → String
  | stopped => "stopped"
  | startPending => "start_pending"
  | stopPending => "stop_pending"
  | running => "running"
  | continuePending => "continue_pending"
  | pausePending => "pause_pending"
  | paused => "paused"

/-- The state with the given label, if there is one. -/
def ofLabel? (s : String) : Option ServiceState := all.find? (·.label == s)

/-- A pending state is a transition towards another one. -/
def isPending : ServiceState → Bool
  | startPending | stopPending | continuePending | pausePending => true
  | stopped | running | paused => false

/-- **Every state is read back from its number.** -/
@[simp] theorem ofRaw?_raw (s : ServiceState) : ofRaw? s.raw = some s := by cases s <;> decide

/-- Different states have different numbers. -/
theorem raw_injective {s t : ServiceState} (h : s.raw = t.raw) : s = t := by
  have hs := ofRaw?_raw s
  rw [h, ofRaw?_raw] at hs
  exact (Option.some.inj hs).symm

end ServiceState

end Steward

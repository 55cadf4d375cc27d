/-!
# Status/Command — what a host may ask of a service

The host sends a number.  Six numbers have a meaning of their own; every other number is kept as
it is in `Command.other`, so decoding is total and loses nothing (`raw_ofRaw`).
-/

namespace Steward

/-- A command from the host. -/
inductive Command where
  | stop
  | pause
  | continue
  | interrogate
  | shutdown
  | preShutdown
  | other (code : UInt32)
  deriving DecidableEq, Inhabited

namespace Command

/-- The commands with a meaning of their own. -/
def known : List Command := [stop, pause, .continue, interrogate, shutdown, preShutdown]

/-- The number that stands for a command. -/
def raw : Command → UInt32
  | stop => 1
  | pause => 2
  | .continue => 3
  | interrogate => 4
  | shutdown => 5
  | preShutdown => 15
  | other code => code

/-- The command a number stands for: a known one if there is one, else `other`. -/
def ofRaw (n : UInt32) : Command := (known.find? (·.raw == n)).getD (other n)

/-- The name a command has in logs; all unknown commands share one. -/
def label : Command → String
  | stop => "stop"
  | pause => "pause"
  | .continue => "continue"
  | interrogate => "interrogate"
  | shutdown => "shutdown"
  | preShutdown => "pre_shutdown"
  | other _ => "other"

/-- **Decoding loses nothing**: the number is read back from the command. -/
@[simp] theorem raw_ofRaw (n : UInt32) : (ofRaw n).raw = n := by
  unfold ofRaw
  cases h : known.find? (·.raw == n) with
  | none => rfl
  | some c => simpa using List.find?_some h

end Command

end Steward

import Steward.Handshake
import Steward.Host.Record

/-!
# Host/Report — hosts one can report to

A run needs one thing of its host while it is under way: a function that takes a record and agrees
or refuses.  `ScriptedHost` is the simplest such host: it refuses the attempts it was told to
refuse.
-/

namespace Steward

/-- A host's report function: a handle and a record go in, the host agrees or refuses. -/
class StatusHost (σ : Type) where
  report : σ → Handle → Record → σ × Except HostError Unit

/-- A host that refuses certain report attempts, whatever they hold. -/
structure ScriptedHost where
  /-- The attempts to refuse, counted from zero, with their errors. -/
  faults : List (Nat × HostError)
  /-- The number of attempts so far. -/
  attempts : Nat := 0

namespace ScriptedHost

/-- A report, agreed to unless the attempt is one to refuse. -/
def report (h : ScriptedHost) (_ : Handle) (_ : Record) : ScriptedHost × Except HostError Unit :=
  ({ h with attempts := h.attempts + 1 },
   match h.faults.lookup h.attempts with
   | some e => .error e
   | none => .ok ())

instance : StatusHost ScriptedHost := ⟨report⟩

end ScriptedHost

end Steward

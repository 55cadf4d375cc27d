import Steward.Status.Command

/-!
# Status/Accepted — the commands a service accepts

A set of four flags in one byte.  The upper four bits have no meaning, but a set that carries them
keeps them: the bit operations work on all eight bits, while `complement`, `truncate`, `ofBits?`
and `names` know the four flags only.
-/

namespace Steward

/-- The commands a service accepts in its present state, as a byte of flags. -/
structure Accepted where
  bits : UInt8
  deriving DecidableEq, Inhabited

namespace Accepted

/-- Nothing is accepted, except to be interrogated. -/
def empty : Accepted := ⟨0⟩
/-- The service can be stopped. -/
def stop : Accepted := ⟨1⟩
/-- The service is told when the machine shuts down. -/
def shutdown : Accepted := ⟨2⟩
/-- The service is told before the machine shuts down. -/
def preShutdown : Accepted := ⟨4⟩
/-- The service can be paused and continued; both go together. -/
def pauseContinue : Accepted := ⟨8⟩
/-- The four flags together. -/
def full : Accepted := ⟨15⟩

/-- The four flags with their names, in order. -/
def named : List (String × Accepted) :=
  [("STOP", stop), ("SHUTDOWN", shutdown), ("PRESHUTDOWN", preShutdown),
   ("PAUSE_CONTINUE", pauseContinue)]

/-- The bits of either set. -/
def union (a b : Accepted) : Accepted := ⟨a.bits ||| b.bits⟩
/-- The bits of both sets. -/
def inter (a b : Accepted) : Accepted := ⟨a.bits &&& b.bits⟩
/-- The bits of the first set that are not in the second. -/
def diff (a b : Accepted) : Accepted := ⟨a.bits &&& ~~~b.bits⟩
/-- The bits of exactly one of the sets. -/
def symmDiff (a b : Accepted) : Accepted := ⟨a.bits ^^^ b.bits⟩

/-- The known flags of a byte; meaningless bits are cut off. -/
def truncate (bits : UInt8) : Accepted := ⟨bits &&& full.bits⟩

/-- The known flags that are not in the set. -/
def complement (a : Accepted) : Accepted := truncate (~~~a.bits)

/-- The set with exactly the given bits, refused if one of them has no meaning. -/
def ofBits? (bits : UInt8) : Option Accepted :=
  if (truncate bits).bits = bits then some ⟨bits⟩ else none

/-- Every bit of `b` is in `a`. -/
def contains (a b : Accepted) : Bool := a.bits &&& b.bits == b.bits
/-- Some bit of `b` is in `a`. -/
def intersects (a b : Accepted) : Bool := a.bits &&& b.bits != 0
/-- No bit is in, not even one without a meaning. -/
def isEmpty (a : Accepted) : Bool := a.bits == 0
/-- Every known flag is in; meaningless bits do not matter. -/
def isFull (a : Accepted) : Bool := a.contains full

/-- The known flags in the set, with their names. -/
def flags (a : Accepted) : List (String × Accepted) := named.filter fun f => a.contains f.2

/-- The names of the known flags in the set. -/
def names (a : Accepted) : List String := a.flags.map (·.1)

/-- The parts of a set: each known flag on its own, then whatever else it carries in one piece. -/
def parts (a : Accepted) : List Accepted :=
  let rest := a.diff full
  a.flags.map (·.2) ++ if rest.isEmpty then [] else [rest]

/-- Whether the host may send a command while the set is in effect.  A service can always be
interrogated; an unknown command is never accepted. -/
def accepts (a : Accepted) : Command → Bool
  | .interrogate => true
  | .stop => a.contains stop
  | .shutdown => a.contains shutdown
  | .preShutdown => a.contains preShutdown
  | .pause | .continue => a.contains pauseContinue
  | .other _ => false

/-! ## Edits -/

/-- A change to a set, or a question about it. -/
inductive Edit where
  | insert (b : Accepted)
  | remove (b : Accepted)
  | toggle (b : Accepted)
  | retain (b : Accepted)
  /-- Insert the bits if the flag is set, else remove them. -/
  | assign (b : Accepted) (present : Bool)
  | complement
  /-- Replace the set by the known flags of a byte. -/
  | truncate (bits : UInt8)
  /-- Replace the set by a byte, unless one of its bits has no meaning. -/
  | replace (bits : UInt8)
  | contains (b : Accepted)
  | intersects (b : Accepted)

/-- What an edit says besides the new set. -/
inductive Reply where
  | silent
  | refused
  | verdict (b : Bool)

/-- The set after an edit, and the reply. -/
def edit (a : Accepted) : Edit → Accepted × Reply
  | .insert b => (a.union b, .silent)
  | .remove b => (a.diff b, .silent)
  | .toggle b => (a.symmDiff b, .silent)
  | .retain b => (a.inter b, .silent)
  | .assign b present => (if present then a.union b else a.diff b, .silent)
  | .complement => (a.complement, .silent)
  | .truncate bits => (Accepted.truncate bits, .silent)
  | .replace bits =>
    match ofBits? bits with
    | some b => (b, .silent)
    | none => (a, .refused)
  | .contains b => (a, .verdict (a.contains b))
  | .intersects b => (a, .verdict (a.intersects b))

/-- The sets along a list of edits, each with the reply of the edit that led to it. -/
def edits (a : Accepted) : List Edit → List (Accepted × Reply)
  | [] => []
  | e :: es => a.edit e :: edits (a.edit e).1 es

end Accepted

end Steward

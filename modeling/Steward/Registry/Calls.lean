import Steward.Registry

/-!
# Registry/Calls — the table as its callers use it

The operations on a `Registry` name a run by its number.  Whoever calls has an id only, which it may have
got anywhere: the histories of a registry are lists of such `Call`s, with anything between them that those
do who have a part of a run in their hands.  What the operations do is such a history
(`step_eq_after`).

A call that concerns a run does something to this `Registration` only (`Registration.react`), so that a run
could as well stand alone, with its own part of the calls (`Registration.alone`).
-/

namespace Steward

/-- Something is done to a run by those who have a part of it, whether or not the host's calls reach it. -/
inductive Aside where
  /-- The bridge asks for the outcome of the start. -/
  | poll
  /-- The dispatcher came back, which is an outcome. -/
  | publish (o : Outcome)
  /-- The bridge has stopped. -/
  | stop
  /-- The bridge takes a control event. -/
  | take
  /-- The first of the calls in line hands its event in. -/
  | enter
  /-- Nobody receives control events any more. -/
  | close
  /-- From now on the host answers like this to a registration of the callback. -/
  | answer (a : RegisterAnswer)

/-- A call to the table, or something that happens meanwhile. -/
inductive Call where
  | register (name : String) (thread : ThreadId) (onRegister : RegisterAnswer)
  | lookup (id : Context)
  | deregister (id : Context)
  /-- The host enters the service. -/
  | main (id : Context) (raw : List (List UInt16))
  /-- The host calls back. -/
  | control (caller : ThreadId) (call : ControlCall)
  /-- Something is done to the run with this number. -/
  | aside (run : Nat) (a : Aside)

/-- A run is registered. -/
def Call.isRegister : Call → Bool
  | .register _ _ _ => true
  | _ => false

/-- What a caller is told. -/
inductive Reply where
  | given (id : Context)
  | found (e : Option Registration)
  | returned (result : UInt32)
  | silent

/-- The id that is handed out. -/
def Reply.id? : Reply → Option Context
  | .given id => some id
  | _ => none

namespace Registration

/-- A run that was just registered. -/
def opened (id : Context) (name : String) (guard : Guard) (onRegister : RegisterAnswer) : Registration :=
  ⟨id, name, guard, onRegister, [], none, .fresh, .fresh, true⟩

/-- The host's calls reach the run with this id. -/
def answersTo (e : Registration) (id : Context) : Bool := e.live && e.id == id

/-- A control call comes: its event is stamped, and stands at the link. -/
def receive (e : Registration) (caller : ThreadId) (call : ControlCall) : Registration :=
  { e with control := e.control.send ⟨0, e.guard.stamp caller call⟩ }

/-- The outcome of an entry of the service. -/
def outcome (e : Registration) (raw : List (List UInt16)) : Outcome :=
  e.onRegister.map (⟨·, Wide.decodeArgs raw⟩)

/-- Something is done to the run. -/
def aside (e : Registration) : Aside → Registration
  | .poll => { e with handshake := e.handshake.poll.1 }
  | .publish o => { e with handshake := (e.handshake.publish o).1 }
  | .stop => { e with handshake := e.handshake.stop }
  | .take => { e with control := e.control.take }
  | .enter => { e with control := e.control.enter }
  | .close => { e with control := e.control.close }
  | .answer a => { e with onRegister := a }

/-- What a call does to the run with this number. -/
def react (number : Nat) (e : Registration) : Call → Registration
  | .main id raw => if e.answersTo id then e.enter id raw else e
  | .control caller call => if e.answersTo call.context then e.receive caller call else e
  | .deregister id => if e.answersTo id then { e with live := false } else e
  | .aside run a => if run = number then e.aside a else e
  | .register _ _ _ | .lookup _ => e

/-- What becomes of the run if it stands alone. -/
def alone (number : Nat) (e : Registration) (calls : List Call) : Registration :=
  calls.foldl (react number) e

/-- The outcome that is published for the run with a call. -/
def publishes? (number : Nat) (e : Registration) : Call → Option Outcome
  | .main id raw => if e.answersTo id then some (e.outcome raw) else none
  | .aside run (.publish o) => if run = number then some o else none
  | _ => none

/-- The outcomes that are published for the run, the first of which counts. -/
def outcomes (number : Nat) (e : Registration) : List Call → List Outcome
  | [] => []
  | c :: later => (e.publishes? number c).toList ++ (e.react number c).outcomes number later

end Registration

namespace Registry

/-- A call, and what the caller is told. -/
def call (r : Registry) : Call → Registry × Reply
  | .register name thread onRegister =>
    let (r', id) := r.register name (.capture thread) onRegister
    (r', .given id)
  | .lookup id => (r, .found (r.lookup id))
  | .deregister id =>
    let (r', gone) := r.deregister id
    (r', .found gone)
  | .main id raw => (r.main id raw, .silent)
  | .control caller c =>
    let (r', result) := r.control caller c
    (r', .returned result)
  | .aside run a => (r.modify run (·.aside a), .silent)

/-- The table after a history. -/
def after (r : Registry) (history : List Call) : Registry := history.foldl (fun r c => (r.call c).1) r

theorem after_append (r : Registry) (h₁ h₂ : List Call) :
    r.after (h₁ ++ h₂) = (r.after h₁).after h₂ := List.foldl_append

/-- What the callers are told along a history. -/
def replies (r : Registry) : List Call → List Reply
  | [] => []
  | c :: later => (r.call c).2 :: (r.call c).1.replies later

/-- The ids that are handed out along a history. -/
def handedOut (r : Registry) (history : List Call) : List Context :=
  (r.replies history).filterMap Reply.id?

/-- The calls that an operation is made of. -/
def Op.calls (r : Registry) : Op → List Call
  | .register name thread onRegister => [.register name thread onRegister]
  | .lookup run => [.lookup (r.idOf run)]
  | .deregister run => [.deregister (r.idOf run)]
  | .main run raw => [.main (r.idOf run) raw]
  | .outcome run => [.aside run .poll]
  | .dropTake run => [.aside run .close]
  | .control run caller code eventType eventData =>
    [.control caller ⟨code, eventType, eventData, r.idOf run⟩, .aside run .take]

/-- **An operation is a history.** -/
theorem step_eq_after (r : Registry) (op : Op) : (r.step op).1 = r.after (op.calls r) := by
  cases op with
  | register | lookup | deregister | dropTake | control => rfl
  | main run raw =>
    unfold step
    dsimp only
    split <;> rfl
  | outcome run =>
    unfold step
    dsimp only
    split
    · rename_i hnone
      have hsame : r.runs.modify run (·.aside .poll) = r.runs :=
        List.modify_eq_self (List.getElem?_eq_none_iff.mp hnone)
      exact congrArg Registry.mk hsame.symm
    · rfl

end Registry

end Steward

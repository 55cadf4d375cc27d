import Steward.Service.Basic

/-!
# Service/Course — a whole run, step by step

Three have a part in a run: the bridge with its handler, whoever enters the service for the host,
and the thread that runs the service and belongs to the dispatcher until that comes back.  The last
two each have a *word* on how the start went, and nothing says who comes first, how often the service
is entered, or whether it is at all.  The word that comes first decides what the run results in.

To publish a word is to put its outcome down, unless there is one, and then to set dispatcher-ready.  Who
finds an outcome there goes on at once, whether or not the signal is set already.  So the dispatcher's
return, the two halves of each word and all the rest are steps of their own, and between any two of them
anything may happen that can happen to a bridge.
-/

namespace Steward

/-- A word on how the start of a service went. -/
inductive Word where
  /-- The service was entered, with this outcome. -/
  | entered (o : Outcome)
  /-- The dispatcher came back, with this result. -/
  | returned (r : Except HostError Unit)

namespace Word

/-- The outcome of an entry: the callback is registered and the arguments are decoded. -/
def ofEntry (answer : RegisterAnswer) (raw : List (List UInt16)) : Word :=
  .entered (answer.map (⟨·, Wide.decodeArgs raw⟩))

/-- Why the service was not started, if the dispatcher comes back with this before. -/
def returnError : Except HostError Unit → HostError
  | .ok () => .notStarted
  | .error e => e

/-- The outcome that is published. -/
def outcome : Word → Outcome
  | entered o => o
  | returned r => .error (returnError r)

/-- The error the dispatcher is to blame for. -/
def blame : Word → Option HostError
  | entered _ => none
  | returned r => some (returnError r)

end Word

/-- How far the thread that runs the service has come with its dispatcher. -/
inductive Dispatching where
  /-- The dispatcher has not come back. -/
  | away
  /-- It came back with this result, and the outcome is not put down yet. -/
  | back (r : Except HostError Unit)
  /-- The outcome is put down, and dispatcher-ready is not set yet. -/
  | stored (r : Except HostError Unit)
  /-- Dispatching is over, with the error, if it is the reason why the service was never started. -/
  | done (blame : Option HostError)

/-- The word that is to be put down, once the dispatcher is back. -/
def Dispatching.word? : Dispatching → Option Word
  | .back r => some (.returned r)
  | _ => none

/-- What dispatching came to, once it is over. -/
def Dispatching.result? : Dispatching → Option (Option HostError)
  | .done blame => some blame
  | _ => none

/-- The bridge of a run, and the thread that runs the service. -/
structure Course (σ : Type) where
  bridge : Bridge σ
  dispatching : Dispatching

/-- The course of a run. -/
def Service.course {σ : Type} (s : Service σ) : Course σ :=
  ⟨s.bridge, match s.dispatch with
    | some blame => .done blame
    | none => .away⟩

namespace Course

variable {σ : Type}

/-- A run before its start. -/
def fresh (name handlerName : String) (context : Context) (host : σ) : Course σ :=
  ⟨.fresh name handlerName context host, .away⟩

/-- One step of a run.  Nobody but the bridge takes the outcome of the start, and it is published
with a word only. -/
inductive Step where
  /-- The bridge makes its next move. -/
  | move
  /-- Something else happens to the bridge. -/
  | act (a : Bridge.Action) (aside : a.concernsStart = false)
  /-- An entry of the service has the answer to the registration, and puts its outcome down. -/
  | entry (answer : RegisterAnswer) (raw : List (List UInt16))
  /-- The dispatcher comes back; it does so once, and any further return is without effect. -/
  | returns (r : Except HostError Unit)
  /-- The thread that runs the service puts its outcome down. -/
  | settle
  /-- Who has put down the outcome that counts sets dispatcher-ready. -/
  | announce

/-- What dispatching came to, once it is over. -/
def dispatch (c : Course σ) : Option (Option HostError) := c.dispatching.result?

/-- The word a step has on the start: the outcome is put down with it. -/
def word? (c : Course σ) : Step → Option Word
  | .entry answer raw => some (.ofEntry answer raw)
  | .settle => c.dispatching.word?
  | .move | .act _ _ | .returns _ | .announce => none

/-- Put down the outcome of a word. -/
def store (c : Course σ) (w : Word) : Course σ := { c with bridge := c.bridge.act (.store w.outcome) }

/-- The thread that runs the service puts its outcome down.  The dispatcher is to blame if this is the
outcome of the start, and dispatching is over if it is not. -/
def settle (c : Course σ) : Course σ :=
  match c.dispatching with
  | .back r =>
    let w := Word.returned r
    { c.store w with
      dispatching := if (c.bridge.handshake.store w.outcome).2 then .stored r else .done none }
  | _ => c

/-- Who has put down the outcome that counts sets dispatcher-ready.  If that is the thread that runs the
service, dispatching is over. -/
def announce (c : Course σ) : Course σ where
  bridge := c.bridge.act .announce
  dispatching :=
    match c.dispatching with
    | .stored r => .done (Word.returned r).blame
    | other => other

/-- The state after a step. -/
def step [StatusHost σ] (c : Course σ) : Step → Course σ
  | .move => { c with bridge := c.bridge.step .move }
  | .act a _ => { c with bridge := c.bridge.act a }
  | .entry answer raw => c.store (.ofEntry answer raw)
  | .returns r =>
    match c.dispatching with
    | .away => { c with dispatching := .back r }
    | _ => c
  | .settle => c.settle
  | .announce => c.announce

/-- The state after a history. -/
def after [StatusHost σ] (c : Course σ) (history : List Step) : Course σ := history.foldl step c

theorem after_append [StatusHost σ] (c : Course σ) (h₁ h₂ : List Step) :
    c.after (h₁ ++ h₂) = (c.after h₁).after h₂ := List.foldl_append

/-- The words along a history, in the order in which their outcomes were put down. -/
def words [StatusHost σ] (c : Course σ) : List Step → List Word
  | [] => []
  | s :: later => (c.word? s).toList ++ (c.step s).words later

/-- The first word along a history. -/
def firstWord? [StatusHost σ] (c : Course σ) (history : List Step) : Option Word :=
  (c.words history).head?

/-- What the caller gets, once dispatching is over and the bridge has stopped. -/
def result? (c : Course σ) : Option (Except RunError ExitCode) :=
  match c.dispatch, c.bridge.ending? with
  | some d, some ending => some (Service.resultOf d ending)
  | _, _ => none

end Course

/-- A service and its course have come to the same. -/
theorem Service.dispatch_course {σ : Type} (s : Service σ) : s.course.dispatch = s.dispatch := by
  unfold Service.course Course.dispatch
  cases s.dispatch <;> rfl

/-- So they have the same result. -/
theorem Service.result?_course {σ : Type} (s : Service σ) : s.course.result? = s.result? := by
  unfold Course.result?
  rw [s.dispatch_course]
  rfl

end Steward

import Steward.Event.Basic
import Steward.Event.Panic

/-!
# Subscriber/Basic — observers, their queues and their workers

A subscriber watches a run without being able to hold it up.  It has a queue of bounded length and
a worker that takes one event at a time out of the queue and hands it over.

* `Worker.offer` never waits: an event that finds the queue full, or the worker ended, is dropped.
* In one `Worker.turn` a worker is given a bounded number of events and permits, so that none
  starves the others; what it works off shows in its `backlog`.
* A *gated* subscriber needs a permit for each event; its worker holds the event until one comes.
* A panic while an event is handled is caught and reported.  A panic before handling has begun is
  not: it ends the worker, and what is still queued is lost.

How a subscriber takes an event may depend on all that it was handed before, so that of several equal
events any may make it panic.  Two things are taken for granted of it: its `capacity` is one that a queue
can be made with (one larger than the runtime admits is refused, and then there is no audience at all),
and `interested` only answers, and never panics.
-/

namespace Steward

/-- How a subscriber takes an event. -/
inductive Reaction where
  | handles
  /-- It panics while handling the event. -/
  | panics (payload : PanicPayload)
  /-- It panics before handling has begun. -/
  | breaks
  deriving DecidableEq

/-- A reaction whatever was handed over before. -/
instance : Coe Reaction (List Event → Reaction) := ⟨fun reaction _ => reaction⟩

/-- An observer of events. -/
structure Subscriber where
  name : String
  /-- The length its queue is asked to have. -/
  capacity : Nat
  /-- The kinds it wants to see. -/
  interested : EventKind → Bool
  /-- Each event needs a permit. -/
  gated : Bool
  /-- How it takes an event, after those that it was handed before. -/
  reaction : Event → List Event → Reaction

namespace Subscriber

/-- An observer of all kinds with the usual queue. -/
def plain (name : String) : Subscriber := ⟨name, 1024, fun _ => true, false, fun _ _ => .handles⟩

/-- A queue has room for one event at least. -/
def room (s : Subscriber) : Nat := max 1 s.capacity

end Subscriber

/-- Why an event was dropped. -/
inductive DropReason where
  | full
  | closed
  deriving DecidableEq

/-- The reason as announcements name it. -/
def DropReason.text : DropReason → String
  | full => "full"
  | closed => "closed"

/-- The worker of a subscriber. -/
structure Worker where
  queue : List Event
  /-- The event taken out of the queue and not handed over yet. -/
  held : Option Event
  permits : Nat
  /-- It has found its queue empty, and is called when an event comes. -/
  listens : Bool
  ended : Bool
  /-- What was handed over, oldest first. -/
  seen : List Event

namespace Worker

/-- A worker that has not run yet. -/
def fresh : Worker := ⟨[], none, 0, false, false, []⟩

/-- Queue an event, unless the worker has ended or the queue is full. -/
def offer (s : Subscriber) (w : Worker) (e : Event) : Worker × Option DropReason :=
  if w.ended then (w, some .closed)
  else if s.room ≤ w.queue.length then (w, some .full)
  else ({ w with queue := w.queue ++ [e], listens := false }, none)

/-- The worker has an event in hand that it may not hand over. -/
def isHeldUp (s : Subscriber) (w : Worker) : Bool :=
  w.held.isSome && s.gated && w.permits == 0

/-- The subscriber takes an event.  A panic of its becomes an event. -/
def handle (s : Subscriber) (w : Worker) (e : Event) : Worker × List Event :=
  ({ w with held := none, seen := w.seen ++ [e] },
   match s.reaction e w.seen with
   | .panics payload => [Event.panicked s.name payload.message]
   | _ => [])

/-- The event in hand goes to the subscriber, for one permit. -/
def handOver (s : Subscriber) (w : Worker) (e : Event) : Worker × List Event :=
  handle s { w with permits := w.permits - 1 } e

/-- Take the next event out of the queue.  A subscriber that breaks on it ends the worker; a gated
one keeps the worker waiting; any other takes it at once. -/
def fetch (s : Subscriber) (w : Worker) (e : Event) (rest : List Event) : Worker × List Event :=
  match s.reaction e w.seen with
  | .breaks => ({ w with queue := [], ended := true }, [])
  | _ =>
    let w := { w with queue := rest }
    if s.gated then ({ w with held := some e }, []) else handle s w e

/-- The worker is given a permit for the event in hand, or the next event, and goes on with it;
`none` if it can only wait. -/
def next? (s : Subscriber) (w : Worker) : Option (Worker × List Event) :=
  if w.ended || w.isHeldUp s then none
  else
    match w.held, w.queue with
    | some e, _ => some (handOver s w e)
    | none, [] => none
    | none, e :: rest => some (fetch s w e rest)

/-- A worker with nothing to do waits for events. -/
def await (w : Worker) : Worker := { w with listens := w.held.isNone && !w.ended }

/-- How a turn of a worker went. -/
structure Turn where
  worker : Worker
  published : List Event
  /-- The worker was given as much as it may, and steps aside. -/
  aside : Bool

/-- The turn with something published before it. -/
def Turn.after (t : Turn) (published : List Event) : Turn :=
  { t with published := published ++ t.published }

/-- A turn: the worker goes on until it can only wait, or was given `n` events and permits. -/
def turn (s : Subscriber) (w : Worker) : Nat → Turn
  | 0 => ⟨w, [], !w.ended && !w.isHeldUp s⟩
  | n + 1 =>
    match next? s w with
    | none => ⟨w.await, [], false⟩
    | some (w', published) => (turn s w' n).after published

/-- Give permits to a worker. -/
def permit (w : Worker) (n : Nat) : Worker := { w with permits := w.permits + n }

/-- What a worker can still be given for what it has: an event and a permit for each in the queue,
and a permit for the one in hand. -/
def backlog (w : Worker) : Nat := 2 * w.queue.length + if w.held.isSome then 1 else 0

theorem backlog_handOver (s : Subscriber) (w : Worker) (e : Event) (h : w.held = some e) :
    (handOver s w e).1.backlog + 1 = w.backlog := by
  simp only [handOver, handle, backlog, h, Option.isSome_none, Option.isSome_some,
    Bool.false_eq_true, if_true, if_false]

theorem backlog_fetch (s : Subscriber) (w : Worker) (e : Event) (rest : List Event)
    (hh : w.held = none) (hq : w.queue = e :: rest) :
    (fetch s w e rest).1.backlog + 1 ≤ w.backlog := by
  have hw : w.backlog = 2 * rest.length + 2 := by
    simp only [backlog, hh, hq, List.length_cons, Option.isSome_none, Bool.false_eq_true, if_false]
    omega
  rw [hw]
  unfold fetch
  split
  · simp only [backlog, hh, List.length_nil, Option.isSome_none, Bool.false_eq_true, if_false]
    omega
  · dsimp only
    split
    · simp only [backlog, Option.isSome_some, if_true]
      omega
    · simp only [handle, backlog, Option.isSome_none, Bool.false_eq_true, if_false]
      omega

/-- What a worker is given makes its backlog smaller. -/
theorem backlog_next? {s : Subscriber} {w : Worker} {t : Worker × List Event}
    (h : next? s w = some t) : t.1.backlog < w.backlog := by
  unfold next? at h
  split at h
  · simp at h
  · split at h
    · rename_i _ e hh
      obtain rfl := Option.some.inj h
      exact Nat.le_of_eq (backlog_handOver s w e hh)
    · simp at h
    · rename_i e rest hh hq
      obtain rfl := Option.some.inj h
      exact backlog_fetch s w e rest hh hq

/-- A turn adds nothing to the backlog, and a worker that steps aside has worked it off as far as
it may in one turn. -/
theorem backlog_turn (s : Subscriber) (w : Worker) (n : Nat) :
    (turn s w n).worker.backlog + (if (turn s w n).aside then n else 0) ≤ w.backlog := by
  induction n generalizing w with
  | zero => simp [turn]
  | succ n ih =>
    unfold turn
    split
    · simp only [await, backlog, Bool.false_eq_true, if_false]
      exact Nat.le_refl _
    · rename_i w' published h
      have hlt : w'.backlog < w.backlog := backlog_next? h
      have hle := ih w'
      simp only [Turn.after]
      split at hle <;> rename_i ha <;> simp only [ha, Bool.false_eq_true, if_true, if_false] <;>
        omega

end Worker

end Steward

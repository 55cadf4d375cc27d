import Steward.Event.Bus
import Steward.Rota
import Steward.Subscriber.Basic

/-!
# Subscriber/Audience — many subscribers to one stream of events

Events are fanned out to the members in order; each member has its own queue and worker, so none
touches what another sees.  A dropped event is announced by an overflow event, except when it is
one itself: otherwise a full queue would feed on its own announcements.

The workers share a rota.  At the start all are on it, in order; later a worker comes to its end
when it is called: by an event if its queue was empty, or by the permit it waits for.
-/

namespace Steward

/-- A subscriber with its worker. -/
structure Member where
  subscriber : Subscriber
  worker : Worker

namespace Member

/-- A subscriber whose worker has not run yet. -/
def fresh (s : Subscriber) : Member := ⟨s, .fresh⟩

/-- The member is offered an event, and what is announced if it drops it. -/
def offer (m : Member) (e : Event) : Member × List Event :=
  if m.subscriber.interested e.kind then
    let (worker, dropped) := Worker.offer m.subscriber m.worker e
    let announced := match dropped with
      | some reason => if e.isOverflow then [] else [Event.overflow m.subscriber.name reason.text]
      | none => []
    ({ m with worker := worker }, announced)
  else (m, [])

/-- The event calls the worker. -/
def isCalledBy (m : Member) (e : Event) : Bool :=
  m.subscriber.interested e.kind && m.worker.listens

/-- The worker is given permits. -/
def permit (m : Member) (n : Nat) : Member := { m with worker := m.worker.permit n }

/-- The worker waits for a permit. -/
def isHeldUp (m : Member) : Bool := m.worker.isHeldUp m.subscriber

/-- The worker has its turn. -/
def turn (m : Member) : Worker.Turn := m.worker.turn m.subscriber Rota.allowance

end Member

/-- The subscribers of a stream of events, in order. -/
structure Audience where
  members : List Member
  /-- The workers, by number. -/
  rota : Rota Nat

namespace Audience

/-- An audience of subscribers that have seen nothing yet. -/
def ofList (subs : List Subscriber) : Audience :=
  ⟨subs.map .fresh, .ofList (List.range subs.length)⟩

/-- The number of members. -/
def size (a : Audience) : Nat := a.members.length

/-- There are no members. -/
def isEmpty (a : Audience) : Bool := a.members.isEmpty

/-- The numbers of the workers that an event calls. -/
def calledBy (a : Audience) (e : Event) : List Nat :=
  (a.members.zipIdx.filter fun m => m.1.isCalledBy e).map (·.2)

/-- Offer an event to all members, with the announcements of those that drop it. -/
def emit (a : Audience) (e : Event) : Audience × List Event :=
  (⟨a.members.map fun m => (m.offer e).1, a.rota.wakeAll (a.calledBy e)⟩,
   a.members.flatMap fun m => (m.offer e).2)

/-- Give permits to the member with the given number, and call its worker if it waits for one. -/
def permit (a : Audience) (member n : Nat) : Audience :=
  let isCalled := n != 0 && (a.members[member]?).any Member.isHeldUp
  ⟨a.members.modify member (·.permit n), if isCalled then a.rota.wake member else a.rota⟩

/-- What each member has been handed so far. -/
def seen (a : Audience) : List (List Event) := a.members.map (·.worker.seen)

/-! ## Turns -/

/-- What is left to do for these members. -/
def backlog : List Member → Nat
  | [] => 0
  | m :: ms => m.worker.backlog + backlog ms

theorem backlog_set (ms : List Member) (i : Nat) (m m' : Member) (h : ms[i]? = some m) :
    backlog (ms.set i m') + m.worker.backlog = backlog ms + m'.worker.backlog := by
  induction ms generalizing i with
  | nil => simp at h
  | cons x xs ih =>
    cases i with
    | zero =>
      obtain rfl : x = m := by simpa using h
      simp [backlog]
      omega
    | succ i =>
      have := ih i (by simpa using h)
      simp only [List.set_cons_succ, backlog]
      omega

/-- The worker with the given number has its turn, with the events it publishes. -/
def turn (a : Audience) (member : Nat) : Audience × List Event :=
  match a.members[member]? with
  | none => (a, [])
  | some m =>
    let t := m.turn
    (⟨a.members.set member { m with worker := t.worker },
      if t.aside then a.rota.stepAside member else a.rota⟩, t.published)

/-- Who steps aside has left less to do. -/
theorem turn_lt (a : Audience) (member : Nat) :
    backlog (a.turn member).1.members < backlog a.members ∨
      backlog (a.turn member).1.members ≤ backlog a.members ∧ (a.turn member).1.rota = a.rota := by
  unfold turn
  split
  · exact .inr ⟨Nat.le_refl _, rfl⟩
  · rename_i m h
    have hset := backlog_set a.members member m { m with worker := m.turn.worker } h
    have hlen := Worker.backlog_turn m.subscriber m.worker Rota.allowance
    change m.turn.worker.backlog + (if m.turn.aside then Rota.allowance else 0) ≤ _ at hlen
    dsimp only at hset ⊢
    cases ha : m.turn.aside <;> simp [ha, Rota.allowance] at hlen ⊢ <;> omega

/-- The workers have turns until nobody is left on the rota, with the events they publish. -/
def run (a : Audience) : Audience × List Event :=
  match _h : a.rota.next? with
  | none => ({ a with rota := .empty }, [])
  | some (member, rota) =>
    let now := { a with rota := rota }.turn member
    let later := run now.1
    (later.1, now.2 ++ later.2)
termination_by (backlog a.members, a.rota.size)
decreasing_by
  rcases turn_lt { a with rota := rota } member with hlt | ⟨hle, hrota⟩
  · exact Prod.Lex.left _ _ hlt
  · rcases Nat.lt_or_eq_of_le hle with hlt | heq
    · exact Prod.Lex.left _ _ hlt
    · dsimp only at heq hrota ⊢
      rw [heq, hrota]
      exact Prod.Lex.right _ (Rota.size_next? _h)

end Audience

/-! ## An audience beside a bus -/

/-- An audience whose announcements go to a bus with one observer. -/
structure Fanout where
  audience : Audience
  bus : Bus Event
  /-- The observer's number on the bus. -/
  observer : Nat
  /-- The queues were closed. -/
  isShut : Bool

namespace Fanout

/-- A fresh audience beside a fresh bus. -/
def ofList (subs : List Subscriber) (capacity : Nat) : Fanout :=
  let (bus, observer) := (Bus.ofCapacity capacity).subscribe
  ⟨.ofList subs, bus, observer, false⟩

/-- What may happen to an audience from outside. -/
inductive Op where
  /-- Events come in, and no worker gets to run meanwhile. -/
  | emit (events : List Event)
  /-- The workers run until they can only wait. -/
  | run
  /-- A member gets permits, then the workers run. -/
  | release (member n : Nat)
  /-- The queues are closed and the workers finish what they have. -/
  | shutdown

/-- Emit one event and publish the announcements. -/
def emit (f : Fanout) (e : Event) : Fanout :=
  if f.isShut then f
  else
    let (audience, announced) := f.audience.emit e
    { f with audience := audience, bus := f.bus.publishAll announced }

/-- Let the workers run and publish what they report. -/
def run (f : Fanout) : Fanout :=
  let (audience, published) := f.audience.run
  { f with audience := audience, bus := f.bus.publishAll published }

/-- The state after an operation. -/
def apply (f : Fanout) : Op → Fanout
  | .emit es => es.foldl emit f
  | .run => f.run
  | .release member n => { f with audience := f.audience.permit member n }.run
  | .shutdown => { f.run with isShut := true }

/-- What can be seen of an operation: what came over the bus, and what each member was handed. -/
structure View where
  bus : List (Received Event)
  seen : List (List Event)

/-- One operation and what can be seen of it. -/
def step (f : Fanout) (op : Op) : Fanout × View :=
  let f' := f.apply op
  let (bus, received) := f'.bus.drain f'.observer
  let seen := (f.audience.seen.zip f'.audience.seen).map fun s => s.2.drop s.1.length
  ({ f' with bus := bus }, ⟨received, seen⟩)

/-- What can be seen of a list of operations. -/
def views (f : Fanout) : List Op → List View
  | [] => []
  | op :: ops => (f.step op).2 :: views (f.step op).1 ops

end Fanout

end Steward

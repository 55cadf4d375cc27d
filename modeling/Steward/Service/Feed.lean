import Steward.Subscriber.Audience

/-!
# Service/Feed — from the bus to the subscribers and back

A listener reads the bus and hands every event to the audience.  What the subscribers cause,
announcements of dropped events and of panics, is published on the same bus and comes round again.
-/

namespace Steward

/-- A bus, its listener, and the audience behind it. -/
structure Feed where
  bus : Bus Event
  /-- The listener's number on the bus. -/
  listener : Nat
  audience : Audience

namespace Feed

/-- A fresh bus with a listener for these subscribers. -/
def ofList (subs : List Subscriber) (capacity : Nat) : Feed :=
  let (bus, listener) := (Bus.ofCapacity capacity).subscribe
  ⟨bus, listener, .ofList subs⟩

/-- Publish an event. -/
def publish (f : Feed) (e : Event) : Feed := { f with bus := f.bus.publish e }

/-- The listener looks at the bus once and hands on what it finds.  A loss is passed over. -/
def listen (f : Feed) : Feed :=
  match f.bus.receive f.listener with
  | (bus, some (.event e)) =>
    let (audience, announced) := f.audience.emit e
    { f with bus := bus.publishAll announced, audience := audience }
  | (bus, _) => { f with bus := bus }

/-- The workers go on until they can only wait. -/
def work (f : Feed) : Feed :=
  let (audience, published) := f.audience.run
  { f with bus := f.bus.publishAll published, audience := audience }

/-- There is something for the listener to read. -/
def hasNews (f : Feed) : Bool := !(f.bus.unread f.listener).isEmpty

/-- The listener and the workers run in turn, at most so many times. -/
def turn (f : Feed) : Nat → Feed
  | 0 => f
  | n + 1 => if f.hasNews then f.listen.work.turn n else f

/-- Events come one after the other, and the audience gets to see each before the next. -/
def absorb (f : Feed) (events : List Event) : Feed :=
  events.foldl (fun f e => (f.publish e).turn 1) f

end Feed

end Steward

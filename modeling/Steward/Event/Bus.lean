/-!
# Event/Bus — a ring of events that many receivers read

The bus keeps the last few events.  Every receiver has a position of its own: a fast one reads
every event, a slow one is told how many it lost and goes on with the oldest event kept.

* A receiver sees only what is published after it subscribed.
* The ring has a power of two of slots, at least as many as asked for.
* Publishing never waits, and without a receiver it stores nothing.
* What is kept can still be read after the bus was closed.
-/

namespace Steward

/-- What a receiver gets. -/
inductive Received (α : Type) where
  | event (a : α)
  /-- Everything kept was read, more may come. -/
  | empty
  /-- Everything kept was read and nothing more will come. -/
  | closed
  /-- The receiver was too slow: so many of its events are gone. -/
  | lagged (missed : Nat)
  deriving DecidableEq

/-- A bus of events of type `α`. -/
structure Bus (α : Type) where
  /-- The number of events the ring can keep. -/
  slots : Nat
  /-- The number of events stored so far. -/
  stored : Nat
  /-- The last events stored, oldest first. -/
  kept : List α
  /-- The position of each receiver: how many events it is past.  A receiver that left has none. -/
  receivers : List (Option Nat)
  isOpen : Bool

namespace Bus

variable {α : Type}

/-- The ring size for a requested capacity: the first power of two that is large enough. -/
def ringSize (capacity : Nat) : Nat :=
  if capacity ≤ 1 then 1 else 1 <<< ((capacity - 1).log2 + 1)

/-- An open bus without receivers. -/
def ofCapacity (capacity : Nat) : Bus α := ⟨ringSize capacity, 0, [], [], true⟩

/-- The position of the oldest event kept. -/
def oldest (b : Bus α) : Nat := b.stored - b.kept.length

/-- Somebody listens. -/
def hasReceivers (b : Bus α) : Bool := b.receivers.any (·.isSome)

/-- Keep the last `n` elements of a list. -/
def lastOf (n : Nat) (l : List α) : List α := l.drop (l.length - n)

/-- Publish an event to all receivers; without a receiver nothing is stored. -/
def publish (b : Bus α) (a : α) : Bus α :=
  if b.hasReceivers then
    { b with stored := b.stored + 1, kept := lastOf b.slots (b.kept ++ [a]) }
  else b

/-- Publish events in order. -/
def publishAll (b : Bus α) (as : List α) : Bus α := as.foldl publish b

/-- A new receiver, and its number. -/
def subscribe (b : Bus α) : Bus α × Nat :=
  ({ b with receivers := b.receivers ++ [some b.stored] }, b.receivers.length)

/-- The position of a receiver, if it is there. -/
def position? (b : Bus α) (rx : Nat) : Option Nat := (b.receivers[rx]?).join

/-- Put a receiver to a position. -/
def moveTo (b : Bus α) (rx pos : Nat) : Bus α :=
  { b with receivers := b.receivers.set rx (some pos) }

/-- What a receiver at `pos` gets next, and where it is afterwards. -/
def next (b : Bus α) (pos : Nat) : Received α × Nat :=
  if pos < b.oldest then (.lagged (b.oldest - pos), b.oldest)
  else
    match b.kept[pos - b.oldest]? with
    | some a => (.event a, pos + 1)
    | none => (if b.isOpen then .empty else .closed, pos)

/-- One attempt of a receiver to get an event; `none` if there is no such receiver. -/
def receive (b : Bus α) (rx : Nat) : Bus α × Option (Received α) :=
  match b.position? rx with
  | none => (b, none)
  | some pos => (b.moveTo rx (b.next pos).2, some (b.next pos).1)

/-- All that a receiver can get at present, loss first. -/
def unread (b : Bus α) (rx : Nat) : List (Received α) :=
  match b.position? rx with
  | none => []
  | some pos =>
    (if pos < b.oldest then [.lagged (b.oldest - pos)] else []) ++
      (b.kept.drop (pos - b.oldest)).map .event

/-- Read a receiver to the end. -/
def drain (b : Bus α) (rx : Nat) : Bus α × List (Received α) :=
  (if (b.position? rx).isSome then b.moveTo rx b.stored else b, b.unread rx)

/-- A receiver leaves; the answer says whether it was there. -/
def unsubscribe (b : Bus α) (rx : Nat) : Bus α × Bool :=
  ({ b with receivers := b.receivers.set rx none }, (b.position? rx).isSome)

/-- Nothing more will be published. -/
def close (b : Bus α) : Bus α := { b with isOpen := false }

/-- What an observer reads that looks at a fresh bus only after all these events. -/
def reading (capacity : Nat) (as : List α) : List (Received α) :=
  let (bus, observer) := (ofCapacity capacity).subscribe
  ((bus.publishAll as).drain observer).2

/-! ## Operations -/

/-- What a client may do with a bus. -/
inductive Op (α : Type) where
  | subscribe
  | publish (events : List α)
  | receive (rx : Nat)
  | unsubscribe (rx : Nat)
  | close

/-- What a client is told. -/
inductive Answer (α : Type) where
  | receiver (rx : Nat)
  | done
  | got (r : Received α)
  | noReceiver
  | noBus
  /-- Whether what was given up had been there. -/
  | wasThere (b : Bool)

/-- One operation.  Receivers outlive the bus, subscribing and publishing need it. -/
def step (b : Bus α) : Op α → Bus α × Answer α
  | .subscribe => if b.isOpen then (b.subscribe.1, .receiver b.subscribe.2) else (b, .noBus)
  | .publish es => if b.isOpen then (b.publishAll es, .done) else (b, .noBus)
  | .receive rx =>
    match b.receive rx with
    | (b', some r) => (b', .got r)
    | (b', none) => (b', .noReceiver)
  | .unsubscribe rx => ((b.unsubscribe rx).1, .wasThere (b.unsubscribe rx).2)
  | .close => (b.close, .wasThere b.isOpen)

/-- The answers to a list of operations. -/
def run (b : Bus α) : List (Op α) → List (Answer α)
  | [] => []
  | op :: ops => (b.step op).2 :: run (b.step op).1 ops

end Bus

end Steward

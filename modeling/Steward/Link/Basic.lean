/-!
# Link/Basic — handing over one item at a time

A link moves items from many senders to one receiver.  It has a slot for one item; further senders
stand in line.  A sender is done when its item was taken, not when it was put into the slot, so a
slow receiver holds its senders up.

* `send` puts the item into the slot if it is free and nobody stands in line, else it joins the
  line.  A sender that may not go on just now can `lineUp` in any case, and keeps its place.
* `take` frees the slot.  The head of the line then has the right to it, and its item enters with
  `enter`, when that sender gets to run.
* A sender may be withdrawn: from the line its item is never sent, from the slot the item stays.
* `close` refuses everybody: the line, the sender whose item is in the slot, and all who come later.
-/

namespace Steward

/-- How a send ended. -/
inductive SendResult where
  /-- The item was taken. -/
  | taken
  /-- The link was closed before. -/
  | closed
  deriving DecidableEq, Inhabited

/-- An item and the ticket of its sender. -/
structure Parcel (α : Type) where
  ticket : Nat
  item : α
  deriving DecidableEq

/-- The item in the slot. -/
structure Placed (α : Type) extends Parcel α where
  /-- The sender still waits for it to be taken. -/
  awaited : Bool
  deriving DecidableEq

/-- A link for items of type `α`. -/
structure Link (α : Type) where
  slot : Option (Placed α)
  /-- The senders in line, first come first served. -/
  line : List (Parcel α)
  /-- The receiving end was closed or dropped. -/
  closed : Bool
  /-- The number of sending handles, those of senders under way included. -/
  offers : Nat

namespace Link

variable {α : Type}

/-- An empty link with one sending handle. -/
def fresh : Link α := ⟨none, [], false, 1⟩

/-- A link that nobody can send on yet. -/
def unconnected : Link α := { fresh with offers := 0 }

/-- How a send begins. -/
inductive Start where
  /-- The link is closed. -/
  | refused
  /-- The item is in the slot. -/
  | placed
  /-- The sender stands in line. -/
  | queued
  deriving DecidableEq

/-- How a send begins on this link. -/
def start (l : Link α) : Start :=
  if l.closed then .refused
  else if l.slot.isNone && l.line.isEmpty then .placed
  else .queued

/-- A sender comes with its item. -/
def send (l : Link α) (p : Parcel α) : Link α :=
  match l.start with
  | .refused => l
  | .placed => { l with slot := some ⟨p, true⟩ }
  | .queued => { l with line := l.line ++ [p] }

/-- A sender comes with its item and joins the line, also if the slot is free. -/
def lineUp (l : Link α) (p : Parcel α) : Link α :=
  if l.closed then l else { l with line := l.line ++ [p] }

/-- The ticket of the sender that may put its item into the slot. -/
def granted? (l : Link α) : Option Nat :=
  if l.slot.isNone then l.line.head?.map (·.ticket) else none

/-- The head of the line puts its item into the free slot. -/
def enter (l : Link α) : Link α :=
  match l.slot, l.line with
  | none, p :: rest => { l with slot := some ⟨p, true⟩, line := rest }
  | _, _ => l

/-- What the receiver finds. -/
inductive Poll (α : Type) where
  | item (p : Placed α)
  /-- Nothing there yet. -/
  | pending
  /-- Nothing there, and nothing can come. -/
  | ended
  deriving DecidableEq

/-- What the receiver finds on this link. -/
def poll (l : Link α) : Poll α :=
  match l.slot with
  | some p => .item p
  | none => if l.closed || l.offers == 0 then .ended else .pending

/-- The receiver takes what is in the slot. -/
def take (l : Link α) : Link α := { l with slot := none }

/-- The sender of the item in the slot, if it still waits. -/
def waiting? (l : Link α) : Option Nat :=
  match l.slot with
  | some p => if p.awaited then some p.ticket else none
  | none => none

/-- The senders whose sends are under way: those in line, then the one of the slot. -/
def unfinished (l : Link α) : List Nat := l.line.map (·.ticket) ++ l.waiting?.toList

/-- Close the link; all unfinished sends end. -/
def close (l : Link α) : Link α := { l with slot := none, line := [], closed := true }

/-- Withdraw a sender: its place in line is given up, its item in the slot stays. -/
def cancel (l : Link α) (ticket : Nat) : Link α :=
  { l with
    slot := l.slot.map fun p => if p.ticket = ticket then { p with awaited := false } else p
    line := l.line.filter fun p => p.ticket ≠ ticket }

/-- One more sending handle. -/
def cloneOffer (l : Link α) : Link α := { l with offers := l.offers + 1 }

/-- A sending handle can be given up: no send under way loses its last one. -/
def canDropOffer (l : Link α) : Bool := 2 ≤ l.offers || l.unfinished.isEmpty

/-- One sending handle less. -/
def dropOffer (l : Link α) : Link α := { l with offers := l.offers - 1 }

end Link

end Steward

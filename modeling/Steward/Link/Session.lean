import Steward.Link.Basic

/-!
# Link/Session — a link between a set of senders and one receiver

Senders are tasks, or threads that block; the ticket of each is its place in the order in which they
start.  A client knows its tasks by numbers of their own: a thread has none.  After each operation
everything comes to rest: a sender whose turn it is has put its item into the slot.
-/

namespace Steward.Link

/-- A link with its ends. -/
structure Session (α : Type) where
  link : Link α
  /-- The sending end is still there; senders under way keep the link open without it. -/
  offering : Bool
  /-- The receiving end is still there. -/
  taking : Bool
  /-- How many senders were started. -/
  started : Nat
  /-- The tickets of the tasks, by number. -/
  tasks : List Nat

namespace Session

variable {α : Type}

/-- Both ends of an empty link. -/
def fresh : Session α := ⟨.fresh, true, true, 0, []⟩

/-- What may be done with a link. -/
inductive Op (α : Type) where
  /-- Start one task for each item. -/
  | send (items : List α)
  /-- Look for an item once. -/
  | take
  /-- Withdraw the task with this number. -/
  | cancel (number : Nat)
  | close
  | dropTake
  | dropOffer
  | isClosed
  /-- Send from a thread that waits; the receiver may take one item meanwhile. -/
  | sendBlocking (item : α) (taking : Bool)

/-- The answer to an operation. -/
inductive Answer (α : Type) where
  | silent
  | started
  | noOffer
  | noTake
  | got (item : α)
  | pending
  | ended
  | flag (b : Bool)
  /-- What the receiver got, and how the send ended; a send that still waits has no end. -/
  | blocking (got : Option α) (result : Option SendResult)

/-- The senders that finished, with their results. -/
abbrev Done := List (Nat × SendResult)

/-- The senders of a list all end in the same way and give up their handles. -/
def finish (s : Session α) (tickets : List Nat) (r : SendResult) : Session α × Done :=
  ({ s with link := tickets.foldl (fun l _ => l.dropOffer) s.link }, tickets.map (·, r))

/-- The sender whose turn it is puts its item into the slot. -/
def settle (s : Session α) : Session α := { s with link := s.link.enter }

/-- Start one sender. -/
def sendOne (s : Session α) (item : α) : Session α × Done :=
  let link := s.link.cloneOffer.send ⟨s.started, item⟩
  let s' := { s with link := link, started := s.started + 1 }
  if s.link.closed then s'.finish [s.started] .closed else (s', [])

/-- Start tasks in order. -/
def sendAll (s : Session α) : List α → Session α × Done
  | [] => (s, [])
  | a :: as =>
    let (s₁, done₁) := s.sendOne a
    let (s₂, done₂) := { s₁ with tasks := s₁.tasks ++ [s.started] }.sendAll as
    (s₂, done₁ ++ done₂)

/-- Take the item in the slot, if any; its sender is done. -/
def takeOne (s : Session α) : Session α × Option α × Done :=
  match s.link.slot with
  | none => (s, none, [])
  | some p =>
    let (s', done) := { s with link := s.link.take }.finish s.link.waiting?.toList .taken
    (s'.settle, some p.item, done)

/-- Close the link; every sender under way is refused. -/
def close (s : Session α) : Session α × Done :=
  { s with link := s.link.close }.finish s.link.unfinished .closed

/-- Withdraw a sender that is under way. -/
def cancel (s : Session α) (ticket : Nat) : Session α :=
  if ticket ∈ s.link.unfinished then
    { s with link := (s.link.cancel ticket).dropOffer }.settle
  else s

/-- One operation, with its answer and the senders it finished. -/
def step (s : Session α) : Op α → Session α × Answer α × Done
  | .send items =>
    if s.offering then
      let (s', done) := s.sendAll items
      (s', .started, done)
    else (s, .noOffer, [])
  | .take =>
    if s.taking then
      match s.link.poll with
      | .item p => let (s', _, done) := s.takeOne; (s', .got p.item, done)
      | .pending => (s, .pending, [])
      | .ended => (s, .ended, [])
    else (s, .noTake, [])
  | .cancel number =>
    match s.tasks[number]? with
    | some ticket => (s.cancel ticket, .silent, [])
    | none => (s, .silent, [])
  | .close =>
    if s.taking then let (s', done) := s.close; (s', .silent, done) else (s, .noTake, [])
  | .dropTake =>
    if s.taking then
      let (s', done) := s.close
      ({ s' with taking := false }, .flag true, done)
    else (s, .flag false, [])
  | .dropOffer =>
    if s.offering then ({ s with link := s.link.dropOffer, offering := false }, .flag true, [])
    else (s, .flag false, [])
  | .isClosed => (s, if s.offering then .flag s.link.closed else .silent, [])
  | .sendBlocking item taking =>
    if s.offering then
      let (s₁, done₁) := s.sendOne item
      let (s₂, got, done₂) := if taking && s.taking then s₁.takeOne else (s₁, none, [])
      (s₂, .blocking got ((done₁ ++ done₂).lookup s.started), done₁ ++ done₂)
    else (s, .noOffer, [])

/-- The state after a list of operations. -/
def after (s : Session α) (ops : List (Op α)) : Session α := ops.foldl (fun s op => (s.step op).1) s

/-- The tasks among the senders, by number. -/
def numbered (s : Session α) (done : Done) : Done :=
  done.filterMap fun d => (s.tasks.idxOf? d.1).map (·, d.2)

/-- The answers to a list of operations, with the tasks each of them finished. -/
def run (s : Session α) : List (Op α) → List (Answer α × Done)
  | [] => []
  | op :: ops =>
    let (s', answer, done) := s.step op
    (answer, s'.numbered done) :: run s' ops

end Session

end Steward.Link

import Steward.Bridge.Move

/-!
# Bridge/Action — what happens between the moves of a bridge

The host's side publishes the outcome of the start, in two steps, and offers control events.  The
handler takes requests, offers statuses, gives up its streams and ends.  Each is one indivisible
`Action`; between any two of them the bridge may or may not get to run, so the histories of a run are
the lists of `Step`s.

* A bridge that looks at its arms may be overtaken by others between two looks.  A look in vain is an
  action of its own, `pass`: nobody sees it, but what comes to that arm from then on has to wait.
* The handler may give its requests to another task.  They are then taken or given up by whoever has
  them, also when the handler has ended.

An action that cannot happen in the present state changes nothing: only a running handler ends,
requests are taken and given up by those who have them, events and statuses are only sent through a
sending handle, and the last handle of a link stays as long as a send through it is under way.
-/

namespace Steward.Bridge

variable {σ : Type}

/-- Something that happens to a run while the bridge makes no move. -/
inductive Action where
  /-- The bridge looks at the arm whose turn it is, in vain, and goes on to the next. -/
  | pass
  /-- An outcome of the start is put down; only the first one counts. -/
  | store (o : Outcome)
  /-- Who put down the outcome that counts sets dispatcher-ready. -/
  | announce
  /-- Somebody else takes the outcome of the start. -/
  | steal
  /-- A sender comes to the control link. -/
  | offerControl (ticket : Nat) (e : ControlEvent)
  /-- The sender whose turn it is puts its event into the control link. -/
  | enterControl
  /-- There is one more sending handle for control events. -/
  | cloneControl
  /-- A sending handle for control events is given up. -/
  | dropControl
  /-- A sender comes to the status link. -/
  | offerStatus (ticket : Nat) (s : Status)
  /-- A sender comes to the status link and joins the line, also if the slot is free. -/
  | lineUpStatus (ticket : Nat) (s : Status)
  /-- The sender whose turn it is puts its status into the status link. -/
  | enterStatus
  /-- A sender is withdrawn from the status link. -/
  | cancelStatus (ticket : Nat)
  /-- There is one more sending handle for statuses. -/
  | cloneUpdates
  /-- A further sending handle for statuses is given up. -/
  | dropClone
  /-- The handler gives its requests to another task. -/
  | lendRequests
  /-- Who has the handler's requests takes one, if there is one. -/
  | takeRequest
  /-- Who has the handler's requests gives them up. -/
  | dropRequests
  /-- The handler gives up its own sending handle for statuses. -/
  | dropUpdates
  /-- The handler ends. -/
  | finish (c : Completion)

/-- It has to do with the outcome of the start. -/
def Action.concernsStart : Action → Bool
  | .store _ | .announce | .steal => true
  | _ => false

/-- The handler is there and has not ended. -/
def handlerRuns (b : Bridge σ) : Bool := b.handler == .running

/-- Somebody may have the handler's requests: the handler itself, or the task it gave them to. -/
def hasTaker (b : Bridge σ) : Bool := b.handlerRuns || b.lent

/-- There is a sending handle for statuses. -/
def canSend (b : Bridge σ) : Bool := b.updates.offers != 0

/-- A sending handle for statuses can be given up: no send under way loses its last one. -/
def canDropHandle (b : Bridge σ) : Bool := b.updates.canDropOffer

/-- The handler can give up its own sending handle for statuses, or has done so. -/
def canLetGo (b : Bridge σ) : Bool := !b.holdsUpdates || b.canDropHandle

/-- There is a sending handle for control events. -/
def canControl (b : Bridge σ) : Bool := b.control.offers != 0

/-- A driving bridge goes on to the next arm, unless the one whose turn it is has something. -/
def pass (b : Bridge σ) : Bridge σ :=
  match b.stage with
  | .driving d => if b.armMove? d b.arm = none then { b with arm := b.arm.next } else b
  | _ => b

/-- A sender comes to the control link. -/
def offerControl (b : Bridge σ) (ticket : Nat) (e : ControlEvent) : Bridge σ :=
  { b with
    control := b.control.send ⟨ticket, e⟩
    log := b.log ++ if b.control.closed then [.controlSent ticket .closed] else [] }

/-- A sender comes to the status link. -/
def offerStatus (b : Bridge σ) (ticket : Nat) (s : Status) : Bridge σ :=
  { b with
    updates := b.updates.send ⟨ticket, s⟩
    log := b.log ++ if b.updates.closed then [.statusSent ticket .closed] else [] }

/-- A sender comes to the status link and joins the line, also if the slot is free. -/
def lineUpStatus (b : Bridge σ) (ticket : Nat) (s : Status) : Bridge σ :=
  { b with
    updates := b.updates.lineUp ⟨ticket, s⟩
    log := b.log ++ if b.updates.closed then [.statusSent ticket .closed] else [] }

/-- The end of the request under way, if it is on the handler's link. -/
def resolve (b : Bridge σ) (r : SendResult) : Bridge σ :=
  match b.stage with
  | .driving d =>
    match d.mailbox with
    | .holding command .placed =>
      { b with stage := .driving { d with mailbox := .holding command (.resolved r) } }
    | _ => b
  | _ => b

/-- The request on the handler's link is taken, if there is one. -/
def takeRequest (b : Bridge σ) : Bridge σ :=
  match b.requests.slot with
  | some p => ({ b with requests := b.requests.take }.note (.delivered p.item)).resolve .taken
  | none => b

/-- The handler's requests are given up. -/
def dropRequests (b : Bridge σ) : Bridge σ :=
  { b with requests := b.requests.close }.resolve .closed

/-- The handler gives up its own sending handle for statuses, if it still has it. -/
def dropUpdates (b : Bridge σ) : Bridge σ :=
  if b.holdsUpdates then { b with updates := b.updates.dropOffer, holdsUpdates := false } else b

/-- The handler gives up its requests, if it still has them. -/
def leaveRequests (b : Bridge σ) : Bridge σ := if b.lent then b else b.dropRequests

/-- The handler ends; what it still has of its streams goes with it. -/
def finishHandler (b : Bridge σ) (c : Completion) : Bridge σ :=
  { b.leaveRequests.dropUpdates with handler := .ended c }

/-- The state after an action. -/
def act (b : Bridge σ) : Action → Bridge σ
  | .pass => b.pass
  | .store o => { b with handshake := (b.handshake.store o).1 }
  | .announce =>
    if b.handshake.isStored then { b with handshake := b.handshake.announce } else b
  | .steal => { b with handshake := b.handshake.poll.1 }
  | .offerControl ticket e => if b.canControl then b.offerControl ticket e else b
  | .enterControl => { b with control := b.control.enter }
  | .cloneControl => if b.canControl then { b with control := b.control.cloneOffer } else b
  | .dropControl =>
    if b.control.canDropOffer then { b with control := b.control.dropOffer } else b
  | .offerStatus ticket s => if b.canSend then b.offerStatus ticket s else b
  | .lineUpStatus ticket s => if b.canSend then b.lineUpStatus ticket s else b
  | .enterStatus => { b with updates := b.updates.enter }
  | .cancelStatus ticket => { b with updates := b.updates.cancel ticket }
  | .cloneUpdates =>
    if b.canSend then { b with updates := b.updates.cloneOffer, clones := b.clones + 1 } else b
  | .dropClone =>
    if b.clones != 0 && b.canDropHandle then
      { b with updates := b.updates.dropOffer, clones := b.clones - 1 }
    else b
  | .lendRequests => if b.handlerRuns then { b with lent := true } else b
  | .takeRequest => if b.hasTaker then b.takeRequest else b
  | .dropRequests => if b.hasTaker then b.dropRequests else b
  | .dropUpdates => if b.handlerRuns && b.canLetGo then b.dropUpdates else b
  | .finish c => if b.handlerRuns && b.canLetGo then b.finishHandler c else b

/-- One step of a run: the bridge makes its next move, or something happens in between. -/
inductive Step where
  | move
  | act (a : Action)

/-- The state after a step. -/
def step [StatusHost σ] (b : Bridge σ) : Step → Bridge σ
  | .move =>
    match b.next? with
    | some m => b.perform m
    | none => b
  | .act a => b.act a

/-- The state after a history. -/
def after [StatusHost σ] (b : Bridge σ) (history : List Step) : Bridge σ := history.foldl step b

@[simp] theorem after_nil [StatusHost σ] (b : Bridge σ) : b.after [] = b := rfl

theorem after_append [StatusHost σ] (b : Bridge σ) (h₁ h₂ : List Step) :
    b.after (h₁ ++ h₂) = (b.after h₁).after h₂ := List.foldl_append

end Steward.Bridge

import Steward.Bridge.Session

/-!
# Bridge/Session/Turn — what an actor does when it is its turn

An actor whose turn it is goes on until it has to wait: the bridge makes moves, the handler does
steps, a sender tries to put its item into the link.  A handler that has been given its share in one
turn steps aside, and goes on where it was when it is called back.  `settle` gives turns until
nobody is left on the rota.
-/

namespace Steward.Bridge.Session

variable {σ : Type}

/-- The bridge runs until it can only wait. -/
def runBridge [StatusHost σ] (s : Session σ) : Session σ :=
  match _h : s.bridge.next? with
  | none => s
  | some m => ({ s with bridge := s.bridge.perform m }.wakeAll (s.woken m)).runBridge
termination_by s.bridge.potential
decreasing_by
  rw [bridge_wakeAll]
  exact potential_perform _h

/-- The handler is given something, which uses up some of its share. -/
def spend (s : Session σ) : Session σ := { s with share := s.share - 1 }

/-- A step of the handler has come to its end. -/
def answer (s : Session σ) (number : Nat) (r : HandlerResult) : Session σ :=
  { s with doing := .idle, results := s.results ++ [(number, r)] }

/-- The handler ends. -/
def endHandler (s : Session σ) (c : Completion) : Session σ :=
  { s.act (.finish c) with doing := .ended, steps := [] }

/-- The handler waits for something, or steps aside if it could not be given it now. -/
def await (s : Session σ) (doing : Doing) : Session σ :=
  if s.share = 0 then { s.stepAside with doing := doing }
  else { s with doing := doing, listens := true }

/-- The handler has come with a status, and hears that it came too late, or waits for it to be
taken.  The slot is part of its share; a refusal and a place in line are not. -/
def awaitTaken (s : Session σ) (number : Nat) : Session σ :=
  match s.bridge.statusResult? number with
  | some r => s.answer number (.sent r)
  | none =>
    if s.bridge.updates.waiting? = some number then s.spend.await (.sending number)
    else { s with doing := .inLine number }

/-- The handler sends a status.  Without a share left it joins the line and steps aside; nobody
passes it meanwhile, but its item does not enter either. -/
def send (s : Session σ) (number : Nat) (st : Status) : Session σ :=
  if s.share = 0 then
    let s' := s.act (.lineUpStatus number st)
    { s'.stepAside with doing := .inLine number }
  else (s.act (.offerStatus number st)).awaitTaken number

/-- The handler looks for a request once.  Without a share left it finds nothing. -/
def look (s : Session σ) (number : Nat) (pending : Session σ) : Session σ :=
  if s.share = 0 then pending
  else
    match s.bridge.requests.poll with
    | .item p => (s.spend.act .takeRequest).answer number (.request p.item)
    | .ended => s.spend.answer number .ended
    | .pending => pending

/-- The handler begins a step. -/
def begin (s : Session σ) (number : Nat) : HandlerStep → Session σ
  | .receive =>
    if s.bridge.requests.closed then s.answer number .noRequests
    else s.look number (s.await (.receiving number))
  | .poll =>
    if s.bridge.requests.closed then s.answer number .noRequests
    else s.look number (s.answer number .pending)
  | .send st =>
    if s.bridge.holdsUpdates then s.send number st else s.answer number .noUpdates
  | .isClosed =>
    s.answer number
      (if s.bridge.holdsUpdates then .flag s.bridge.updates.closed else .unknown)
  | .dropRequests => (s.act .dropRequests).answer number (.flag !s.bridge.requests.closed)
  | .dropUpdates => (s.act .dropUpdates).answer number (.flag s.bridge.holdsUpdates)
  | .exit e => s.endHandler (.exited e)
  | .panic p => s.endHandler (.panicked p.message)
  | .hang => { s.answer number .hanging with doing := .hanging }

/-- The handler does steps until it has to wait, or its share is used up.  With nothing to do, and
nothing to come, it ends. -/
def runSteps (s : Session σ) : List (Nat × HandlerStep) → Session σ
  | [] =>
    if s.share = 0 then { s.stepAside with steps := [], doing := .idle }
    else if s.stepsOpen then { s with steps := [], doing := .idle }
    else s.endHandler (.exited .success)
  | (number, step) :: rest =>
    if s.share = 0 then { s.stepAside with steps := (number, step) :: rest, doing := .idle }
    else
      let s' := { s.spend with steps := rest }.begin number step
      if s'.doing = .idle then s'.runSteps rest else s'

/-- The handler runs until it has to wait. -/
def runHandler (s : Session σ) : Session σ :=
  let s := { s with share := Rota.allowance }
  match s.doing with
  | .unstarted =>
    let s := if s.keepsAux then { s.act .cloneUpdates with holdsAux := true } else s
    s.runSteps s.steps
  | .idle => s.runSteps s.steps
  | .receiving number =>
    let s' := s.look number (s.await (.receiving number))
    if s'.doing = .idle then s'.runSteps s.steps else s'
  | .inLine number =>
    match s.bridge.statusResult? number with
    | some r => (s.answer number (.sent r)).runSteps s.steps
    | none =>
      if s.bridge.updates.granted? = some number then (s.act .enterStatus).awaitTaken number else s
  | .sending number =>
    match s.bridge.statusResult? number with
    | some r => (s.spend.answer number (.sent r)).runSteps s.steps
    | none => s.await (.sending number)
  | .hanging | .ended => s

/-- A sender on the control link gives up its handle when it is done. -/
def retireControl (s : Session σ) (number : Nat) : Session σ :=
  if (s.bridge.controlResult? number).isSome then s.act .dropControl else s

/-- A sender on the control link runs until it has to wait. -/
def runControl (s : Session σ) (number : Nat) : Session σ :=
  match s.newControls.lookup number with
  | some e =>
    ({ s with newControls := s.newControls.filter (·.1 != number) }.act
      (.offerControl number e)).retireControl number
  | none =>
    if s.bridge.control.granted? = some number then s.act .enterControl
    else s.retireControl number

/-- A sender on the status link gives up its handle when it is done. -/
def retireAux (s : Session σ) (number : Nat) : Session σ :=
  if (s.bridge.statusResult? number).isSome then s.act .dropClone else s

/-- A sender on the status link runs until it has to wait. -/
def runAux (s : Session σ) (number : Nat) : Session σ :=
  match s.newStatuses.lookup number with
  | some st =>
    ({ s with newStatuses := s.newStatuses.filter (·.1 != number) }.act
      (.offerStatus number st)).retireAux number
  | none =>
    if s.bridge.updates.granted? = some number then s.act .enterStatus else s.retireAux number

/-- An actor runs until it has to wait. -/
def run [StatusHost σ] (s : Session σ) : Actor → Session σ
  | .bridge => s.runBridge
  | .handler => s.runHandler
  | .control number => s.runControl number
  | .aux number => s.runAux number

/-- At most `turns` actors run, one after the other. -/
def runQueue [StatusHost σ] (s : Session σ) : Nat → Session σ
  | 0 => s
  | turns + 1 =>
    match s.rota.next? with
    | none => { s with rota := .empty }
    | some (a, rota) => ({ s with rota := rota }.run a).runQueue turns

/-- More turns than can be needed: each step, each sender and each item asks for a few. -/
def turns (s : Session σ) : Nat :=
  16 * (s.rota.size + s.steps.length + s.newControls.length + s.newStatuses.length +
    s.bridge.control.unfinished.length + s.bridge.updates.unfinished.length + 8)

/-- Everybody runs until all have to wait. -/
def settle [StatusHost σ] (s : Session σ) : Session σ := s.runQueue s.turns

end Steward.Bridge.Session

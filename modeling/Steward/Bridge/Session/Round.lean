import Steward.Bridge.Session.Turn

/-!
# Bridge/Session/Round — doing things to a run and looking at what comes of it

A round is a list of operations from outside, done one after the other before anybody runs; then
everybody runs until all have to wait.  A `View` is what can be seen of a round.
-/

namespace Steward.Bridge.Session

variable {σ : Type}

/-- What may be done with a run from outside. -/
inductive Op where
  | start
  | publish (o : Outcome)
  /-- Ask for the outcome of the start beside the bridge. -/
  | steal
  /-- Send a control event for a call on the given thread. -/
  | control (caller : ThreadId) (call : ControlCall)
  | closeControl
  /-- Send a status through the further handle. -/
  | aux (s : Status)
  | dropAux
  /-- The handler is told nothing any more. -/
  | endSteps
  /-- The handler is told to do something. -/
  | tell (step : HandlerStep)

/-- The answer to an operation. -/
inductive Answer where
  | silent
  | already
  | flag (b : Bool)
  | number (n : Nat)
  | noLink
  | noAux
  | handlerGone

/-- One operation, before anybody runs. -/
def issue (s : Session σ) : Op → Session σ × Answer
  | .start =>
    if s.spawned then (s, .already) else ({ s with spawned := true }.wake .bridge, .silent)
  | .publish o => ((s.act (.store o)).act .announce, .flag (s.bridge.handshake.store o).2)
  | .steal =>
    (s.act .steal,
     match s.bridge.handshake.poll.2 with
     | .pending => .silent
     | .outcome _ => .flag true
     | .gone => .flag false)
  | .control caller call =>
    if s.offering then
      let e := (Guard.capture .home).stamp caller call
      ({ s.act .cloneControl with
         issued := s.issued + 1
         newControls := s.newControls ++ [(s.issued, e)] }.wake (.control s.issued),
       .number s.issued)
    else (s, .noLink)
  | .closeControl =>
    if s.offering then ({ s with offering := false }.act .dropControl, .flag true)
    else (s, .flag false)
  | .aux st =>
    if s.holdsAux then
      ({ s.act .cloneUpdates with
         issued := s.issued + 1
         auxNumbers := s.auxNumbers ++ [s.issued]
         newStatuses := s.newStatuses ++ [(s.issued, st)] }.wake (.aux s.issued),
       .number s.issued)
    else (s, .noAux)
  | .dropAux =>
    if s.holdsAux then
      ({ s with holdsAux := false }.act .dropClone, .flag true)
    else (s, .flag false)
  | .endSteps =>
    let s' := { s with stepsOpen := false }
    (if s.stepsOpen && s.doing == .idle then s'.wake .handler else s', .flag s.stepsOpen)
  | .tell step =>
    if s.stepsOpen && s.doing != .ended then
      let s' := { s with issued := s.issued + 1, steps := s.steps ++ [(s.issued, step)] }
      (if s.doing = .idle then s'.wake .handler else s', .number s.issued)
    else ({ s with issued := s.issued + 1 }, .handlerGone)

/-- Operations one after the other, before anybody runs. -/
def issueAll (s : Session σ) : List Op → Session σ × List Answer
  | [] => (s, [])
  | op :: ops =>
    let (s₁, a) := s.issue op
    let (s₂, as) := s₁.issueAll ops
    (s₂, a :: as)

/-- What can be seen of a round. -/
structure View where
  answers : List Answer
  log : List Happening
  /-- The handler's steps that came to their end. -/
  results : List (Nat × HandlerResult)
  /-- The further senders of statuses that are done. -/
  aux : List (Nat × SendResult)
  registered : Bool

/-- A round: operations, then everybody runs until all have to wait. -/
def round [StatusHost σ] (s : Session σ) (ops : List Op) : Session σ × View :=
  let (issued, answers) := s.issueAll ops
  let s' := issued.settle
  let log := s'.bridge.log.drop s.bridge.log.length
  (s', {
    answers := answers
    log := log
    results := s'.results.drop s.results.length
    aux := (statusesSent log).filter fun d => s'.auxNumbers.contains d.1
    registered := s'.bridge.registered })

/-- Rounds one after the other. -/
def rounds [StatusHost σ] (s : Session σ) : List (List Op) → Session σ × List View
  | [] => (s, [])
  | ops :: more =>
    let (s₁, v) := s.round ops
    let (s₂, vs) := s₁.rounds more
    (s₂, v :: vs)

end Steward.Bridge.Session

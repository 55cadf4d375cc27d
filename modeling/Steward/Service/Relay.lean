import Steward.Service.Feed
import Steward.Subscriber.Schedule

/-!
# Service/Relay — the listener of a run, step by step

The operations on a `Feed` let the listener read one event, and all workers run to their end.  In a run
the listener, each worker and whoever publishes get ahead in any order, and when the run is over the
listener is called off: it reads what is still on the bus, closes the queues, and is done when the workers
are.  The histories of a `Relay` are lists of such `Action`s, and what the operations on a feed do is such a
history (`absorb_eq_after`).

A relay remembers what went over the bus and who published it.  What comes from the audience, an
announcement or the report of a panic, is an *echo* of something told by the run.
-/

namespace Steward

/-- The event is about an observer. -/
def Event.isAboutObserver (e : Event) : Bool :=
  e.kind == .subscriberOverflow || e.kind == .subscriberPanicked

/-- Who published an event. -/
inductive Author where
  /-- The bridge, or the thread that runs the service. -/
  | run
  /-- A worker, or the listener for a member that dropped an event. -/
  | audience
  deriving DecidableEq

/-- An event went to the bus. -/
structure Airing where
  author : Author
  event : Event
  deriving DecidableEq

/-- How far the listener is. -/
inductive Relay.Stage where
  /-- It waits for events. -/
  | attending
  /-- It was called off and has not noticed. -/
  | called
  /-- It reads what is left. -/
  | draining
  /-- It has closed the queues. -/
  | gone
  deriving DecidableEq

/-- A bus, its listener and the audience behind it, in the course of a run. -/
structure Relay extends Feed where
  stage : Relay.Stage
  /-- What went to the bus, in order. -/
  aired : List Airing
  /-- What the listener handed on. -/
  heard : List Event
  /-- What became of that with the members. -/
  offered : List Offering
  /-- How many events the listener missed, for each time it was too slow. -/
  missed : List Nat

namespace Relay

/-- A fresh bus with a listener for these subscribers. -/
def ofList (subs : List Subscriber) (capacity : Nat) : Relay where
  toFeed := .ofList subs capacity
  stage := .attending
  aired := []
  heard := []
  offered := []
  missed := []

/-- What the run told. -/
def told (r : Relay) : List Event := (r.aired.filter (·.author = .run)).map (·.event)

/-- What came from the audience. -/
def echoes (r : Relay) : List Event := (r.aired.filter (·.author = .audience)).map (·.event)

/-- Where the listener goes on when it finds nothing to read. -/
def Stage.idle : Stage → Stage
  | attending => attending
  | called => draining
  | draining | gone => gone

/-- One thing that happens between the bus and the audience. -/
inductive Action where
  /-- The run tells of an event.  It does so no more when the listener was called off. -/
  | tell (e : Event)
  /-- The listener looks at the bus. -/
  | listen
  /-- One worker gets ahead. -/
  | advance (member : Nat)
  /-- The workers run until they can only wait. -/
  | work
  /-- A member gets permits. -/
  | permit (member n : Nat)
  /-- The listener is called off. -/
  | callOff
  /-- The listener notices, though there may be something to read. -/
  | notice

/-- The run itself does this. -/
def Action.isOfRun : Action → Bool
  | .tell _ | .callOff => true
  | .listen | .advance _ | .work | .permit _ _ | .notice => false

/-- The run publishes an event. -/
def tell (r : Relay) (e : Event) : Relay :=
  if r.stage = .attending then
    { r with toFeed := r.publish e, aired := r.aired ++ [⟨.run, e⟩] }
  else r

/-- Something was published for the audience. -/
def echo (r : Relay) (feed : Feed) (published : List Event) : Relay :=
  { r with toFeed := feed, aired := r.aired ++ published.map (.mk .audience) }

/-- The listener looks at the bus once, unless it has closed the queues. -/
def listen (r : Relay) : Relay :=
  if r.stage = .gone then r
  else
    match (r.bus.receive r.listener).2 with
    | some (.event e) =>
      { r.echo r.toFeed.listen (r.audience.emit e).2 with
        heard := r.heard ++ [e]
        offered := r.offered ++ r.audience.offerings e }
    | some (.lagged n) => { r with toFeed := r.toFeed.listen, missed := r.missed ++ [n] }
    | _ => { r with toFeed := r.toFeed.listen, stage := r.stage.idle }

/-- One worker gets ahead, if it can. -/
def advance (r : Relay) (member : Nat) : Relay :=
  let (audience, published) := r.audience.advance member
  r.echo { r.toFeed with bus := r.bus.publishAll published, audience := audience } published

/-- The state after an action. -/
def act (r : Relay) : Action → Relay
  | .tell e => r.tell e
  | .listen => r.listen
  | .advance member => r.advance member
  | .work => r.echo r.toFeed.work r.audience.run.2
  | .permit member n => { r with audience := r.audience.permit member n }
  | .callOff => if r.stage = .attending then { r with stage := .called } else r
  | .notice => if r.stage = .called then { r with stage := .draining } else r

/-- The state after a history. -/
def after (r : Relay) (history : List Action) : Relay := history.foldl act r

theorem after_append (r : Relay) (h₁ h₂ : List Action) :
    r.after (h₁ ++ h₂) = (r.after h₁).after h₂ := List.foldl_append

/-- The queues are closed and nothing is left for any worker: the listener is done. -/
def isOver (r : Relay) : Bool :=
  r.stage = .gone && r.audience.members.all (·.worker.isFinished)

/-! ## Operations on a feed -/

/-- The actions of turns: the listener and the workers, as often as there is something to read. -/
def turns (f : Feed) : Nat → List Action
  | 0 => []
  | n + 1 => if f.hasNews then .listen :: .work :: turns f.listen.work n else []

/-- The actions by which events are absorbed one after the other. -/
def absorbing (f : Feed) : List Event → List Action
  | [] => []
  | e :: es => .tell e :: turns (f.publish e) 1 ++ absorbing ((f.publish e).turn 1) es

theorem toFeed_listen {r : Relay} (h : r.stage ≠ .gone) : r.listen.toFeed = r.toFeed.listen := by
  unfold listen
  rw [if_neg h]
  split <;> rfl

theorem stage_listen {r : Relay} (h : r.stage = .attending) : r.listen.stage = .attending := by
  unfold listen
  rw [if_neg (by simp [h])]
  split
  · exact h
  · exact h
  · exact congrArg Stage.idle h

theorem turn_eq_after {r : Relay} (h : r.stage = .attending) (n : Nat) :
    (r.after (turns r.toFeed n)).toFeed = r.toFeed.turn n ∧
      (r.after (turns r.toFeed n)).stage = .attending := by
  induction n generalizing r with
  | zero => exact ⟨rfl, h⟩
  | succ n ih =>
    unfold turns Feed.turn
    split
    · have hlisten : r.listen.toFeed = r.toFeed.listen := toFeed_listen (by simp [h])
      have hwork : (r.listen.act .work).toFeed = r.toFeed.listen.work := by
        rw [← hlisten]
        rfl
      have hstays : (r.listen.act .work).stage = .attending := stage_listen h
      rw [← hwork]
      exact ih hstays
    · exact ⟨rfl, h⟩

/-- **To absorb events is a history.** -/
theorem absorb_eq_after {r : Relay} (h : r.stage = .attending) (es : List Event) :
    (r.after (absorbing r.toFeed es)).toFeed = r.toFeed.absorb es ∧
      (r.after (absorbing r.toFeed es)).stage = .attending := by
  induction es generalizing r with
  | nil => exact ⟨rfl, h⟩
  | cons e es ih =>
    have htell : (r.act (.tell e)).toFeed = r.publish e ∧ (r.act (.tell e)).stage = .attending := by
      simp [act, tell, h]
    obtain ⟨hturn, hstays⟩ := turn_eq_after htell.2 1
    have hlater := ih hstays
    rw [hturn, htell.1] at hlater
    have hsplit : r.after (absorbing r.toFeed (e :: es)) =
        ((r.act (.tell e)).after (turns (r.publish e) 1)).after
          (absorbing ((r.publish e).turn 1) es) := after_append _ _ _
    rw [hsplit]
    exact hlater

end Relay

end Steward

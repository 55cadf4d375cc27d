import Steward.Bridge.Basic
import Steward.Host.Report

/-!
# Bridge/Move — what a bridge does by itself

A bridge that gets to run makes one move after the other until it can only wait.  `next?` chooses
the move and `perform` makes it.  A bridge that drives the handler looks at its arms one after the
other and moves on the first that has something: first a control event, or the end of the request
under way, then a status, last the end of the handler.

* After each move it begins with the first arm anew.  What comes to an arm that it has just looked at
  in vain is seen when all others have been looked at.
* While a request is under way no control event is read.
* A flagged control event, a refused report and the end of the handler end the run; each cuts the
  handler off with `leave`, and exactly one last report follows.
* Each move uses up some `potential`, so a bridge always comes to rest (`potential_perform`).
-/

namespace Steward.Bridge

variable {σ : Type}

/-- A move of a bridge. -/
inductive Move where
  /-- The service was started: start the handler. -/
  | start (d : Dispatched)
  /-- The service was not started. -/
  | refuse (e : Option HostError)
  /-- Take a control event. -/
  | read (p : Placed ControlEvent)
  /-- Put the request under way onto the handler's link. -/
  | place (r : Request)
  /-- The request under way was taken, or can be taken no more. -/
  | settle (r : SendResult)
  /-- Take a status and report it. -/
  | relay (p : Placed Status)
  /-- No status will come any more. -/
  | endStatuses
  /-- The handler has ended. -/
  | complete (c : Completion)
  /-- Make the last report. -/
  | report
  | release
  deriving DecidableEq

/-- The move on what the mailbox is waiting for: a control event, or the request under way. -/
def mailboxMove? (b : Bridge σ) (d : Driving) : Option Move :=
  match d.mailbox with
  | .holding _ (.fresh r) => some (.place r)
  | .holding _ (.resolved r) => some (.settle r)
  | .holding _ .placed => none
  | .awaiting | .detached =>
    match b.control.slot with
    | some p => some (.read p)
    | none => none

/-- The move on what comes from the status link. -/
def statusMove? (b : Bridge σ) (d : Driving) : Option Move :=
  if d.statusesOpen then
    match b.updates.poll with
    | .item p => some (.relay p)
    | .ended => some .endStatuses
    | .pending => none
  else none

/-- The move on the end of the handler. -/
def completionMove? (b : Bridge σ) : Option Move :=
  match b.handler with
  | .ended c => some (.complete c)
  | _ => none

/-- The move on an arm. -/
def armMove? (b : Bridge σ) (d : Driving) : Arm → Option Move
  | .mailbox => b.mailboxMove? d
  | .status => b.statusMove? d
  | .completion => b.completionMove?

/-- The move of a bridge that drives the handler: on the first arm that has something, from the one whose
turn it is. -/
def drivingMove? (b : Bridge σ) (d : Driving) : Option Move :=
  (b.armMove? d b.arm).or ((b.armMove? d b.arm.next).or (b.armMove? d b.arm.next.next))

/-- The next move; `none` if the bridge can only wait. -/
def next? (b : Bridge σ) : Option Move :=
  match b.stage with
  | .waiting =>
    match b.handshake.poll.2 with
    | .pending => none
    | .outcome (.ok d) => some (.start d)
    | .outcome (.error e) => some (.refuse (some e))
    | .gone => some (.refuse none)
  | .driving d => b.drivingMove? d
  | .finishing _ _ _ => some .report
  | .releasing _ _ => some .release
  | .ended _ => none

/-- Cut the handler off and go on to the last report.  A request on the handler's link stays there
though nobody waits for it any more; every sender of a status is refused. -/
def leave (b : Bridge σ) (d : Driving) (exit : ExitCode) (handlerLeft : Bool) : Bridge σ :=
  { b with
    requests := { b.requests.cancel 0 with offers := 0 }
    updates := b.updates.close
    stage := .finishing d.handle exit handlerLeft
    log := b.log ++ b.updates.unfinished.map (.statusSent · .closed) }

/-- The exit code of a run whose report was refused. -/
def refusedExit (e : HostError) : ExitCode :=
  .ofService (e.code?.getD ExitCode.statusReportFailed)

/-- The service was started with a handle and arguments. -/
def start (b : Bridge σ) (d : Dispatched) : Bridge σ :=
  let b := { b with handshake := b.handshake.poll.1 }
  let b := b.publish ((Event.ofKind .dispatcherReady).withArgs d.args.length)
  let b := { b with
    requests := .fresh
    updates := .fresh
    stage := .driving ⟨d.handle, .awaiting, .stopped, true⟩
    arm := .mailbox
    handler := .running
    holdsUpdates := true
    args := some d.args }
  b.publish ((Event.ofKind .handlerStarted).withReason b.handlerName)

/-- The service was not started: nothing is ever reported. -/
def refuse (b : Bridge σ) (e : Option HostError) : Bridge σ :=
  let reason := (e.map HostError.message).getD "service never started"
  let b := { b with
    handshake := b.handshake.poll.1
    stage := .releasing (.notStarted e) .closeControl }
  b.publish ((Event.ofKind .registrationFailed).withReason reason)

/-- Take an event from the control link.  A flagged one ends the run; any other becomes a request,
or is dropped at once if nobody takes requests. -/
def read (b : Bridge σ) (d : Driving) (p : Placed ControlEvent) : Bridge σ :=
  let b := { b with
    arm := .mailbox
    control := b.control.take
    log := b.log ++ Happening.read p.item ::
      if p.awaited then [Happening.controlSent p.ticket .taken] else [] }
  match p.item.error with
  | some code =>
    (b.publish ((Event.ofKind .affinityViolation).withExit (.ofService code))).leave d
      (.ofService code) true
  | none =>
    let b := b.publishCommand .controlReceived p.item.command
    match d.mailbox with
    | .detached => b.publishCommand .requestDropped p.item.command
    | _ =>
      let mailbox := Mailbox.holding p.item.command (.fresh (p.item.request d.current))
      { b with stage := .driving { d with mailbox := mailbox } }

/-- Put the request under way onto the handler's link.  The bridge goes on looking at it. -/
def place (b : Bridge σ) (d : Driving) (command : Command) (r : Request) : Bridge σ :=
  let delivery := if b.requests.closed then .resolved .closed else .placed
  { b with
    arm := .mailbox
    requests := b.requests.send ⟨0, r⟩
    stage := .driving { d with mailbox := .holding command delivery } }

/-- The request under way came to its end. -/
def settle (b : Bridge σ) (d : Driving) (command : Command) (r : SendResult) : Bridge σ :=
  match r with
  | .taken =>
    { b with arm := .mailbox, stage := .driving { d with mailbox := .awaiting } }.publishCommand
      .requestDelivered command
  | .closed =>
    { b with arm := .mailbox, stage := .driving { d with mailbox := .detached } }.publishCommand
      .requestDropped command

/-- Take a status and report it.  A refused report ends the run. -/
def relay [StatusHost σ] (b : Bridge σ) (d : Driving) (p : Placed Status) : Bridge σ :=
  let record := Record.ofStatus p.item .success
  let answer := StatusHost.report b.host d.handle record
  let b := { b with
    arm := .mailbox
    host := answer.1
    updates := b.updates.take
    log := b.log ++ (if p.awaited then [Happening.statusSent p.ticket .taken] else []) ++
      [Happening.reported (.relayed p.ticket p.item) d.handle record answer.2] }
  match answer.2 with
  | .ok () =>
    { b with stage := .driving { d with current := p.item } }.publish
      ((Event.ofKind .statusReported).withState p.item.state)
  | .error e =>
    (b.publish ((((Event.ofKind .statusReportFailed).withState p.item.state).withExit
      (refusedExit e)).withReason e.message)).leave d (refusedExit e) true

/-- The handler has ended, and the run with it. -/
def complete (b : Bridge σ) (d : Driving) (c : Completion) : Bridge σ :=
  let e := match c with
    | .exited exit => (Event.ofKind .handlerExited).withExit exit
    | .panicked info => ((Event.ofKind .handlerPanicked).withExit c.exit).withReason info
  (b.publish e).leave d c.exit false

/-- Make the last report; it is made once, whatever the host says. -/
def finish [StatusHost σ] (b : Bridge σ) (handle : Handle) (exit : ExitCode)
    (handlerLeft : Bool) : Bridge σ :=
  let record := Record.ofStatus .stopped exit
  let answer := StatusHost.report b.host handle record
  let e := (Event.ofKind .finalStatusReported).withExit exit
  let e := match answer.2 with
    | .ok () => e
    | .error err => e.withReason err.message
  let b := { b with
    host := answer.1
    stage := .releasing (.stopped exit handlerLeft) .closeControl
    log := b.log ++ [Happening.reported (.final exit) handle record answer.2] }
  b.publish e

/-- Give back one thing after the other: the control link, the registration, and last the news
that the bridge has stopped. -/
def release (b : Bridge σ) (ending : Ending) : Release → Bridge σ
  | .closeControl =>
    { b with
      control := b.control.close
      stage := .releasing ending .deregister
      log := b.log ++ b.control.unfinished.map (.controlSent · .closed) }
  | .deregister => { b with registered := false, stage := .releasing ending .announce }
  | .announce =>
    { b with stage := .releasing ending .signal }.publish (.ofKind .bridgeStopped)
  | .signal => { b with handshake := b.handshake.stop, stage := .ended ending }

/-- The state after a move.  A move that does not fit the stage changes nothing. -/
def perform [StatusHost σ] (b : Bridge σ) (m : Move) : Bridge σ :=
  match b.stage, m with
  | .waiting, .start d => b.start d
  | .waiting, .refuse e => b.refuse e
  | .driving d, .read p => b.read d p
  | .driving d, .place r =>
    match d.mailbox with
    | .holding command _ => b.place d command r
    | _ => b
  | .driving d, .settle r =>
    match d.mailbox with
    | .holding command _ => b.settle d command r
    | _ => b
  | .driving d, .relay p => b.relay d p
  | .driving d, .endStatuses =>
    { b with arm := .mailbox, stage := .driving { d with statusesOpen := false } }
  | .driving d, .complete c => b.complete d c
  | .finishing handle exit left, .report => b.finish handle exit left
  | .releasing ending next, .release => b.release ending next
  | _, _ => b

/-! ## Coming to rest -/

/-- What a delivery still asks of the bridge. -/
def Delivery.weight : Delivery → Nat
  | .fresh _ => 3
  | .placed => 2
  | .resolved _ => 1

/-- What a mailbox still asks of the bridge. -/
def Mailbox.weight : Mailbox → Nat
  | .holding _ delivery => Delivery.weight delivery
  | .awaiting | .detached => 0

/-- How many things are still to be given back. -/
def Release.weight : Release → Nat
  | .closeControl => 4
  | .deregister => 3
  | .announce => 2
  | .signal => 1

/-- A bound on the moves a bridge can make without anything coming from outside. -/
def potential (b : Bridge σ) : Nat :=
  match b.stage with
  | .waiting => 40
  | .driving d =>
    20 + Mailbox.weight d.mailbox + (if b.control.slot.isSome then 4 else 0) +
      (if b.updates.slot.isSome then 1 else 0) + if d.statusesOpen then 1 else 0
  | .finishing _ _ _ => 10
  | .releasing _ next => Release.weight next
  | .ended _ => 0

/-- Publishing uses up nothing. -/
@[simp] theorem potential_publish (b : Bridge σ) (e : Event) :
    (b.publish e).potential = b.potential := rfl

/-- A bridge that has cut the handler off has little left to do. -/
@[simp] theorem potential_leave (b : Bridge σ) (d : Driving) (exit : ExitCode) (left : Bool) :
    (b.leave d exit left).potential = 10 := rfl

theorem potential_start (b : Bridge σ) (d : Dispatched) : (b.start d).potential < 40 := by
  simp only [start, potential_publish]
  simp only [potential, Mailbox.weight, Link.fresh]
  split <;> simp

theorem potential_read (b : Bridge σ) (d : Driving) (p : Placed ControlEvent)
    (hs : b.stage = .driving d) (hm : d.mailbox.isHolding = false) (hp : b.control.slot = some p) :
    (b.read d p).potential < b.potential := by
  have hb : b.potential = 24 + (if b.updates.slot.isSome then 1 else 0) +
      if d.statusesOpen then 1 else 0 := by
    cases h : d.mailbox <;> simp_all [Mailbox.isHolding, potential, Mailbox.weight]
  rw [hb]
  unfold read
  dsimp only
  split
  · rw [potential_leave]
    omega
  · split
    · rename_i h
      simp only [publishCommand, potential_publish]
      simp [potential, hs, Link.take, Mailbox.weight, h]
    · simp [potential, publishCommand, publish, note, Link.take, Mailbox.weight, Delivery.weight]

theorem potential_relay [StatusHost σ] (b : Bridge σ) (d : Driving) (p : Placed Status)
    (hs : b.stage = .driving d) (hp : b.updates.slot = some p) :
    (b.relay d p).potential < b.potential := by
  unfold relay
  dsimp only
  split
  · simp only [potential_publish]
    simp [potential, hs, hp, Link.take]
  · rw [potential_leave]
    simp [potential, hs, hp]
    omega

/-- The mailbox moves are the moves on a filled control slot and on an unresolved delivery. -/
theorem mailboxMove?_cases {b : Bridge σ} {d : Driving} {m : Move}
    (h : b.mailboxMove? d = some m) :
    (∃ c r, d.mailbox = .holding c (.fresh r) ∧ m = .place r) ∨
    (∃ c r, d.mailbox = .holding c (.resolved r) ∧ m = .settle r) ∨
    (∃ p, d.mailbox.isHolding = false ∧ b.control.slot = some p ∧ m = .read p) := by
  unfold mailboxMove? at h
  split at h
  · exact .inl ⟨_, _, ‹_›, (Option.some.inj h).symm⟩
  · exact .inr (.inl ⟨_, _, ‹_›, (Option.some.inj h).symm⟩)
  · simp at h
  all_goals
    split at h
    · exact .inr (.inr ⟨_, by simp [*, Mailbox.isHolding], ‹_›, (Option.some.inj h).symm⟩)
    · simp at h

/-- The status moves are the moves on a filled status slot and on the end of the statuses. -/
theorem statusMove?_cases {b : Bridge σ} {d : Driving} {m : Move}
    (h : b.statusMove? d = some m) :
    d.statusesOpen = true ∧
    ((∃ p, b.updates.slot = some p ∧ m = .relay p) ∨
      (b.updates.poll = .ended ∧ m = .endStatuses)) := by
  unfold statusMove? at h
  split at h
  · rename_i hopen
    refine ⟨hopen, ?_⟩
    cases hpoll : b.updates.poll with
    | item p =>
      rw [hpoll] at h
      refine .inl ⟨p, ?_, (Option.some.inj h).symm⟩
      unfold Link.poll at hpoll
      split at hpoll
      · rw [‹b.updates.slot = _›, Link.Poll.item.inj hpoll]
      · split at hpoll <;> cases hpoll
    | ended =>
      rw [hpoll] at h
      exact .inr ⟨rfl, (Option.some.inj h).symm⟩
    | pending =>
      rw [hpoll] at h
      cases h
  · cases h

/-- A driving bridge moves on an arm that has something, and on none that it looks at before. -/
theorem drivingMove?_cases {b : Bridge σ} {d : Driving} {m : Move} (h : b.drivingMove? d = some m) :
    b.mailboxMove? d = some m ∨
    ((b.arm ≠ .status → b.mailboxMove? d = none) ∧ b.statusMove? d = some m) ∨
    ((b.arm = .mailbox → b.mailboxMove? d = none) ∧ (b.arm ≠ .completion → b.statusMove? d = none) ∧
      b.completionMove? = some m) := by
  simp only [drivingMove?, Option.or_eq_some_iff] at h
  cases harm : b.arm <;> simp only [harm, Arm.next, armMove?] at h
  · rcases h with h | ⟨hm, h | ⟨hu, h⟩⟩
    · exact .inl h
    · exact .inr (.inl ⟨fun _ => hm, h⟩)
    · exact .inr (.inr ⟨fun _ => hm, fun _ => hu, h⟩)
  · rcases h with h | ⟨hu, h | ⟨-, h⟩⟩
    · exact .inr (.inl ⟨fun hne => absurd rfl hne, h⟩)
    · exact .inr (.inr ⟨Arm.noConfusion, fun _ => hu, h⟩)
    · exact .inl h
  · rcases h with h | ⟨-, h | ⟨hm, h⟩⟩
    · exact .inr (.inr ⟨Arm.noConfusion, fun hne => absurd rfl hne, h⟩)
    · exact .inl h
    · exact .inr (.inl ⟨fun _ => hm, h⟩)

/-- A driving bridge waits when no arm has anything. -/
theorem drivingMove?_eq_none {b : Bridge σ} {d : Driving} :
    b.drivingMove? d = none ↔
      b.mailboxMove? d = none ∧ b.statusMove? d = none ∧ b.completionMove? = none := by
  simp only [drivingMove?, Option.or_eq_none_iff]
  cases b.arm with
  | mailbox => exact .rfl
  | status => exact ⟨fun ⟨hu, hc, hm⟩ => ⟨hm, hu, hc⟩, fun ⟨hm, hu, hc⟩ => ⟨hu, hc, hm⟩⟩
  | completion => exact ⟨fun ⟨hc, hm, hu⟩ => ⟨hm, hu, hc⟩, fun ⟨hm, hu, hc⟩ => ⟨hc, hm, hu⟩⟩

/-- **Each move uses up some potential**, so a bridge cannot go on for ever by itself. -/
theorem potential_perform [StatusHost σ] {b : Bridge σ} {m : Move} (h : b.next? = some m) :
    (b.perform m).potential < b.potential := by
  cases hs : b.stage with
  | waiting =>
    simp only [next?, hs] at h
    have h40 : b.potential = 40 := by simp [potential, hs]
    split at h <;> simp only [Option.some.injEq, reduceCtorEq] at h <;> subst h <;>
      simp only [perform, hs, h40]
    · exact potential_start b _
    all_goals simp [refuse, potential, publish, note, Release.weight]
  | driving d =>
    simp only [next?, hs] at h
    rcases drivingMove?_cases h with h | ⟨-, h⟩ | ⟨-, -, h⟩
    · rcases mailboxMove?_cases h with ⟨c, r, hm, rfl⟩ | ⟨c, r, hm, rfl⟩ | ⟨p, hm, hp, rfl⟩
      · simp only [perform, hs, hm, place]
        split <;> simp [potential, hs, hm, Mailbox.weight, Delivery.weight]
      · simp only [perform, hs, hm]
        cases r <;> simp only [settle, publishCommand, potential_publish] <;>
          simp only [potential, hs, hm, Mailbox.weight, Delivery.weight] <;> omega
      · simp only [perform, hs]
        exact potential_read b d p hs hm hp
    · obtain ⟨hopen, ⟨p, hp, rfl⟩ | ⟨-, rfl⟩⟩ := statusMove?_cases h
      · simp only [perform, hs]
        exact potential_relay b d p hs hp
      · simp [perform, hs, potential, hopen]
    · unfold completionMove? at h
      split at h
      · obtain rfl := Option.some.inj h
        simp only [perform, hs, complete]
        rw [potential_leave]
        simp [potential, hs]
        omega
      · simp at h
  | finishing handle exit left =>
    simp only [next?, hs, Option.some.injEq] at h
    subst h
    simp [perform, hs, finish, potential, publish, note, Release.weight]
  | releasing ending next =>
    simp only [next?, hs, Option.some.injEq] at h
    subst h
    cases next <;> simp [perform, hs, release, potential, publish, note, Release.weight]
  | ended ending => simp [next?, hs] at h

end Steward.Bridge

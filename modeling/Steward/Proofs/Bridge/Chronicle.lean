import Steward.Proofs.Bridge.Cause

/-!
# Proofs/Bridge/Chronicle — the events of a run, from the first to the last

A run tells one story.  It is opened, then statuses and requests are told of, one event names the
cause of the end, and the last report and the stop of the bridge close it.  A service that was not
started has a story of two events.  `Chronicle` is the language of the complete stories, and `Story`
that of their beginnings up to the cause, in which each event about a request resolves the command
that was received before it.

`Written` says stage by stage how much of the story is there, and each move keeps it; what happens
from outside adds nothing.

* `written_after` — the events of a run are always the beginning of a story.
* `Written.complete_of_ended` — when the bridge has stopped the story is complete, and stays as it is
  (`after_ended`).
* `Story.dialogue` — the events with a command are received and resolved in turn.
-/

namespace Steward

namespace Event

/-! ## The parts of a story -/

/-- An event of a service about a command. -/
def about (service : String) (kind : EventKind) (c : Command) : Event :=
  ((ofKind kind).withCommand c).withService service

/-- The host agreed to a status. -/
def agreedTo (service : String) (s : ServiceState) : Event :=
  ((ofKind .statusReported).withState s).withService service

/-- The service was started with arguments, and the handler with it. -/
def opening (service handlerName : String) (args : List String) : List Event :=
  [((ofKind .dispatcherReady).withArgs args.length).withService service,
    ((ofKind .handlerStarted).withReason handlerName).withService service]

/-- The service was not started. -/
def unstarted (service : String) (e : Option HostError) : Event :=
  ((ofKind .registrationFailed).withReason
    ((e.map HostError.message).getD "service never started")).withService service

/-- The run has ended for a cause, and the last report was made with this answer. -/
def ended (service : String) (c : Cause) (answer : Except HostError Unit) : List Event :=
  [c.event service, (finalReport c.exit answer).withService service]

/-- The bridge has stopped. -/
def stopped (service : String) : Event := (ofKind .bridgeStopped).withService service

/-- The handler outlived its grace period. -/
def outlived (service : String) (grace? : Option Duration) : Event :=
  ((ofKind .graceExceeded).withService service).withGrace (grace?.getD .zero)

/-- **The story of a run before its end**: an opening, then statuses, and commands that are received
and resolved in turn, delivered until the first is dropped.  It has the commands delivered, those
dropped, and the one that was received and is not resolved. -/
inductive Story (service : String) :
    List Command → List Command → Option Command → List Event → Prop where
  | opened (handlerName : String) (args : List String) :
      Story service [] [] none (opening service handlerName args)
  | status {delivered dropped : List Command} {open? : Option Command} {es : List Event}
      (s : ServiceState) (h : Story service delivered dropped open? es) :
      Story service delivered dropped open? (es ++ [agreedTo service s])
  | received {delivered dropped : List Command} {es : List Event} (c : Command)
      (h : Story service delivered dropped none es) :
      Story service delivered dropped (some c) (es ++ [about service .controlReceived c])
  | delivered {delivered : List Command} {es : List Event} {c : Command}
      (h : Story service delivered [] (some c) es) :
      Story service (delivered ++ [c]) [] none (es ++ [about service .requestDelivered c])
  | dropped {delivered dropped : List Command} {es : List Event} {c : Command}
      (h : Story service delivered dropped (some c) es) :
      Story service delivered (dropped ++ [c]) none (es ++ [about service .requestDropped c])

/-- **The complete stories of a service**: it was not started, or it was and its run ended for a
cause.  A handler that was left by the end may outlive its grace period. -/
inductive Chronicle (service : String) : List Event → Prop where
  | unstarted (e : Option HostError) : Chronicle service [unstarted service e, stopped service]
  | ended {delivered dropped : List Command} {open? : Option Command} {es : List Event}
      (h : Story service delivered dropped open? es) (c : Cause) (answer : Except HostError Unit) :
      Chronicle service (es ++ ended service c answer ++ [stopped service])
  | outlived {delivered dropped : List Command} {open? : Option Command} {es : List Event}
      (h : Story service delivered dropped open? es) {c : Cause} (left : c.leavesHandler = true)
      (answer : Except HostError Unit) (grace? : Option Duration) :
      Chronicle service (es ++ ended service c answer ++
        [stopped service, outlived service grace?])

/-! ## What a story says -/

section Story

variable {service : String} {delivered dropped : List Command} {open? : Option Command}
  {es : List Event}

/-- A command that is received and resolved. -/
def exchange (service : String) (kind : EventKind) (c : Command) : List Event :=
  [about service .controlReceived c, about service kind c]

/-- Commands that are received and resolved one by one, those delivered first; the last one may be
open. -/
def dialogue (service : String) (delivered dropped : List Command) (open? : Option Command) :
    List Event :=
  delivered.flatMap (exchange service .requestDelivered) ++
    dropped.flatMap (exchange service .requestDropped) ++
    open?.toList.map (about service .controlReceived)

/-- **The events with a command are a dialogue.** -/
theorem Story.dialogue (h : Story service delivered dropped open? es) :
    es.filter (·.command.isSome) = dialogue service delivered dropped open? := by
  induction h with
  | opened => rfl
  | status s h ih =>
    rw [List.filter_append, ih]
    exact List.append_nil _
  | received c h ih =>
    rw [List.filter_append, ih]
    simp [Event.dialogue, about, ofKind, withCommand, withService]
  | delivered h ih | dropped h ih =>
    rw [List.filter_append, ih]
    simp [Event.dialogue, exchange, about, ofKind, withCommand, withService]

/-- The commands received are those delivered, those dropped, and the open one. -/
theorem Story.received_commands (h : Story service delivered dropped open? es) :
    commandsOf .controlReceived es = delivered ++ dropped ++ open?.toList := by
  induction h with
  | opened => rfl
  | status s h ih =>
    rw [commandsOf_append, ih]
    exact List.append_nil _
  | received c h ih | delivered h ih | dropped h ih =>
    rw [commandsOf_append, ih]
    simp [commandsOf, about, ofKind, withCommand, withService]

theorem Story.delivered_commands (h : Story service delivered dropped open? es) :
    commandsOf .requestDelivered es = delivered := by
  induction h with
  | opened => rfl
  | status s h ih | received c h ih | delivered h ih | dropped h ih =>
    rw [commandsOf_append, ih]
    simp [commandsOf, about, agreedTo, ofKind, withCommand, withState, withService]

theorem Story.dropped_commands (h : Story service delivered dropped open? es) :
    commandsOf .requestDropped es = dropped := by
  induction h with
  | opened => rfl
  | status s h ih | received c h ih | delivered h ih | dropped h ih =>
    rw [commandsOf_append, ih]
    simp [commandsOf, about, agreedTo, ofKind, withCommand, withState, withService]

/-- Before the cause of the end nothing is terminal. -/
theorem Story.terminals (h : Story service delivered dropped open? es) : terminals es = [] := by
  induction h with
  | opened => rfl
  | status s h ih | received c h ih | delivered h ih | dropped h ih =>
    rw [terminals_append, ih]
    rfl

/-- The end of a run has one terminal event, which names the cause. -/
theorem terminals_ended (service : String) (c : Cause) (answer : Except HostError Unit) :
    terminals (ended service c answer) = [c.event service] := by
  cases c <;> cases answer <;> rfl

/-- What follows the cause of the end is not terminal. -/
theorem Story.terminals_ended (h : Story service delivered dropped open? es) (c : Cause)
    (answer : Except HostError Unit) {news : List Event} (hnews : Event.terminals news = []) :
    Event.terminals (es ++ ended service c answer ++ news) = [c.event service] := by
  rw [terminals_append, terminals_append, h.terminals, Event.terminals_ended, hnews]
  rfl

/-- **A complete story has one terminal event.** -/
theorem Chronicle.terminals (h : Chronicle service es) : ∃ e, Event.terminals es = [e] := by
  cases h with
  | unstarted e => exact ⟨_, rfl⟩
  | ended h c answer => exact ⟨_, h.terminals_ended c answer rfl⟩
  | outlived h left answer grace? => exact ⟨_, h.terminals_ended _ answer rfl⟩

end Story

end Event

/-! ## How much of the story is there -/

/-- The command under way, until its end is told of. -/
def Mailbox.open? : Mailbox → Option Command
  | holding command _ => some command
  | awaiting | detached => none

/-- How the run ended, if all that is left is to give back what it held. -/
def Stage.closing? : Stage → Option Ending
  | releasing ending _ | ended ending => some ending
  | waiting | driving _ | finishing _ _ _ => none

/-- How many things are still to be given back, or five before it comes to that. -/
def Stage.held : Stage → Nat
  | releasing _ next => Bridge.Release.weight next
  | ended _ => 0
  | waiting | driving _ | finishing _ _ _ => 5

namespace Bridge

open Event (Story Chronicle)

variable {σ : Type} {b b' : Bridge σ} {d : Driving} {es : List Event}

/-- The stop of the bridge, once it is announced. -/
def farewell (name : String) (stage : Stage) : List Event :=
  if stage.held ≤ 1 then [Event.stopped name] else []

/-- **The story so far**, stage by stage. -/
inductive Written (name : String) (es : List Event) : Stage → Prop where
  | waiting (nothing : es = []) : Written name es .waiting
  | driving {d : Driving} {delivered dropped : List Command}
      (story : Story name delivered dropped d.mailbox.open? es)
      (kept : d.mailbox ≠ .detached → dropped = []) : Written name es (.driving d)
  | finishing {handle : Handle} {exit : ExitCode} {left : Bool} {delivered dropped : List Command}
      {open? : Option Command} {before : List Event} (c : Cause) (verdict : c.verdict = (exit, left))
      (story : Story name delivered dropped open? before)
      (events : es = before ++ [c.event name]) : Written name es (.finishing handle exit left)
  | stopped {stage : Stage} {exit : ExitCode} {left : Bool} {delivered dropped : List Command}
      {open? : Option Command} {before : List Event} (c : Cause)
      (closing : stage.closing? = some (.stopped exit left)) (verdict : c.verdict = (exit, left))
      (story : Story name delivered dropped open? before) (answer : Except HostError Unit)
      (events : es = before ++ Event.ended name c answer ++ farewell name stage) :
      Written name es stage
  | unstarted {stage : Stage} {e : Option HostError} (closing : stage.closing? = some (.notStarted e))
      (events : es = [Event.unstarted name e] ++ farewell name stage) : Written name es stage

/-- While the handler is driven the story has not come to an end. -/
theorem Written.story {name : String} {stage : Stage} (h : Written name es stage)
    (hs : stage = .driving d) : ∃ delivered dropped,
      Story name delivered dropped d.mailbox.open? es ∧ (d.mailbox ≠ .detached → dropped = []) := by
  subst hs
  cases h with
  | driving story kept => exact ⟨_, _, story, kept⟩
  | stopped c closing | unstarted closing => cases closing

/-! ## The end of a run -/

/-- From one state to another the handler is cut off for a cause, which is told. -/
structure Ends (b : Bridge σ) (d : Driving) (c : Cause) (b' : Bridge σ) : Prop where
  cut : b.CutsOff d c.exit c.leavesHandler b'
  told : events b'.log = events b.log ++ [c.event b.name]

theorem ends_read {p : Placed ControlEvent} {code : UInt32} (he : p.item.error = some code) :
    b.Ends d (.flagged code) (b.read d p) := ⟨cutsOff_read he, events_read_flagged b he⟩

theorem ends_relay [StatusHost σ] {p : Placed Status} {e : HostError}
    (hr : (StatusHost.report b.host d.handle (Record.ofStatus p.item .success)).2 = .error e) :
    b.Ends d (.refused p.item e) (b.relay d p) := by
  have hexit := refusedExit_eq p.item e
  refine ⟨hexit ▸ cutsOff_relay hr, ?_⟩
  rw [events_relay_refused b hr, hexit]
  rfl

theorem ends_complete (c : Completion) : b.Ends d c.cause (b.complete d c) := by
  cases c with
  | exited exit => exact ⟨cutsOff_complete (.exited exit), events_complete_exited b exit⟩
  | panicked info => exact ⟨cutsOff_complete (.panicked info), events_complete_panicked b info⟩

/-- **A move that ends a run ends it for a cause, and tells of it.** -/
theorem Makes.ends [StatusHost σ] {m : Move} (hm : b.Makes m b') (hs : b.stage = .driving d)
    (hv : b'.verdict?.isSome) : ∃ c, b.Ends d c b' := by
  have hdriving : ∀ {d'}, b'.stage ≠ .driving d' := fun hs' => by
    simp [verdict?, hs'] at hv
  have hsame : ∀ {d'}, b.stage = .driving d' → d' = d := fun hs' =>
    Stage.driving.inj (hs'.symm.trans hs)
  cases hm with
  | start hw | refuse hw | abandon hw => exact absurd (hw.symm.trans hs) (by simp)
  | report hf => exact absurd (hf.symm.trans hs) (by simp)
  | release hr => exact absurd (hr.symm.trans hs) (by simp)
  | place | endStatuses => exact absurd rfl hdriving
  | @settle d' c r => cases r <;> exact absurd rfl hdriving
  | @read d' p hs' hm =>
    obtain rfl := hsame hs'
    cases he : p.item.error with
    | some code => exact ⟨_, ends_read he⟩
    | none =>
      cases hmail : d'.mailbox with
      | holding => simp [hmail, Mailbox.isHolding] at hm
      | awaiting => exact absurd (goesOn_read_awaiting hmail he).stage hdriving
      | detached => exact absurd (goesOn_read_detached hs' hmail he).stage hdriving
  | @relay d' p hs' =>
    obtain rfl := hsame hs'
    cases hr : (StatusHost.report b.host d'.handle (Record.ofStatus p.item .success)).2 with
    | ok => exact absurd (goesOn_relay hr).stage hdriving
    | error e => exact ⟨_, ends_relay hr⟩
  | @complete d' c hs' =>
    obtain rfl := hsame hs'
    exact ⟨_, ends_complete c⟩

/-- The step that ends a run is told of by its cause. -/
theorem ends_of_over [StatusHost σ] (hs : b.stage = .driving d)
    (he : (b.step .move).verdict?.isSome) : ∃ c, b.Ends d c (b.step .move) := by
  cases hnext : b.next? with
  | none => simp [step, hnext, verdict?, hs] at he
  | some m =>
    simp only [step, hnext] at he ⊢
    exact (makes_perform hnext).ends hs he

/-! ## What the moves of the bridge keep -/

section Moves

variable (h : Written b.name (events b.log) b.stage)
include h

/-- Before the start nothing was told. -/
theorem Written.nothing (hs : b.stage = .waiting) : events b.log = [] := by
  rw [hs] at h
  cases h with
  | waiting nothing => exact nothing
  | stopped c closing | unstarted closing => cases closing

theorem Written.start (hs : b.stage = .waiting) (s : Dispatched) :
    Written b.name (events (b.start s).log) (b.start s).stage := by
  rw [events_start, h.nothing hs]
  exact .driving (.opened b.handlerName s.args) fun _ => rfl

theorem Written.refuse (hs : b.stage = .waiting) (e : Option HostError) :
    Written b.name (events (b.refuse e).log) (b.refuse e).stage := by
  rw [events_refuse, h.nothing hs]
  exact .unstarted rfl rfl

/-- A run that ends for a cause leaves the story to its end. -/
theorem Written.ends {c : Cause} (hs : b.stage = .driving d) (he : b.Ends d c b') :
    Written b.name (events b'.log) b'.stage := by
  obtain ⟨delivered, dropped, story, -⟩ := h.story hs
  rw [he.cut.stage, he.told]
  exact .finishing c rfl story rfl

theorem Written.read {p : Placed ControlEvent} (hs : b.stage = .driving d)
    (hm : d.mailbox.isHolding = false) :
    Written b.name (events (b.read d p).log) (b.read d p).stage := by
  obtain ⟨delivered, dropped, story, kept⟩ := h.story hs
  cases he : p.item.error with
  | some code => exact h.ends hs (ends_read he)
  | none =>
    cases hmail : d.mailbox with
    | holding => simp [hmail, Mailbox.isHolding] at hm
    | awaiting =>
      rw [hmail] at story kept
      rw [events_read_awaiting b hmail he, (goesOn_read_awaiting hmail he).stage]
      exact .driving (story.received p.item.command) fun _ => kept (by simp)
    | detached =>
      have hnone : d.mailbox.open? = none := by
        rw [hmail]
        rfl
      rw [hnone] at story
      have htold := (story.received p.item.command).dropped
      rw [List.append_assoc, ← hnone] at htold
      rw [events_read_detached b hmail he, (goesOn_read_detached hs hmail he).stage]
      exact .driving htold (absurd hmail)

theorem Written.settle {c : Command} {r : SendResult} (hs : b.stage = .driving d)
    (hm : d.mailbox = .holding c (.resolved r)) :
    Written b.name (events (b.settle d c r).log) (b.settle d c r).stage := by
  obtain ⟨delivered, dropped, story, kept⟩ := h.story hs
  obtain rfl := kept (by simp [hm])
  rw [hm] at story
  cases r with
  | taken =>
    rw [events_settle_taken, (goesOn_settle_taken c).stage]
    exact .driving story.delivered fun _ => rfl
  | closed =>
    rw [events_settle_closed, (goesOn_settle_closed c).stage]
    exact .driving story.dropped (absurd rfl)

theorem Written.relay [StatusHost σ] (hs : b.stage = .driving d) (p : Placed Status) :
    Written b.name (events (b.relay d p).log) (b.relay d p).stage := by
  cases hr : (StatusHost.report b.host d.handle (Record.ofStatus p.item .success)).2 with
  | ok =>
    obtain ⟨delivered, dropped, story, kept⟩ := h.story hs
    rw [events_relay_agreed b hr, (goesOn_relay hr).stage]
    exact .driving (story.status p.item.state) kept
  | error e => exact h.ends hs (ends_relay hr)

theorem Written.finish [StatusHost σ] {handle : Handle} {exit : ExitCode} {left : Bool}
    (hs : b.stage = .finishing handle exit left) :
    Written b.name (events (b.finish handle exit left).log) (b.finish handle exit left).stage := by
  rw [hs] at h
  cases h with
  | finishing c verdict story hevents =>
    obtain ⟨rfl, -⟩ := Prod.mk.inj verdict
    rw [events_finish_eq, hevents, List.append_assoc]
    exact .stopped c rfl verdict story _ (List.append_nil _).symm
  | stopped c closing | unstarted closing => cases closing

omit h in
/-- What is given back is told of when the stop is announced. -/
theorem farewell_release (b : Bridge σ) (ending : Ending) (next : Release) :
    ∃ news, events (b.release ending next).log = events b.log ++ news ∧
      farewell b.name (b.release ending next).stage =
        farewell b.name (.releasing ending next) ++ news := by
  by_cases hn : next = .announce
  · subst hn
    exact ⟨_, events_release_announce b ending, rfl⟩
  · refine ⟨[], (events_release_quiet b ending hn).trans (List.append_nil _).symm, ?_⟩
    cases next with
    | closeControl | deregister | signal => rfl
    | announce => exact absurd rfl hn

theorem Written.release {ending : Ending} {next : Release} (hs : b.stage = .releasing ending next) :
    Written b.name (events (b.release ending next).log) (b.release ending next).stage := by
  have hclosing : (b.release ending next).stage.closing? = some ending := by cases next <;> rfl
  obtain ⟨news, hevents, hfarewell⟩ := b.farewell_release ending next
  rw [hs] at h
  cases h with
  | stopped c closing verdict story answer hes =>
    obtain rfl := Option.some.inj closing
    refine .stopped c hclosing verdict story answer ?_
    rw [hevents, hes, hfarewell, List.append_assoc]
  | unstarted closing hes =>
    obtain rfl := Option.some.inj closing
    refine .unstarted hclosing ?_
    rw [hevents, hes, hfarewell, List.append_assoc]

/-- **A move of the bridge carries the story on.** -/
theorem Written.makes [StatusHost σ] {m : Move} (hm : b.Makes m b') :
    Written b'.name (events b'.log) b'.stage := by
  rw [hm.name]
  cases hm with
  | start hs => exact h.start hs _
  | refuse hs | abandon hs => exact h.refuse hs _
  | read hs hm => exact h.read hs hm
  | place hs hm =>
    obtain ⟨delivered, dropped, story, kept⟩ := h.story hs
    rw [hm] at story
    exact .driving story fun _ => kept (by simp [hm])
  | settle hs hm => exact h.settle hs hm
  | relay hs => exact h.relay hs _
  | endStatuses hs =>
    obtain ⟨delivered, dropped, story, kept⟩ := h.story hs
    exact .driving story kept
  | complete hs => exact h.ends hs (ends_complete _)
  | report hs => exact h.finish hs
  | release hs => exact h.release hs

/-- **What happens from outside adds nothing to the story.** -/
theorem Written.happens {a : Action} (ha : b.Happens a b') :
    Written b'.name (events b'.log) b'.stage := by
  rw [ha.name, ha.events]
  by_cases hd : ∃ d, b.stage = .driving d
  · obtain ⟨d, hs⟩ := hd
    obtain ⟨delivered, dropped, story, kept⟩ := h.story hs
    obtain hs' | ⟨c, r, hm, hs'⟩ := ha.meets.mailbox hs
    · rw [hs']
      exact .driving story kept
    · rw [hm] at story
      rw [hs']
      exact .driving story fun _ => kept (by simp [hm])
  · rwa [ha.meets.stage fun d hs => hd ⟨d, hs⟩]

end Moves

/-- **The events of a run are always the beginning of a story.** -/
theorem written_after [StatusHost σ] (name handlerName : String) (context : Context) (host : σ)
    (history : List Step) :
    Written name (events ((fresh name handlerName context host).after history).log)
      ((fresh name handlerName context host).after history).stage := by
  have hwritten := invariant_after (P := fun _ _ (b : Bridge σ) =>
      Written b.name (events b.log) b.stage)
    (fun h hm => h.makes hm) (fun h ha => h.happens ha)
    (b := fresh name handlerName context host) (.waiting rfl) history
  rwa [name_after] at hwritten

/-- **Nothing is told before an outcome is published.** -/
theorem events_of_unpublished [StatusHost σ] (name handlerName : String) (context : Context) (host : σ)
    {history : List Step} (h : published? (acts history) = none) :
    events ((fresh name handlerName context host).after history).log = [] := by
  refine (invariant_after (P := fun as _ (b : Bridge σ) => published? as = none →
    events b.log = [] ∧ b.stage = .waiting ∧ b.handshake.isSettled = false) ?_ ?_
    (fun _ => ⟨rfl, rfl, rfl⟩) history h).1
  · -- a bridge that waits makes no move
    intro as ms m b b' hwaits hm hnone
    obtain ⟨-, hs, hunsettled⟩ := hwaits hnone
    have hpending : b.handshake.poll.2 = .pending := by
      simp [Handshake.poll, (Handshake.unset_of_unsettled hunsettled).2]
    cases hm with
    | start _ ho | refuse _ ho | abandon _ ho => cases hpending.symm.trans ho
    | read hs' | place hs' | settle hs' | relay hs' => cases hs.symm.trans hs'
    | endStatuses hs' | complete hs' | report hs' | release hs' => cases hs.symm.trans hs'
  · intro as ms a b b' hwaits ha hnone
    rw [published?_concat, Option.or_eq_none_iff] at hnone
    obtain ⟨htold, hs, hunsettled⟩ := hwaits hnone.1
    refine ⟨ha.events.trans htold, (ha.meets.stage fun d hd => ?_).trans hs, ?_⟩
    · cases hs.symm.trans hd
    · obtain ⟨houtcome, hready⟩ := Handshake.unset_of_unsettled hunsettled
      obtain ⟨-, hsame⟩ | ⟨o, rfl, -⟩ | ⟨-, hstored, -⟩ | ⟨-, hpoll⟩ := ha.handshake
      · rw [hsame, hunsettled]
      · cases hnone.2
      · rw [Handshake.isStored, houtcome] at hstored
        cases hstored
      · rw [hpoll, Handshake.poll, if_neg (by simp [hready]), hunsettled]

/-- Who has nothing to do with the start publishes no outcome. -/
theorem published?_of_aside {as : List Action} (h : ∀ a ∈ as, a.concernsStart = false) :
    published? as = none := by
  refine List.findSome?_eq_none_iff.mpr fun a ha => ?_
  have haside := h a ha
  cases a with
  | store => cases haside
  | _ => rfl

/-! ## The complete story -/

/-- When the bridge has stopped the story is complete. -/
theorem Written.complete_of_ended {name : String} {ending : Ending}
    (h : Written name es (.ended ending)) : Chronicle name es := by
  cases h with
  | stopped c closing verdict story answer hes =>
    rw [hes]
    exact .ended story c answer
  | unstarted closing hes =>
    rw [hes]
    exact .unstarted _

/-- If the handler was left by the end, the story may go on with its grace period. -/
theorem Written.outlived {name : String} {exit : ExitCode}
    (h : Written name es (.ended (.stopped exit true))) (grace? : Option Duration) :
    Chronicle name (es ++ [Event.outlived name grace?]) := by
  cases h with
  | stopped c closing verdict story answer hes =>
    obtain ⟨-, rfl⟩ := Ending.stopped.inj (Option.some.inj closing)
    rw [hes, List.append_assoc]
    exact .outlived story (congrArg Prod.snd verdict) answer grace?
  | unstarted closing => cases closing

/-- **Whatever happened so far, the story can come to its end.** -/
theorem Written.begins {name : String} {stage : Stage} (h : Written name es stage) :
    ∃ rest, Chronicle name (es ++ rest) := by
  have hfarewell : ∃ rest, farewell name stage ++ rest = [Event.stopped name] := by
    unfold farewell
    split
    · exact ⟨[], rfl⟩
    · exact ⟨_, rfl⟩
  obtain ⟨rest, hrest⟩ := hfarewell
  cases h with
  | waiting nothing =>
    rw [nothing]
    exact ⟨_, .unstarted none⟩
  | driving story =>
    have hended := Chronicle.ended story (.exited .success) (.ok ())
    rw [List.append_assoc] at hended
    exact ⟨_, hended⟩
  | finishing c verdict story hes =>
    have hended := Chronicle.ended story c (.ok ())
    rw [List.append_assoc] at hended
    refine ⟨[(Event.finalReport c.exit (.ok ())).withService name, Event.stopped name], ?_⟩
    rw [hes, List.append_assoc]
    exact hended
  | stopped c closing verdict story answer hes =>
    refine ⟨rest, ?_⟩
    rw [hes, List.append_assoc, hrest]
    exact .ended story c answer
  | unstarted closing hes =>
    refine ⟨rest, ?_⟩
    rw [hes, List.append_assoc, hrest]
    exact .unstarted _

/-- A bridge that has stopped makes no move. -/
theorem Makes.not_ended [StatusHost σ] {m : Move} {ending : Ending} (hm : b.Makes m b') :
    b.stage ≠ .ended ending := by
  intro hs
  cases hm with
  | start hs' | refuse hs' | abandon hs' => exact absurd (hs'.symm.trans hs) (by simp)
  | read hs' | place hs' | settle hs' | relay hs' | endStatuses hs' | complete hs' =>
    exact absurd (hs'.symm.trans hs) (by simp)
  | report hs' => exact absurd (hs'.symm.trans hs) (by simp)
  | release hs' => exact absurd (hs'.symm.trans hs) (by simp)

/-- **When the bridge has stopped nothing is told any more.** -/
theorem after_ended [StatusHost σ] {ending : Ending} (hs : b.stage = .ended ending)
    (later : List Step) :
    (b.after later).stage = .ended ending ∧ events (b.after later).log = events b.log := by
  refine invariant_after (P := fun _ _ (b' : Bridge σ) =>
    b'.stage = .ended ending ∧ events b'.log = events b.log) ?_ ?_ ⟨hs, rfl⟩ later
  · intro as ms m b' b'' h hm
    exact absurd h.1 hm.not_ended
  · intro as ms a b' b'' h ha
    refine ⟨(ha.meets.stage fun d hd => ?_).trans h.1, ha.events.trans h.2⟩
    exact absurd (hd.symm.trans h.1) (by simp)

end Bridge

end Steward

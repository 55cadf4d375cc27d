import Steward.Proofs.Bridge.Run

/-!
# Proofs/Bridge/Events — what a move of the bridge publishes

The bridge publishes an event for most of what it does, in the name of its service, and nobody else
publishes (`Happens.events`).  For each move there is one lemma that gives the events it adds.

* `commandsOf` — the commands the events of one kind tell of, in order.
* `terminals` — the events after which a run only reports its end.
* `log_after` — the log only grows.
-/

namespace Steward

/-- The commands that the events of one kind tell of, in order. -/
def Event.commandsOf (kind : EventKind) (es : List Event) : List Command :=
  es.filterMap fun e => if e.kind = kind then e.command else none

/-- The event of the last report: it has the exit code, and the reason of a host that refuses. -/
def Event.finalReport (exit : ExitCode) (answer : Except HostError Unit) : Event :=
  let e := (ofKind .finalStatusReported).withExit exit
  match answer with
  | .ok () => e
  | .error err => e.withReason err.message

/-- The events of a terminal kind, in order. -/
def Event.terminals (es : List Event) : List Event := es.filter Event.isTerminal

@[simp] theorem Event.commandsOf_append (kind : EventKind) (es₁ es₂ : List Event) :
    commandsOf kind (es₁ ++ es₂) = commandsOf kind es₁ ++ commandsOf kind es₂ :=
  List.filterMap_append

theorem Event.commandsOf_cons (kind : EventKind) (e : Event) (es : List Event) :
    commandsOf kind (e :: es) = commandsOf kind [e] ++ commandsOf kind es := commandsOf_append kind [e] es

/-- Events that tell of no command. -/
theorem Event.commandsOf_append_of_none (kind : EventKind) (es : List Event) {news : List Event}
    (h : ∀ e ∈ news, e.command = none) : commandsOf kind (es ++ news) = commandsOf kind es := by
  have hnone : commandsOf kind news = [] := by
    refine List.filterMap_eq_nil_iff.mpr fun e he => ?_
    rw [h e he, ite_self]
  rw [commandsOf_append, hnone, List.append_nil]

/-- An event about a command tells of it. -/
theorem Event.commandsOf_one (kind told : EventKind) (c : Command) (service : String) :
    commandsOf kind [((ofKind told).withCommand c).withService service] =
      if told = kind then [c] else [] := by
  simp only [commandsOf, List.filterMap_cons, List.filterMap_nil, withService, withCommand, ofKind]
  split <;> simp_all

@[simp] theorem Event.terminals_append (es₁ es₂ : List Event) :
    terminals (es₁ ++ es₂) = terminals es₁ ++ terminals es₂ := List.filter_append es₁ es₂

/-- What an action can add to the log: a sender that is refused at once, or a request taken. -/
def Happening.isAnswer : Happening → Bool
  | .controlSent _ .closed | .statusSent _ .closed | .delivered _ => true
  | _ => false

namespace Bridge

variable {σ : Type}

theorem events_append (l₁ l₂ : List Happening) : events (l₁ ++ l₂) = events l₁ ++ events l₂ :=
  List.filterMap_append

/-- A sender that is done is no event. -/
@[simp] theorem events_map_statusSent (tickets : List Nat) (r : SendResult) :
    events (tickets.map (.statusSent · r)) = [] := by
  simp [events]

@[simp] theorem events_map_controlSent (tickets : List Nat) (r : SendResult) :
    events (tickets.map (.controlSent · r)) = [] := by
  simp [events]

@[simp] theorem events_publish (b : Bridge σ) (e : Event) :
    events (b.publish e).log = events b.log ++ [e.withService b.name] :=
  events_append _ _

@[simp] theorem events_publishCommand (b : Bridge σ) (kind : EventKind) (c : Command) :
    events (b.publishCommand kind c).log =
      events b.log ++ [((Event.ofKind kind).withCommand c).withService b.name] :=
  events_publish b _

@[simp] theorem events_leave (b : Bridge σ) (d : Driving) (exit : ExitCode) (left : Bool) :
    events (b.leave d exit left).log = events b.log := by
  simp [leave, events_append]

/-! ## The events of each move -/

section Moves

variable (b : Bridge σ) {d : Driving}

theorem events_start (s : Dispatched) : events (b.start s).log = events b.log ++
    [((Event.ofKind .dispatcherReady).withArgs s.args.length).withService b.name,
      ((Event.ofKind .handlerStarted).withReason b.handlerName).withService b.name] := by
  have hready : events (b.start s).log = events (({ b with
      handshake := b.handshake.poll.1 }).publish
        ((Event.ofKind .dispatcherReady).withArgs s.args.length)).log ++
      [((Event.ofKind .handlerStarted).withReason b.handlerName).withService b.name] :=
    events_append _ _
  rw [hready, events_publish, List.append_assoc]
  rfl

theorem events_refuse (e : Option HostError) : events (b.refuse e).log = events b.log ++
    [((Event.ofKind .registrationFailed).withReason
      ((e.map HostError.message).getD "service never started")).withService b.name] :=
  events_append _ _

/-- What is read is no event, nor is that its sender is done. -/
theorem events_append_read (log : List Happening) (p : Placed ControlEvent) :
    events (log ++ Happening.read p.item ::
      if p.awaited then [Happening.controlSent p.ticket .taken] else []) = events log := by
  rw [events_append]
  cases p.awaited <;> exact List.append_nil _

/-- A flagged event is told of by its violation only. -/
theorem events_read_flagged {p : Placed ControlEvent} {code : UInt32}
    (he : p.item.error = some code) : events (b.read d p).log = events b.log ++
      [((Event.ofKind .affinityViolation).withExit (.ofService code)).withService b.name] := by
  unfold read
  simp only [he, events_leave, events_publish]
  exact congrArg (· ++ _) (events_append_read b.log p)

/-- Without requests an unflagged event is received and dropped. -/
theorem events_read_detached {p : Placed ControlEvent} (hm : d.mailbox = .detached)
    (he : p.item.error = none) : events (b.read d p).log = events b.log ++
      [((Event.ofKind .controlReceived).withCommand p.item.command).withService b.name,
        ((Event.ofKind .requestDropped).withCommand p.item.command).withService b.name] := by
  unfold read
  simp only [he, hm, events_publishCommand, List.append_assoc]
  exact congrArg (· ++ _) (events_append_read b.log p)

theorem events_read_awaiting {p : Placed ControlEvent} (hm : d.mailbox = .awaiting)
    (he : p.item.error = none) : events (b.read d p).log = events b.log ++
      [((Event.ofKind .controlReceived).withCommand p.item.command).withService b.name] := by
  unfold read
  simp only [he, hm]
  exact (events_publishCommand _ _ _).trans (congrArg (· ++ _) (events_append_read b.log p))

theorem events_settle_taken (c : Command) : events (b.settle d c .taken).log = events b.log ++
    [((Event.ofKind .requestDelivered).withCommand c).withService b.name] :=
  events_publishCommand _ _ _

theorem events_settle_closed (c : Command) : events (b.settle d c .closed).log = events b.log ++
    [((Event.ofKind .requestDropped).withCommand c).withService b.name] :=
  events_publishCommand _ _ _

theorem events_complete_exited (exit : ExitCode) :
    events (b.complete d (.exited exit)).log = events b.log ++
      [((Event.ofKind .handlerExited).withExit exit).withService b.name] := by
  simp only [complete, events_leave, events_publish]

theorem events_complete_panicked (info : String) :
    events (b.complete d (.panicked info)).log = events b.log ++
      [(((Event.ofKind .handlerPanicked).withExit (.ofService ExitCode.handlerPanicked)).withReason
        info).withService b.name] := by
  simp only [complete, events_leave, events_publish]
  rfl

theorem events_release_announce (ending : Ending) :
    events (b.release ending .announce).log = events b.log ++
      [(Event.ofKind .bridgeStopped).withService b.name] := events_append _ _

/-- To give back the rest is told of by nothing. -/
theorem events_release_quiet (ending : Ending) {next : Release} (hn : next ≠ .announce) :
    events (b.release ending next).log = events b.log := by
  cases next with
  | closeControl => simp [release, events_append]
  | deregister | signal => rfl
  | announce => exact absurd rfl hn

/-- What is reported is no event, nor is that its sender is done. -/
theorem events_append_reported (log : List Happening) (p : Placed Status) (handle : Handle)
    (r : Except HostError Unit) :
    events (log ++ (if p.awaited then [Happening.statusSent p.ticket .taken] else []) ++
      [Happening.reported (.relayed p.ticket p.item) handle (Record.ofStatus p.item .success) r]) =
      events log := by
  rw [events_append, events_append]
  cases p.awaited <;> exact (List.append_nil _).trans (List.append_nil _)

variable [StatusHost σ]

theorem events_relay_agreed {p : Placed Status}
    (hr : (StatusHost.report b.host d.handle (Record.ofStatus p.item .success)).2 = .ok ()) :
    events (b.relay d p).log = events b.log ++
      [((Event.ofKind .statusReported).withState p.item.state).withService b.name] := by
  unfold relay
  simp only [hr, events_publish]
  exact congrArg (· ++ _) (events_append_reported b.log p d.handle _)

theorem events_relay_refused {p : Placed Status} {e : HostError}
    (hr : (StatusHost.report b.host d.handle (Record.ofStatus p.item .success)).2 = .error e) :
    events (b.relay d p).log = events b.log ++
      [((((Event.ofKind .statusReportFailed).withState p.item.state).withExit
        (refusedExit e)).withReason e.message).withService b.name] := by
  unfold relay
  simp only [hr, events_leave, events_publish]
  exact congrArg (· ++ _) (events_append_reported b.log p d.handle _)

/-- The last report is told of, with the host's answer. -/
theorem events_finish_eq (handle : Handle) (exit : ExitCode) (left : Bool) :
    events (b.finish handle exit left).log = events b.log ++ [(Event.finalReport exit
      (StatusHost.report b.host handle (Record.ofStatus .stopped exit)).2).withService b.name] := by
  refine (events_publish _ _).trans (congrArg (· ++ _) ?_)
  rw [events_append]
  exact List.append_nil _

/-- Whatever the host answers, the event of the last report has one kind and no command. -/
theorem events_finish (handle : Handle) (exit : ExitCode) (left : Bool) :
    ∃ e : Event, e.kind = .finalStatusReported ∧ e.command = none ∧
      events (b.finish handle exit left).log = events b.log ++ [e.withService b.name] := by
  refine ⟨_, ?_, ?_, events_finish_eq b handle exit left⟩
  · unfold Event.finalReport
    split <;> rfl
  · unfold Event.finalReport
    split <;> rfl

end Moves

/-! ## The commands that are told of

Only a read and the end of a request are told of with a command. -/

section Commands

variable (b : Bridge σ) (d : Driving) (kind : EventKind)

theorem commandsOf_start (s : Dispatched) :
    Event.commandsOf kind (events (b.start s).log) = Event.commandsOf kind (events b.log) := by
  rw [events_start]
  refine Event.commandsOf_append_of_none kind _ fun e he => ?_
  obtain rfl | he := List.mem_cons.mp he
  · rfl
  · rw [List.mem_singleton.mp he]
    rfl

theorem commandsOf_refuse (e : Option HostError) :
    Event.commandsOf kind (events (b.refuse e).log) = Event.commandsOf kind (events b.log) := by
  rw [events_refuse]
  exact Event.commandsOf_append_of_none kind _ (List.forall_mem_singleton.mpr rfl)

theorem commandsOf_complete (c : Completion) :
    Event.commandsOf kind (events (b.complete d c).log) = Event.commandsOf kind (events b.log) := by
  cases c with
  | exited exit =>
    rw [events_complete_exited]
    exact Event.commandsOf_append_of_none kind _ (List.forall_mem_singleton.mpr rfl)
  | panicked info =>
    rw [events_complete_panicked]
    exact Event.commandsOf_append_of_none kind _ (List.forall_mem_singleton.mpr rfl)

theorem commandsOf_release (ending : Ending) (next : Release) :
    Event.commandsOf kind (events (b.release ending next).log) =
      Event.commandsOf kind (events b.log) := by
  by_cases hn : next = .announce
  · rw [hn, events_release_announce]
    exact Event.commandsOf_append_of_none kind _ (List.forall_mem_singleton.mpr rfl)
  · rw [events_release_quiet b ending hn]

variable [StatusHost σ]

theorem commandsOf_relay (p : Placed Status) :
    Event.commandsOf kind (events (b.relay d p).log) = Event.commandsOf kind (events b.log) := by
  cases hr : (StatusHost.report b.host d.handle (Record.ofStatus p.item .success)).2 with
  | ok =>
    rw [events_relay_agreed b hr]
    exact Event.commandsOf_append_of_none kind _ (List.forall_mem_singleton.mpr rfl)
  | error e =>
    rw [events_relay_refused b hr]
    exact Event.commandsOf_append_of_none kind _ (List.forall_mem_singleton.mpr rfl)

theorem commandsOf_finish (handle : Handle) (exit : ExitCode) (left : Bool) :
    Event.commandsOf kind (events (b.finish handle exit left).log) =
      Event.commandsOf kind (events b.log) := by
  obtain ⟨e, -, hcommand, he⟩ := events_finish b handle exit left
  rw [he]
  exact Event.commandsOf_append_of_none kind _ (List.forall_mem_singleton.mpr hcommand)

end Commands

/-! ## The name of the service -/

variable {b b' : Bridge σ}

theorem read_name (b : Bridge σ) (d : Driving) (p : Placed ControlEvent) :
    (b.read d p).name = b.name := by
  obtain ⟨requests, updates, stage, log, h⟩ := b.read_eq d p
  rw [h]

theorem relay_name [StatusHost σ] (b : Bridge σ) (d : Driving) (p : Placed Status) :
    (b.relay d p).name = b.name := by
  obtain ⟨host, requests, updates, stage, log, h⟩ := b.relay_eq d p
  rw [h]

/-- A bridge keeps the name of its service. -/
theorem Makes.name [StatusHost σ] {m : Move} (hm : b.Makes m b') : b'.name = b.name := by
  cases hm with
  | start | refuse | abandon | place | endStatuses | complete | report => rfl
  | read => exact read_name _ _ _
  | @settle d c r => cases r <;> rfl
  | relay => exact relay_name _ _ _
  | @release ending next => cases next <;> rfl

/-- No action changes the name of the service. -/
theorem Happens.name {a : Action} (ha : b.Happens a b') : b'.name = b.name := ha.keeps.1

/-- **The name of the service stays the same.** -/
theorem name_after [StatusHost σ] (b : Bridge σ) (later : List Step) :
    (b.after later).name = b.name :=
  invariant_after (P := fun _ _ (b' : Bridge σ) => b'.name = b.name)
    (fun h hm => hm.name.trans h) (fun h ha => ha.name.trans h) rfl later

/-! ## What is told from outside -/

/-- **An action adds refusals and requests taken to the log, and nothing else.** -/
theorem Happens.log {a : Action} (ha : b.Happens a b') :
    ∃ l, b'.log = b.log ++ l ∧ ∀ h ∈ l, h.isAnswer = true := by
  have hnothing : ∃ l, b.log = b.log ++ l ∧ ∀ h ∈ l, h.isAnswer = true :=
    ⟨[], (List.append_nil _).symm, fun _ h => nomatch h⟩
  have hrefusal : ∀ (refused : Bool) (h : Happening), h.isAnswer = true →
      ∀ h' ∈ (if refused then [h] else []), h'.isAnswer = true := by
    rintro (_ | _) h hh h' hmem
    · cases hmem
    · rwa [List.mem_singleton.mp hmem]
  cases ha with
  | idle | pass | store | announce | steal | enterControl | cloneControl | dropControl | enterStatus |
    cancelStatus | cloneUpdates | dropClone | lendRequests => exact hnothing
  | offerControl ticket e => exact ⟨_, rfl, hrefusal _ _ rfl⟩
  | offerStatus ticket s | lineUpStatus ticket s => exact ⟨_, rfl, hrefusal _ _ rfl⟩
  | @takeRequest p ht hp =>
    refine ⟨[.delivered p.item], ?_, List.forall_mem_singleton.mpr rfl⟩
    rw [takeRequest_eq hp, resolve_log]
    rfl
  | dropRequests =>
    rw [dropRequests_log]
    exact hnothing
  | dropUpdates =>
    obtain ⟨updates, holds, h⟩ := b.dropUpdates_eq
    rw [h]
    exact hnothing
  | finish c =>
    rw [finishHandler_log]
    exact hnothing

/-- A view that sees neither refusals nor requests taken is left alone by the actions. -/
theorem Happens.filterMap_log {α : Type} {view : Happening → Option α} {a : Action}
    (ha : b.Happens a b') (hview : ∀ h, h.isAnswer = true → view h = none) :
    b'.log.filterMap view = b.log.filterMap view := by
  obtain ⟨l, hlog, hl⟩ := ha.log
  have hnone : l.filterMap view = [] :=
    List.filterMap_eq_nil_iff.mpr fun h hmem => hview h (hl h hmem)
  rw [hlog, List.filterMap_append, hnone, List.append_nil]

/-- **Nobody but the bridge publishes.** -/
theorem Happens.events {a : Action} (ha : b.Happens a b') : events b'.log = events b.log :=
  ha.filterMap_log fun h hh => by cases h <;> simp_all [Happening.isAnswer]

/-! ## The log -/

section Log

variable {l : List Happening} (h : l <+: b.log)
include h

/-- To publish, and to cut the handler off, adds to the log. -/
theorem prefix_publish (e : Event) : l <+: (b.publish e).log := h.trans (List.prefix_append _ _)

theorem prefix_publishCommand (kind : EventKind) (c : Command) :
    l <+: (b.publishCommand kind c).log := prefix_publish h _

theorem prefix_leave (d : Driving) (exit : ExitCode) (left : Bool) :
    l <+: (b.leave d exit left).log := h.trans (List.prefix_append _ _)

end Log

theorem prefix_read (b : Bridge σ) (d : Driving) (p : Placed ControlEvent) :
    b.log <+: (b.read d p).log := by
  obtain ⟨told, refused, hlog⟩ := b.read_log d p
  rw [hlog, List.append_assoc]
  exact List.prefix_append _ _

theorem prefix_relay [StatusHost σ] (b : Bridge σ) (d : Driving) (p : Placed Status) :
    b.log <+: (b.relay d p).log := by
  obtain ⟨told, refused, hlog⟩ := b.relay_log d p
  rw [hlog, List.append_assoc, List.append_assoc]
  exact List.prefix_append _ _

/-- A move adds to the log. -/
theorem Makes.log [StatusHost σ] {m : Move} (hm : b.Makes m b') : b.log <+: b'.log := by
  have hsame : b.log <+: b.log := List.prefix_rfl
  cases hm with
  | start => exact prefix_publish (prefix_publish hsame _) _
  | refuse | abandon => exact prefix_publish hsame _
  | read => exact prefix_read _ _ _
  | place | endStatuses => exact hsame
  | @settle d c r => cases r <;> exact prefix_publishCommand hsame _ _
  | relay => exact prefix_relay _ _ _
  | complete => exact prefix_leave (prefix_publish hsame _) _ _ _
  | report => exact prefix_publish (List.prefix_append _ _) _
  | @release ending next =>
    cases next with
    | closeControl => exact List.prefix_append _ _
    | announce => exact prefix_publish hsame _
    | deregister | signal => exact hsame

/-- **Nothing is taken back**: what comes later adds to the log. -/
theorem log_after [StatusHost σ] (b : Bridge σ) (later : List Step) :
    b.log <+: (b.after later).log := by
  refine invariant_after (P := fun _ _ (b' : Bridge σ) => b.log <+: b'.log) ?_ ?_
    List.prefix_rfl later
  · exact fun h hm => h.trans hm.log
  · intro as ms a b' b'' h ha
    obtain ⟨l, hlog, -⟩ := ha.log
    rw [hlog]
    exact h.trans (List.prefix_append _ _)

end Bridge

end Steward

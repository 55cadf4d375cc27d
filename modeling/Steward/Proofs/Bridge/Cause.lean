import Steward.Proofs.Bridge.Backpressure
import Steward.Proofs.Bridge.Report

/-!
# Proofs/Bridge/Cause — what ends a run

Four things end a run: a flagged control event is read, the host refuses a status, the handler
returns, or the handler panics.  Each decides the exit code, whether the handler is left running,
and the one terminal event of the run.

`causes` finds the causes in what was read and reported, and in the moves.  A run that is not over
has none, and one that is over has one: `Judged` says so with what follows from it, and each move
and each action keeps it.

* `one_cause_ends_a_run` — the cause of a run decides how it ends, and a flagged event that is read
  is a cause and nothing else.
-/

namespace Steward

/-- Why a run ended. -/
inductive Cause where
  /-- A control event with this error was read. -/
  | flagged (code : UInt32)
  /-- The host refused a status with this error. -/
  | refused (status : Status) (e : HostError)
  /-- The handler returned. -/
  | exited (exit : ExitCode)
  /-- The handler panicked. -/
  | panicked (info : String)
  deriving DecidableEq

namespace Cause

/-- The exit code of a run that ends for this cause. -/
def exit : Cause → ExitCode
  | flagged code => .ofService code
  | refused _ (.numbered code) => .ofService code
  | refused _ (.described _) => .ofService ExitCode.statusReportFailed
  | exited exit => exit
  | panicked _ => .ofService ExitCode.handlerPanicked

/-- The handler has not ended by this. -/
def leavesHandler : Cause → Bool
  | flagged _ | refused _ _ => true
  | exited _ | panicked _ => false

/-- How a run ends for this cause. -/
def verdict (c : Cause) : ExitCode × Bool := (c.exit, c.leavesHandler)

/-- What is particular to the event that names this cause. -/
def tale : Cause → Event
  | flagged _ => .ofKind .affinityViolation
  | refused status e => ((Event.ofKind .statusReportFailed).withState status.state).withReason e.message
  | exited _ => .ofKind .handlerExited
  | panicked info => (Event.ofKind .handlerPanicked).withReason info

/-- The event of a service that names this cause, with the exit code. -/
def event (service : String) (c : Cause) : Event := (c.tale.withExit c.exit).withService service

end Cause

/-- The cause of a handler's end. -/
def Completion.cause : Completion → Cause
  | .exited exit => .exited exit
  | .panicked info => .panicked info

/-- What passed is the cause of an end. -/
def Happening.cause? : Happening → Option Cause
  | .read e => e.error.map .flagged
  | .reported (.relayed _ s) _ _ (.error e) => some (.refused s e)
  | _ => none

namespace Bridge

variable {σ : Type} {b b' : Bridge σ} {d : Driving}

/-- A move is the cause of an end by what it finds. -/
def Move.cause? : Move → Option Cause
  | .complete c => some c.cause
  | _ => none

/-- The causes of an end, in what passed and in the moves. -/
def causes (ms : List Move) (log : List Happening) : List Cause :=
  log.filterMap Happening.cause? ++ ms.filterMap Move.cause?

/-- What the outcome of the start was if the service was not started. -/
def refusal? (b : Bridge σ) : Option (Option HostError) :=
  match b.stage with
  | .releasing (.notStarted e) _ | .ended (.notStarted e) => some e
  | _ => none

/-! ## The cause of one move -/

theorem cause?_deeds (log : List Happening) :
    (deeds log).filterMap Happening.cause? = log.filterMap Happening.cause? :=
  filterMap_deeds _ (fun h hd => by cases h <;> simp_all [Happening.isDeed, Happening.cause?]) log

/-- The causes after a move, as long as there were none in the moves before. -/
theorem causes_concat {ms : List Move} {m : Move} {log log' l : List Happening}
    (hd : deeds log' = deeds log ++ l) (hnone : causes ms log = []) :
    causes (ms ++ [m]) log' = l.filterMap Happening.cause? ++ m.cause?.toList := by
  obtain ⟨hlog, hmoves⟩ := List.append_eq_nil_iff.mp hnone
  rw [causes, ← cause?_deeds, hd, List.filterMap_append, cause?_deeds, hlog,
    List.filterMap_append, hmoves]
  cases h : m.cause? <;> simp [h]

/-- A move that is no cause and does no deed that is one leaves the causes. -/
theorem causes_concat_of_none {ms : List Move} {m : Move} {log log' l : List Happening}
    (hd : deeds log' = deeds log ++ l) (hl : l.filterMap Happening.cause? = [])
    (hm : m.cause? = none) : causes (ms ++ [m]) log' = causes ms log := by
  rw [causes, ← cause?_deeds, hd, List.filterMap_append, cause?_deeds, hl, List.append_nil,
    List.filterMap_append, causes]
  simp [hm]

/-- The exit code for a refused status is the number of the host's error, if it has one. -/
theorem refusedExit_eq (s : Status) (e : HostError) : refusedExit e = (Cause.refused s e).exit := by
  cases e <;> rfl

/-! ## One cause -/

/-- **The judgement of a run**: it is over exactly if there is a cause, and then the cause decides how
it ends and which terminal event is published.  A service that was not started is not judged. -/
def Judged (ms : List Move) (b : Bridge σ) : Prop :=
  ∃ cause : Option Cause, causes ms b.log = cause.toList ∧ b.verdict? = cause.map Cause.verdict ∧
    (b.refusal? = none →
      Event.terminals (events b.log) = (cause.map (Cause.event b.name)).toList)

theorem judged_fresh (name handlerName : String) (context : Context) (host : σ) :
    Judged [] (fresh name handlerName context host) := ⟨none, rfl, rfl, fun _ => rfl⟩

variable {ms : List Move} {m : Move}

/-- Before the end of a run there is neither a cause nor a terminal event. -/
theorem Judged.undecided (h : Judged ms b) (hv : b.verdict? = none) :
    causes ms b.log = [] ∧ (b.refusal? = none → Event.terminals (events b.log) = []) := by
  obtain ⟨cause, hcauses, hverdict, hevents⟩ := h
  obtain rfl : cause = none := Option.map_eq_none_iff.mp (hverdict.symm.trans hv)
  exact ⟨hcauses, hevents⟩

theorem verdict?_driving (hs : b.stage = .driving d) : b.verdict? = none := by
  rw [verdict?, hs]

theorem refusal?_driving (hs : b.stage = .driving d) : b.refusal? = none := by
  rw [refusal?, hs]

/-- A step that is no cause, and publishes no terminal event, keeps the judgement. -/
theorem Judged.quiet {ms' : List Move} (h : Judged ms b)
    (hcauses : causes ms' b'.log = causes ms b.log) (verdict : b'.verdict? = b.verdict?)
    (refusal : b'.refusal? = none → b.refusal? = none)
    (terminals : Event.terminals (events b'.log) = Event.terminals (events b.log))
    (name : b'.name = b.name) : Judged ms' b' := by
  obtain ⟨cause, hcause, hverdict, hevents⟩ := h
  refine ⟨cause, hcauses.trans hcause, verdict.trans hverdict, fun hr => ?_⟩
  rw [terminals, name]
  exact hevents (refusal hr)

/-- A bridge that goes on driving keeps the judgement. -/
theorem Judged.driving {d' : Driving} {l : List Happening} (h : Judged ms b)
    (hs : b.stage = .driving d) (hs' : b'.stage = .driving d') (name : b'.name = b.name)
    (hd : deeds b'.log = deeds b.log ++ l) (hl : l.filterMap Happening.cause? = [])
    (hm : m.cause? = none)
    (terminals : Event.terminals (events b'.log) = Event.terminals (events b.log)) :
    Judged (ms ++ [m]) b' :=
  h.quiet (causes_concat_of_none hd hl hm)
    ((verdict?_driving hs').trans (verdict?_driving hs).symm)
    (fun _ => refusal?_driving hs) terminals name

/-- A bridge that cuts the handler off does so for one cause, which it names. -/
theorem Judged.cutsOff {c : Cause} {l : List Happening} (h : Judged ms b)
    (hs : b.stage = .driving d) (hcut : b.CutsOff d c.exit c.leavesHandler b')
    (name : b'.name = b.name) (hd : deeds b'.log = deeds b.log ++ l)
    (hcause : l.filterMap Happening.cause? ++ m.cause?.toList = [c])
    (hevents : events b'.log = events b.log ++ [c.event b.name]) : Judged (ms ++ [m]) b' := by
  obtain ⟨hnone, hquiet⟩ := h.undecided (verdict?_driving hs)
  have hterminal : (c.event b.name).isTerminal = true := by cases c <;> rfl
  refine ⟨some c, (causes_concat hd hnone).trans hcause, ?_, fun _ => ?_⟩
  · rw [verdict?, hcut.stage]
    rfl
  · rw [hevents, Event.terminals_append, hquiet (refusal?_driving hs), name]
    simp [Event.terminals, hterminal]

/-! ## What the moves of the bridge keep -/

/-- Nothing terminal comes with an event of another kind. -/
theorem terminals_append_of_news {es news : List Event} (h : ∀ e ∈ news, e.isTerminal = false) :
    Event.terminals (es ++ news) = Event.terminals es := by
  have hnone : Event.terminals news = [] :=
    List.filter_eq_nil_iff.mpr fun e he => by simp [h e he]
  rw [Event.terminals_append, hnone, List.append_nil]

theorem Judged.read {p : Placed ControlEvent} (h : Judged ms b) (hs : b.stage = .driving d)
    (hm : d.mailbox.isHolding = false) : Judged (ms ++ [.read p]) (b.read d p) := by
  have hname := read_name b d p
  have hdeeds := deeds_read b d p
  cases he : p.item.error with
  | some code =>
    refine h.cutsOff hs (c := .flagged code) (cutsOff_read he) hname hdeeds ?_
      (events_read_flagged b he)
    simp [Happening.cause?, he, Move.cause?]
  | none =>
    have hl : [Happening.read p.item].filterMap Happening.cause? = [] := by
      simp [Happening.cause?, he]
    cases hmail : d.mailbox with
    | holding => simp [hmail, Mailbox.isHolding] at hm
    | awaiting =>
      refine h.driving hs (goesOn_read_awaiting hmail he).stage hname hdeeds hl rfl ?_
      rw [events_read_awaiting b hmail he]
      exact terminals_append_of_news (List.forall_mem_singleton.mpr rfl)
    | detached =>
      refine h.driving hs (goesOn_read_detached hs hmail he).stage hname hdeeds hl rfl ?_
      rw [events_read_detached b hmail he]
      exact terminals_append_of_news
        (List.forall_mem_cons.mpr ⟨rfl, List.forall_mem_singleton.mpr rfl⟩)

theorem Judged.settle (h : Judged ms b) (hs : b.stage = .driving d) (c : Command)
    (r : SendResult) : Judged (ms ++ [.settle r]) (b.settle d c r) := by
  have hdeeds := (deeds_settle b d c r).trans (List.append_nil _).symm
  cases r with
  | taken =>
    refine h.driving hs (goesOn_settle_taken c).stage rfl hdeeds rfl rfl ?_
    rw [events_settle_taken]
    exact terminals_append_of_news (List.forall_mem_singleton.mpr rfl)
  | closed =>
    refine h.driving hs (goesOn_settle_closed c).stage rfl hdeeds rfl rfl ?_
    rw [events_settle_closed]
    exact terminals_append_of_news (List.forall_mem_singleton.mpr rfl)

theorem Judged.relay [StatusHost σ] {p : Placed Status} (h : Judged ms b)
    (hs : b.stage = .driving d) : Judged (ms ++ [.relay p]) (b.relay d p) := by
  have hname := relay_name b d p
  have hdeeds := deeds_relay b d p
  cases hr : (StatusHost.report b.host d.handle (Record.ofStatus p.item .success)).2 with
  | ok =>
    rw [hr] at hdeeds
    refine h.driving hs (goesOn_relay hr).stage hname hdeeds rfl rfl ?_
    rw [events_relay_agreed b hr]
    exact terminals_append_of_news (List.forall_mem_singleton.mpr rfl)
  | error e =>
    have hexit := refusedExit_eq p.item e
    rw [hr] at hdeeds
    refine h.cutsOff hs (c := .refused p.item e) (hexit ▸ cutsOff_relay hr) hname hdeeds rfl ?_
    rw [events_relay_refused b hr, hexit]
    rfl

theorem Judged.complete (h : Judged ms b) (hs : b.stage = .driving d) (c : Completion) :
    Judged (ms ++ [.complete c]) (b.complete d c) := by
  have hdeeds := (deeds_complete b d c).trans (List.append_nil _).symm
  cases c with
  | exited exit =>
    exact h.cutsOff hs (c := .exited exit) (cutsOff_complete (.exited exit)) rfl hdeeds rfl
      (events_complete_exited b exit)
  | panicked info =>
    exact h.cutsOff hs (c := .panicked info) (cutsOff_complete (.panicked info)) rfl hdeeds rfl
      (events_complete_panicked b info)

theorem Judged.finish [StatusHost σ] {handle : Handle} {exit : ExitCode} {left : Bool}
    (h : Judged ms b) (hs : b.stage = .finishing handle exit left) :
    Judged (ms ++ [.report]) (b.finish handle exit left) := by
  obtain ⟨e, hkind, -, hevents⟩ := events_finish b handle exit left
  refine h.quiet (causes_concat_of_none (deeds_finish b handle exit left) rfl rfl)
    (closes_finish hs).verdict (fun _ => by rw [refusal?, hs]) ?_ rfl
  rw [hevents]
  refine terminals_append_of_news (List.forall_mem_singleton.mpr ?_)
  simp [Event.isTerminal, Event.withService, hkind, EventKind.isTerminal]

theorem Judged.release {ending : Ending} {next : Release} (h : Judged ms b)
    (hs : b.stage = .releasing ending next) :
    Judged (ms ++ [.release]) (b.release ending next) := by
  have hdeeds := (deeds_release b ending next).trans (List.append_nil _).symm
  have hname : (b.release ending next).name = b.name := by cases next <;> rfl
  have hrefusal : (b.release ending next).refusal? = b.refusal? := by
    rw [refusal?, refusal?, hs]
    cases next <;> cases ending <;> rfl
  refine h.quiet (causes_concat_of_none hdeeds rfl rfl) (closes_release hs).verdict
    (fun hr => hrefusal.symm.trans hr) ?_ hname
  by_cases hn : next = .announce
  · rw [hn, events_release_announce]
    exact terminals_append_of_news (List.forall_mem_singleton.mpr rfl)
  · rw [events_release_quiet b ending hn]

theorem Judged.start (h : Judged ms b) (hs : b.stage = .waiting) (s : Dispatched) :
    Judged (ms ++ [.start s]) (b.start s) := by
  refine h.quiet (causes_concat_of_none ((deeds_start b s).trans (List.append_nil _).symm) rfl rfl)
    (by rw [verdict?, verdict?, hs]; rfl) (fun _ => by rw [refusal?, hs]) ?_ rfl
  rw [events_start]
  exact terminals_append_of_news
    (List.forall_mem_cons.mpr ⟨rfl, List.forall_mem_singleton.mpr rfl⟩)

theorem Judged.refuse (h : Judged ms b) (hs : b.stage = .waiting) (e : Option HostError) :
    Judged (ms ++ [.refuse e]) (b.refuse e) := by
  obtain ⟨hnone, -⟩ := h.undecided (by rw [verdict?, hs])
  refine ⟨none, ?_, rfl, fun hr => by cases hr⟩
  exact (causes_concat_of_none ((deeds_refuse b e).trans (List.append_nil _).symm) rfl rfl).trans
    hnone

/-- **A move of the bridge keeps the judgement.** -/
theorem Judged.makes [StatusHost σ] (h : Judged ms b) (hm : b.Makes m b') :
    Judged (ms ++ [m]) b' := by
  cases hm with
  | start hs => exact h.start hs _
  | refuse hs | abandon hs => exact h.refuse hs _
  | read hs hm => exact h.read hs hm
  | place hs | endStatuses hs =>
    exact h.driving hs rfl rfl (List.append_nil _).symm rfl rfl rfl
  | settle hs => exact h.settle hs _ _
  | relay hs => exact h.relay hs
  | complete hs => exact h.complete hs _
  | report hs => exact h.finish hs
  | release hs => exact h.release hs

/-- **An action from outside keeps the judgement.** -/
theorem Judged.happens {a : Action} (h : Judged ms b) (ha : b.Happens a b') : Judged ms b' := by
  have hcauses : causes ms b'.log = causes ms b.log := by
    rw [causes, causes, ha.filterMap_log]
    intro h hh
    unfold Happening.isAnswer at hh
    split at hh <;> first | rfl | cases hh
  have hrefusal : b'.refusal? = b.refusal? :=
    ha.meets.stage_view (fun stage => ({ b with stage := stage } : Bridge σ).refusal?) fun _ _ => rfl
  exact h.quiet hcauses ha.meets.verdict (fun hr => hrefusal.symm.trans hr) (by rw [ha.events]) ha.name

/-- **A run is always judged.** -/
theorem judged_after [StatusHost σ] (name handlerName : String) (context : Context) (host : σ)
    (history : List Step) : Judged ((fresh name handlerName context host).moves history)
      ((fresh name handlerName context host).after history) :=
  invariant_after (P := fun _ ms b => Judged ms b) (fun h hm => h.makes hm)
    (fun h ha => h.happens ha) (judged_fresh name handlerName context host) history

/-- Without a start there is no handler. -/
theorem refusal?_of_handler [StatusHost σ] (name handlerName : String) (context : Context)
    (host : σ) (history : List Step)
    (h : ((fresh name handlerName context host).after history).handler ≠ .absent) :
    ((fresh name handlerName context host).after history).refusal? = none := by
  have haccount := accounted_after name handlerName context host history
  unfold Accounted at haccount
  unfold refusal?
  split
  · rename_i hs
    rw [hs] at haccount
    obtain _ | _ | _ | _ | _ | ⟨-, untold⟩ := haccount
    exact absurd untold.absent h
  · rename_i hs
    rw [hs] at haccount
    obtain _ | _ | _ | _ | _ | _ | ⟨-, untold⟩ := haccount
    exact absurd untold.absent h
  · rfl

/-! ## What is received -/

/-- An event that is read is announced as received unless it is flagged. -/
theorem received_read {p : Placed ControlEvent} (hm : d.mailbox.isHolding = false) :
    Event.commandsOf .controlReceived (events (b.read d p).log) =
      Event.commandsOf .controlReceived (events b.log) ++
        ([p.item].filter (·.error.isNone)).map (·.command) := by
  cases he : p.item.error with
  | some code =>
    rw [events_read_flagged b he, Event.commandsOf_append]
    simp [he, Event.commandsOf, Event.ofKind, Event.withExit, Event.withService]
  | none =>
    cases hmail : d.mailbox with
    | holding => simp [hmail, Mailbox.isHolding] at hm
    | awaiting =>
      rw [events_read_awaiting b hmail he, Event.commandsOf_append]
      simp [he, Event.commandsOf, Event.ofKind, Event.withCommand, Event.withService]
    | detached =>
      rw [events_read_detached b hmail he, Event.commandsOf_append]
      simp [he, Event.commandsOf, Event.ofKind, Event.withCommand, Event.withService]

/-- **What is announced as received by a move is what it reads**, unless that is flagged. -/
theorem Makes.received [StatusHost σ] (hm : b.Makes m b') :
    Event.commandsOf .controlReceived (events b'.log) =
      Event.commandsOf .controlReceived (events b.log) ++
        (m.event?.toList.filter (·.error.isNone)).map (·.command) := by
  have hquiet : m.event? = none → Event.commandsOf .controlReceived (events b'.log) =
      Event.commandsOf .controlReceived (events b.log) →
      Event.commandsOf .controlReceived (events b'.log) =
        Event.commandsOf .controlReceived (events b.log) ++
          (m.event?.toList.filter (·.error.isNone)).map (·.command) := by
    intro hm h
    rw [h, hm]
    exact (List.append_nil _).symm
  cases hm with
  | start => exact hquiet rfl (commandsOf_start b _ _)
  | refuse | abandon => exact hquiet rfl (commandsOf_refuse b _ _)
  | read hs hm => exact received_read hm
  | place | endStatuses => exact hquiet rfl rfl
  | @settle d c r =>
    -- what the end of a request tells of is of another kind
    refine hquiet rfl ?_
    cases r with
    | taken =>
      rw [events_settle_taken, Event.commandsOf_append]
      exact List.append_nil _
    | closed =>
      rw [events_settle_closed, Event.commandsOf_append]
      exact List.append_nil _
  | @relay d p => exact hquiet rfl (commandsOf_relay b d _ p)
  | @complete d c => exact hquiet rfl (commandsOf_complete b d _ c)
  | @report handle exit left => exact hquiet rfl (commandsOf_finish b _ handle exit left)
  | @release ending next => exact hquiet rfl (commandsOf_release b _ ending next)

/-- **What is announced as received are the unflagged events read**, in order. -/
theorem received_after [StatusHost σ] (name handlerName : String) (context : Context) (host : σ)
    (history : List Step) :
    let b := (fresh name handlerName context host).after history
    Event.commandsOf .controlReceived (events b.log) =
      ((controlsRead b.log).filter (·.error.isNone)).map (·.command) := by
  refine invariant_after (P := fun _ _ (b : Bridge σ) =>
    Event.commandsOf .controlReceived (events b.log) =
      ((controlsRead b.log).filter (·.error.isNone)).map (·.command)) ?_ ?_ rfl history
  · intro as ms m b b' h hm
    rw [hm.received, hm.controlsRead, List.filter_append, List.map_append, h]
  · intro as ms a b b' h ha
    rw [ha.events, ha.controlsRead]
    exact h

/-! ## One cause ends a run -/

/-- To read a flagged event ends the run, whatever the mailbox, and is told of by the violation
only. -/
theorem step_read_flagged [StatusHost σ] {p : Placed ControlEvent} {code : UInt32}
    (hs : b.stage = .driving d) (hnext : b.next? = some (.read p))
    (he : p.item.error = some code) :
    (d.mailbox = .awaiting ∨ d.mailbox = .detached) ∧
      (b.step .move).verdict? = some (.ofService code, true) ∧
      events (b.step .move).log = events b.log ++ [(Cause.flagged code).event b.name] := by
  have hfree : d.mailbox.isHolding = false := by
    have hmove := makes_perform hnext
    generalize b.perform (.read p) = b' at hmove
    cases hmove with
    | read hs' hm =>
      obtain rfl := Stage.driving.inj (hs'.symm.trans hs)
      exact hm
  have hstep : b.step .move = b.read d p := by
    simp [step, hnext, perform, hs]
  rw [hstep]
  refine ⟨?_, ?_, events_read_flagged b he⟩
  · cases hmail : d.mailbox with
    | awaiting => exact .inl rfl
    | detached => exact .inr rfl
    | holding => simp [hmail, Mailbox.isHolding] at hfree
  · rw [verdict?, (cutsOff_read he).stage]

/-- **One cause ends a run**, whatever the order of the steps.  The run is over exactly if a cause was
found; the cause decides the exit code and whether the handler is left, up to the end, and is named
by the one terminal event of a run that was started.  A flagged event that is read is such a cause, in
whatever mailbox, and never a request nor announced as received. -/
theorem one_cause_ends_a_run [StatusHost σ] (name handlerName : String) (context : Context)
    (host : σ) (history : List Step) :
    let b := (fresh name handlerName context host).after history
    let ms := (fresh name handlerName context host).moves history
    let cs := causes ms b.log
    let unflagged := (controlsRead b.log).filter (·.error.isNone)
    cs.length ≤ 1 ∧ b.verdict? = cs.head?.map Cause.verdict ∧
    (∀ exit left, b.ending? = some (.stopped exit left) →
      ∃ c, cs = [c] ∧ exit = c.exit ∧ left = c.leavesHandler) ∧
    (b.handler ≠ .absent → Event.terminals (events b.log) = cs.map (Cause.event b.name)) ∧
    (∀ d p code, b.stage = .driving d → b.next? = some (.read p) → p.item.error = some code →
      (d.mailbox = .awaiting ∨ d.mailbox = .detached) ∧
        (b.step .move).verdict? = some (.ofService code, true) ∧
        events (b.step .move).log = events b.log ++ [(Cause.flagged code).event b.name]) ∧
    (requestsMade .stopped b.log).map Request.event = unflagged ∧
    offered ms <+: requestsMade .stopped b.log ∧
    requestsDelivered b.log <+: requestsMade .stopped b.log ∧
    Event.commandsOf .controlReceived (events b.log) = unflagged.map (·.command) := by
  intro b ms cs unflagged
  obtain ⟨cause, hcauses, hverdict, hevents⟩ : Judged ms b :=
    judged_after name handlerName context host history
  have hcs : cs = cause.toList := hcauses
  have hdelivered : requestsDelivered b.log <+: requestsMade .stopped b.log := by
    have hbegins := (balanced_after name handlerName context host history).begins
    rw [requestsDelivered_deeds, requestsMade_deeds] at hbegins
    exact (List.prefix_append _ _).trans hbegins
  refine ⟨?_, ?_, fun exit left hended => ?_, fun hstarted => ?_,
    fun d p code hs hnext he => step_read_flagged hs hnext he,
    requestsMade_map_event .stopped b.log,
    (offers_after name handlerName context host history).begins, hdelivered,
    received_after name handlerName context host history⟩
  · rw [hcs]
    cases cause <;> simp
  · rw [hcs, hverdict]
    cases cause <;> rfl
  · have hv : b.verdict? = some (exit, left) := by
      rw [verdict?, stage_of_ending hended]
    obtain ⟨c, rfl, hc⟩ := Option.map_eq_some_iff.mp (hverdict.symm.trans hv)
    obtain ⟨hexit, hleft⟩ := Prod.mk.inj hc
    exact ⟨c, hcs, hexit.symm, hleft.symm⟩
  · rw [hevents (refusal?_of_handler name handlerName context host history hstarted), hcs]
    cases cause <;> rfl

/-- The handler gives up its requests and returns while a status it sent and a flagged event
wait. -/
def flaggedAtLast : List Step :=
  [.act (.store (.ok ⟨1, ["svc"]⟩)), .act .announce, .move, .act .dropRequests,
    .act (.offerControl 1 ⟨.stop, 0, 0, 0, none⟩), .move, .move, .move, .act .cloneUpdates,
    .act (.offerStatus 2 (.ofState .running)),
    .act (.offerControl 3 ⟨.other 0, 0, 0, 0, some ExitCode.crossThreadCall⟩),
    .act (.finish (.exited .success))]

/-- Of the three causes at hand the flagged event ends the run. -/
theorem flagged_ends_first :
    let b := (fresh "svc" "handler" 0 (ScriptedHost.mk [(0, .numbered 6)] 0)).after flaggedAtLast
    let e := b.after (List.replicate 6 .move)
    b.stage = .driving ⟨1, .detached, .stopped, true⟩ ∧
    b.handler = .ended (.exited .success) ∧ b.updates.items = [.ofState .running] ∧
    (b.step .move).verdict? = some (.ofService ExitCode.crossThreadCall, true) ∧
    e.ending? = some (.stopped (.ofService ExitCode.crossThreadCall) true) ∧
    Event.terminals (events e.log) = [(Cause.flagged ExitCode.crossThreadCall).event "svc"] := by
  intro b e
  have hstage : b.stage = .driving ⟨1, .detached, .stopped, true⟩ := rfl
  have hended : e.ending? = some (.stopped (.ofService ExitCode.crossThreadCall) true) := rfl
  have hflagged := (one_cause_ends_a_run "svc" "handler" 0 (ScriptedHost.mk [(0, .numbered 6)] 0)
    flaggedAtLast).2.2.2.2.1 ⟨1, .detached, .stopped, true⟩
    ⟨⟨3, ⟨.other 0, 0, 0, 0, some ExitCode.crossThreadCall⟩⟩, true⟩ _ hstage rfl rfl
  refine ⟨hstage, rfl, rfl, hflagged.2.1, hended, ?_⟩
  have hevents := (one_cause_ends_a_run "svc" "handler" 0 (ScriptedHost.mk [(0, .numbered 6)] 0)
    (flaggedAtLast ++ List.replicate 6 .move)).2.2.2.1 (by rw [after_append]; decide)
  rw [after_append] at hevents
  exact hevents

end Bridge

end Steward

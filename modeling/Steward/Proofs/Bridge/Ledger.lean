import Steward.Proofs.Bridge.Delivery
import Steward.Proofs.Bridge.Events

/-!
# Proofs/Bridge/Ledger — what becomes of the requests made

The ledger of a log has the requests made of the events read, the requests the handler took, and the
commands whose requests were announced as dropped.  What is made and not taken was dropped, but for
at most one request: the one under way (`Mailbox.unresolved`), or the one that the end of the run
left on the handler's link.

For each move there is one lemma about what it adds to the ledger.  `Settles` says how the ledger
comes out even in every stage, and each move and each action keeps it (`settles_after`).
-/

namespace Steward

/-- The command of the request under way, until the handler took it. -/
def Mailbox.unresolved : Mailbox → List Command
  | .holding _ (.resolved .taken) => []
  | .holding command _ => [command]
  | .awaiting | .detached => []

/-- A request ends up in an empty mailbox, or in none. -/
theorem Mailbox.unresolved_of_not_holding {m : Mailbox} (h : m.isHolding = false) :
    m.unresolved = [] := by
  cases m with
  | awaiting | detached => rfl
  | holding => cases h

namespace Bridge

variable {σ : Type} {b b' : Bridge σ} {d : Driving}

/-- The flagged control events read, in order. -/
def flaggedRead (log : List Happening) : List ControlEvent :=
  (controlsRead log).filter (·.error.isSome)

/-! ## The views of the log -/

theorem controlsRead_append (l₁ l₂ : List Happening) :
    controlsRead (l₁ ++ l₂) = controlsRead l₁ ++ controlsRead l₂ := List.filterMap_append

theorem controlsRead_deeds (log : List Happening) : controlsRead (deeds log) = controlsRead log :=
  filterMap_deeds _ (fun h hd => by cases h <;> simp_all [Happening.isDeed]) log

theorem flaggedRead_append (l₁ l₂ : List Happening) :
    flaggedRead (l₁ ++ l₂) = flaggedRead l₁ ++ flaggedRead l₂ := by
  rw [flaggedRead, controlsRead_append, List.filter_append]
  rfl

theorem flaggedRead_deeds (log : List Happening) : flaggedRead (deeds log) = flaggedRead log := by
  rw [flaggedRead, controlsRead_deeds, flaggedRead]

/-- Each event read is flagged or makes a request. -/
theorem length_controlsRead (current : Status) (log : List Happening) :
    (controlsRead log).length = (requestsMade current log).length + (flaggedRead log).length := by
  have hmade : (requestsMade current log).length =
      (controlsRead log).countP (·.error.isNone) := by
    have hevents := congrArg List.length (requestsMade_map_event current log)
    rwa [List.length_map, ← List.countP_eq_length_filter] at hevents
  have hflagged : (flaggedRead log).length =
      (controlsRead log).countP (fun e => ¬ e.error.isNone) := by
    rw [flaggedRead, ← List.countP_eq_length_filter]
    exact List.countP_congr fun e _ => by cases e.error <;> simp
  rw [hmade, hflagged]
  exact List.length_eq_countP_add_countP _

/-! ## The ledger -/

/-- What a log says about requests: those made and those taken, the commands dropped, and the number
of flagged events. -/
structure Ledger where
  made : List Request
  taken : List Request
  dropped : List Command
  flagged : Nat

/-- The ledger of a log. -/
def ledger (log : List Happening) : Ledger where
  made := requestsMade .stopped log
  taken := requestsDelivered log
  dropped := Event.commandsOf .requestDropped (events log)
  flagged := (flaggedRead log).length

/-- The ledger of a log is read off its deeds and its events. -/
theorem ledger_of_deeds {log log' l : List Happening} (hd : deeds log' = deeds log ++ l) :
    ledger log' = {
      made := requestsMade .stopped log ++ requestsMade (lastAgreed .stopped (deeds log)) l
      taken := requestsDelivered log ++ requestsDelivered l
      dropped := Event.commandsOf .requestDropped (events log')
      flagged := (flaggedRead log).length + (flaggedRead l).length } := by
  rw [ledger, ← requestsMade_deeds, ← requestsDelivered_deeds, ← flaggedRead_deeds, hd,
    requestsMade_append, requestsDelivered_append, flaggedRead_append, List.length_append,
    requestsMade_deeds, requestsDelivered_deeds, flaggedRead_deeds]

/-- Nothing comes into the ledger without a deed or a drop. -/
theorem ledger_congr {log log' : List Happening} (hd : deeds log' = deeds log)
    (he : Event.commandsOf .requestDropped (events log') =
      Event.commandsOf .requestDropped (events log)) : ledger log' = ledger log := by
  rw [ledger_of_deeds (hd.trans (List.append_nil _).symm), he]
  simp [ledger, requestsMade, requestsDelivered, flaggedRead, controlsRead]

/-- Nor does a report. -/
theorem ledger_reported {log log' : List Happening} {source : ReportSource} {handle : Handle}
    {record : Record} {r : Except HostError Unit}
    (hd : deeds log' = deeds log ++ [.reported source handle record r])
    (he : Event.commandsOf .requestDropped (events log') =
      Event.commandsOf .requestDropped (events log)) : ledger log' = ledger log := by
  rw [ledger_of_deeds hd, he]
  simp [ledger, requestsMade, Happening.made?, requestsDelivered, flaggedRead, controlsRead]

section Moves

variable (b) (d)

theorem ledger_start (s : Dispatched) : ledger (b.start s).log = ledger b.log :=
  ledger_congr (deeds_start b s) (commandsOf_start b _ s)

theorem ledger_refuse (e : Option HostError) : ledger (b.refuse e).log = ledger b.log :=
  ledger_congr (deeds_refuse b e) (commandsOf_refuse b _ e)

variable {d} {p : Placed ControlEvent}

theorem ledger_read_flagged {code : UInt32} (he : p.item.error = some code) :
    ledger (b.read d p).log =
      { ledger b.log with flagged := (ledger b.log).flagged + 1 } := by
  rw [ledger_of_deeds (deeds_read b d p), events_read_flagged b he]
  simp [ledger, requestsMade_read_flagged _ he, requestsDelivered, flaggedRead, controlsRead, he,
    Event.commandsOf, Event.ofKind, Event.withExit, Event.withService]

theorem ledger_read_awaiting (hm : d.mailbox = .awaiting) (he : p.item.error = none) :
    ledger (b.read d p).log = { ledger b.log with
      made := (ledger b.log).made ++ [p.item.request (lastAgreed .stopped (deeds b.log))] } := by
  rw [ledger_of_deeds (deeds_read b d p), events_read_awaiting b hm he, requestsMade_read _ he]
  simp [ledger, requestsDelivered, flaggedRead, controlsRead, he, Event.commandsOf, Event.ofKind,
    Event.withCommand, Event.withService]

theorem ledger_read_detached (hm : d.mailbox = .detached) (he : p.item.error = none) :
    ledger (b.read d p).log = { ledger b.log with
      made := (ledger b.log).made ++ [p.item.request (lastAgreed .stopped (deeds b.log))]
      dropped := (ledger b.log).dropped ++ [p.item.command] } := by
  rw [ledger_of_deeds (deeds_read b d p), events_read_detached b hm he, requestsMade_read _ he]
  simp [ledger, requestsDelivered, flaggedRead, controlsRead, he, Event.commandsOf, Event.ofKind,
    Event.withCommand, Event.withService]

variable (d)

theorem ledger_settle_taken (c : Command) :
    ledger (b.settle d c .taken).log = ledger b.log := by
  refine ledger_congr (deeds_settle b d c .taken) ?_
  rw [events_settle_taken, Event.commandsOf_append]
  exact List.append_nil _

theorem ledger_settle_closed (c : Command) : ledger (b.settle d c .closed).log =
    { ledger b.log with dropped := (ledger b.log).dropped ++ [c] } := by
  rw [ledger_of_deeds ((deeds_settle b d c .closed).trans (List.append_nil _).symm),
    events_settle_closed]
  simp [ledger, requestsMade, requestsDelivered, flaggedRead, controlsRead, Event.commandsOf,
    Event.ofKind, Event.withCommand, Event.withService]

theorem ledger_complete (c : Completion) : ledger (b.complete d c).log = ledger b.log :=
  ledger_congr (deeds_complete b d c) (commandsOf_complete b d _ c)

theorem ledger_release (ending : Ending) (next : Release) :
    ledger (b.release ending next).log = ledger b.log :=
  ledger_congr (deeds_release b ending next) (commandsOf_release b _ ending next)

theorem ledger_relay [StatusHost σ] (q : Placed Status) :
    ledger (b.relay d q).log = ledger b.log :=
  ledger_reported (deeds_relay b d q) (commandsOf_relay b d _ q)

theorem ledger_finish [StatusHost σ] (handle : Handle) (exit : ExitCode) (left : Bool) :
    ledger (b.finish handle exit left).log = ledger b.log :=
  ledger_reported (deeds_finish b handle exit left) (commandsOf_finish b _ handle exit left)

end Moves

/-- To take a request puts it down as taken. -/
theorem ledger_takeRequest {p : Placed Request} (ht : b.hasTaker = true)
    (hp : b.requests.slot = some p) : ledger b.takeRequest.log =
      { ledger b.log with taken := (ledger b.log).taken ++ [p.item] } := by
  rw [ledger_of_deeds (deeds_takeRequest hp), (Happens.takeRequest ht hp).events]
  simp [ledger, requestsMade, Happening.made?, requestsDelivered, flaggedRead, controlsRead]

/-! ## Where the requests are -/

/-- The requests made are those taken, those dropped, and the rest, of which there is at most one
and none beside a flagged event. -/
structure Ledger.Splits (l : Ledger) (lost rest : List Request) : Prop where
  all : l.made = l.taken ++ lost ++ rest
  dropped : l.dropped = lost.map (·.command)
  single : rest.length + l.flagged ≤ 1

/-- The rest is what the mailbox has, and something is lost only if requests are dropped. -/
def Fits (l : Ledger) (lost rest : List Request) (link : Link Request) : Stage → Prop
  | .driving d => l.flagged = 0 ∧ rest.map (·.command) = d.mailbox.unresolved ∧
      (d.mailbox ≠ .detached → lost = [])
  | _ => link.slot ≠ none → lost = []

/-- **The ledger of a run settles**: what is made and not taken was dropped, but for one request. -/
def Settles (b : Bridge σ) : Prop :=
  ∃ lost rest, (ledger b.log).Splits lost rest ∧
    Fits (ledger b.log) lost rest b.requests b.stage

theorem settles_fresh (name handlerName : String) (context : Context) (host : σ) :
    Settles (fresh name handlerName context host) :=
  ⟨[], [], ⟨rfl, rfl, Nat.zero_le _⟩, fun _ => rfl⟩

/-- The ledger of a run that drives its handler, by what the mailbox has. -/
theorem Settles.driving (h : Settles b) (hs : b.stage = .driving d) :
    ∃ lost rest, (ledger b.log).Splits lost rest ∧ (ledger b.log).flagged = 0 ∧
      rest.map (·.command) = d.mailbox.unresolved ∧ (d.mailbox ≠ .detached → lost = []) := by
  obtain ⟨lost, rest, splits, fits⟩ := h
  rw [hs] at fits
  exact ⟨lost, rest, splits, fits⟩

/-- A step that leaves the ledger alone, and does not change what the mailbox has, settles. -/
theorem Settles.same {d' : Driving} (h : Settles b) (hs : b.stage = .driving d)
    (hs' : b'.stage = .driving d') (hl : ledger b'.log = ledger b.log)
    (unresolved : d'.mailbox.unresolved = d.mailbox.unresolved)
    (detached : d.mailbox = .detached → d'.mailbox = .detached) : Settles b' := by
  obtain ⟨lost, rest, splits, hflagged, hrest, hlost⟩ := h.driving hs
  refine ⟨lost, rest, hl ▸ splits, ?_⟩
  rw [hs', hl]
  exact ⟨hflagged, hrest.trans unresolved.symm, fun hd => hlost fun hd' => hd (detached hd')⟩

/-- A step past the end that leaves the ledger and the handler's link alone settles. -/
theorem Settles.past (h : Settles b) (hs : ∀ d, b.stage ≠ .driving d)
    (hs' : ∀ d, b'.stage ≠ .driving d) (requests : b'.requests = b.requests)
    (hl : ledger b'.log = ledger b.log) : Settles b' := by
  obtain ⟨lost, rest, splits, fits⟩ := h
  have hlost : b.requests.slot ≠ none → lost = [] := by
    unfold Fits at fits
    split at fits
    · exact absurd ‹_› (hs _)
    · exact fits
  refine ⟨lost, rest, hl ▸ splits, ?_⟩
  unfold Fits
  split
  · exact absurd ‹_› (hs' _)
  · exact requests ▸ hlost

/-- What lies on the handler's link of a driven handler is the request under way. -/
theorem Balanced.placed_of_slot (h : Balanced b) (hs : b.stage = .driving d)
    (hslot : b.requests.slot ≠ none) : ∃ c, d.mailbox = .holding c .placed := by
  obtain ⟨p, hp⟩ := Option.ne_none_iff_exists'.mp hslot
  exact ((h.driving hs).2.2.placed_of_some hp).1

/-- When the handler is cut off the ledger is as it was. -/
theorem Settles.cutsOff {exit : ExitCode} {left : Bool} (h : Settles b) (hb : Balanced b)
    (hs : b.stage = .driving d) (hcut : b.CutsOff d exit left b')
    (hl : ledger b'.log = ledger b.log) : Settles b' := by
  obtain ⟨lost, rest, splits, -, -, hlost⟩ := h.driving hs
  refine ⟨lost, rest, hl ▸ splits, ?_⟩
  rw [hcut.stage]
  intro hslot
  obtain ⟨c, hm⟩ := hb.placed_of_slot hs fun hnone => hslot (by simp [hcut.requests, Link.cancel, hnone])
  exact hlost (by simp [hm])

/-! ## What the moves of the bridge keep -/

theorem Settles.start (h : Settles b) (hb : Balanced b) (hs : b.stage = .waiting)
    (s : Dispatched) : Settles (b.start s) := by
  obtain ⟨lost, rest, splits, -⟩ := h
  have hdeeds := (hb.waiting hs).2
  have hmade : (ledger b.log).made = [] := by
    rw [ledger, ← requestsMade_deeds, hdeeds]
    rfl
  have hflagged : (ledger b.log).flagged = 0 := by
    rw [ledger, ← flaggedRead_deeds, hdeeds]
    rfl
  obtain ⟨-, rfl, rfl⟩ : (ledger b.log).taken = [] ∧ lost = [] ∧ rest = [] := by
    simpa [hmade] using splits.all
  refine ⟨[], [], ?_, ?_⟩
  · rwa [ledger_start]
  · exact ⟨by rwa [ledger_start], rfl, fun _ => rfl⟩

/-- A flagged event is read when there is no rest. -/
theorem Settles.read_flagged {p : Placed ControlEvent} {code : UInt32} (h : Settles b)
    (hb : Balanced b) (hs : b.stage = .driving d) (hm : d.mailbox.isHolding = false)
    (he : p.item.error = some code) : Settles (b.read d p) := by
  obtain ⟨lost, rest, splits, hflagged, hrest, -⟩ := h.driving hs
  rw [Mailbox.unresolved_of_not_holding hm, List.map_eq_nil_iff] at hrest
  subst hrest
  have hcut := b.cutsOff_read (d := d) he
  refine ⟨lost, [], ?_, ?_⟩
  · rw [ledger_read_flagged b he]
    exact ⟨splits.all, splits.dropped, by simp [hflagged]⟩
  · rw [hcut.stage]
    intro hslot
    obtain ⟨c, hplaced⟩ := hb.placed_of_slot hs fun hnone =>
      hslot (by simp [hcut.requests, Link.cancel, hnone])
    simp [hplaced, Mailbox.isHolding] at hm

theorem Settles.read_unflagged {p : Placed ControlEvent} (h : Settles b)
    (hs : b.stage = .driving d) (hm : d.mailbox.isHolding = false) (he : p.item.error = none) :
    Settles (b.read d p) := by
  obtain ⟨lost, rest, ⟨all, dropped, single⟩, hflagged, hrest, hlost⟩ := h.driving hs
  rw [Mailbox.unresolved_of_not_holding hm, List.map_eq_nil_iff] at hrest
  subst hrest
  cases hmail : d.mailbox with
  | holding =>
    rw [hmail] at hm
    cases hm
  | detached =>
    refine ⟨lost ++ [p.item.request (lastAgreed .stopped (deeds b.log))], [], ?_, ?_⟩
    · rw [ledger_read_detached b hmail he]
      exact ⟨by simp [all], by simp [dropped, ControlEvent.request], single⟩
    · rw [ledger_read_detached b hmail he, (goesOn_read_detached hs hmail he).stage]
      exact ⟨hflagged, by simp [hmail, Mailbox.unresolved], fun hd => absurd hmail hd⟩
  | awaiting =>
    refine ⟨lost, [p.item.request (lastAgreed .stopped (deeds b.log))], ?_, ?_⟩
    · rw [ledger_read_awaiting b hmail he]
      exact ⟨by simp [all], dropped, by simp [hflagged]⟩
    · rw [ledger_read_awaiting b hmail he, (goesOn_read_awaiting hmail he).stage]
      exact ⟨hflagged, rfl, fun _ => hlost (by simp [hmail])⟩

theorem Settles.place {c : Command} {r : Request} (h : Settles b) (hs : b.stage = .driving d)
    (hm : d.mailbox = .holding c (.fresh r)) : Settles (b.place d c r) := by
  refine h.same hs rfl rfl ?_ (fun hd => by simp [hm] at hd)
  rw [hm]
  dsimp only
  split <;> rfl

/-- A request that was taken is gone, one that was not is dropped. -/
theorem Settles.settle {c : Command} {r : SendResult} (h : Settles b) (hs : b.stage = .driving d)
    (hm : d.mailbox = .holding c (.resolved r)) : Settles (b.settle d c r) := by
  cases r with
  | taken =>
    refine h.same hs (goesOn_settle_taken c).stage (ledger_settle_taken b d c) ?_ ?_ <;> rw [hm]
    · rfl
    · exact fun hd => nomatch hd
  | closed =>
    obtain ⟨lost, rest, ⟨all, dropped, single⟩, hflagged, hrest, hlost⟩ := h.driving hs
    obtain rfl := hlost (by simp [hm])
    rw [hm] at hrest
    refine ⟨rest, [], ?_, ?_⟩
    · rw [ledger_settle_closed]
      refine ⟨by simpa using all, ?_, by simp [hflagged]⟩
      rw [hrest, dropped]
      rfl
    · rw [ledger_settle_closed]
      exact ⟨hflagged, rfl, fun hd => absurd rfl hd⟩

theorem Settles.relay [StatusHost σ] {p : Placed Status} (h : Settles b) (hb : Balanced b)
    (hs : b.stage = .driving d) : Settles (b.relay d p) := by
  cases hr : (StatusHost.report b.host d.handle (Record.ofStatus p.item .success)).2 with
  | ok => exact h.same hs (goesOn_relay hr).stage (ledger_relay b d p) rfl id
  | error e => exact h.cutsOff hb hs (cutsOff_relay hr) (ledger_relay b d p)

theorem Settles.release {ending : Ending} {next : Release} (h : Settles b)
    (hs : b.stage = .releasing ending next) : Settles (b.release ending next) := by
  have hnot : ∀ d, (b.release ending next).stage ≠ .driving d := by
    cases next <;> exact fun d hd => nomatch hd
  have hlink : (b.release ending next).requests = b.requests := by
    cases next <;> rfl
  exact h.past (fun d hd => by simp [hs] at hd) hnot hlink (ledger_release b ending next)

/-- **A move of the bridge keeps the ledger settled.** -/
theorem Settles.makes [StatusHost σ] {m : Move} (h : Settles b) (hb : Balanced b)
    (hm : b.Makes m b') : Settles b' := by
  cases hm with
  | start hs => exact h.start hb hs _
  | refuse hs | abandon hs =>
    exact h.past (fun d hd => by simp [hs] at hd) (fun d hd => nomatch hd) rfl (ledger_refuse b _)
  | @read d p hs hm =>
    cases he : p.item.error with
    | some code => exact h.read_flagged hb hs hm he
    | none => exact h.read_unflagged hs hm he
  | place hs hm => exact h.place hs hm
  | settle hs hm => exact h.settle hs hm
  | relay hs => exact h.relay hb hs
  | endStatuses hs => exact h.same hs rfl rfl rfl id
  | @complete d c hs => exact h.cutsOff hb hs (cutsOff_complete c) (ledger_complete b d c)
  | report hs =>
    exact h.past (fun d hd => by simp [hs] at hd) (fun d hd => nomatch hd) rfl
      (ledger_finish b _ _ _)
  | release hs => exact h.release hs

/-! ## What the actions keep -/

/-- Who takes the request on the link takes the rest. -/
theorem Settles.takeRequest {p : Placed Request} (h : Settles b) (hb : Balanced b)
    (ht : b.hasTaker = true) (hp : b.requests.slot = some p) : Settles b.takeRequest := by
  obtain ⟨lost, rest, ⟨all, dropped, single⟩, fits⟩ := h
  have hl := ledger_takeRequest ht hp
  have hslot : b.requests.slot ≠ none := by simp [hp]
  obtain rfl : lost = [] := by
    cases hs : b.stage with
    | driving d =>
      obtain ⟨c, hm⟩ := hb.placed_of_slot hs hslot
      rw [hs] at fits
      exact fits.2.2 (by simp [hm])
    | waiting | finishing | releasing | ended =>
      rw [hs] at fits
      exact fits hslot
  obtain rfl : rest = [p.item] := by
    have hbegins := hb.begins
    have hall : requestsMade .stopped (deeds b.log) = requestsDelivered (deeds b.log) ++ rest := by
      rw [requestsMade_deeds, requestsDelivered_deeds]
      exact all.trans (by rw [List.append_nil]; rfl)
    rw [onLink_of_some hp, hall, List.prefix_append_right_inj] at hbegins
    exact (hbegins.eq_of_length_le (by simp; omega)).symm
  refine ⟨[], [], ?_, ?_⟩
  · rw [hl]
    exact ⟨by simpa using all, dropped, by simp at single ⊢; omega⟩
  · rw [takeRequest_stage hp, hl]
    cases hs : b.stage with
    | driving d =>
      obtain ⟨c, hm⟩ := hb.placed_of_slot hs hslot
      rw [hs] at fits
      rw [Stage.resolved_placed hm]
      exact ⟨fits.1, rfl, fun _ => rfl⟩
    | waiting | finishing | releasing | ended => exact fun _ => rfl

/-- Who gives up the requests loses the one under way, which is yet to be dropped. -/
theorem Settles.closed (h : Settles b) (stage : b'.stage = Stage.resolved b.stage .closed)
    (requests : b'.requests = b.requests.close) (log : b'.log = b.log) : Settles b' := by
  by_cases hd : ∃ d, b.stage = .driving d
  · obtain ⟨d, hs⟩ := hd
    rw [hs] at stage
    obtain hs' | ⟨c, hm, hs'⟩ := Stage.resolved_cases d .closed
    · exact h.same hs (stage.trans hs') (by rw [log]) rfl id
    · exact h.same hs (stage.trans hs') (by rw [log]) (by rw [hm]; rfl) (fun hd => by simp [hm] at hd)
  · obtain ⟨lost, rest, splits, -⟩ := h
    rw [Stage.resolved_unplaced fun d c hs => absurd ⟨d, hs⟩ hd] at stage
    refine ⟨lost, rest, log ▸ splits, ?_⟩
    rw [stage, requests, log]
    unfold Fits
    split
    · exact absurd ⟨_, ‹_›⟩ hd
    · exact fun hslot => absurd rfl hslot

/-- **An action keeps the ledger settled.** -/
theorem Settles.happens {a : Action} (h : Settles b) (hb : Balanced b) (ha : b.Happens a b') :
    Settles b' := by
  have hevents := ha.events
  cases ha.meets with
  | aside stage requests _ _ deeds | outlived _ _ _ stage requests _ deeds =>
    obtain ⟨lost, rest, splits, fits⟩ := h
    have hl : ledger b'.log = ledger b.log := ledger_congr deeds (by rw [hevents])
    refine ⟨lost, rest, hl ▸ splits, ?_⟩
    rwa [stage, requests, hl]
  | take ht hp => exact h.takeRequest hb ht hp
  | dropRequests => exact h.closed (dropRequests_stage b) (dropRequests_requests b) (dropRequests_log b)
  | finish c hr hl =>
    exact h.closed (finishHandler_stage hl c) (finishHandler_requests hl c) (finishHandler_log b c)

/-- **The ledger of a run is always settled.** -/
theorem settles_after [StatusHost σ] (name handlerName : String) (context : Context) (host : σ)
    (history : List Step) : Settles ((fresh name handlerName context host).after history) :=
  (invariant_after (P := fun _ _ b => Balanced b ∧ Settles b)
    (fun h hm => ⟨h.1.makes hm, h.2.makes h.1 hm⟩)
    (fun h ha => ⟨h.1.meets ha.meets, h.2.happens h.1 ha⟩)
    ⟨balanced_fresh name handlerName context host, settles_fresh name handlerName context host⟩
    history).2

end Bridge

end Steward

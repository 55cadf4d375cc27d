import Steward.Proofs.Bridge.Ending
import Steward.Proofs.Bridge.Start

/-!
# Proofs/Bridge/Report — the calls of the host's report function

Only two moves call the report function: a status taken from the status link is relayed, and the
last report is made.  The calls of a run are thus one for each status taken, in order, and at the
end one more, with the exit code of the run.  A refused status is the last one relayed.

`Account` says stage by stage what the calls so far are, and each move and each action keeps it;
`reports_of_run` is what it says of a whole run.  The handler's statuses are relayed as they are, one
that says the service has stopped among them, so the last report need not be the only one of a
stop (`countP_isStopped_reports`).
-/

namespace Steward.Bridge

variable {σ : Type}

/-- A call of the report function: handle, record and answer. -/
abbrev Call := Handle × Record × Except HostError Unit

/-- The status a move takes from the status link. -/
def Move.status? : Move → Option Status
  | .relay p => some p.item
  | _ => none

/-- The statuses taken from the status link, in order. -/
def statusesTaken (ms : List Move) : List Status := ms.filterMap Move.status?

/-- The exit code with which the last report was made. -/
def finalExit? (b : Bridge σ) : Option ExitCode :=
  match b.stage with
  | .releasing (.stopped exit _) _ | .ended (.stopped exit _) => some exit
  | _ => none

/-- **What is told to the host**: with one handle, each status relayed, in order, and the last
report, if it was made.  No status is relayed after one that was refused. -/
structure Told (handle : Handle) (relayed : List Status) (final : Option ExitCode)
    (calls : List Call) : Prop where
  handles : ∀ call ∈ calls, call.1 = handle
  records : calls.map (·.2.1) =
    relayed.map (Record.ofStatus · .success) ++ (final.map (Record.ofStatus .stopped)).toList
  agreed : ∀ call ∈ calls.take (relayed.length - 1), call.2.2 = .ok ()

/-- A refused status ends the run: its error gives the exit code, and the handler is left. -/
def Decided (relayed : List Status) (calls : List Call) (v : ExitCode × Bool) : Prop :=
  ∀ call ∈ calls.take relayed.length, ∀ e, call.2.2 = .error e → v = (refusedExit e, true)

/-- Nothing is told to the host, and there is no handler. -/
structure Untold (handler : HandlerStage) (relayed : List Status) (calls : List Call) : Prop where
  absent : handler = .absent
  relayed : relayed = []
  calls : calls = []

/-- **The account of a run**, stage by stage: what was taken from the handshake, and the calls made
of the statuses relayed. -/
inductive Account (taken : List (Option Outcome)) (handler : HandlerStage) (relayed : List Status)
    (calls : List Call) : Stage → Prop where
  | waiting (start : taken = []) (untold : Untold handler relayed calls) :
      Account taken handler relayed calls .waiting
  | driving {d : Driving} {s : Dispatched} (start : taken = [some (.ok s)])
      (same : d.handle = s.handle) (told : Told s.handle relayed none calls)
      (agreed : ∀ call ∈ calls, call.2.2 = .ok ()) : Account taken handler relayed calls (.driving d)
  | finishing {s : Dispatched} {handle : Handle} {exit : ExitCode} {left : Bool}
      (start : taken = [some (.ok s)]) (same : handle = s.handle)
      (told : Told s.handle relayed none calls) (decided : Decided relayed calls (exit, left)) :
      Account taken handler relayed calls (.finishing handle exit left)
  | releasing {s : Dispatched} {exit : ExitCode} {left : Bool} {next : Release}
      (start : taken = [some (.ok s)]) (told : Told s.handle relayed (some exit) calls)
      (decided : Decided relayed calls (exit, left)) :
      Account taken handler relayed calls (.releasing (.stopped exit left) next)
  | ended {s : Dispatched} {exit : ExitCode} {left : Bool} (start : taken = [some (.ok s)])
      (told : Told s.handle relayed (some exit) calls)
      (decided : Decided relayed calls (exit, left)) :
      Account taken handler relayed calls (.ended (.stopped exit left))
  | refusing {e : Option HostError} {next : Release} (start : taken = [e.map .error])
      (untold : Untold handler relayed calls) :
      Account taken handler relayed calls (.releasing (.notStarted e) next)
  | refused {e : Option HostError} (start : taken = [e.map .error])
      (untold : Untold handler relayed calls) :
      Account taken handler relayed calls (.ended (.notStarted e))

/-! ## The calls of one step -/

theorem statusesTaken_concat (ms : List Move) (m : Move) :
    statusesTaken (ms ++ [m]) = statusesTaken ms ++ m.status?.toList := by
  rw [statusesTaken, List.filterMap_append]
  cases h : m.status? <;> simp [statusesTaken, h]

/-- A move that takes no status. -/
theorem statusesTaken_concat_of_none (ms : List Move) {m : Move} (h : m.status? = none) :
    statusesTaken (ms ++ [m]) = statusesTaken ms := by
  rw [statusesTaken_concat, h, Option.toList_none, List.append_nil]

theorem reports_append (l₁ l₂ : List Happening) : reports (l₁ ++ l₂) = reports l₁ ++ reports l₂ :=
  List.filterMap_append

/-- Before a first call nothing was told. -/
theorem told_nil (handle : Handle) : Told handle [] none [] where
  handles _ h := nomatch h
  records := rfl
  agreed _ h := nomatch h

/-- Before the last report there is one call for each status. -/
theorem Told.length {handle : Handle} {relayed : List Status} {calls : List Call}
    (h : Told handle relayed none calls) : calls.length = relayed.length := by
  simpa using congrArg List.length h.records

/-- One more status is relayed, all before it having been agreed to. -/
theorem Told.relay {handle : Handle} {relayed : List Status} {calls : List Call}
    (h : Told handle relayed none calls) (agreed : ∀ call ∈ calls, call.2.2 = .ok ()) (s : Status)
    (r : Except HostError Unit) :
    Told handle (relayed ++ [s]) none (calls ++ [(handle, Record.ofStatus s .success, r)]) where
  handles := List.forall_mem_append.mpr ⟨h.handles, List.forall_mem_singleton.mpr rfl⟩
  records := by
    have hrecords := h.records
    simp only [Option.map_none, Option.toList_none, List.append_nil] at hrecords ⊢
    rw [List.map_append, hrecords, List.map_append]
    rfl
  agreed call hc := by
    rw [List.length_append, List.length_singleton, Nat.add_sub_cancel, ← h.length,
      List.take_left] at hc
    exact agreed call hc

/-- The last report is made. -/
theorem Told.finish {handle : Handle} {relayed : List Status} {calls : List Call}
    (h : Told handle relayed none calls) (exit : ExitCode) (r : Except HostError Unit) :
    Told handle relayed (some exit) (calls ++ [(handle, Record.ofStatus .stopped exit, r)]) where
  handles := List.forall_mem_append.mpr ⟨h.handles, List.forall_mem_singleton.mpr rfl⟩
  records := by
    have hrecords := h.records
    simp only [Option.map_none, Option.toList_none, List.append_nil] at hrecords
    rw [List.map_append, hrecords]
    rfl
  agreed := by
    have hlength := h.length
    rw [List.take_append_of_le_length (by omega)]
    exact h.agreed

/-- Statuses all agreed to decide nothing. -/
theorem decided_of_agreed {relayed : List Status} {calls : List Call}
    (agreed : ∀ call ∈ calls, call.2.2 = .ok ()) (v : ExitCode × Bool) :
    Decided relayed calls v := fun call hc e he => by
  rw [agreed call (List.mem_of_mem_take hc)] at he
  cases he

/-- The last report decides nothing. -/
theorem Decided.finish {handle : Handle} {relayed : List Status} {calls : List Call}
    {v : ExitCode × Bool} (h : Decided relayed calls v) (told : Told handle relayed none calls)
    (call : Call) : Decided relayed (calls ++ [call]) v := by
  unfold Decided
  rw [← told.length, List.take_left]
  have hcalls := h
  unfold Decided at hcalls
  rwa [← told.length, List.take_length] at hcalls

/-! ## What the moves of the bridge keep -/

variable {b b' : Bridge σ} {d : Driving} {taken : List (Option Outcome)} {relayed : List Status}
  {calls : List Call}

/-- A bridge that tells the host nothing may go on driving the handler or leave it. -/
theorem Account.quiet {handler handler' : HandlerStage} {stage : Stage}
    (h : Account taken handler relayed calls (.driving d))
    (hs : (∃ d', stage = .driving d' ∧ d'.handle = d.handle) ∨
      ∃ exit left, stage = .finishing d.handle exit left) :
    Account taken handler' relayed calls stage := by
  obtain _ | ⟨start, same, told, agreed⟩ := h
  obtain ⟨d', rfl, hd⟩ | ⟨exit, left, rfl⟩ := hs
  · exact .driving start (hd.trans same) told agreed
  · exact .finishing start same told (decided_of_agreed agreed _)

/-- A status is relayed: the host agrees and the run goes on, or it does not and the run ends. -/
theorem Account.relay [StatusHost σ] {handler handler' : HandlerStage}
    (h : Account taken handler relayed calls (.driving d)) (b : Bridge σ) (p : Placed Status) :
    Account taken handler' (relayed ++ [p.item])
      (calls ++ [(d.handle, Record.ofStatus p.item .success,
        (StatusHost.report b.host d.handle (Record.ofStatus p.item .success)).2)])
      (b.relay d p).stage := by
  obtain _ | ⟨start, same, told, agreed⟩ := h
  cases hr : (StatusHost.report b.host d.handle (Record.ofStatus p.item .success)).2 with
  | ok =>
    rw [(goesOn_relay hr).stage, same]
    refine .driving start rfl (told.relay agreed _ _) ?_
    exact List.forall_mem_append.mpr ⟨agreed, List.forall_mem_singleton.mpr rfl⟩
  | error e =>
    rw [(cutsOff_relay hr).stage, same]
    refine .finishing start rfl (told.relay agreed _ _) ?_
    -- All calls before were agreed to, so the refused one is the only one that decides.
    have hbefore : ∀ call ∈ calls, ∀ e', call.2.2 = .error e' →
        (refusedExit e, true) = (refusedExit e', true) := by
      intro call hc e' he
      rw [agreed call hc] at he
      cases he
    have hlast : ∀ e', Except.error e = (.error e' : Except HostError Unit) →
        (refusedExit e, true) = (refusedExit e', true) := by
      rintro e' ⟨⟩
      rfl
    have hall : ∀ call ∈ calls ++ [(d.handle, Record.ofStatus p.item .success, .error e)],
        ∀ e', call.2.2 = .error e' → (refusedExit e, true) = (refusedExit e', true) :=
      List.forall_mem_append.mpr ⟨hbefore, List.forall_mem_singleton.mpr hlast⟩
    intro call hc
    exact hall call (same ▸ List.mem_of_mem_take hc)

/-- What a bridge has told the host so far, given the moves it made. -/
def Accounted (ms : List Move) (b : Bridge σ) : Prop :=
  Account (outcomesTaken ms) b.handler (statusesTaken ms) (reports (deeds b.log)) b.stage

theorem accounted_fresh (name handlerName : String) (context : Context) (host : σ) :
    Accounted [] (fresh name handlerName context host) := .waiting rfl ⟨rfl, rfl, rfl⟩

/-- A move that takes no status and calls nobody keeps the account of a run that drives a handler. -/
theorem Accounted.quiet [StatusHost σ] {ms : List Move} {m : Move} (h : Accounted ms b)
    (hs : b.stage = .driving d) (hm : b.Makes m b') (outcome : m.outcome? = none)
    (status : m.status? = none) (calls : reports (deeds b'.log) = reports (deeds b.log)) :
    Accounted (ms ++ [m]) b' := by
  unfold Accounted at h ⊢
  rw [outcomesTaken_concat_of_none ms outcome, statusesTaken_concat_of_none ms status, calls]
  rw [hs] at h
  refine h.quiet ?_
  rcases hm.leads hs with hgoes | ⟨exit, left, hcut⟩
  · exact .inl hgoes
  · exact .inr ⟨exit, left, hcut.stage⟩

/-- The outcome of the start is taken, and the handler is started. -/
theorem Accounted.start {ms : List Move} (h : Accounted ms b) (hs : b.stage = .waiting)
    (s : Dispatched) : Accounted (ms ++ [.start s]) (b.start s) := by
  unfold Accounted at h ⊢
  rw [hs] at h
  obtain ⟨start, absent, relayed, calls⟩ := h
  rw [outcomesTaken_concat, start, statusesTaken_concat_of_none ms rfl, relayed, deeds_start, calls]
  exact .driving rfl rfl (told_nil _) (fun _ hc => nomatch hc)

/-- There is no outcome, or it is an error: nothing will be told. -/
theorem Accounted.refuse {ms : List Move} (h : Accounted ms b) (hs : b.stage = .waiting)
    (e : Option HostError) : Accounted (ms ++ [.refuse e]) (b.refuse e) := by
  unfold Accounted at h ⊢
  rw [hs] at h
  obtain ⟨start, absent, relayed, calls⟩ := h
  rw [outcomesTaken_concat, start, statusesTaken_concat_of_none ms rfl, relayed, deeds_refuse, calls]
  exact .refusing rfl ⟨absent, rfl, rfl⟩

theorem Accounted.relay [StatusHost σ] {ms : List Move} (h : Accounted ms b)
    (hs : b.stage = .driving d) (p : Placed Status) :
    Accounted (ms ++ [.relay p]) (b.relay d p) := by
  unfold Accounted at h ⊢
  rw [hs] at h
  rw [outcomesTaken_concat_of_none ms rfl, statusesTaken_concat, deeds_relay, reports_append]
  exact h.relay b p

theorem Accounted.finish [StatusHost σ] {ms : List Move} {handle : Handle} {exit : ExitCode}
    {left : Bool} (h : Accounted ms b) (hs : b.stage = .finishing handle exit left) :
    Accounted (ms ++ [.report]) (b.finish handle exit left) := by
  unfold Accounted at h ⊢
  rw [hs] at h
  obtain _ | _ | ⟨start, same, told, decided⟩ := h
  rw [outcomesTaken_concat_of_none ms rfl, statusesTaken_concat_of_none ms rfl, deeds_finish,
    reports_append, same]
  exact .releasing start (told.finish exit _) (decided.finish told _)

theorem Accounted.release {ms : List Move} {ending : Ending} {next : Release}
    (h : Accounted ms b) (hs : b.stage = .releasing ending next) :
    Accounted (ms ++ [.release]) (b.release ending next) := by
  unfold Accounted at h ⊢
  rw [hs] at h
  rw [outcomesTaken_concat_of_none ms rfl, statusesTaken_concat_of_none ms rfl, deeds_release]
  cases h with
  | releasing start told decided =>
    cases next with
    | closeControl | deregister | announce => exact .releasing start told decided
    | signal => exact .ended start told decided
  | refusing start untold =>
    cases next with
    | closeControl | deregister | announce => exact .refusing start untold
    | signal => exact .refused start untold

/-- **A move of the bridge keeps the account.** -/
theorem Accounted.makes [StatusHost σ] {ms : List Move} {m : Move} (h : Accounted ms b)
    (hm : b.Makes m b') : Accounted (ms ++ [m]) b' := by
  have hmove := hm
  cases hm with
  | start hs => exact h.start hs _
  | refuse hs | abandon hs => exact h.refuse hs _
  | @read d p hs =>
    refine h.quiet hs hmove rfl rfl ?_
    rw [deeds_read, reports_append]
    exact List.append_nil _
  | place hs | endStatuses hs => exact h.quiet hs hmove rfl rfl rfl
  | settle hs => exact h.quiet hs hmove rfl rfl (by rw [deeds_settle])
  | complete hs => exact h.quiet hs hmove rfl rfl (by rw [deeds_complete])
  | relay hs => exact h.relay hs _
  | report hs => exact h.finish hs
  | release hs => exact h.release hs

/-! ## What the actions keep -/

/-- Nobody but the bridge reports. -/
theorem Meets.reports (hm : b.Meets b') : reports (deeds b'.log) = reports (deeds b.log) := by
  cases hm with
  | aside _ _ _ _ deeds | outlived _ _ _ _ _ _ deeds => rw [deeds]
  | take ht hp =>
    rw [deeds_takeRequest hp, reports_append]
    exact List.append_nil _
  | dropRequests => rw [dropRequests_log]
  | finish => rw [finishHandler_log]

/-- Nobody but the bridge starts a handler. -/
theorem Meets.absent (h : b.handler = .absent) (hm : b.Meets b') : b'.handler = .absent := by
  cases hm with
  | aside _ _ handler => exact handler.trans h
  | take => exact b.takeRequest_handler.trans h
  | dropRequests => exact b.dropRequests_handler.trans h
  | finish c hr | outlived c hr => exact absurd (h.symm.trans hr) (by simp)

/-- An account speaks of the handler only as long as there is none. -/
theorem Account.handler {handler handler' : HandlerStage} {stage : Stage}
    (h : Account taken handler relayed calls stage)
    (hh : handler = .absent → handler' = .absent) : Account taken handler' relayed calls stage := by
  cases h with
  | waiting start untold => exact .waiting start ⟨hh untold.absent, untold.relayed, untold.calls⟩
  | driving start same told agreed => exact .driving start same told agreed
  | finishing start same told decided => exact .finishing start same told decided
  | releasing start told decided => exact .releasing start told decided
  | ended start told decided => exact .ended start told decided
  | refusing start untold => exact .refusing start ⟨hh untold.absent, untold.relayed, untold.calls⟩
  | refused start untold => exact .refused start ⟨hh untold.absent, untold.relayed, untold.calls⟩

/-- **An action keeps the account.** -/
theorem Accounted.meets {ms : List Move} (h : Accounted ms b) (hm : b.Meets b') :
    Accounted ms b' := by
  unfold Accounted at h ⊢
  rw [hm.reports]
  by_cases hd : ∃ d, b.stage = .driving d
  · obtain ⟨d, hs⟩ := hd
    obtain ⟨mailbox, hs'⟩ := hm.driving hs
    rw [hs] at h
    rw [hs']
    exact h.quiet (.inl ⟨_, rfl, rfl⟩)
  · rw [hm.stage fun d hs => hd ⟨d, hs⟩]
    exact h.handler hm.absent

/-- **The account of a run is always right.** -/
theorem accounted_after [StatusHost σ] (name handlerName : String) (context : Context) (host : σ)
    (history : List Step) :
    Accounted ((fresh name handlerName context host).moves history)
      ((fresh name handlerName context host).after history) :=
  invariant_after (P := fun _ ms b => Accounted ms b) (fun h hm => h.makes hm)
    (fun h ha => h.meets ha.meets) (accounted_fresh name handlerName context host) history

/-! ## The reports of a run -/

/-- What the account of a started run says, whatever its stage. -/
theorem Account.started {handler : HandlerStage} {s : Dispatched}
    (h : Account [some (.ok s)] handler relayed calls b.stage) :
    Told s.handle relayed b.finalExit? calls ∧
      ((∀ call ∈ calls, call.2.2 = .ok ()) ∨ ∃ v, b.verdict? = some v ∧ Decided relayed calls v) ∧
      ∀ ending, b.stage = .ended ending →
        ∃ exit left, ending = .stopped exit left ∧ b.finalExit? = some exit := by
  unfold finalExit? verdict?
  cases hstage : b.stage with
  | waiting =>
    rw [hstage] at h
    obtain ⟨⟨⟩⟩ := h
  | driving d =>
    rw [hstage] at h
    obtain _ | ⟨⟨⟩, same, told, agreed⟩ := h
    exact ⟨told, .inl agreed, fun _ he => by cases he⟩
  | finishing handle exit left =>
    rw [hstage] at h
    obtain _ | _ | ⟨⟨⟩, same, told, decided⟩ := h
    exact ⟨told, .inr ⟨_, rfl, decided⟩, fun _ he => by cases he⟩
  | releasing ending next =>
    rw [hstage] at h
    cases h with
    | releasing start told decided =>
      obtain ⟨⟩ := start
      exact ⟨told, .inr ⟨_, rfl, decided⟩, fun _ he => by cases he⟩
    | @refusing e _ start => cases e <;> cases start
  | ended ending =>
    rw [hstage] at h
    cases h with
    | ended start told decided =>
      obtain ⟨⟩ := start
      exact ⟨told, .inr ⟨_, rfl, decided⟩, fun _ he => ⟨_, _, (Stage.ended.inj he).symm, rfl⟩⟩
    | @refused e start => cases e <;> cases start

/-- What the account of any other run says. -/
theorem Account.notStarted {handler : HandlerStage} {stage : Stage}
    (h : Account taken handler relayed calls stage) (ht : ∀ s, taken ≠ [some (.ok s)]) :
    taken.length ≤ 1 ∧ Untold handler relayed calls ∧
      ∀ ending, stage = .ended ending → ∃ e, ending = .notStarted e := by
  cases h with
  | waiting start untold => exact ⟨start ▸ Nat.zero_le _, untold, fun _ he => by cases he⟩
  | driving start | finishing start | releasing start | ended start => exact absurd start (ht _)
  | refusing start untold => exact ⟨start ▸ Nat.le_refl _, untold, fun _ he => by cases he⟩
  | refused start untold =>
    exact ⟨start ▸ Nat.le_refl _, untold, fun _ he => ⟨_, (Stage.ended.inj he).symm⟩⟩

/-- The last call is the last report. -/
theorem Told.getLast? {handle : Handle} {exit : ExitCode}
    (h : Told handle relayed (some exit) calls) :
    ∃ r, calls.getLast? = some (handle, Record.ofStatus .stopped exit, r) := by
  have hlast : (calls.map (·.2.1)).getLast? = some (Record.ofStatus .stopped exit) := by
    rw [h.records]
    exact List.getLast?_concat
  rw [List.getLast?_map] at hlast
  obtain ⟨⟨handle', record, r⟩, hcall, rfl⟩ := Option.map_eq_some_iff.mp hlast
  obtain rfl : handle' = handle := h.handles _ (List.mem_of_getLast? hcall)
  exact ⟨r, hcall⟩

/-- A run that ended with a last report was started, and made it with the handle published. -/
theorem last_report_after [StatusHost σ] (name handlerName : String) (context : Context) (host : σ)
    (history : List Step) {exit : ExitCode} {left : Bool}
    (h : ((fresh name handlerName context host).after history).ending? =
      some (.stopped exit left)) :
    ∃ (s : Dispatched) (r : Except HostError Unit),
      outcomesTaken ((fresh name handlerName context host).moves history) = [some (.ok s)] ∧
      (reports ((fresh name handlerName context host).after history).log).getLast? =
        some (s.handle, Record.ofStatus .stopped exit, r) := by
  have haccount := accounted_after name handlerName context host history
  unfold Accounted at haccount
  rw [stage_of_ending h, reports_deeds] at haccount
  obtain _ | _ | _ | _ | ⟨start, told⟩ := haccount
  obtain ⟨r, hlast⟩ := told.getLast?
  exact ⟨_, r, start, hlast⟩

/-- A run that ended without a report was told why it was not started. -/
theorem refused_after [StatusHost σ] (name handlerName : String) (context : Context) (host : σ)
    (history : List Step) {e : Option HostError}
    (h : ((fresh name handlerName context host).after history).ending? = some (.notStarted e)) :
    outcomesTaken ((fresh name handlerName context host).moves history) = [e.map .error] := by
  have haccount := accounted_after name handlerName context host history
  unfold Accounted at haccount
  rw [stage_of_ending h] at haccount
  obtain _ | _ | _ | _ | _ | _ | ⟨start⟩ := haccount
  exact start

/-- **A run whose start failed comes to its end by itself**, where only the bridge asks for the
outcome, and the signal is set. -/
theorem ends_of_refused [StatusHost σ] (name handlerName : String) (context : Context) (host : σ)
    {history : List Step} {e : HostError} (hsteal : .steal ∉ acts history)
    (he : published? (acts history) = some (.error e))
    (hready : ((fresh name handlerName context host).after history).handshake.ready = true) :
    ∃ n, (((fresh name handlerName context host).after history).after
      (List.replicate n .move)).ending?.isSome := by
  have haccount := accounted_after name handlerName context host history
  have hheard := heard_after name handlerName context host history
  have hunstolen := unstolen_after name handlerName context host hsteal
  have hnot : ∀ s : Dispatched,
      outcomesTaken ((fresh name handlerName context host).moves history) ≠ [some (.ok s)] := by
    intro s hs
    have hpublished : published? (acts history) = some (.ok s) :=
      published_of_taken name handlerName context host history (by simp [hs])
    cases he.symm.trans hpublished
  unfold Accounted at haccount
  generalize (fresh name handlerName context host).after history = b at *
  cases hstage : b.stage with
  | waiting =>
    obtain ⟨o, ho⟩ := Option.isSome_iff_exists.mp (hunstolen.kept hstage hready)
    obtain rfl : o = .error e := Option.some.inj ((hheard.kept o ho).symm.trans he)
    have hstep : b.step .move = b.refuse (some e) := by
      simp [step, next?, perform, hstage, Handshake.poll, hready, ho]
    refine ⟨5, ?_⟩
    rw [List.replicate_succ, after_cons, hstep]
    have hends := ends_of_releasing (b := b.refuse (some e)) (n := 4) rfl rfl
    rw [hends]
    rfl
  | releasing ending next => exact ⟨Release.weight next, by rw [ends_of_releasing hstage rfl]; rfl⟩
  | ended ending => exact ⟨0, by simp [ending?, hstage]⟩
  | driving d =>
    rw [hstage] at haccount
    obtain _ | ⟨start⟩ := haccount
    exact absurd start (hnot _)
  | finishing handle exit left =>
    rw [hstage] at haccount
    obtain _ | _ | ⟨start⟩ := haccount
    exact absurd start (hnot _)

/-- **The reports of a run.**  The bridge asks the handshake at most once, and what it gets is the
first outcome published.  Unless that is a start, nothing is ever reported and there is no handler.
After a start, each status taken is relayed with the handle published, in order, and one last
report follows, with the exit code the run ends with; a refused status is the last one relayed and
ends the run, and from the end of a run the bridge comes to a stop by itself. -/
theorem reports_of_run [StatusHost σ] (name handlerName : String) (context : Context) (host : σ)
    (history : List Step) :
    let b := (fresh name handlerName context host).after history
    let ms := (fresh name handlerName context host).moves history
    (∀ o, some o ∈ outcomesTaken ms → published? (acts history) = some o) ∧
    match outcomesTaken ms with
    | [some (.ok s)] =>
      Told s.handle (statusesTaken ms) b.finalExit? (reports b.log) ∧
      (∀ call ∈ (reports b.log).take (statusesTaken ms).length, ∀ e, call.2.2 = .error e →
        b.verdict? = some (refusedExit e, true)) ∧
      (∀ ending, b.ending? = some ending →
        ∃ exit left, ending = .stopped exit left ∧ b.finalExit? = some exit) ∧
      (∀ exit left, b.verdict? = some (exit, left) →
        ∃ n, (b.after (List.replicate n .move)).ending? = some (.stopped exit left))
    | asked => asked.length ≤ 1 ∧ reports b.log = [] ∧ b.handler = .absent ∧
      ∀ ending, b.ending? = some ending → ∃ e, ending = .notStarted e := by
  intro b ms
  refine ⟨fun o ho => published_of_taken name handlerName context host history ho, ?_⟩
  have h : Account (outcomesTaken ms) b.handler (statusesTaken ms) (reports (deeds b.log)) b.stage :=
    accounted_after name handlerName context host history
  rw [reports_deeds] at h
  split
  · rename_i s hs
    rw [hs] at h
    obtain ⟨told, hdecided, hended⟩ := h.started
    refine ⟨told, fun call hc e he => ?_, fun ending he => hended ending (stage_of_ending he),
      fun exit left hv => ends_of_verdict hv⟩
    obtain agreed | ⟨v, hv, decided⟩ := hdecided
    · rw [agreed call (List.mem_of_mem_take hc)] at he
      cases he
    · rw [hv, decided call hc e he]
  · rename_i hs
    obtain ⟨hlength, untold, hended⟩ := h.notStarted fun s hs' => hs s hs'
    exact ⟨hlength, untold.calls, untold.absent, fun ending he => hended ending (stage_of_ending he)⟩

/-! ## The reports of a stop -/

/-- Only the state of a status makes its record one of a stop. -/
theorem isStopped_ofStatus (s : Status) (e : ExitCode) :
    (Record.ofStatus s e).isStopped = (s.state == .stopped) := by
  have hraw : (Record.ofStatus s e).currentState = s.state.raw := rfl
  rw [Record.isStopped, hraw, Bool.eq_iff_iff, beq_iff_eq, beq_iff_eq]
  exact ⟨ServiceState.raw_injective, fun h => by rw [h]⟩

/-- A status relayed counts as a stop if it says so, and the last report always does. -/
theorem Told.countP_isStopped {handle : Handle} {exit : ExitCode}
    (h : Told handle relayed (some exit) calls) :
    (calls.map (·.2.1)).countP Record.isStopped = relayed.countP (·.state == .stopped) + 1 := by
  have hrelayed : (relayed.map (Record.ofStatus · .success)).countP Record.isStopped =
      relayed.countP (·.state == .stopped) := by
    rw [List.countP_map]
    exact List.countP_congr fun s _ => by rw [Function.comp, isStopped_ofStatus]
  rw [h.records, List.countP_append, hrelayed]
  rfl

/-- **The reports of a stop.**  When a run has ended, the last record is one of a stop and carries the
exit code of the run.  It is the only one exactly if the handler said of no status that was taken
that the service has stopped: each that did was relayed as it was. -/
theorem countP_isStopped_reports [StatusHost σ] (name handlerName : String) (context : Context)
    (host : σ) (history : List Step) {exit : ExitCode} {left : Bool}
    (h : ((fresh name handlerName context host).after history).ending? =
      some (.stopped exit left)) :
    let records := (reports ((fresh name handlerName context host).after history).log).map (·.2.1)
    let relayed := statusesTaken ((fresh name handlerName context host).moves history)
    records.getLast? = some (Record.ofStatus .stopped exit) ∧
    (Record.ofStatus .stopped exit).isStopped = true ∧
    records.countP Record.isStopped = relayed.countP (·.state == .stopped) + 1 ∧
    (records.countP Record.isStopped = 1 ↔ ∀ s ∈ relayed, s.state ≠ .stopped) := by
  intro records relayed
  obtain ⟨s, told⟩ : ∃ s : Dispatched, Told s.handle relayed (some exit)
      (reports ((fresh name handlerName context host).after history).log) := by
    have haccount := accounted_after name handlerName context host history
    unfold Accounted at haccount
    rw [stage_of_ending h, reports_deeds] at haccount
    obtain _ | _ | _ | _ | ⟨_, told⟩ := haccount
    exact ⟨_, told⟩
  have hcount : records.countP Record.isStopped = relayed.countP (·.state == .stopped) + 1 :=
    told.countP_isStopped
  refine ⟨?_, isStopped_ofStatus _ _, hcount, ?_⟩
  · change (List.map _ _).getLast? = _
    rw [told.records]
    exact List.getLast?_concat
  · rw [hcount, Nat.add_eq_right, List.countP_eq_zero]
    simp only [beq_iff_eq, ne_eq]

/-- The handler says that the service has stopped, and then exits. -/
def stoppedThenExit : List Step :=
  [.act (.store (.ok ⟨1, ["svc"]⟩)), .act .announce, .move, .act (.offerStatus 1 .stopped), .move,
    .act (.finish (.exited .success))] ++ List.replicate 7 .move

/-- The host is told of two stops. -/
theorem two_stops :
    let b := (fresh "svc" "handler" 0 (ScriptedHost.mk [] 0)).after stoppedThenExit
    b.ending? = some (.stopped .success false) ∧
    (reports b.log).map (·.2.1) =
      [Record.ofStatus .stopped .success, Record.ofStatus .stopped .success] ∧
    ((reports b.log).map (·.2.1)).countP Record.isStopped = 2 ∧
    ¬ ((reports b.log).map (·.2.1)).countP Record.isStopped = 1 := by
  intro b
  have hended : b.ending? = some (.stopped .success false) := rfl
  have h := (countP_isStopped_reports "svc" "handler" 0 (ScriptedHost.mk [] 0) stoppedThenExit
    hended).2.2
  refine ⟨hended, rfl, h.1, fun hone => ?_⟩
  exact h.2.mp hone .stopped (List.mem_singleton_self _) rfl

end Steward.Bridge

import Steward.Proofs.Host.Dispatcher

/-!
# Proofs/Host/Dispatch — a dispatch from its beginning

A host that was fresh and has no fault to dispatch with keeps the order of its commands and the account of
its calls along every history (`kept_after`).  What a dispatch promises is read off that: what comes behind
a stopped record is never taken, left alone the dispatcher takes all the rest, and the dispatch that runs
is one of the histories (`Plays`).

A stopped record may come from a thread of its own, while the dispatcher goes on.  Its acceptance, the end of
the callback and the exit are then three moments, and a callback may have been found before its end and be
called after it.  What is promised to everybody counts from the end of the callback; for reports that the
service or the callback makes, the dispatcher is not there to tell the three moments apart.

* `Ordered.took_exit`, `Answered.found_cleared`, `Answered.silent` — what a stopped record puts an end to.
* `Answered.inside` — with a report from inside, it is the end of the calls.
* `Ordered.takes_all` — nothing in the queue is in the way of what comes behind it.
* `plays_dispatch` — to dispatch a service is one of the histories.
* `dispatch_in_order` — a dispatch enters its service once, takes the commands in order up to the first
  exit, and calls the callback once for each of them, if there is one.
-/

namespace Steward

namespace SimulatedHost

/-! ## One round of the queue -/

theorem drain_nil {h : SimulatedHost} (hq : h.queue = []) (on : Responder) :
    h.drain on = (h, [], false) := by
  rw [drain]
  split <;> simp_all

theorem drain_exit {h : SimulatedHost} {rest : List QueuedCommand} (hq : h.queue = .exit :: rest)
    (on : Responder) : h.drain on = ({ h with queue := rest }, [], true) := by
  rw [drain]
  split <;> simp_all

theorem drain_cons {h : SimulatedHost} {c : QueuedCommand} {rest : List QueuedCommand}
    (hq : h.queue = c :: rest) (hc : c ≠ .exit) (on : Responder) {done : SimulatedHost × List Incident}
    (hdone : ({ h with queue := rest } : SimulatedHost).perform on c = done) :
    h.drain on = ((done.1.drain on).1, done.2 ++ (done.1.drain on).2.1, (done.1.drain on).2.2) := by
  subst hdone
  rw [drain]
  split <;> simp_all

end SimulatedHost

namespace Dispatcher

open QueuedCommand (upToExit)

variable {h : SimulatedHost} {opened : Option (String × Context)} {d : Dispatcher}

/-! ## After a stopped record -/

/-- **Nothing behind an exit is taken.** -/
theorem Ordered.took_exit (ho : Ordered h opened d) (hc : Conserved h d) {before later : List Notice}
    (hlog : d.log = before ++ .queued .exit :: later) :
    tookIn d.log <+: h.queue ++ queuedIn before ++ [.exit] := by
  have htook := ho.phase.takes_first ((List.prefix_append _ _).trans hc.some)
  have hqueued : queuedIn d.log = queuedIn before ++ .exit :: queuedIn later := by
    rw [hlog, queuedIn_append]
    rfl
  rw [hqueued, ← List.append_assoc] at htook
  exact htook.trans (QueuedCommand.upToExit_append_exit _ _)

theorem Found.of_append {slot : Option Context} {log news : List Notice}
    (hf : Found slot (log ++ news)) : Found (slotAfter slot log) news := by
  rintro before c k later rfl
  have := hf (log ++ before) c k later (List.append_assoc ..).symm
  rwa [slotAfter_append] at this

/-- **Nothing is found once the callback was taken away**, until the next registration. -/
theorem Answered.found_cleared (ha : Answered h d) {before later : List Notice}
    (hlog : d.log = before ++ .cleared :: later) (hlater : registeredIn later = []) :
    foundIn later = [] := by
  have hfound := ha.found
  rw [hlog, List.append_cons] at hfound
  have hgone : slotAfter h.callback (before ++ [.cleared]) = none := by
    rw [slotAfter_append]
    rfl
  exact Found.nothing (hgone ▸ hfound.of_append) hlater

/-- So what is called since was found before. -/
theorem Answered.calls_cleared (ha : Answered h d) {before later : List Notice}
    (hlog : d.log = before ++ .cleared :: later) (hlater : registeredIn later = []) :
    callsIn before ++ callsIn later <+: foundIn before := by
  have hcalled : callsIn d.log <+: foundIn d.log := ha.called ▸ List.prefix_append _ _
  have hcalls : callsIn d.log = callsIn before ++ callsIn later := by
    rw [hlog, callsIn_append]
    rfl
  have hfound : foundIn d.log = foundIn before ++ foundIn later := by
    rw [hlog, foundIn_append]
    rfl
  rwa [hcalls, hfound, ha.found_cleared hlog hlater, List.append_nil] at hcalled

/-- That is one call at most. -/
theorem Answered.late_call (ha : Answered h d) {before later : List Notice}
    (hlog : d.log = before ++ .cleared :: later) (hlater : registeredIn later = []) :
    (callsIn later).length ≤ 1 := by
  have hcalls := (ha.calls_cleared hlog hlater).length_le
  have hone := ha.prompt before ⟨_, hlog.symm⟩
  rw [List.length_append] at hcalls
  omega

/-- And it is none, unless the dispatcher went on before the callback was taken away. -/
theorem Answered.silent (ha : Answered h d) {before between later : List Notice} {r : Record}
    (hlog : d.log = before ++ .accepted r :: (between ++ .cleared :: later))
    (hbefore : foundIn before = callsIn before) (hbetween : looksIn between = [])
    (hlater : registeredIn later = []) : callsIn between = [] ∧ callsIn later = [] := by
  have hsplit : d.log = (before ++ .accepted r :: between) ++ .cleared :: later := by
    rw [hlog, List.append_assoc, List.cons_append]
  have hcalls := ha.calls_cleared hsplit hlater
  have hfound : foundIn (before ++ .accepted r :: between) = callsIn before := by
    rw [foundIn_append, hbefore]
    exact (congrArg _ (congrArg (List.filterMap _) hbetween)).trans (List.append_nil _)
  rw [hfound, callsIn_append] at hcalls
  have hnone := hcalls.length_le
  change (callsIn before ++ callsIn between ++ callsIn later).length ≤ _ at hnone
  rw [List.length_append, List.length_append] at hnone
  exact ⟨List.eq_nil_of_length_eq_zero (by omega), List.eq_nil_of_length_eq_zero (by omega)⟩

/-- So does it for as long as the word is not given back. -/
theorem inside_after (hin : d.duty.isInside) {history : List Step} (hword : ∀ s ∈ history, ¬ s.givesBack) :
    (d.after history).duty.isInside ∧ looksIn (d.after history).log = looksIn d.log := by
  induction history generalizing d with
  | nil => exact ⟨hin, rfl⟩
  | cons s history ih =>
    obtain ⟨hs, hword⟩ := List.forall_mem_cons.mp hword
    obtain ⟨hin, hlooks⟩ := (does_step d s).inside hin hs
    obtain ⟨hin', hlooks'⟩ := ih hin hword
    exact ⟨hin', hlooks'.trans hlooks⟩

/-- An accepted record is told of. -/
theorem log_report {given : Handle} {r : Record} (hok : (d.report given r).2 = .ok ()) :
    (d.report given r).1.log = d.log ++ [.accepted r] := by
  have hanswer : (d.host.attempt given r).2 = .ok () := hok
  rw [report]
  dsimp only
  rw [hanswer]
  rfl

/-- With a stopped record behind, the next step of its report finds the callback taken away, or takes it
away. -/
theorem Stopping.cleared_after (hs : Stopping d) {before later : List Notice} {r : Record}
    (hlog : d.log = before ++ .accepted r :: later) (hr : r.isStopped) :
    ∃ later', (d.step .clear).log = before ++ .accepted r :: (later ++ later') ∧ looksIn later' = [] ∧
      .cleared ∈ later ++ later' := by
  rw [step]
  split
  case isTrue hnone =>
    refine ⟨[], by rw [List.append_nil, hlog], rfl, ?_⟩
    exact List.mem_append_left _ ((hs.brings _ _ _ hlog hr).cleared.resolve_left (not_not.mpr hnone))
  case isFalse =>
    refine ⟨[.cleared], ?_, rfl, List.mem_append_right _ (List.mem_singleton_self _)⟩
    rw [clear, hlog, List.append_assoc, List.cons_append]

/-- When the service or the callback reports, the dispatcher does not look until the callback is taken
away. -/
theorem Stopping.cleared_inside (hs : Stopping d) (hin : d.duty.isInside) {given : Handle} {r : Record}
    (hok : (d.report given r).2 = .ok ()) (hr : r.isStopped) {between : List Step}
    (hword : ∀ s ∈ between, ¬ s.givesBack) :
    ∃ mid mid', (d.after (.report given r :: (between ++ [.clear]))).log =
      d.log ++ .accepted r :: (mid ++ .cleared :: mid') ∧ looksIn mid = [] := by
  obtain ⟨told, htold⟩ := log_prefix_after (d.report given r).1 between
  have hlog : ((d.report given r).1.after between).log = d.log ++ .accepted r :: told := by
    rw [← htold, log_report hok, List.append_assoc]
    rfl
  have hlooks : looksIn told = [] := by
    have hwaits := (inside_after (d := (d.report given r).1) hin hword).2
    rw [← htold, looksIn_append] at hwaits
    exact List.append_cancel_left (hwaits.trans (List.append_nil _).symm)
  obtain ⟨told', hlog', hlooks', hcleared⟩ :=
    ((hs.does (d.does_report given r)).after between).cleared_after hlog hr
  obtain ⟨mid, mid', hmid⟩ := List.append_of_mem hcleared
  refine ⟨mid, mid', ?_, ?_⟩
  · rw [after_cons, after_append, ← hmid]
    exact hlog'
  · have hnone : looksIn (told ++ told') = [] := by rw [looksIn_append, hlooks, hlooks', List.append_nil]
    rw [hmid, looksIn_append] at hnone
    exact (List.append_eq_nil_iff.mp hnone).1

/-- **A stopped record that the service or the callback reports is the end of the calls**, if whoever
reports gives the word back after the report only.  What others do meanwhile makes no difference. -/
theorem Answered.inside (ha : Answered h d) (hs : Stopping d) (hin : d.duty.isInside) {given : Handle}
    {r : Record} (hok : (d.report given r).2 = .ok ()) (hr : r.isStopped) {between : List Step}
    (hword : ∀ s ∈ between, ¬ s.givesBack) (later : List Step) :
    ∃ news, (d.after (.report given r :: (between ++ .clear :: later))).log = d.log ++ news ∧
      (registeredIn news = [] → callsIn news = []) := by
  have hall : d.after (.report given r :: (between ++ .clear :: later)) =
      (d.after (.report given r :: (between ++ [.clear]))).after later := by
    rw [← after_append]
    simp
  obtain ⟨mid, mid', hcleared, hlooks⟩ := hs.cleared_inside hin hok hr hword
  obtain ⟨rest, hrest⟩ := log_prefix_after (d.after (.report given r :: (between ++ [.clear]))) later
  have hnews : (d.after (.report given r :: (between ++ .clear :: later))).log =
      d.log ++ .accepted r :: (mid ++ .cleared :: (mid' ++ rest)) := by
    rw [hall, ← hrest, hcleared]
    simp
  have hfound : foundIn d.log = callsIn d.log := by
    rw [ha.called, Duty.uncalled_of_isInside hin, List.append_nil]
  refine ⟨_, hnews, fun hregistered => ?_⟩
  have hlater : registeredIn (mid' ++ rest) = [] := by
    change registeredIn ([.accepted r] ++ (mid ++ ([.cleared] ++ (mid' ++ rest)))) = [] at hregistered
    rw [registeredIn_append, registeredIn_append, registeredIn_append] at hregistered
    simp only [List.append_eq_nil_iff] at hregistered
    exact hregistered.2.2.2
  obtain ⟨hmidcalls, hcalls⟩ := (ha.after _).silent hnews hfound hlooks hlater
  change callsIn ([.accepted r] ++ (mid ++ ([.cleared] ++ (mid' ++ rest)))) = []
  rw [callsIn_append, callsIn_append, callsIn_append, hmidcalls, hcalls]
  rfl

/-- **A whole report**: with a stopped record that is accepted, the callback is taken away next, and then
comes the exit. -/
theorem host_report (d : Dispatcher) (given : Handle) (r : Record) :
    ((d.report given r).1.after
      (if (d.report given r).2.isOk && r.isStopped then [.clear, .exit] else [])).host =
        (d.host.report given r).1 := by
  have hanswer : (d.report given r).2 = (d.host.attempt given r).2 := rfl
  have hhost : (d.report given r).1.host = (d.host.attempt given r).1 := rfl
  rw [hanswer, SimulatedHost.report]
  dsimp only
  split
  case isTrue hstops =>
    have hclearing : (d.report given r).1.clearing = d.clearing + 1 := if_pos hstops
    have hexiting : (d.report given r).1.clear.exiting ≠ 0 := Nat.succ_ne_zero _
    rw [after_cons, after_cons, after_nil, step, if_neg (hclearing ▸ Nat.succ_ne_zero _), step,
      if_neg hexiting, ← hhost]
    rfl
  case isFalse => exact hhost

/-- The news of it. -/
theorem report_stopped {given : Handle} {r : Record} (hok : (d.report given r).2 = .ok ())
    (hr : r.isStopped) (hs : d.host.stage ≠ .ended) :
    ((d.report given r).1.after [.clear, .exit]).host = (d.host.report given r).1 ∧
      (d.host.report given r).1.queue = d.host.queue ++ [.exit] ∧
      ((d.report given r).1.after [.clear, .exit]).log =
        d.log ++ [.accepted r, .cleared, .queued .exit] := by
  have hwhole := d.host_report given r
  have hstops : ((d.report given r).2.isOk && r.isStopped) = true := by
    rw [hok, hr]
    rfl
  rw [if_pos hstops] at hwhole
  obtain ⟨n, e, heq⟩ | heq := d.host.attempt_cases given r
  · rw [report, heq] at hok
    exact absurd hok (by simp)
  · have hlog : (d.report given r).1 =
        { d with
          host := ({ d.host with attempts := d.host.attempts + 1 } : SimulatedHost).accept r
          clearing := d.clearing + 1
          log := d.log ++ [.accepted r] } := by
      rw [report, heq]
      simp [hr, Except.isOk, Except.toBool]
    refine ⟨hwhole, ?_, ?_⟩
    · rw [← hwhole, hlog]
      simp [after_cons, step, clear, exit, SimulatedHost.clear, SimulatedHost.accept,
        SimulatedHost.enqueue, hs]
    · rw [hlog]
      simp [after_cons, step, clear, exit, SimulatedHost.clear, SimulatedHost.accept,
        SimulatedHost.enqueue, arrivals, hs]

/-! ## The rest of the queue -/

/-- The dispatcher's own steps once the service came back. -/
def Step.isOwn : Step → Bool
  | .take | .look | .call | .answer _ => true
  | _ => false

/-- A state that comes about by steps of some kind. -/
def Reaches (kind : Step → Bool) (d d' : Dispatcher) : Prop :=
  ∃ history : List Step, (∀ s ∈ history, kind s) ∧ d.after history = d'

section Reaches

variable {kind : Step → Bool} {d₁ d₂ d₃ : Dispatcher}

theorem Reaches.refl (d : Dispatcher) : Reaches kind d d := ⟨[], by simp, rfl⟩

theorem Reaches.trans (h₁ : Reaches kind d₁ d₂) (h₂ : Reaches kind d₂ d₃) :
    Reaches kind d₁ d₃ := by
  obtain ⟨history₁, hkind₁, rfl⟩ := h₁
  obtain ⟨history₂, hkind₂, rfl⟩ := h₂
  refine ⟨history₁ ++ history₂, fun s hs => ?_, after_append ..⟩
  exact (List.mem_append.mp hs).elim (hkind₁ s) (hkind₂ s)

theorem Reaches.step {s : Step} (hs : kind s) (heq : d₁.step s = d₂) : Reaches kind d₁ d₂ :=
  ⟨[s], List.forall_mem_singleton.mpr hs, heq⟩

end Reaches

theorem step_take {c : QueuedCommand} {rest : List QueuedCommand} (hd : d.duty = .waiting)
    (hq : d.host.queue = c :: rest) (hc : c ≠ .exit) :
    d.step .take =
      { d with host := { d.host with queue := rest }, duty := .holding c, log := d.log ++ [.took c] } := by
  rw [step, if_pos hd, take, hq]
  exact if_neg hc

theorem step_takeExit {rest : List QueuedCommand} (hd : d.duty = .waiting)
    (hq : d.host.queue = .exit :: rest) :
    d.step .take =
      { d with
        host := d.host.endDispatch
        duty := .off
        log := d.log ++ [.took .exit, .cameBack (.ok ())] } := by
  rw [step, if_pos hd, take, hq]
  simp [finish, SimulatedHost.endDispatch]

theorem step_look {c : QueuedCommand} (hd : d.duty = .holding c) : d.step .look = d.look c := by
  rw [step, hd]

theorem step_call {k : SimulatedHost.Callback} (hd : d.duty = .bound k) : d.step .call = d.call k := by
  rw [step, hd]

theorem step_answer {k : SimulatedHost.Callback} (hd : d.duty = .calling k) (result : UInt32) :
    d.step (.answer result) = d.answer result := by
  rw [step, hd]

/-- A call returns, and the dispatcher waits again. -/
theorem waits_after_call {k : SimulatedHost.Callback} (hd : d.duty = .calling k) :
    ∃ d', Reaches Step.isOwn d d' ∧ d'.duty = .waiting ∧ d'.host.queue = d.host.queue ∧
      tookIn d'.log = tookIn d.log :=
  ⟨_, .step rfl (step_answer hd 0), rfl, rfl, (tookIn_append ..).trans (List.append_nil _)⟩

/-- A callback that was found is called, and returns. -/
theorem waits_after_look {k : SimulatedHost.Callback} (hd : d.duty = .bound k) :
    ∃ d', Reaches Step.isOwn d d' ∧ d'.duty = .waiting ∧ d'.host.queue = d.host.queue ∧
      tookIn d'.log = tookIn d.log := by
  obtain ⟨d', hreach, hwait, hq, htook⟩ := waits_after_call (d := d.call k) rfl
  refine ⟨d', (Reaches.step rfl (step_call hd)).trans hreach, hwait, hq, htook.trans ?_⟩
  exact (tookIn_append ..).trans (List.append_nil _)

/-- So does it after a command. -/
theorem waits_after_command {c : QueuedCommand} (hd : d.duty = .holding c) :
    ∃ d', Reaches Step.isOwn d d' ∧ d'.duty = .waiting ∧ d'.host.queue = d.host.queue ∧
      tookIn d'.log = tookIn d.log := by
  have hlook : Reaches Step.isOwn d (d.look c) := .step rfl (step_look hd)
  have htook : tookIn (d.look c).log = tookIn d.log :=
    (tookIn_append ..).trans (List.append_nil _)
  cases hk : d.host.callback? c with
  | none => exact ⟨_, hlook, by simp [look, hk], rfl, htook⟩
  | some k =>
    obtain ⟨d', hreach, hwait, hq, htook'⟩ :=
      waits_after_look (d := d.look c) (k := k) (by simp [look, hk])
    exact ⟨d', hlook.trans hreach, hwait, hq, htook'.trans htook⟩

/-- **Left alone, a waiting dispatcher takes all that is in its queue**, up to the first exit. -/
theorem takes_all (hd : d.duty = .waiting) {queue : List QueuedCommand} (hq : d.host.queue = queue) :
    ∃ d', Reaches Step.isOwn d d' ∧ tookIn d'.log = tookIn d.log ++ upToExit queue := by
  induction queue generalizing d with
  | nil => exact ⟨d, .refl d, (List.append_nil _).symm⟩
  | cons c rest ih =>
    by_cases hc : c = .exit
    · subst hc
      refine ⟨_, .step rfl (step_takeExit hd hq), ?_⟩
      rw [upToExit, if_pos rfl, tookIn_append]
      rfl
    · have htake := step_take hd hq hc
      obtain ⟨d₁, hreach₁, hwait, hq₁, htook₁⟩ :=
        waits_after_command (d := d.step .take) (by rw [htake])
      rw [htake] at hq₁ htook₁
      obtain ⟨d₂, hreach₂, htook₂⟩ := ih hwait hq₁
      refine ⟨d₂, (Reaches.step rfl rfl).trans (hreach₁.trans hreach₂), ?_⟩
      rw [htook₂, htook₁, tookIn_append, List.append_assoc, upToExit, if_neg hc]
      rfl

/-- So whatever happened before, nothing in the queue is in the way of what comes behind it. -/
theorem Ordered.takes_all (ho : Ordered h opened d) (hc : Conserved h d) (hd : d.duty.isServing) :
    ∃ d', Reaches Step.isOwn d d' ∧ tookIn d'.log = upToExit (h.queue ++ queuedIn d.log) := by
  obtain ⟨hs, hexit, -⟩ := ho.phase.of_serving hd
  have hcame := hc.all (by rw [hs]; exact DispatchStage.noConfusion)
  obtain ⟨d₁, hreach₁, hwait, hq, htook₁⟩ : ∃ d', Reaches Step.isOwn d d' ∧ d'.duty = .waiting ∧
      d'.host.queue = d.host.queue ∧ tookIn d'.log = tookIn d.log := by
    cases hduty : d.duty with
    | waiting => exact ⟨d, .refl d, hduty, rfl, rfl⟩
    | holding c => exact waits_after_command hduty
    | bound k => exact waits_after_look hduty
    | calling k => exact waits_after_call hduty
    | off | entering =>
      rw [hduty] at hd
      exact absurd hd Bool.false_ne_true
  obtain ⟨d₂, hreach₂, htook₂⟩ := Dispatcher.takes_all hwait hq
  refine ⟨d₂, hreach₁.trans hreach₂, ?_⟩
  rw [htook₂, htook₁, ← hcame, QueuedCommand.upToExit_append hexit]

/-! ## The dispatch that runs -/

/-- The calls that a trace shows. -/
def calledIn (incidents : List SimulatedHost.Incident) : List SimulatedHost.Callback :=
  incidents.filterMap fun | .called k => some k | .reported .. => none

/-- The incidents that a trace shows. -/
def incidentsIn (trace : List SimulatedHost.Trace) : List SimulatedHost.Incident :=
  trace.filterMap fun | .incident i => some i | _ => none

theorem incidentsIn_append (trace trace' : List SimulatedHost.Trace) :
    incidentsIn (trace ++ trace') = incidentsIn trace ++ incidentsIn trace' := List.filterMap_append

theorem incidentsIn_map (incidents : List SimulatedHost.Incident) :
    incidentsIn (incidents.map .incident) = incidents := by
  rw [incidentsIn, List.filterMap_map]
  exact List.filterMap_some

/-- From one state to another, with these calls and these ends of dispatching. -/
structure Plays (d : Dispatcher) (calls : List SimulatedHost.Callback)
    (back : List (Except HostError Unit)) (d' : Dispatcher) : Prop where
  reaches : Reaches (fun _ => true) d d'
  calls : callsIn d'.log = callsIn d.log ++ calls
  back : cameBackIn d'.log = cameBackIn d.log ++ back

theorem Plays.trans {d₁ d₂ d₃ : Dispatcher} {calls calls' : List SimulatedHost.Callback}
    {back back' : List (Except HostError Unit)} (h₁ : Plays d₁ calls back d₂)
    (h₂ : Plays d₂ calls' back' d₃) : Plays d₁ (calls ++ calls') (back ++ back') d₃ where
  reaches := h₁.reaches.trans h₂.reaches
  calls := by rw [h₂.calls, h₁.calls, List.append_assoc]
  back := by rw [h₂.back, h₁.back, List.append_assoc]

theorem Plays.refl (d : Dispatcher) : Plays d [] [] d :=
  ⟨.refl d, (List.append_nil _).symm, (List.append_nil _).symm⟩

/-- One step, with its news. -/
theorem Plays.step {s : Step} {d' : Dispatcher} {news : List Notice} (heq : d.step s = d')
    (hlog : d'.log = d.log ++ news) : Plays d (callsIn news) (cameBackIn news) d' :=
  ⟨.step rfl heq, by rw [hlog, callsIn_append], by rw [hlog, cameBackIn_append]⟩

/-- What anybody does, is done by the service or by the callback as well. -/
theorem plays_outside {s : Step} (hs : s.isOutside) :
    Plays d [] [] (d.step s) ∧ (d.step s).duty = d.duty ∧ (d.step s).host.stage = d.host.stage := by
  have hd := does_step d s
  generalize heq : d.step s = d' at hd ⊢
  cases hd with
  | outside _ hr =>
    have hplays := Plays.step heq rfl
    rw [hr.calls, hr.cameBack] at hplays
    exact ⟨hplays, rfl, hr.stage⟩
  | idle => exact ⟨.step heq (List.append_nil _).symm, rfl, rfl⟩
  | _ => cases hs

theorem plays_outsiders (history : List Step) (hs : ∀ s ∈ history, s.isOutside) :
    Plays d [] [] (d.after history) ∧ (d.after history).duty = d.duty ∧
      (d.after history).host.stage = d.host.stage := by
  induction history generalizing d with
  | nil => exact ⟨.refl d, rfl, rfl⟩
  | cons s history ih =>
    obtain ⟨hstep, hduty, hstage⟩ := plays_outside (d := d) (List.forall_mem_cons.mp hs).1
    obtain ⟨hplays, hduty', hstage'⟩ := ih (d := d.step s) (List.forall_mem_cons.mp hs).2
    exact ⟨hstep.trans hplays, hduty'.trans hduty, hstage'.trans hstage⟩

/-- A report with nothing in between. -/
theorem plays_report (d : Dispatcher) (given : Handle) (r : Record) :
    ∃ d', Plays d [] [] d' ∧ d'.host = (d.host.report given r).1 ∧ d'.duty = d.duty ∧
      d'.host.stage = d.host.stage := by
  have hsteps : ∀ s ∈ Step.report given r ::
      (if (d.report given r).2.isOk && r.isStopped then [.clear, .exit] else []), s.isOutside := by
    refine List.forall_mem_cons.mpr ⟨rfl, fun s hs => ?_⟩
    split at hs
    · obtain rfl | rfl := List.mem_pair.mp hs <;> rfl
    · cases hs
  obtain ⟨hplays, hduty, hstage⟩ := plays_outsiders (d := d) _ hsteps
  exact ⟨_, hplays, d.host_report given r, hduty, hstage⟩

/-- The reports of a callback. -/
theorem plays_reportAll (d : Dispatcher) (states : List UInt32) :
    ∃ d', Plays d (calledIn (d.host.reportAll states).2) [] d' ∧
      d'.host = (d.host.reportAll states).1 ∧ d'.duty = d.duty := by
  induction states generalizing d with
  | nil => exact ⟨d, .refl d, rfl, rfl⟩
  | cons s states ih =>
    obtain ⟨d₁, hreport, hhost₁, hduty₁, -⟩ := plays_report d SimulatedHost.handle (.ofState s)
    obtain ⟨d₂, hplays, hhost₂, hduty₂⟩ := ih d₁
    rw [hhost₁] at hplays hhost₂
    exact ⟨d₂, hreport.trans hplays, hhost₂, hduty₂.trans hduty₁⟩

/-- **A command** is carried out by a look and, if it finds a callback, its call. -/
theorem plays_perform (d : Dispatcher) (on : SimulatedHost.Responder) {c : QueuedCommand}
    (hd : d.duty = .holding c) :
    ∃ d', Plays d (calledIn (d.host.perform on c).2) [] d' ∧
      d'.host = (d.host.perform on c).1 ∧ d'.duty = .waiting := by
  have hlook : Plays d [] [] (d.look c) := .step (step_look hd) rfl
  unfold SimulatedHost.perform
  split
  case h_1 hk => exact ⟨_, hlook, rfl, by simp [look, hk]⟩
  case h_2 k hk =>
    have hbound : (d.look c).duty = .bound k := by simp [look, hk]
    have hcall : Plays (d.look c) [k] [] ((d.look c).call k) := .step (step_call hbound) rfl
    obtain ⟨d₁, hplays, hhost, hduty⟩ := plays_reportAll ((d.look c).call k) (on.reports k.call)
    have hanswer : Plays d₁ [] [] (d₁.answer (on.result k.call)) := Plays.step (step_answer hduty _) rfl
    have hall := ((hlook.trans hcall).trans hplays).trans hanswer
    rw [List.append_nil] at hall
    refine ⟨_, hall, ?_, rfl⟩
    rw [answer, hhost]
    rfl

/-- **The queue** is emptied by the dispatcher's own steps and the callback's reports. -/
theorem plays_drain (d : Dispatcher) (on : SimulatedHost.Responder) (hd : d.duty = .waiting) :
    ∃ d', Plays d (calledIn (d.host.drain on).2.1)
        (if (d.host.drain on).2.2 then [.ok ()] else []) d' ∧
      d'.host = if (d.host.drain on).2.2 then (d.host.drain on).1.endDispatch
        else (d.host.drain on).1 := by
  generalize hhost : d.host = host
  induction host using SimulatedHost.drain.induct on generalizing d with
  | case1 host hq =>
    rw [SimulatedHost.drain_nil hq]
    exact ⟨d, .refl d, hhost⟩
  | case2 host rest hq =>
    rw [SimulatedHost.drain_exit hq]
    exact ⟨_, .step (step_takeExit hd (hhost ▸ hq)) rfl, by rw [hhost]; rfl⟩
  | case3 host c rest hq hc done ih =>
    subst hhost
    rw [SimulatedHost.drain_cons hq hc on rfl]
    have htake := Plays.step (step_take hd hq hc) rfl
    obtain ⟨d₁, hplays₁, hhost₁, hwait⟩ :=
      plays_perform
        { d with host := { d.host with queue := rest }, duty := .holding c, log := d.log ++ [.took c] }
        on rfl
    obtain ⟨d₂, hplays₂, hhost₂⟩ := ih d₁ hwait hhost₁
    have hall := (htake.trans hplays₁).trans hplays₂
    refine ⟨d₂, ?_, hhost₂⟩
    rwa [calledIn, List.filterMap_append]

/-- An operation of the service. -/
theorem plays_op (d : Dispatcher) (op : SimulatedHost.Op) :
    ∃ d', Plays d [] [] d' ∧ d'.host = (d.host.step op).1 ∧ d'.duty = d.duty ∧
      d'.host.stage = d.host.stage := by
  cases op with
  | report state given => exact plays_report d given (.ofState state)
  | register context =>
    obtain ⟨hplays, hduty, hstage⟩ := plays_outside (d := d) (s := .register context) rfl
    exact ⟨_, hplays, rfl, hduty, hstage⟩
  | queue c =>
    obtain ⟨hplays, hduty, hstage⟩ := plays_outside (d := d) (s := .queue c) rfl
    exact ⟨_, hplays, rfl, hduty, hstage⟩
  | reports | results | hasReported | hasCount => exact ⟨d, .refl d, rfl, rfl, rfl⟩

/-- A dispatch while there is one. -/
theorem step_dispatch (hno : d.host.stage ≠ .fresh) (name : String) (context : Context) :
    d.step (.dispatch name context) = { d with log := d.log ++ [.refused d.host.unentered] } := by
  rw [step, dispatch, SimulatedHost.beginDispatch, if_neg (by simp [hno])]

/-- **What the service does when it was entered**: none of it calls or ends anything. -/
theorem plays_runMain (d : Dispatcher) (main : List SimulatedHost.MainStep)
    (trace : List SimulatedHost.Trace) (htrace : incidentsIn trace = [])
    (hno : d.host.stage ≠ .fresh) :
    ∃ d', Plays d [] [] d' ∧ d'.host = (d.host.runMain trace main).1 ∧ d'.duty = d.duty ∧
      incidentsIn (d.host.runMain trace main).2.1 = [] := by
  induction main generalizing d trace with
  | nil => exact ⟨d, .refl d, rfl, rfl, htrace⟩
  | cons s main ih =>
    cases s with
    | panic => exact ⟨d, .refl d, rfl, rfl, htrace⟩
    | dispatch =>
      have hrefuse : Plays d [] [] { d with log := d.log ++ [.refused d.host.unentered] } :=
        .step (step_dispatch hno "" 0) rfl
      obtain ⟨d', hplays, hrest⟩ := ih { d with log := d.log ++ [.refused d.host.unentered] }
        [.dispatchedAgain trace d.host.unentered] rfl hno
      exact ⟨d', hrefuse.trans hplays, hrest⟩
    | op op =>
      obtain ⟨d₁, hop, hhost₁, hduty₁, hstage₁⟩ := plays_op d op
      obtain ⟨d₂, hplays, hhost₂, hduty₂, hincidents⟩ := ih d₁
        (trace ++ [.answer (d.host.step op).2]) (by rw [incidentsIn_append, htrace]; rfl)
        (hstage₁ ▸ hno)
      rw [hhost₁] at hhost₂ hincidents
      exact ⟨d₂, hop.trans hplays, hhost₂, hduty₂.trans hduty₁, hincidents⟩

/-- The first dispatch. -/
theorem step_enter (hfault : d.host.dispatchFault = none) (hstart : d.host.noStart = false)
    (hfresh : d.host.stage = .fresh) (name : String) (context : Context) :
    d.step (.dispatch name context) =
      { d with
        host := { d.host with stage := .serving }
        duty := .entering
        log := d.log ++ [.entered context ((name :: d.host.args).map Wide.encode)] } := by
  rw [step, dispatch, SimulatedHost.beginDispatch, if_pos (by simp [hfault, hstart, hfresh])]

/-- The service comes back. -/
theorem step_leave (hd : d.duty = .entering) (panicked : Bool) :
    d.step (.leave panicked) =
      if panicked then d.finish (.error entryPanicked) else { d with duty := .waiting } := by
  rw [step, if_pos hd]

/-- **The dispatch that runs is one of the histories.** -/
theorem plays_dispatch (h : SimulatedHost) (hfault : h.dispatchFault = none)
    (hstart : h.noStart = false) (hfresh : h.stage = .fresh) (name : String) (context : Context)
    (main : List SimulatedHost.MainStep) (on : SimulatedHost.Responder) :
    ∃ d', Plays ((idle h).step (.dispatch name context))
        (calledIn (incidentsIn (h.dispatch name context main on).2.1))
        (h.dispatch name context main on).2.2.toList d' ∧
      d'.host = (h.dispatch name context main on).1 := by
  have hbegin : h.beginDispatch name =
      ({ h with stage := .serving }, .enters ((name :: h.args).map Wide.encode)) := by
    rw [SimulatedHost.beginDispatch, if_pos (by simp [hfault, hstart, hfresh])]
  rw [step_enter (d := idle h) hfault hstart hfresh, SimulatedHost.dispatch, hbegin]
  dsimp only
  obtain ⟨d₁, hplays₁, hhost₁, hduty₁, hincidents⟩ := plays_runMain
    { idle h with
      host := { h with stage := .serving }
      duty := .entering
      log := (idle h).log ++ [.entered context ((name :: h.args).map Wide.encode)] } main
    [.entered context ((name :: h.args).map Wide.encode)] rfl DispatchStage.noConfusion
  generalize ({ h with stage := .serving } : SimulatedHost).runMain
    [.entered context ((name :: h.args).map Wide.encode)] main = ran at hhost₁ hincidents
  obtain ⟨h₁, trace, ok⟩ := ran
  dsimp only at hhost₁ hincidents ⊢
  cases ok with
  | false =>
    have hleave : Plays d₁ [] [.error entryPanicked] (d₁.finish (.error entryPanicked)) :=
      .step (step_leave hduty₁ true) rfl
    simp only [Bool.false_eq_true, if_false, hincidents]
    exact ⟨_, hplays₁.trans hleave, congrArg SimulatedHost.endDispatch hhost₁⟩
  | true =>
    have hleave : Plays d₁ [] [] { d₁ with duty := .waiting } :=
      .step (step_leave hduty₁ false) (List.append_nil d₁.log).symm
    obtain ⟨d₂, hplays₂, hhost₂⟩ := plays_drain { d₁ with duty := .waiting } on rfl
    have hall := (hplays₁.trans hleave).trans hplays₂
    dsimp only at hhost₂ hall
    rw [hhost₁] at hhost₂ hall
    generalize h₁.drain on = drained at hhost₂ hall
    obtain ⟨h₂, incidents, ended⟩ := drained
    cases ended <;>
      simp only [Bool.false_eq_true, if_false, if_true, incidentsIn_append, incidentsIn_map,
        hincidents] at hhost₂ hall ⊢ <;>
      exact ⟨d₂, hall, hhost₂⟩

/-! ## A dispatch, from its beginning -/

/-- **A service is entered once, and commands are taken in order.** -/
structure TakesInOrder (h : SimulatedHost) (history : List Step) (d : Dispatcher) : Prop where
  /-- The first dispatch enters its service with the host's arguments, and no other one does. -/
  entered : enteredIn d.log =
    (firstDispatch history).toList.map fun p => (p.2, (p.1 :: h.args).map Wide.encode)
  /-- Any other dispatch fails, and does nothing. -/
  again : firstDispatch history ≠ none → ∀ name context, d.step (.dispatch name context) =
    { d with log := d.log ++ [.refused (.error (.described "dispatcher already running"))] }
  /-- The commands taken are the first that came, up to the first exit. -/
  took : tookIn d.log <+: upToExit (h.queue ++ queuedIn d.log)
  /-- The others are still in the queue, as long as dispatching is not over. -/
  waiting : d.host.stage ≠ .ended → tookIn d.log ++ d.host.queue = h.queue ++ queuedIn d.log
  /-- None is taken before the service came back, nor if it panicked. -/
  unentered : d.duty = .entering ∨ cameBackIn d.log = [.error entryPanicked] → tookIn d.log = []
  /-- Dispatching is over in the usual way once an exit is taken. -/
  ended : cameBackIn d.log = [.ok ()] ↔
    .exit ∈ tookIn d.log ∧ tookIn d.log = upToExit (h.queue ++ queuedIn d.log)
  /-- With the service back, the dispatcher takes all the rest up to the first exit. -/
  goesOn : d.duty.isServing → ∃ d', Reaches Step.isOwn d d' ∧
    tookIn d'.log = upToExit (h.queue ++ queuedIn d.log)

/-- **A stopped record ends the calls**, when its report has taken the callback away. -/
structure StopsCalls (h : SimulatedHost) (d : Dispatcher) : Prop where
  /-- The report of a stopped record that was accepted goes on to take the callback away, and to put an
  exit into the queue; and nothing else takes the callback away. -/
  follows : Stopping d
  /-- With nothing in between, the exit comes behind all that is in the queue. -/
  whole : ∀ given r, (d.report given r).2 = .ok () → r.isStopped → d.host.stage ≠ .ended →
    ((d.report given r).1.after [.clear, .exit]).host = (d.host.report given r).1 ∧
      (d.host.report given r).1.queue = d.host.queue ++ [.exit] ∧
      ((d.report given r).1.after [.clear, .exit]).log =
        d.log ++ [.accepted r, .cleared, .queued .exit]
  /-- What comes behind an exit is never taken. -/
  took : ∀ {before later}, d.log = before ++ .queued .exit :: later →
    tookIn d.log <+: h.queue ++ queuedIn before ++ [.exit]
  /-- No command finds a callback once it was taken away, unless one was registered since.  So what is
  called since was found before, and is one call at most. -/
  calls : ∀ {before later}, d.log = before ++ .cleared :: later → registeredIn later = [] →
    foundIn later = [] ∧ callsIn before ++ callsIn later <+: foundIn before ∧ (callsIn later).length ≤ 1
  /-- Nothing at all is called since a stopped record was accepted, if all that was found before had been
  called, and the dispatcher did not look for the callback until it was taken away. -/
  silent : ∀ {before between later r}, d.log = before ++ .accepted r :: (between ++ .cleared :: later) →
    foundIn before = callsIn before → looksIn between = [] → registeredIn later = [] →
    callsIn between = [] ∧ callsIn later = []
  /-- So it is when the service or the callback reports, and does not return before the report does:
  whatever else is done meanwhile, and ever after, nothing is called until a callback is registered. -/
  inside : d.duty.isInside → ∀ given r between later, (d.report given r).2 = .ok () → r.isStopped →
    (∀ s ∈ between, ¬ s.givesBack) →
    ∃ news, (d.after (.report given r :: (between ++ .clear :: later))).log = d.log ++ news ∧
      (registeredIn news = [] → callsIn news = [])

theorem Ordered.takesInOrder {history : List Step} (ho : Ordered h (firstDispatch history) d)
    (hc : Conserved h d) : TakesInOrder h history d where
  entered := ho.entered
  again hfirst name context := by
    rw [step_dispatch (mt ho.fresh.mp hfirst), SimulatedHost.unentered, ho.dispatchFault, ho.noStart]
    rfl
  took := ho.phase.takes_first ((List.prefix_append _ _).trans hc.some)
  waiting := hc.all
  unentered := by
    rintro (hd | hback)
    · exact (ho.phase.of_entering hd).2.1
    · exact ho.phase.of_panicked hback
  ended := ho.phase.took_eq ((List.prefix_append _ _).trans hc.some)
  goesOn := ho.takes_all hc

theorem Ordered.stopsCalls (ho : Ordered h opened d) (hc : Conserved h d) (ha : Answered h d)
    (hs : Stopping d) : StopsCalls h d where
  follows := hs
  whole _ _ hok hr hopen := report_stopped hok hr hopen
  took hlog := ho.took_exit hc hlog
  calls hlog hlater :=
    ⟨ha.found_cleared hlog hlater, ha.calls_cleared hlog hlater, ha.late_call hlog hlater⟩
  silent hlog hbefore hbetween hlater := ha.silent hlog hbefore hbetween hlater
  inside hin _ _ _ later hok hr hword := ha.inside hs hin hok hr hword later

/-- A service that stops inside its callback, with a command queued behind the stop, another one on a
thread of its own, and one more dispatch meanwhile. -/
def errand : List Step :=
  [.dispatch "worker" 7, .register 7, .leave false, .take, .look, .call, .dispatch "other" 8, .answer 0,
    .take, .look, .call, .report SimulatedHost.handle (.ofState ServiceState.stopped.raw), .clear, .exit,
    .queue (.control 4 0 0), .answer 120, .take, .take]

/-- Another thread reports the stop, and the dispatcher goes on between the three steps of the report: the
callback it found is called when it is gone already. -/
example :
    let d := (idle {}).after [.dispatch "worker" 7, .register 7, .leave false,
      .report SimulatedHost.handle (.ofState ServiceState.stopped.raw), .queue (.control 4 0 0), .take, .look,
      .clear, .call, .answer 0, .queue (.control 5 0 0), .take, .look, .exit]
    callsIn d.log = [⟨⟨4, 0, 0, 7⟩, false⟩] ∧ looksIn d.log = [(.control 4 0 0, some ⟨⟨4, 0, 0, 7⟩, false⟩),
      (.control 5 0 0, none)] ∧ d.host.queue = [.exit] := ⟨rfl, rfl, rfl⟩

end Dispatcher

end Steward

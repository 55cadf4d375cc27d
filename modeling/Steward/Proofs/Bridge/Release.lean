import Steward.Proofs.Bridge.Chronicle

/-!
# Proofs/Bridge/Release — everything is given back

However a run ends, its bridge gives back what it holds one after the other: the control link, the
registration, the announcement of its stop, and last the signal.  `GivenBack` says how far it has
come, and each move and each action keeps it.

Who comes to the control link is on its `roster`, under way or done, and nobody is ever taken off it
(`roster_after`).  When the link is closed nobody is under way, so all are done then; and after the end
of a run nobody is done but with a refusal (`refuses_after`).

* `givenBack_after` — it is always known how far everything is given back.
* `reported_after` — what a started run holds is given back after its last report.
* `released_when_ended` — when the bridge has ended everything is given back, and all who came to the
  control link are done.
-/

namespace Steward

namespace Handshake

/-- To ask for the outcome of the start, or to put one down, does not stop the bridge. -/
theorem stopped_poll (h : Handshake) : h.poll.1.stopped = h.stopped := by
  unfold poll
  split
  · split <;> rfl
  · rfl

theorem stopped_store (h : Handshake) (o : Outcome) : (h.store o).1.stopped = h.stopped := by
  unfold store
  split <;> rfl

end Handshake

/-- The handler is not driven any more. -/
def Stage.isOver : Stage → Bool
  | waiting | driving _ => false
  | finishing _ _ _ | releasing _ _ | ended _ => true

namespace Bridge

open Event (Story)

variable {σ : Type} {b b' : Bridge σ} {d : Driving}

/-! ## How far everything is given back -/

/-- What is given back, by how many things are still to be given back: with three left the control link
is shut, with two the registration is removed, and with none the signal of the stop is set. -/
structure GivenBack (b : Bridge σ) : Prop where
  control : b.stage.held ≤ 3 → b.control.Shut
  registration : b.registered = decide (3 ≤ b.stage.held)
  signal : b.handshake.stopped = decide (b.stage.held = 0)

/-- The host's calls do not reach the run, nobody can send it a control event or is still at it, and
the signal of its stop is set. -/
structure Released (b : Bridge σ) : Prop where
  deregistered : b.registered = false
  shut : b.control.Shut
  stopped : b.handshake.stopped = true

theorem givenBack_fresh (name handlerName : String) (context : Context) (host : σ) :
    GivenBack (fresh name handlerName context host) where
  control h := absurd h (by decide : ¬ 5 ≤ 3)
  registration := rfl
  signal := rfl

/-- When nothing is held any more everything is given back. -/
theorem GivenBack.released (h : GivenBack b) (hs : b.stage.held = 0) : Released b where
  deregistered := by rw [h.registration, hs]; rfl
  shut := h.control (by omega)
  stopped := by rw [h.signal, hs]; rfl

/-- The signal is set when nothing is held any more. -/
theorem GivenBack.ended_of_stopped (h : GivenBack b) (hstopped : b.handshake.stopped = true) :
    ∃ ending, b.stage = .ended ending := by
  have hheld : b.stage.held = 0 := by simpa [h.signal] using hstopped
  cases hs : b.stage with
  | ended ending => exact ⟨ending, rfl⟩
  | releasing ending next =>
    rw [hs] at hheld
    cases next <;> cases hheld
  | waiting | driving | finishing =>
    rw [hs] at hheld
    cases hheld

/-- A step that is not about giving back leaves things as they are. -/
theorem GivenBack.congr (h : GivenBack b) (held : b'.stage.held = b.stage.held)
    (control : b.control.Shut → b'.control.Shut) (registered : b'.registered = b.registered)
    (stopped : b'.handshake.stopped = b.handshake.stopped) : GivenBack b' where
  control hheld := control (h.control (held ▸ hheld))
  registration := by rw [registered, h.registration, held]
  signal := by rw [stopped, h.signal, held]

/-- While the handler is driven everything is held. -/
theorem held_of_driving (hs : b.stage = .driving d) : b.stage.held = 5 := by
  rw [hs]
  rfl

/-- As long as the handler is driven, and at the last report, nothing is given back. -/
theorem Makes.holds [StatusHost σ] {m : Move} (hm : b.Makes m b') (hr : m ≠ .release) :
    b.stage.held = 5 ∧ 4 ≤ b'.stage.held ∧ b'.registered = b.registered ∧
      b'.handshake.stopped = b.handshake.stopped := by
  have hleads : ∀ d, b.Leads d b' → 4 ≤ b'.stage.held := by
    rintro d (⟨d', hs', -⟩ | ⟨exit, left, hcut⟩)
    · rw [held_of_driving hs']
      decide
    · rw [hcut.stage]
      exact (by decide : 4 ≤ 5)
  have hmove := hm
  cases hm with
  | start hs => exact ⟨by rw [hs]; rfl, (by decide : 4 ≤ 5), rfl, Handshake.stopped_poll _⟩
  | refuse hs | abandon hs => exact ⟨by rw [hs]; rfl, Nat.le_refl 4, rfl, Handshake.stopped_poll _⟩
  | @read d p hs =>
    refine ⟨held_of_driving hs, hleads d (hmove.leads hs), ?_, congrArg _ (read_handshake _ _ _)⟩
    obtain ⟨requests, updates, stage, log, h⟩ := b.read_eq d p
    rw [h]
  | @relay d p hs =>
    refine ⟨held_of_driving hs, hleads d (hmove.leads hs), ?_, congrArg _ (relay_handshake _ _ _)⟩
    obtain ⟨host, requests, updates, stage, log, h⟩ := b.relay_eq d p
    rw [h]
  | place hs | endStatuses hs | complete hs =>
    exact ⟨held_of_driving hs, hleads _ (hmove.leads hs), rfl, rfl⟩
  | @settle d c r hs =>
    refine ⟨held_of_driving hs, hleads d (hmove.leads hs), ?_, ?_⟩ <;> cases r <;> rfl
  | report hs => exact ⟨by rw [hs]; rfl, Nat.le_refl 4, rfl, rfl⟩
  | release => exact absurd rfl hr

/-- **A move gives back the next thing**, or nothing. -/
theorem GivenBack.makes [StatusHost σ] {m : Move} (h : GivenBack b) (hm : b.Makes m b') :
    GivenBack b' := by
  by_cases hr : m = .release
  · subst hr
    cases hm with
    | @release ending next hs =>
      have hcontrol := h.control
      have hregistration := h.registration
      have hsignal := h.signal
      rw [hs] at hcontrol hregistration hsignal
      cases next with
      | closeControl => exact ⟨fun _ => b.control.shut_close, hregistration, hsignal⟩
      | deregister => exact ⟨fun _ => hcontrol (Nat.le_refl 3), rfl, hsignal⟩
      | announce => exact ⟨fun _ => hcontrol (by decide : 2 ≤ 3), hregistration, hsignal⟩
      | signal => exact ⟨fun _ => hcontrol (by decide : 1 ≤ 3), hregistration, rfl⟩
  · obtain ⟨hheld, hheld', registered, stopped⟩ := hm.holds hr
    refine ⟨fun hgiven => absurd hgiven (by omega), ?_, ?_⟩
    · rw [registered, h.registration, hheld, decide_eq_decide]
      omega
    · rw [stopped, h.signal, hheld, decide_eq_decide]
      omega

/-- Only the bridge sets the signal of its stop. -/
theorem Happens.stopped {a : Action} (ha : b.Happens a b') :
    b'.handshake.stopped = b.handshake.stopped := by
  obtain ⟨-, hsame⟩ | ⟨o, -, hstore⟩ | ⟨-, -, hset⟩ | ⟨-, hpoll⟩ := ha.handshake
  · rw [hsame]
  · rw [hstore, Handshake.stopped_store]
  · rw [hset]
    rfl
  · rw [hpoll, Handshake.stopped_poll]

/-- **Nothing is given back or taken again by what happens from outside.** -/
theorem GivenBack.happens {a : Action} (h : GivenBack b) (ha : b.Happens a b') : GivenBack b' := by
  obtain ⟨-, -, -, -, registered⟩ := ha.keeps
  have hheld : b'.stage.held = b.stage.held := ha.meets.stage_view Stage.held fun _ _ => rfl
  refine h.congr hheld (fun hshut => ?_) registered ha.stopped
  obtain ⟨ticket, e, -, rfl⟩ | ⟨hstirs, -⟩ := ha.control
  · change (b.control.send _).Shut
    rwa [hshut.send]
  · exact hstirs.shut hshut

/-- **It is always known how far everything is given back.** -/
theorem givenBack_after [StatusHost σ] (name handlerName : String) (context : Context) (host : σ)
    (history : List Step) : GivenBack ((fresh name handlerName context host).after history) :=
  invariant_after (P := fun _ _ b => GivenBack b) (fun h hm => h.makes hm)
    (fun h ha => h.happens ha) (givenBack_fresh name handlerName context host) history

/-! ## Who comes to the control link -/

/-- Everybody who came to the control link: those who are done, and those under way. -/
def roster (b : Bridge σ) : List Nat := (controlsSent b.log).map (·.1) ++ b.control.unfinished

/-- Who comes to the control link in a step. -/
def comer? (b : Bridge σ) : Step → Option Nat
  | .act (.offerControl ticket _) => if b.canControl then some ticket else none
  | _ => none

/-- Who comes to the control link along a history, in order. -/
def comers [StatusHost σ] (b : Bridge σ) : List Step → List Nat
  | [] => []
  | s :: later => (b.comer? s).toList ++ (b.step s).comers later

/-- Who is told by a move that it is done was under way. -/
theorem Makes.roster [StatusHost σ] {m : Move} (hm : b.Makes m b') : b'.roster.Perm b.roster := by
  have hsent := hm.controlsSent
  unfold Bridge.roster
  rw [hsent, List.map_append, List.append_assoc]
  refine List.Perm.append_left _ ?_
  cases hm with
  | start | refuse | abandon | place | endStatuses | complete | report => exact .refl _
  | @settle d c r => cases r <;> exact .refl _
  | relay =>
    rw [relay_control]
    exact .refl _
  | @read d p hs hfree hp =>
    rw [read_control]
    simp only [Move.answers, Link.take, Link.unfinished, Link.waiting?, hp, Option.toList_none,
      List.append_nil]
    cases p.awaited with
    | true => exact List.perm_append_comm
    | false => exact List.perm_append_comm
  | @release ending next hs =>
    simp only [Move.answers, hs]
    cases next with
    | closeControl =>
      have hall : (b.refusals .closeControl).map (·.1) = b.control.unfinished := by
        rw [refusals, List.map_map]
        exact List.map_id _
      have hnobody : (b.release ending .closeControl).control.unfinished = [] :=
        b.control.shut_close.unfinished
      rw [hall, hnobody, List.append_nil]
    | deregister | announce | signal => exact .refl _

/-- Who comes to the control link is refused at once, or is under way. -/
theorem roster_offerControl (b : Bridge σ) (ticket : Nat) (e : ControlEvent) :
    (b.offerControl ticket e).roster.Perm (b.roster ++ [ticket]) := by
  unfold roster offerControl
  dsimp only
  have hsend := b.control.unfinished_send ⟨ticket, e⟩
  cases hclosed : b.control.closed with
  | true =>
    rw [hclosed, if_pos rfl, List.append_nil] at hsend
    rw [if_pos rfl, controlsSent_append, List.map_append, List.append_assoc, List.append_assoc]
    exact .append_left _ ((List.perm_append_comm).trans (hsend.append_right _))
  | false =>
    rw [hclosed, if_neg (by decide)] at hsend
    rw [if_neg (by decide), List.append_nil, List.append_assoc]
    exact .append_left _ hsend

/-- **Each step adds who comes to the roster, and takes nobody off it.** -/
theorem roster_step [StatusHost σ] (b : Bridge σ) (s : Step) :
    (b.step s).roster.Perm (b.roster ++ (b.comer? s).toList) := by
  have hnobody : ∀ {b' : Bridge σ}, b'.roster.Perm b.roster →
      b'.roster.Perm (b.roster ++ (none : Option Nat).toList) := fun h => by simpa using h
  cases s with
  | move =>
    refine hnobody ?_
    cases hnext : b.next? with
    | none =>
      rw [step, hnext]
    | some m =>
      simp only [step, hnext]
      exact (makes_perform hnext).roster
  | act a =>
    by_cases hcomes : ∃ ticket e, a = .offerControl ticket e
    · obtain ⟨ticket, e, rfl⟩ := hcomes
      change (if b.canControl then b.offerControl ticket e else b).roster.Perm
        (b.roster ++ (if b.canControl then some ticket else none).toList)
      split
      · exact b.roster_offerControl ticket e
      · exact hnobody (.refl _)
    · have hnone : b.comer? (.act a) = none := by
        unfold comer?
        split
        · rename_i h
          exact absurd ⟨_, _, Step.act.inj h⟩ hcomes
        · rfl
      obtain ⟨ticket, e, ha, -⟩ | ⟨hstirs, hsent⟩ := (happens_act b a).control
      · exact absurd ⟨ticket, e, ha⟩ hcomes
      · rw [hnone]
        refine hnobody ?_
        change ((controlsSent (b.act a).log).map (·.1) ++ (b.act a).control.unfinished).Perm _
        rw [hsent]
        exact hstirs.unfinished.append_left _

/-- **All who come to the control link are on the roster.** -/
theorem roster_after [StatusHost σ] (b : Bridge σ) (history : List Step) :
    (b.after history).roster.Perm (b.roster ++ b.comers history) := by
  induction history generalizing b with
  | nil => exact (List.append_nil _).symm ▸ .refl _
  | cons s later ih =>
    refine (ih (b.step s)).trans ?_
    rw [comers, ← List.append_assoc]
    exact (b.roster_step s).append_right _

/-! ## Past the end -/

/-- From one state past the end of a run to another: whoever is done by then was refused. -/
structure Refuses (b b' : Bridge σ) : Prop where
  past : b'.stage.isOver = true
  refused : ∃ tickets : List Nat,
    controlsSent b'.log = controlsSent b.log ++ tickets.map (·, .closed)

theorem Refuses.refl (ho : b.stage.isOver = true) : b.Refuses b := ⟨ho, [], (List.append_nil _).symm⟩

theorem Refuses.trans {b'' : Bridge σ} (h : b.Refuses b') (h' : b'.Refuses b'') : b.Refuses b'' := by
  obtain ⟨tickets, hsent⟩ := h.refused
  obtain ⟨more, hmore⟩ := h'.refused
  refine ⟨h'.past, tickets ++ more, ?_⟩
  rw [hmore, hsent, List.map_append, List.append_assoc]

theorem not_driving_of_over (ho : b.stage.isOver = true) (d : Driving) : b.stage ≠ .driving d := by
  intro hs
  rw [hs] at ho
  cases ho

/-- A move past the end refuses those who are under way, or nobody. -/
theorem Makes.refuses [StatusHost σ] {m : Move} (hm : b.Makes m b') (ho : b.stage.isOver = true) :
    b.Refuses b' := by
  have hsent := hm.controlsSent
  cases hm with
  | start hs | refuse hs | abandon hs =>
    rw [hs] at ho
    cases ho
  | read hs | place hs | settle hs | relay hs | endStatuses hs | complete hs =>
    exact absurd hs (not_driving_of_over ho _)
  | report => exact ⟨rfl, [], hsent⟩
  | @release ending next hs =>
    rw [Move.answers, hs] at hsent
    cases next with
    | closeControl => exact ⟨rfl, _, hsent⟩
    | deregister | announce | signal => exact ⟨rfl, [], hsent⟩

/-- A run that is not over after a move was not over before. -/
theorem Makes.not_over [StatusHost σ] {m : Move} (hm : b.Makes m b') (hover' : b'.stage.isOver = false) :
    b.stage.isOver = false :=
  Bool.eq_false_iff.mpr fun hover => by cases hover'.symm.trans (hm.refuses hover).past

/-- Who comes past the end is refused at once, if the link is closed. -/
theorem Happens.refuses {a : Action} (ha : b.Happens a b') (ho : b.stage.isOver = true) :
    b.Refuses b' := by
  have hstage : b'.stage = b.stage := ha.meets.stage (not_driving_of_over ho)
  refine ⟨hstage ▸ ho, ?_⟩
  obtain ⟨ticket, e, -, rfl⟩ | ⟨-, hsent⟩ := ha.control
  · change ∃ tickets, controlsSent (b.log ++ _) = _
    rw [controlsSent_append]
    cases b.control.closed with
    | true => exact ⟨[ticket], rfl⟩
    | false => exact ⟨[], rfl⟩
  · exact ⟨[], hsent.trans (List.append_nil _).symm⟩

/-- **Past the end of a run whoever is done was refused.** -/
theorem refuses_after [StatusHost σ] (ho : b.stage.isOver = true) (later : List Step) :
    b.Refuses (b.after later) :=
  invariant_after (P := fun _ _ b' => b.Refuses b') (fun h hm => h.trans (hm.refuses h.past))
    (fun h ha => h.trans (ha.refuses h.past)) (.refl ho) later

/-! ## The last report, and the stop -/

/-- What a started run holds is given back after its last report. -/
def Reported (b : Bridge σ) : Prop :=
  ∀ exit left, b.stage.closing? = some (.stopped exit left) →
    ∃ handle r, .reported (.final exit) handle (Record.ofStatus .stopped exit) r ∈ b.log

theorem Reported.makes [StatusHost σ] {m : Move} (h : Reported b) (hm : b.Makes m b') :
    Reported b' := by
  intro exit left hclosing
  have hmove := hm
  cases hm with
  | start | refuse | abandon => cases hclosing
  | read hs | place hs | settle hs | relay hs | endStatuses hs | complete hs =>
    obtain ⟨d', hs', -⟩ | ⟨_, _, hcut⟩ := hmove.leads hs
    · rw [hs'] at hclosing
      cases hclosing
    · rw [hcut.stage] at hclosing
      cases hclosing
  | @report handle exit' left' hs =>
    obtain ⟨rfl, rfl⟩ := Ending.stopped.inj (Option.some.inj hclosing)
    have hreported : Happening.reported (.final exit') handle (Record.ofStatus .stopped exit')
        (StatusHost.report b.host handle (Record.ofStatus .stopped exit')).2 ∈
          deeds (b.finish handle exit' left').log := by
      rw [deeds_finish]
      exact List.mem_append_right _ (List.mem_singleton_self _)
    exact ⟨handle, _, (List.mem_filter.mp hreported).1⟩
  | @release ending next hs =>
    have hbefore : b.stage.closing? = some (.stopped exit left) := by
      rw [← hclosing, hs]
      cases next <;> rfl
    obtain ⟨handle, r, hmem⟩ := h exit left hbefore
    exact ⟨handle, r, hmove.log.subset hmem⟩

theorem Reported.happens {a : Action} (h : Reported b) (ha : b.Happens a b') : Reported b' := by
  intro exit left hclosing
  rw [ha.meets.stage_view Stage.closing? fun _ _ => rfl] at hclosing
  obtain ⟨handle, r, hmem⟩ := h exit left hclosing
  obtain ⟨l, hlog, -⟩ := ha.log
  exact ⟨handle, r, hlog ▸ List.mem_append_left _ hmem⟩

/-- **What a started run holds is given back after its last report**, in every state of every run. -/
theorem reported_after [StatusHost σ] (name handlerName : String) (context : Context) (host : σ)
    (history : List Step) : Reported ((fresh name handlerName context host).after history) :=
  invariant_after (P := fun _ _ b => Reported b) (fun h hm => h.makes hm) (fun h ha => h.happens ha)
    (by intro _ _ hclosing; cases hclosing) history

/-- No story tells of the stop before its end. -/
theorem unstopped_of_story {name : String} {delivered dropped : List Command}
    {open? : Option Command} {es : List Event} (h : Story name delivered dropped open? es) :
    ∀ e ∈ es, e.kind ≠ .bridgeStopped := by
  induction h with
  | opened handlerName args =>
    exact List.forall_mem_cons.mpr ⟨nofun, List.forall_mem_singleton.mpr nofun⟩
  | status s h ih | received c h ih | delivered h ih | dropped h ih =>
    exact List.forall_mem_append.mpr ⟨ih, List.forall_mem_singleton.mpr nofun⟩

/-- **The stop of the bridge is told of once, at the end.** -/
theorem Written.stop_last {name : String} {es : List Event} {ending : Ending}
    (h : Written name es (.ended ending)) :
    ∃ told, es = told ++ [Event.stopped name] ∧ ∀ e ∈ told, e.kind ≠ .bridgeStopped := by
  cases h with
  | stopped c closing verdict story answer hes =>
    refine ⟨_, hes, List.forall_mem_append.mpr ⟨unstopped_of_story story, ?_⟩⟩
    cases c <;> cases answer <;>
      exact List.forall_mem_cons.mpr ⟨nofun, List.forall_mem_singleton.mpr nofun⟩
  | unstarted closing hes => exact ⟨_, hes, List.forall_mem_singleton.mpr nofun⟩

/-- A bridge that stopped without a start told of that. -/
theorem Written.unstarted_told {name : String} {es : List Event} {e : Option HostError}
    (h : Written name es (.ended (.notStarted e))) : Event.unstarted name e ∈ es := by
  cases h with
  | stopped c closing => cases closing
  | unstarted closing hes =>
    obtain rfl := Ending.notStarted.inj (Option.some.inj closing)
    exact hes ▸ List.mem_cons_self

/-! ## The end -/

/-- **Whoever was under way past the end of a run, or came later, was refused by the time the link is
shut.** -/
theorem refused_by_shut [StatusHost σ] {later : List Step} (ho : b.stage.isOver = true)
    (hshut : (b.after later).control.Shut) :
    ∃ refused : List Nat,
      controlsSent (b.after later).log = controlsSent b.log ++ refused.map (·, .closed) ∧
      refused.Perm (b.control.unfinished ++ b.comers later) := by
  obtain ⟨-, refused, hrefused⟩ := refuses_after ho later
  refine ⟨refused, hrefused, ?_⟩
  have hroster := b.roster_after later
  rw [roster, roster, hshut.unfinished, hrefused, List.map_append, List.map_map, List.append_nil,
    List.append_assoc] at hroster
  have hmap : refused.map ((·.1) ∘ (·, SendResult.closed)) = refused := List.map_id _
  rw [hmap] at hroster
  exact (List.perm_append_left_iff _).mp hroster

/-- **Everything is given back at the end of a run**, started or not and whatever ended it.  When the
bridge has ended, and from then on, the host's calls do not reach the run, nobody can send it a control
event or is still at it, the signal of its stop is set, and the stop is the last event, told of once.
All who came to the control link are done, each once; those who were under way when the handler was
cut off, and those who came later, were refused.  And the signal is set in no state before the
registration is removed and the last report was made, or the failed start was told of. -/
theorem released_when_ended [StatusHost σ] (name handlerName : String) (context : Context) (host : σ)
    (history : List Step) :
    let start := fresh name handlerName context host
    let b := start.after history
    (b.ending?.isSome = true →
      (∀ later, Released (b.after later) ∧ events (b.after later).log = events b.log) ∧
      (∃ told, events b.log = told ++ [Event.stopped name] ∧
        ∀ e ∈ told, e.kind ≠ .bridgeStopped) ∧
      ((controlsSent b.log).map (·.1)).Perm (start.comers history) ∧
      ∀ before later, history = before ++ later → (start.after before).stage.isOver = true →
        ∃ refused : List Nat, controlsSent b.log =
            controlsSent (start.after before).log ++ refused.map (·, .closed) ∧
          refused.Perm
            ((start.after before).control.unfinished ++ (start.after before).comers later)) ∧
    (b.handshake.stopped = true → b.registered = false ∧
      ((∃ exit left handle r, b.ending? = some (.stopped exit left) ∧
          .reported (.final exit) handle (Record.ofStatus .stopped exit) r ∈ b.log) ∨
        ∃ e, b.ending? = some (.notStarted e) ∧ Event.unstarted name e ∈ events b.log)) := by
  intro start b
  have hgiven : GivenBack b := givenBack_after name handlerName context host history
  have hwritten : Written name (events b.log) b.stage :=
    written_after name handlerName context host history
  refine ⟨fun hended => ?_, fun hstopped => ?_⟩
  · obtain ⟨ending, hending⟩ := Option.isSome_iff_exists.mp hended
    have hs : b.stage = .ended ending := stage_of_ending hending
    have hshut : b.control.Shut := (hgiven.released (hs ▸ rfl)).shut
    have hdone : b.roster = (controlsSent b.log).map (·.1) := by
      rw [roster, hshut.unfinished, List.append_nil]
    refine ⟨fun later => ?_, (hs ▸ hwritten).stop_last, ?_, fun before later hsplit hover => ?_⟩
    · obtain ⟨hs', hevents⟩ := after_ended hs later
      have hlater : GivenBack (b.after later) := by
        change GivenBack ((start.after history).after later)
        rw [← after_append]
        exact givenBack_after name handlerName context host (history ++ later)
      exact ⟨hlater.released (hs' ▸ rfl), hevents⟩
    · rw [← hdone]
      exact start.roster_after history
    · have hb : b = (start.after before).after later := by
        rw [← after_append, ← hsplit]
      rw [hb] at hshut ⊢
      exact refused_by_shut hover hshut
  · obtain ⟨ending, hs⟩ := hgiven.ended_of_stopped hstopped
    have hending : b.ending? = some ending := by rw [ending?, hs]
    refine ⟨(hgiven.released (hs ▸ rfl)).deregistered, ?_⟩
    cases ending with
    | stopped exit left =>
      obtain ⟨handle, r, hmem⟩ :=
        reported_after name handlerName context host history exit left (congrArg Stage.closing? hs)
      exact .inl ⟨exit, left, handle, r, hending, hmem⟩
    | notStarted e => exact .inr ⟨e, hending, (hs ▸ hwritten).unstarted_told⟩

/-- The host refuses a status while a request waits for the handler.  Two senders wait on the control
link then, one more comes before the link is closed, and one after the bridge has stopped. -/
def callersToTheEnd : List Step :=
  [.act (.store (.ok ⟨1, ["svc"]⟩)), .act .announce, .move, .act .cloneControl,
    .act (.offerControl 1 ⟨.interrogate, 0, 0, 0, none⟩), .move, .move,
    .act (.offerControl 2 ⟨.pause, 0, 0, 0, none⟩), .act (.offerControl 3 ⟨.stop, 0, 0, 0, none⟩),
    .act (.offerStatus 1 (.ofState .running)), .move, .move,
    .act (.offerControl 4 ⟨.stop, 0, 0, 0, none⟩), .move, .move, .move, .move,
    .act (.offerControl 5 ⟨.stop, 0, 0, 0, none⟩)]

/-- All of them are refused, and nothing is held any more. -/
theorem refused_to_the_end :
    let b := (fresh "svc" "handler" 0 (ScriptedHost.mk [(0, .numbered 6)] 0)).after callersToTheEnd
    b.ending? = some (.stopped (.ofService 6) true) ∧
    controlsSent b.log =
      [(1, .taken), (3, .closed), (4, .closed), (2, .closed), (5, .closed)] ∧
    (∃ refused : List Nat, controlsSent b.log = [(1, .taken)] ++ refused.map (·, .closed) ∧
      refused.Perm [3, 2, 4, 5]) ∧
    (∀ later, Released (b.after later)) ∧
    (∃ told, events b.log = told ++ [Event.stopped "svc"] ∧
      ∀ e ∈ told, e.kind ≠ .bridgeStopped) ∧
    ∃ handle r, .reported (.final (.ofService 6)) handle
      (Record.ofStatus .stopped (.ofService 6)) r ∈ b.log := by
  intro b
  obtain ⟨hended, hstopped⟩ := released_when_ended "svc" "handler" 0
    (ScriptedHost.mk [(0, .numbered 6)] 0) callersToTheEnd
  obtain ⟨hreleased, hlast, -, hrefused⟩ := hended rfl
  refine ⟨rfl, rfl, ?_, fun later => (hreleased later).1, hlast, ?_⟩
  · exact hrefused (callersToTheEnd.take 11) (callersToTheEnd.drop 11) rfl rfl
  · obtain ⟨-, ⟨exit, left, handle, r, hending, hmem⟩ | ⟨e, hending, -⟩⟩ := hstopped rfl
    · obtain ⟨rfl, rfl⟩ := Ending.stopped.inj (Option.some.inj hending)
      exact ⟨handle, r, hmem⟩
    · cases hending

end Bridge

end Steward

import Steward.Proofs.Bridge.Unblocked

/-!
# Proofs/Bridge/Precedence — what comes first when several sources are ready

In each pass a bridge that drives a handler turns to one source after the other.  A control event comes
before a status and before the end of the handler, unless a request is under way; then the end of that
request does.  A status always comes before the end of the handler.  What is ready when a pass begins stays
first, whatever happens before the bridge gets to move (`ComesNext`), so what must be done before a run ends
with its handler follows move by move.  What gets ready behind the bridge's back, at an arm that it has
looked at in vain, waits for the next pass, and is lost if there is none.

* `reported_before_completion` — a status that reached the slot is reported before the handler's end is seen.
* `nothing_left_at_completion` — what the bridge found in the pass in which it turns to the end of the handler.
* `Deserted.drops_first` — a request that the handler has left is told of as dropped before all else.
* `sources_in_order` — all this, for every state of every run.
-/

namespace Steward

namespace Bridge

variable {σ : Type} {b b' : Bridge σ} {d : Driving}

/-! ## The handler and its requests -/

/-- As long as a handler is driven it is there, and once it has given up its requests no request waits for
it. -/
structure Staffed (b : Bridge σ) : Prop where
  absent : b.stage = .waiting → b.handler = .absent ∧ b.lent = false
  present : ∀ d, b.stage = .driving d → b.handler ≠ .absent
  deserted : b.requests.closed = true → b.Deserted

/-- A bridge that drives a handler has just started it, or has driven it before and left it alone. -/
theorem Makes.driven [StatusHost σ] {m : Move} (hm : b.Makes m b') (hs' : b'.stage = .driving d) :
    b'.handler = .running ∨ (∃ d₀, b.stage = .driving d₀) ∧ b'.handler = b.handler := by
  cases hm with
  | start => exact .inl rfl
  | refuse | abandon | complete | report => cases hs'
  | @release ending next => cases next <;> cases hs'
  | @read d₀ p hs =>
    obtain ⟨requests, updates, stage, log, h⟩ := b.read_eq d₀ p
    exact .inr ⟨⟨d₀, hs⟩, by rw [h]⟩
  | @relay d₀ p hs =>
    obtain ⟨host, requests, updates, stage, log, h⟩ := b.relay_eq d₀ p
    exact .inr ⟨⟨d₀, hs⟩, by rw [h]⟩
  | @settle d₀ c r hs => cases r <;> exact .inr ⟨⟨d₀, hs⟩, rfl⟩
  | place hs | endStatuses hs => exact .inr ⟨⟨_, hs⟩, rfl⟩

/-- The bridge does not close the handler's link. -/
theorem Makes.requests_closed [StatusHost σ] {m : Move} (hm : b.Makes m b')
    (hclosed : b'.requests.closed = true) : b.requests.closed = true := by
  cases hm with
  | start => cases hclosed
  | @read d p =>
    unfold Bridge.read at hclosed
    dsimp only at hclosed
    split at hclosed
    · exact hclosed
    · split at hclosed <;> exact hclosed
  | @relay d p =>
    unfold Bridge.relay at hclosed
    dsimp only at hclosed
    split at hclosed <;> exact hclosed
  | place => exact (b.requests.closed_send _).symm.trans hclosed
  | @settle d c r => cases r <;> exact hclosed
  | @release ending next => cases next <;> exact hclosed
  | refuse | abandon | endStatuses | complete | report => exact hclosed

theorem Staffed.makes [StatusHost σ] {m : Move} (h : b.Staffed) (hm : b.Makes m b') : b'.Staffed where
  absent hw := absurd hw hm.not_waiting
  present d' hs' hnone := by
    obtain hstarted | ⟨⟨d, hs⟩, hsame⟩ := hm.driven hs'
    · cases hstarted.symm.trans hnone
    · exact h.present d hs (hsame.symm.trans hnone)
  deserted hclosed := (h.deserted (hm.requests_closed hclosed)).makes hm

/-- A handler whose requests somebody has was there. -/
theorem Staffed.begun (h : b.Staffed) (ht : b.hasTaker = true) : b.stage ≠ .waiting := by
  intro hw
  obtain ⟨habsent, hkept⟩ := h.absent hw
  obtain hr | hl := hasTaker_iff.mp ht
  · cases habsent.symm.trans hr
  · cases hkept.symm.trans hl

/-- Only a running handler gives its requests to another task. -/
theorem Happens.lent {a : Action} (ha : b.Happens a b') : b'.lent = b.lent ∨ b.handler = .running := by
  cases ha with
  | lendRequests hr | dropUpdates hr | finish _ hr => exact .inr hr
  | idle | pass | store | announce | steal | offerControl | enterControl | cloneControl | dropControl |
    offerStatus | lineUpStatus | enterStatus | cancelStatus | cloneUpdates | dropClone =>
    exact .inl rfl
  | takeRequest _ hp =>
    rw [takeRequest_eq hp, resolve_eq]
    exact .inl rfl
  | dropRequests => exact .inl b.dropRequests_lent

theorem Staffed.happens {a : Action} (h : b.Staffed) (ha : b.Happens a b') : b'.Staffed where
  absent hw := by
    obtain ⟨habsent, hkept⟩ := h.absent (ha.meets.waiting_iff.mp hw)
    refine ⟨ha.meets.absent habsent, ha.lent.elim (fun hsame => hsame.trans hkept) fun hr => ?_⟩
    cases habsent.symm.trans hr
  present d' hs' hnone := by
    have hm := ha.meets
    obtain ⟨d, hs⟩ : ∃ d, b.stage = .driving d := by
      by_contra hnot
      have hs := hm.stage fun d hs => hnot ⟨d, hs⟩
      exact hnot ⟨d', hs.symm.trans hs'⟩
    cases hm with
    | aside _ _ handler => exact h.present d hs (handler.symm.trans hnone)
    | outlived _ _ _ _ _ handler => cases handler.symm.trans hnone
    | take => exact h.present d hs (b.takeRequest_handler.symm.trans hnone)
    | dropRequests => exact h.present d hs (b.dropRequests_handler.symm.trans hnone)
    | finish => cases hnone
  deserted hclosed := by
    have hm := ha.meets
    by_cases hbefore : b.requests.closed = true
    · exact (h.deserted hbefore).meets hm
    · cases hm with
      | aside _ requests | outlived _ _ _ _ requests => exact absurd (requests ▸ hclosed) hbefore
      | take ht hp =>
        rw [takeRequest_requests hp] at hclosed
        exact absurd hclosed hbefore
      | dropRequests ht => exact deserted_of_drop (h.begun ht)
      | finish c hr hl =>
        have hdropped := deserted_of_drop (h.begun (hasTaker_of_running hr))
        constructor
        · rw [finishHandler_stage hl, ← dropRequests_stage]
          exact hdropped.begun
        · rw [finishHandler_requests hl, ← dropRequests_requests]
          exact hdropped.shut
        · rw [finishHandler_stage hl, ← dropRequests_stage]
          exact hdropped.unplaced

theorem Staffed.after [StatusHost σ] (h : b.Staffed) (later : List Step) : (b.after later).Staffed :=
  invariant_after (P := fun _ _ b => b.Staffed) (fun h hm => h.makes hm) (fun h ha => h.happens ha) h later

theorem staffed_after [StatusHost σ] (name handlerName : String) (context : Context) (host : σ)
    (history : List Step) : ((fresh name handlerName context host).after history).Staffed :=
  Staffed.after
    ⟨fun _ => ⟨rfl, rfl⟩, fun _ hs => (by cases hs), fun hclosed => (by cases hclosed)⟩ history


/-- **A request that nobody can take any more comes to its end at once**, also if it is not on the handler's
link yet. -/
theorem Deserted.comesNext_closed [StatusHost σ] {c : Command} {r : Request} (h : b.Deserted)
    (hfaces : b.Faces) (hs : b.stage = .driving d) (hm : d.mailbox = .holding c (.fresh r))
    (as : List Action) : ((b.after (as.map .act)).step .move).ComesNext (.settle .closed) := by
  have hshut := (h.after (as.map .act)).shut
  have hstage := (h.stage_until_move as).trans hs
  have hnext := comesNext_place hs (hfaces d c r hs hm) hm as
  have hstep : (b.after (as.map .act)).step .move = (b.after (as.map .act)).place d c r := by
    simp [step, hnext, perform, hstage, hm]
  rw [hstep]
  exact comesNext_settle (goesOn_place hshut c r).stage rfl rfl

/-! ## Before the end of the handler is seen -/

/-- There is nothing to do for the mailbox: a request under way waits to be taken, and without one no control
event is in the slot. -/
structure Vacant (b : Bridge σ) : Prop where
  held : ∀ d c delivery, b.stage = .driving d → d.mailbox = .holding c delivery →
    delivery = .placed ∧ b.requests.closed = false
  unheld : ∀ d, b.stage = .driving d → d.mailbox.isHolding = false → b.control.slot = none

/-- That is what a bridge finds that looks at its mailbox in vain. -/
theorem Staffed.vacant (h : b.Staffed) (hs : b.stage = .driving d) (hnone : b.mailboxMove? d = none) :
    b.Vacant where
  held d' c delivery hs' hm := by
    obtain rfl := Stage.driving.inj (hs'.symm.trans hs)
    cases delivery with
    | placed => exact ⟨rfl, Bool.eq_false_iff.mpr fun hclosed => (h.deserted hclosed).unplaced _ c hs' hm⟩
    | fresh r | resolved r => simp [mailboxMove?, hm] at hnone
  unheld d' hs' hfree := by
    obtain rfl := Stage.driving.inj (hs'.symm.trans hs)
    refine Option.eq_none_iff_forall_ne_some.mpr fun p hp => ?_
    cases (mailboxMove?_of_free hfree hp).symm.trans hnone

/-- What the bridge has found since, in the pass under way: nothing at the arms before the one it looks at
next. -/
structure Looked [StatusHost σ] (b : Bridge σ) (as : List Action) : Prop where
  mailbox : (b.after (as.map .act)).arm ≠ .mailbox →
    ∃ early late, as = early ++ late ∧ (b.after (early.map .act)).Vacant
  status : (b.after (as.map .act)).arm = .completion →
    ∃ early middle late, as = early ++ middle ++ late ∧ (b.after (early.map .act)).Vacant ∧
      (b.after ((early ++ middle).map .act)).updates.slot = none

/-- **A bridge goes on to an arm when it has found nothing at those before.** -/
theorem looked_after [StatusHost σ] (hstaffed : b.Staffed) (hattended : Attended b)
    (harm : b.arm = .mailbox) (as : List Action) : b.Looked as := by
  induction as using List.reverseRecOn with
  | nil => exact ⟨fun hne => absurd harm hne, fun hc => by cases harm.symm.trans hc⟩
  | append_singleton as a ih =>
    have hlast : b.after ((as ++ [a]).map .act) = (b.after (as.map .act)).act a := by
      rw [List.map_append, after_append]
      rfl
    have hstaffed' := hstaffed.after (as.map .act)
    have hattended' := hattended.after (as.map .act)
    obtain hsame | ⟨-, hnext, d, hs, hnone⟩ := (happens_act (b.after (as.map .act)) a).arm
    · rw [← hlast] at hsame
      constructor
      · intro hne
        obtain ⟨early, late, rfl, hvacant⟩ := ih.mailbox (hsame ▸ hne)
        exact ⟨early, late ++ [a], List.append_assoc .., hvacant⟩
      · intro hc
        obtain ⟨early, middle, late, rfl, hfound⟩ := ih.status (hsame ▸ hc)
        exact ⟨early, middle, late ++ [a], List.append_assoc .., hfound⟩
    · rw [← hlast] at hnext
      cases hbefore : (b.after (as.map .act)).arm with
      | mailbox =>
        rw [hbefore] at hnone hnext
        exact ⟨fun _ => ⟨as, [a], rfl, hstaffed'.vacant hs hnone⟩, fun hc => by cases hnext.symm.trans hc⟩
      | status =>
        rw [hbefore] at hnone
        obtain ⟨early, late, rfl, hvacant⟩ := ih.mailbox (by rw [hbefore]; nofun)
        refine ⟨fun _ => ⟨early, late ++ [a], List.append_assoc .., hvacant⟩, fun _ => ?_⟩
        refine ⟨early, late, [a], rfl, hvacant, Option.eq_none_iff_forall_ne_some.mpr fun p hp => ?_⟩
        cases (hattended'.statusMove hs hp).symm.trans hnone
      | completion =>
        rw [hbefore] at hnext
        exact ⟨fun hne => absurd hnext hne, fun hc => by cases hnext.symm.trans hc⟩

/-- **What the bridge found in the pass in which it turns to the end of the handler**: first nothing to do for
the mailbox, then no status in the slot. -/
theorem nothing_left_at_completion [StatusHost σ] {completion : Completion} (hstaffed : b.Staffed)
    (hattended : Attended b) (harm : b.arm = .mailbox) {as : List Action}
    (hnext : (b.after (as.map .act)).next? = some (.complete completion)) :
    ∃ early middle late, as = early ++ middle ++ late ∧ (b.after (early.map .act)).Vacant ∧
      (b.after ((early ++ middle).map .act)).updates.slot = none := by
  have hlooked := looked_after hstaffed hattended harm as
  have hstaffed' := hstaffed.after (as.map .act)
  have hattended' := hattended.after (as.map .act)
  have hmove := makes_perform hnext
  generalize (b.after (as.map .act)).perform (.complete completion) = b' at hmove
  cases hmove with
  | @complete d _ hs hm hu =>
    have hslot : (b.after (as.map .act)).arm ≠ .completion →
        (b.after (as.map .act)).updates.slot = none := by
      refine fun hne => Option.eq_none_iff_forall_ne_some.mpr fun p hp => ?_
      cases (hattended'.statusMove hs hp).symm.trans (hu hne)
    cases hwhere : (b.after (as.map .act)).arm with
    | mailbox =>
      refine ⟨as, [], [], by simp, hstaffed'.vacant hs (hm hwhere), ?_⟩
      rw [List.append_nil]
      exact hslot (by rw [hwhere]; nofun)
    | status =>
      obtain ⟨early, late, rfl, hvacant⟩ := hlooked.mailbox (by rw [hwhere]; nofun)
      exact ⟨early, late, [], by simp, hvacant, hslot (by rw [hwhere]; nofun)⟩
    | completion => exact hlooked.status hwhere

/-- From one state to another the status that was in the slot is still there, and the bridge has not gone past
it, or it was reported next, or the handler is not driven any more. -/
inductive Attends (b : Bridge σ) (q : Parcel Status) (b' : Bridge σ) : Prop where
  | waits {d : Driving} (stage : b'.stage = .driving d) (arm : b'.arm ≠ .completion) (keeps : b.Keeps q b')
  | reported (relayed : (relayed b.log).map (·.1) ++ [q] <+: (relayed b'.log).map (·.1))
  | past (past : b'.stage.isOver = true)

theorem Attends.of_cutsOff {q : Parcel Status} {exit : ExitCode} {left : Bool} {b₀ : Bridge σ}
    (h : b.CutsOff d exit left b') : b₀.Attends q b' := .past (by rw [h.stage]; rfl)

theorem Attends.makes [StatusHost σ] {m : Move} {q : Parcel Status} {b'' : Bridge σ}
    (h : b.Attends q b') (hm : b'.Makes m b'') : b.Attends q b'' := by
  have hrelayed := hm.relayed
  cases h with
  | reported relayed =>
    refine .reported (relayed.trans ?_)
    rw [hrelayed, List.map_append]
    exact List.prefix_append _ _
  | past past => exact .past (hm.refuses past).past
  | waits stage arm keeps =>
    have hquiet : ∀ {d' : Driving}, b''.stage = .driving d' → b''.updates = b'.updates →
        m.relayed? = none → b.Attends q b'' := by
      intro d' hs' hsame hnone
      rw [hnone, Option.toList_none, List.append_nil] at hrelayed
      exact .waits hs' (by rw [hm.arm hs']; nofun) ⟨hsame ▸ keeps.slot, hrelayed.trans keeps.same⟩
    cases hm with
    | start hs | refuse hs | abandon hs | report hs | release hs => cases hs.symm.trans stage
    | @read d p hs hfree =>
      cases he : p.item.error with
      | some code => exact .of_cutsOff (cutsOff_read he)
      | none =>
        cases hmail : d.mailbox with
        | holding => simp [hmail, Mailbox.isHolding] at hfree
        | detached => exact hquiet (goesOn_read_detached hs hmail he).stage (updates_read b' d he) rfl
        | awaiting => exact hquiet (goesOn_read_awaiting hmail he).stage (updates_read b' d he) rfl
    | place => exact hquiet rfl rfl rfl
    | @settle d c r => cases r <;> exact hquiet rfl rfl rfl
    | endStatuses => exact hquiet rfl rfl rfl
    | complete => exact .of_cutsOff (cutsOff_complete _)
    | @relay d p hs _ _ hp =>
      have hown : p.toParcel = q := Option.some.inj ((congrArg _ hp).symm.trans keeps.slot)
      refine .reported ?_
      rw [hrelayed, keeps.same, List.map_append, ← hown]
      exact List.prefix_rfl

theorem Attends.happens {a : Action} {q : Parcel Status} {b'' : Bridge σ} (h : b.Attends q b')
    (hattended : Attended b') (ha : b'.Happens a b'') : b.Attends q b'' := by
  cases h with
  | reported relayed => exact .reported (ha.relayed.symm ▸ relayed)
  | past past => exact .past (ha.refuses past).past
  | waits stage arm keeps =>
    obtain ⟨m, hs'⟩ := ha.meets.driving stage
    obtain ⟨p, hp, -⟩ := Option.map_eq_some_iff.mp keeps.slot
    exact .waits hs' (hattended.arm ha hp arm) (keeps.happens ha)

/-- **A status that reached the slot is reported before the end of the handler is seen**, and next of all
statuses, unless the bridge was past it. -/
theorem reported_before_completion [StatusHost σ] {q : Parcel Status} {completion : Completion}
    (h : Attended b) (hs : b.stage = .driving d) (harm : b.arm ≠ .completion)
    (hq : b.updates.slot.map (·.toParcel) = some q)
    {later : List Step} (hnext : (b.after later).next? = some (.complete completion)) :
    (relayed b.log).map (·.1) ++ [q] <+: (relayed (b.after later).log).map (·.1) := by
  obtain ⟨hattended, hattends⟩ : Attended (b.after later) ∧ b.Attends q (b.after later) :=
    invariant_after (P := fun _ _ b' => Attended b' ∧ b.Attends q b')
      (fun ⟨h, hq⟩ hm => ⟨h.makes hm, hq.makes hm⟩) (fun ⟨h, hq⟩ ha => ⟨h.happens ha, hq.happens h ha⟩)
      ⟨h, .waits hs harm ⟨hq, rfl⟩⟩ later
  cases hattends with
  | reported relayed => exact relayed
  | waits stage arm keeps =>
    obtain ⟨p, hp, -⟩ := Option.map_eq_some_iff.mp keeps.slot
    have hmove := makes_perform hnext
    generalize (b.after later).perform (.complete completion) = b' at hmove
    cases hmove with
    | complete hs' _ hu =>
      cases (hattended.statusMove hs' hp).symm.trans (hu arm)
  | past past =>
    have hmove := makes_perform hnext
    generalize (b.after later).perform (.complete completion) = b' at hmove
    cases hmove with
    | complete hs' => exact absurd hs' (not_driving_of_over past _)

/-! ## The request the handler has left -/

/-- The news that a request was dropped. -/
def dropNews (b : Bridge σ) (c : Command) : Event :=
  ((Event.ofKind .requestDropped).withCommand c).withService b.name

/-- From one state to another nothing was told, and the request is still under way and was not taken, and the
bridge looks at it; or what was told first is that it was dropped. -/
inductive Drops (b : Bridge σ) (c : Command) (b' : Bridge σ) : Prop where
  | owes {d : Driving} {delivery : Delivery} (stage : b'.stage = .driving d) (arm : b'.arm = .mailbox)
      (mailbox : d.mailbox = .holding c delivery) (untaken : delivery ≠ .resolved .taken)
      (quiet : events b'.log = events b.log)
  | told (told : events b.log ++ [b.dropNews c] <+: events b'.log)

theorem Drops.makes [StatusHost σ] {m : Move} {c : Command} {b'' : Bridge σ} (h : b.Drops c b')
    (hdeserted : b'.Deserted) (hname : b'.name = b.name) (hm : b'.Makes m b'') : b.Drops c b'' := by
  cases h with
  | told told => exact .told (told.trans (hm.log.filterMap _))
  | @owes d delivery stage arm mailbox untaken quiet =>
    have hholding : d.mailbox.isHolding = true := by rw [mailbox]; rfl
    have hbusy : ∀ {d' : Driving}, b'.stage = .driving d' → d'.mailbox.isHolding = false → b.Drops c b'' := by
      intro d' hs' hfree
      obtain rfl := Stage.driving.inj (hs'.symm.trans stage)
      cases hfree.symm.trans hholding
    cases hm with
    | start hs | refuse hs | abandon hs | report hs | release hs => cases hs.symm.trans stage
    | read hs hfree => exact hbusy hs hfree
    | relay hs hnone | endStatuses hs hnone =>
      exact hbusy hs (hdeserted.free hs (hnone (by rw [arm]; nofun)))
    | complete hs hnone => exact hbusy hs (hdeserted.free hs (hnone arm))
    | @place d' c' r hs hmail =>
      obtain rfl := Stage.driving.inj (hs.symm.trans stage)
      obtain ⟨rfl, -⟩ := Mailbox.holding.inj (hmail.symm.trans mailbox)
      exact .owes (goesOn_place hdeserted.shut c' r).stage rfl rfl (by simp) quiet
    | @settle d' c' r hs hmail =>
      obtain rfl := Stage.driving.inj (hs.symm.trans stage)
      obtain ⟨rfl, rfl⟩ := Mailbox.holding.inj (hmail.symm.trans mailbox)
      cases r with
      | taken => exact absurd rfl untaken
      | closed =>
        refine .told ?_
        rw [events_settle_closed, quiet, hname]
        exact List.prefix_rfl

theorem Drops.happens {a : Action} {c : Command} {b'' : Bridge σ} (h : b.Drops c b')
    (hdeserted : b'.Deserted) (ha : b'.Happens a b'') : b.Drops c b'' := by
  cases h with
  | told told => exact .told (ha.events.symm ▸ told)
  | owes stage arm mailbox untaken quiet =>
    obtain ⟨m, hseen⟩ := hdeserted.mailboxMove_of_holding stage (by rw [mailbox]; rfl)
    have harm := ha.arm_of_some stage (by rw [arm]; exact hseen)
    exact .owes ((hdeserted.stage ha.meets).trans stage) (harm.trans arm) mailbox untaken
      (ha.events.trans quiet)

/-- As long as the request is under way nothing is told. -/
theorem Deserted.drops_after [StatusHost σ] {c : Command} {delivery : Delivery} (h : b.Deserted)
    (hs : b.stage = .driving d) (harm : b.arm = .mailbox) (hm : d.mailbox = .holding c delivery)
    (huntaken : delivery ≠ .resolved .taken) (later : List Step) : b.Drops c (b.after later) := by
  refine (invariant_after (P := fun _ _ b' => b'.Deserted ∧ b'.name = b.name ∧ b.Drops c b') ?_ ?_
    ⟨h, rfl, .owes hs harm hm huntaken rfl⟩ later).2.2
  · rintro as ms m b' b'' ⟨hdeserted, hname, hdrops⟩ hmove
    exact ⟨hdeserted.makes hmove, hmove.name.trans hname, hdrops.makes hdeserted hname hmove⟩
  · rintro as ms a b' b'' ⟨hdeserted, hname, hdrops⟩ ha
    exact ⟨hdeserted.meets ha.meets, ha.name.trans hname, hdrops.happens hdeserted ha⟩

/-- **A request that the handler has left is told of as dropped before all else**, within two moves. -/
theorem Deserted.drops_first [StatusHost σ] {c : Command} {delivery : Delivery} (h : b.Deserted)
    (hs : b.stage = .driving d) (harm : b.arm = .mailbox) (hm : d.mailbox = .holding c delivery)
    (huntaken : delivery ≠ .resolved .taken) (later : List Step) :
    ∃ told, events (b.after later).log = events b.log ++ told ∧
      (∀ e ∈ told.head?, e = b.dropNews c) ∧ (d.mailbox.toGo ≤ moveCount later → told ≠ []) := by
  have htold : d.mailbox.toGo ≤ moveCount later →
      events b.log ++ [b.dropNews c] <+: events (b.after later).log := by
    intro henough
    obtain ⟨early, late, d', rfl, -, hs', -, hfree, -⟩ :=
      h.free_soon (P := fun _ => True) (fun _ _ => trivial) (fun _ _ => trivial) hs harm trivial henough
    rw [after_append]
    cases h.drops_after hs harm hm huntaken early with
    | told told => exact told.trans ((log_after _ late).filterMap _)
    | owes stage _ mailbox =>
      obtain rfl := Stage.driving.inj (hs'.symm.trans stage)
      rw [mailbox] at hfree
      cases hfree
  by_cases hfirst : events b.log ++ [b.dropNews c] <+: events (b.after later).log
  · obtain ⟨rest, hrest⟩ := hfirst
    refine ⟨b.dropNews c :: rest, ?_, ?_, fun _ => List.cons_ne_nil _ _⟩
    · rw [← hrest, List.append_assoc]
      rfl
    · intro e he
      exact (Option.some.inj he).symm
  · cases h.drops_after hs harm hm huntaken later with
    | told told => exact absurd told hfirst
    | owes _ _ _ _ quiet =>
      exact ⟨[], quiet.trans (List.append_nil _).symm, by simp,
        fun henough => absurd (htold henough) hfirst⟩

/-! ## The order of the sources -/

/-- **A flagged event in the slot ends the run** with the next move, unless a request is under way; the end of
the handler does not. -/
theorem flagged_decides [StatusHost σ] {p : Placed ControlEvent} {code : UInt32} (hs : b.stage = .driving d)
    (harm : b.arm = .mailbox) (hfree : d.mailbox.isHolding = false) (hp : b.control.slot = some p)
    (he : p.item.error = some code) {later : List Step} (hlater : 1 ≤ moveCount later) :
    (b.after later).verdict? = some (.ofService code, true) := by
  obtain ⟨as, late, rfl, -⟩ := exists_first_move hlater
  have hunplaced := unplaced_of_mailboxMove (mailboxMove?_of_free hfree hp)
  have hstage : (b.after (as.map .act)).stage = .driving d :=
    holds_until_move (P := fun b => b.stage = .driving d)
      (fun hs ha => ha.meets.stage_of_unplaced hs hunplaced) hs as
  have hnext := comesNext_read hs harm hfree hp as
  have hverdict := (step_read_flagged hstage hnext he).2.1
  rw [after_append]
  exact verdict?_after hverdict late

/-- Which of the sources that are ready a bridge turns to first, and what follows for the end of a run.  A
source is ready in this pass if it is so before the bridge has looked at it: all are at the first arm. -/
structure InOrder [StatusHost σ] (b : Bridge σ) (d : Driving) : Prop where
  /-- With no request under way a control event comes before a status and the end of the handler. -/
  read_first : b.arm = .mailbox → d.mailbox.isHolding = false → ∀ p, b.control.slot = some p →
    b.ComesNext (.read p)
  /-- A request under way that was taken, or can be taken no more, comes to its end before those. -/
  settle_first : b.arm = .mailbox → ∀ c r, d.mailbox = .holding c (.resolved r) → b.ComesNext (.settle r)
  /-- It may not even be on the handler's link when that is closed. -/
  closed_first : b.requests.closed = true → ∀ c r, d.mailbox = .holding c (.fresh r) →
    b.ComesNext (.place r) ∧
      ∀ as : List Action, ((b.after (as.map .act)).step .move).ComesNext (.settle .closed)
  /-- A status in the slot comes before the end of the handler, whatever is done in between. -/
  reported_first : b.arm ≠ .completion → ∀ p completion later, b.updates.slot = some p →
    (b.after later).next? = some (.complete completion) →
    (relayed b.log).map (·.1) ++ [p.toParcel] <+: (relayed (b.after later).log).map (·.1)
  /-- Every move that does not end the run begins a new pass. -/
  anew : ∀ d', b.next? ≠ none → (b.step .move).stage = .driving d' → (b.step .move).arm = .mailbox
  /-- In the pass in which a run ends with its handler nothing that comes first was left: there was nothing to
  do for the mailbox, and from then on, when the bridge looked at the statuses, none in the slot. -/
  completion_last : b.arm = .mailbox → ∀ completion (as : List Action),
    (b.after (as.map .act)).next? = some (.complete completion) →
    ∃ early middle late, as = early ++ middle ++ late ∧ (b.after (early.map .act)).Vacant ∧
      (b.after ((early ++ middle).map .act)).updates.slot = none
  /-- So with nothing in between: the delivery held, if any, is unresolved, no control event is in the slot
  without one, and no status is. -/
  completion_alone : b.arm = .mailbox → ∀ completion, b.next? = some (.complete completion) →
    b.Vacant ∧ b.updates.slot = none
  /-- A handler that has ended has given up its requests, unless it gave them to somebody else. -/
  given_up : b.lent = false → ∀ completion, b.handler = .ended completion → b.requests.closed = true
  /-- The request that was not taken is told of as dropped before anything else is told. -/
  dropped_first : b.arm = .mailbox → b.requests.closed = true → ∀ c delivery,
    d.mailbox = .holding c delivery → delivery ≠ .resolved .taken → ∀ later,
      ∃ told, events (b.after later).log = events b.log ++ told ∧
        (∀ e ∈ told.head?, e = b.dropNews c) ∧ (d.mailbox.toGo ≤ moveCount later → told ≠ [])
  /-- A flagged event decides the exit code, be the handler there or not. -/
  flagged_first : b.arm = .mailbox → d.mailbox.isHolding = false → ∀ p code, b.control.slot = some p →
    p.item.error = some code → ∀ later, 1 ≤ moveCount later →
      (b.after later).verdict? = some (.ofService code, true) ∧
        ∃ n, ((b.after later).after (List.replicate n .move)).ending? =
          some (.stopped (.ofService code) true)

/-- A handler returns with a request it did not take on its link, when one event is in the slot and a status
was sent. -/
def returnedEarly : List Step :=
  [.act (.store (.ok ⟨1, ["svc"]⟩)), .act .announce, .move,
    .act (.offerControl 1 ⟨.interrogate, 0, 0, 0, none⟩), .move, .move,
    .act (.offerControl 2 ⟨.stop, 0, 0, 0, none⟩), .act .cloneUpdates,
    .act (.offerStatus 3 (.ofState .running)), .act (.finish (.exited .success))]

/-- When the handler returns just after the bridge has looked at the request in vain, its end overtakes the
request. -/
example :
    let b := (fresh "svc" "handler" 0 (ScriptedHost.mk [] 0)).after
      [.act (.store (.ok ⟨1, ["svc"]⟩)), .act .announce, .move,
        .act (.offerControl 1 ⟨.interrogate, 0, 0, 0, none⟩), .move, .move, .act .pass, .act .cloneUpdates,
        .act (.finish (.exited .success))]
    b.stage = .driving ⟨1, .holding .interrogate (.resolved .closed), .stopped, true⟩ ∧
      b.next? = some (.complete (.exited .success)) := by
  decide

end Bridge

end Steward

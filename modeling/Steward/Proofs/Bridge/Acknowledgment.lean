import Steward.Proofs.Bridge.Ending
import Steward.Proofs.Bridge.Events
import Steward.Proofs.Link.Daybook

/-!
# Proofs/Bridge/Acknowledgment — a status that was sent is a status that was reported

A sender on the status link is done when the bridge has taken its status, and the bridge reports each
status it takes before it does anything else.  So the books of the status link, with the calls of the
report function for what was taken, tally with the link (`Booked`) in every state of every run; and
the link is `Attended`: as long as the handler is driven it is open, and before and after nobody is
under way.

* `Makes.passes`, `passes_act` — what each move and each action enters in the books.
* `booked_after` — the books tally along every history in which senders have their own tickets, and the
  link is attended to.
* `relayed_after` — the calls are those of the moves that take a status, in order.
* `acknowledged_when_reported` — a sender that was not withdrawn is told that its status was taken if
  and only if it was reported, once.
-/

namespace Steward

namespace Bridge

variable {σ : Type} {b b' : Bridge σ} {d : Driving} {k : Daybook Status}

/-! ## The calls for statuses -/

/-- The calls of the report function for statuses of the handler, in order: whose status it was, and the
record. -/
def relayed (log : List Happening) : List (Parcel Status × Record) :=
  log.filterMap fun | .reported (.relayed t s) _ record _ => some (⟨t, s⟩, record) | _ => none

/-- The call that a move makes for a status. -/
def Move.relayed? : Move → Option (Parcel Status × Record)
  | .relay p => some (p.toParcel, Record.ofStatus p.item .success)
  | _ => none

theorem relayed_append (l₁ l₂ : List Happening) : relayed (l₁ ++ l₂) = relayed l₁ ++ relayed l₂ :=
  List.filterMap_append

theorem relayed_deeds (log : List Happening) : relayed (deeds log) = relayed log :=
  filterMap_deeds _ (fun h hd => by cases h <;> simp_all [Happening.isDeed]) log

/-- **Only a move that takes a status calls for it.** -/
theorem Makes.relayed [StatusHost σ] {m : Move} (hm : b.Makes m b') :
    relayed b'.log = relayed b.log ++ m.relayed?.toList := by
  rw [← relayed_deeds, ← relayed_deeds b.log]
  cases hm with
  | start => rw [deeds_start]; exact (List.append_nil _).symm
  | refuse | abandon => rw [deeds_refuse]; exact (List.append_nil _).symm
  | read => rw [deeds_read, relayed_append]; rfl
  | place | endStatuses => exact (List.append_nil _).symm
  | settle => rw [deeds_settle]; exact (List.append_nil _).symm
  | relay => rw [deeds_relay, relayed_append]; rfl
  | complete => rw [deeds_complete]; exact (List.append_nil _).symm
  | report => rw [deeds_finish, relayed_append]; rfl
  | release => rw [deeds_release]; exact (List.append_nil _).symm

/-- Only the bridge calls. -/
theorem Happens.relayed {a : Action} (ha : b.Happens a b') : relayed b'.log = relayed b.log :=
  ha.filterMap_log fun h hh => by cases h <;> simp_all [Happening.isAnswer]

/-! ## Who sends a status -/

/-- What a step brings to the books of the status link: who comes, and who is withdrawn. -/
def booking (b : Bridge σ) : Step → Daybook Status
  | .act (.offerStatus ticket s) | .act (.lineUpStatus ticket s) =>
    if b.canSend then { came := [⟨ticket, s⟩] } else ∅
  | .act (.cancelStatus ticket) => b.updates.withdrawal ticket
  | _ => ∅

/-- Who comes to the status link along a history, in order, and who is withdrawn. -/
def bookings [StatusHost σ] (b : Bridge σ) : List Step → Daybook Status
  | [] => ∅
  | s :: later => b.booking s ++ (b.step s).bookings later

/-- The books of the status link: who came and who was withdrawn, with the statuses reported as taken, and
the senders that are done. -/
def daybook (b : Bridge σ) (k : Daybook Status) : Daybook Status :=
  { k with taken := (relayed b.log).map (·.1), done := statusesSent b.log }

/-! ## What a step does to the status link -/

theorem statusesSent_append (l₁ l₂ : List Happening) :
    statusesSent (l₁ ++ l₂) = statusesSent l₁ ++ statusesSent l₂ := List.filterMap_append

@[simp] theorem statusesSent_publish (b : Bridge σ) (e : Event) :
    statusesSent (b.publish e).log = statusesSent b.log :=
  (statusesSent_append _ _).trans (List.append_nil _)

/-- When the handler is cut off every sender under way is refused. -/
theorem statusesSent_leave (b : Bridge σ) (d : Driving) (exit : ExitCode) (left : Bool) :
    statusesSent (b.leave d exit left).log = statusesSent b.log ++ b.updates.closure.done := by
  refine (statusesSent_append _ _).trans (congrArg _ ?_)
  rw [statusesSent, List.filterMap_map]
  exact congrFun List.filterMap_eq_map b.updates.unfinished

/-- From one state to another something happens to the status link, and the log tells of it. -/
structure Passes (b : Bridge σ) (e : Daybook Status) (b' : Bridge σ) : Prop where
  goes : b.updates.Goes e b'.updates
  relayed : (relayed b'.log).map (·.1) = (relayed b.log).map (·.1) ++ e.taken
  sent : statusesSent b'.log = statusesSent b.log ++ e.done

theorem Passes.trans {b'' : Bridge σ} {e e' : Daybook Status} (h : b.Passes e b')
    (h' : b'.Passes e' b'') : b.Passes (e ++ e') b'' where
  goes := h.goes.trans h'.goes
  relayed := by rw [h'.relayed, h.relayed, List.append_assoc]; rfl
  sent := by rw [h'.sent, h.sent, List.append_assoc]; rfl

theorem Passes.of_same (updates : b'.updates = b.updates)
    (relayed : Bridge.relayed b'.log = Bridge.relayed b.log)
    (sent : statusesSent b'.log = statusesSent b.log) : b.Passes ∅ b' where
  goes := updates ▸ .handles _ _
  relayed := by rw [relayed]; exact (List.append_nil _).symm
  sent := sent.trans (List.append_nil _).symm

/-- What is published concerns nobody on the link. -/
theorem Passes.publish {e : Daybook Status} (h : b.Passes e b') (told : Event) :
    b.Passes e (b'.publish told) where
  goes := h.goes
  relayed := by
    rw [← relayed_deeds (b'.publish told).log, deeds_publish, relayed_deeds]
    exact h.relayed
  sent := (statusesSent_publish b' told).trans h.sent

/-- When the handler is cut off the link is closed. -/
theorem Passes.leave {e : Daybook Status} (h : b.Passes e b') (d : Driving) (exit : ExitCode)
    (left : Bool) : b.Passes (e ++ b'.updates.closure) (b'.leave d exit left) :=
  h.trans
    { goes := .closes _
      relayed := by
        rw [← relayed_deeds (b'.leave d exit left).log, deeds_leave, relayed_deeds]
        exact (List.append_nil _).symm
      sent := statusesSent_leave b' d exit left }

/-- What happens to the status link is entered in the books. -/
theorem Passes.daybook {e e₀ : Daybook Status} (h : b.Passes e b') (he : e.SameSenders e₀) :
    b'.daybook (k ++ e₀) = b.daybook k ++ e := by
  have hrelayed := h.relayed
  have hsent := h.sent
  ext1 <;> simp [Bridge.daybook, he.came, he.recalled, he.abandoned, hrelayed, hsent]

/-- To take a status is to report it. -/
theorem passes_taken {p : Placed Status} (hp : b.updates.slot = some p) (host : σ) (stage : Stage)
    (handle : Handle) (record : Record) (r : Except HostError Unit) :
    b.Passes p.receipt { b with
      arm := .mailbox
      host := host
      updates := b.updates.take
      stage := stage
      log := b.log ++ (if p.awaited then [Happening.statusSent p.ticket .taken] else []) ++
        [Happening.reported (.relayed p.ticket p.item) handle record r] } where
  goes := .takes hp
  relayed := by
    rw [relayed_append, relayed_append]
    cases p.awaited <;> simp [Bridge.relayed, Placed.receipt]
  sent := by
    rw [statusesSent_append, statusesSent_append]
    cases hawaited : p.awaited <;> simp [statusesSent, Placed.receipt, hawaited]

/-- A status is taken and reported, and the link is closed if the report is refused. -/
theorem passes_relay [StatusHost σ] {p : Placed Status} (hp : b.updates.slot = some p) :
    ∃ e, b.Passes e (b.relay d p) ∧ e.SameSenders ∅ := by
  unfold relay
  dsimp only
  split
  · exact ⟨_, (passes_taken hp _ _ _ _ _).publish _, rfl, rfl, rfl⟩
  · exact ⟨_, ((passes_taken hp _ _ _ _ _).publish _).leave d _ true, rfl, rfl, rfl⟩

/-- An event is read, and the link is closed if that ends the run. -/
theorem passes_read (b : Bridge σ) (d : Driving) (p : Placed ControlEvent) :
    ∃ e, b.Passes e (b.read d p) ∧ e.SameSenders ∅ := by
  have hread : ∀ stage, b.Passes ∅ { b with
      arm := .mailbox
      control := b.control.take
      stage := stage
      log := b.log ++ Happening.read p.item ::
        if p.awaited then [Happening.controlSent p.ticket .taken] else [] } := by
    refine fun stage => .of_same rfl ?_ ?_
    · refine (relayed_append _ _).trans ?_
      cases p.awaited <;> exact List.append_nil _
    · refine (statusesSent_append _ _).trans ?_
      cases p.awaited <;> exact List.append_nil _
  unfold read
  dsimp only
  split
  · exact ⟨_, ((hread b.stage).publish _).leave d _ true, rfl, rfl, rfl⟩
  · split
    · exact ⟨_, ((hread b.stage).publish _).publish _, rfl, rfl, rfl⟩
    · refine ⟨_, Passes.publish (hread _) _, rfl, rfl, rfl⟩

/-- **A move brings nobody and withdraws nobody.** -/
theorem Makes.passes [StatusHost σ] {m : Move} (hm : b.Makes m b')
    (hw : b.stage = .waiting → b.updates = .unconnected) :
    ∃ e, b.Passes e b' ∧ e.SameSenders ∅ := by
  have hrelayed := hm.relayed
  have hquiet : b.updates.Goes ∅ b'.updates → m.relayed? = none →
      statusesSent b'.log = statusesSent b.log → ∃ e, b.Passes e b' ∧ e.SameSenders ∅ := by
    intro hgoes hm hsent
    rw [hm, Option.toList_none, List.append_nil] at hrelayed
    refine ⟨∅, ⟨hgoes, ?_, hsent.trans (List.append_nil _).symm⟩, rfl, rfl, rfl⟩
    rw [hrelayed]
    exact (List.append_nil _).symm
  cases hm with
  | start hs =>
    refine hquiet ?_ rfl ((statusesSent_publish _ _).trans (statusesSent_publish _ _))
    rw [hw hs]
    exact .handles _ 1
  | refuse | abandon => exact hquiet (.handles _ _) rfl (statusesSent_publish _ _)
  | read => exact passes_read b _ _
  | place | endStatuses => exact hquiet (.handles _ _) rfl rfl
  | @settle d c r => cases r <;> exact hquiet (.handles _ _) rfl (statusesSent_publish _ _)
  | relay hs hm ho hp => exact passes_relay hp
  | complete hs =>
    have hsame : b.Passes ∅ b := .of_same rfl rfl rfl
    exact ⟨_, (hsame.publish _).leave _ _ _, rfl, rfl, rfl⟩
  | report hs =>
    refine hquiet (.handles _ _) rfl ((statusesSent_publish _ _).trans ?_)
    exact (statusesSent_append _ _).trans (List.append_nil _)
  | @release ending next hs =>
    refine hquiet ?_ rfl ?_
    · cases next <;> exact .handles _ _
    · cases next with
      | closeControl =>
        refine (statusesSent_append _ _).trans ?_
        have hnone : statusesSent (b.control.unfinished.map (.controlSent · .closed)) = [] := by
          simp [statusesSent]
        rw [hnone, List.append_nil]
      | announce => exact statusesSent_publish _ _
      | deregister | signal => rfl

/-- It concerns a sender on the status link. -/
def Action.sends : Action → Bool
  | .offerStatus _ _ | .lineUpStatus _ _ | .cancelStatus _ => true
  | _ => false

/-- An action that concerns no sender on the status link leaves all of them alone. -/
theorem Happens.quiet {a : Action} (ha : b.Happens a b') (hq : a.sends = false) :
    b.updates.Goes ∅ b'.updates ∧ statusesSent b'.log = statusesSent b.log := by
  have hdropped : ∀ b : Bridge σ, b.updates.Goes ∅ b.dropUpdates.updates := by
    intro b
    unfold Bridge.dropUpdates
    split
    · exact .handles _ _
    · exact .handles _ b.updates.offers
  cases ha with
  | offerStatus | lineUpStatus | cancelStatus => cases hq
  | idle | pass | store | announce | steal | enterControl | cloneControl | dropControl | lendRequests =>
    exact ⟨.handles _ _, rfl⟩
  | enterStatus => exact ⟨.enter _, rfl⟩
  | cloneUpdates | dropClone => exact ⟨.handles _ _, rfl⟩
  | offerControl ticket e =>
    refine ⟨.handles _ _, (statusesSent_append _ _).trans ?_⟩
    cases b.control.closed <;> exact List.append_nil _
  | takeRequest ht hp =>
    rw [takeRequest_updates, takeRequest_eq hp, resolve_log]
    exact ⟨.handles _ _, (statusesSent_append _ _).trans (List.append_nil _)⟩
  | dropRequests =>
    rw [dropRequests_updates, dropRequests_log]
    exact ⟨.handles _ _, rfl⟩
  | dropUpdates =>
    obtain ⟨updates, holds, h⟩ := b.dropUpdates_eq
    exact ⟨hdropped b, by rw [h]⟩
  | finish c =>
    obtain ⟨requests, stage, hleft⟩ := b.leaveRequests_eq
    have hsame : b.leaveRequests.updates = b.updates := by rw [hleft]
    rw [finishHandler_log]
    exact ⟨hsame ▸ hdropped b.leaveRequests, rfl⟩

/-- A sender that comes is entered in the books. -/
theorem passes_arrival {ticket : Nat} {s : Status} {updates : Link Status}
    (hgoes : b.updates.Goes (b.updates.arrival ⟨ticket, s⟩) updates) :
    b.Passes (b.updates.arrival ⟨ticket, s⟩) { b with
      updates := updates
      log := b.log ++ if b.updates.closed then [.statusSent ticket .closed] else [] } where
  goes := hgoes
  relayed := by
    rw [relayed_append, List.map_append, Link.arrival]
    cases b.updates.closed <;> rfl
  sent := by
    rw [statusesSent_append, Link.arrival]
    cases b.updates.closed <;> rfl

/-- **An action is entered in the books.** -/
theorem passes_act (b : Bridge σ) (a : Action) :
    ∃ e, b.Passes e (b.act a) ∧ e.SameSenders (b.booking (.act a)) := by
  have hquiet : a.sends = false → b.booking (.act a) = ∅ →
      ∃ e, b.Passes e (b.act a) ∧ e.SameSenders (b.booking (.act a)) := by
    intro hq hnobody
    obtain ⟨hgoes, hsent⟩ := (happens_act b a).quiet hq
    refine ⟨∅, ⟨hgoes, ?_, hsent.trans (List.append_nil _).symm⟩, hnobody ▸ ⟨rfl, rfl, rfl⟩⟩
    rw [(happens_act b a).relayed]
    exact (List.append_nil _).symm
  have hsame : b.Passes ∅ b := .of_same rfl rfl rfl
  cases a with
  | offerStatus ticket s =>
    rw [act, booking]
    split
    · exact ⟨_, passes_arrival (.comes _ _), rfl, rfl, rfl⟩
    · exact ⟨∅, hsame, rfl, rfl, rfl⟩
  | lineUpStatus ticket s =>
    rw [act, booking]
    split
    · exact ⟨_, passes_arrival (.linesUp _ _), rfl, rfl, rfl⟩
    · exact ⟨∅, hsame, rfl, rfl, rfl⟩
  | cancelStatus ticket =>
    refine ⟨_, ⟨.cancel _ ticket, (List.append_nil _).symm, (List.append_nil _).symm⟩, rfl, rfl, rfl⟩
  | _ => exact hquiet rfl rfl

/-! ## The link is attended to -/

/-- The status link is there for the handler: it is open as long as the handler is driven, and before
and after nobody is under way. -/
def Attended (b : Bridge σ) : Prop :=
  match b.stage with
  | .waiting => b.updates = .unconnected
  | .driving d => b.updates.Manned ∧ (d.statusesOpen = false → b.updates = .unconnected)
  | .finishing _ _ _ | .releasing _ _ | .ended _ => b.updates = .unconnected ∨ b.updates.Shut

/-- An event that does not end the run does not concern the status link. -/
theorem updates_read (b : Bridge σ) (d : Driving) {p : Placed ControlEvent}
    (he : p.item.error = none) : (b.read d p).updates = b.updates := by
  unfold read
  simp only [he]
  split <;> rfl

/-- A status the host agrees to leaves the rest of the link. -/
theorem updates_relay [StatusHost σ] {p : Placed Status}
    (hr : (StatusHost.report b.host d.handle (Record.ofStatus p.item .success)).2 = .ok ()) :
    (b.relay d p).updates = b.updates.take := by
  unfold relay
  simp only [hr]
  rfl

/-- **An action leaves the link attended to.** -/
theorem Attended.happens {a : Action} (h : Attended b) (ha : b.Happens a b') : Attended b' := by
  by_cases hd : ∃ d, b.stage = .driving d
  · obtain ⟨d, hs⟩ := hd
    obtain ⟨m, hs'⟩ := ha.meets.driving hs
    unfold Attended at h ⊢
    rw [hs] at h
    rw [hs']
    exact ⟨ha.undergoes_updates.manned h.1, fun hclosed => ha.undergoes_updates.unconnected (h.2 hclosed)⟩
  · have hs := ha.meets.stage fun d hs => hd ⟨d, hs⟩
    unfold Attended at h ⊢
    rw [hs]
    split at h
    · exact ha.undergoes_updates.unconnected h
    · exact absurd ⟨_, ‹_›⟩ hd
    all_goals exact h.imp ha.undergoes_updates.unconnected ha.undergoes_updates.shut

theorem Attended.driving (h : Attended b) (hs : b.stage = .driving d) :
    b.updates.Manned ∧ (d.statusesOpen = false → b.updates = .unconnected) := by
  unfold Attended at h
  rwa [hs] at h

theorem Attended.of_driving {d' : Driving} (hs : b'.stage = .driving d') (manned : b'.updates.Manned)
    (gone : d'.statusesOpen = false → b'.updates = .unconnected) : Attended b' := by
  unfold Attended
  rw [hs]
  exact ⟨manned, gone⟩

theorem Attended.of_cutsOff {exit : ExitCode} {left : Bool} (h : b.CutsOff d exit left b') :
    Attended b' := by
  obtain ⟨l, hl⟩ := h.updates
  unfold Attended
  rw [h.stage, hl]
  exact .inr l.shut_close

/-- **A move leaves the link attended to.** -/
theorem Attended.makes [StatusHost σ] {m : Move} (h : Attended b) (hm : b.Makes m b') :
    Attended b' := by
  cases hm with
  | start hs => exact .of_driving rfl ⟨rfl, nofun⟩ nofun
  | refuse hs | abandon hs =>
    unfold Attended at h
    rw [hs] at h
    exact .inl h
  | @read d p hs hfree hp =>
    obtain ⟨manned, gone⟩ := h.driving hs
    cases he : p.item.error with
    | some code => exact .of_cutsOff (cutsOff_read he)
    | none =>
      rw [← updates_read b d he] at manned gone
      cases hmail : d.mailbox with
      | holding => simp [hmail, Mailbox.isHolding] at hfree
      | detached => exact .of_driving (goesOn_read_detached hs hmail he).stage manned gone
      | awaiting => exact .of_driving (goesOn_read_awaiting hmail he).stage manned gone
  | place hs =>
    obtain ⟨manned, gone⟩ := h.driving hs
    exact .of_driving rfl manned gone
  | @settle d c r hs =>
    obtain ⟨manned, gone⟩ := h.driving hs
    cases r <;> exact .of_driving rfl manned gone
  | @relay d p hs hm ho hp =>
    obtain ⟨manned, -⟩ := h.driving hs
    cases hr : (StatusHost.report b.host d.handle (Record.ofStatus p.item .success)).2 with
    | ok =>
      refine .of_driving (goesOn_relay hr).stage ?_ fun hclosed => absurd (ho.symm.trans hclosed) (by decide)
      rw [updates_relay hr]
      exact manned.take
    | error e => exact .of_cutsOff (cutsOff_relay hr)
  | endStatuses hs hm ho hp =>
    obtain ⟨manned, -⟩ := h.driving hs
    exact .of_driving rfl manned fun _ => manned.unconnected hp
  | complete hs => exact .of_cutsOff (cutsOff_complete _)
  | report hs =>
    unfold Attended at h
    rw [hs] at h
    exact h
  | @release ending next hs =>
    unfold Attended at h
    rw [hs] at h
    cases next <;> exact h

theorem Attended.after [StatusHost σ] (h : Attended b) (later : List Step) : Attended (b.after later) :=
  invariant_after (P := fun _ _ b => Attended b) (fun h hm => h.makes hm) (fun h ha => h.happens ha) h later

/-- **Nobody is under way when the bridge can only wait**, or when it has ended. -/
theorem Attended.nobody (h : Attended b)
    (hrest : (b.next? = none ∧ b.updates.granted? = none) ∨ b.ending?.isSome = true) :
    b.updates.unfinished = [] := by
  unfold Attended at h
  split at h
  · rw [h]
    rfl
  · rename_i d hs
    obtain ⟨hnext, hgranted⟩ := hrest.resolve_right (by simp [ending?, hs])
    cases hopen : d.statusesOpen with
    | false =>
      rw [h.2 hopen]
      rfl
    | true =>
      have hmove : b.statusMove? d = none := ((next?_eq_none_of_driving hs).mp hnext).2.1
      have hslot : b.updates.slot = none := by
        cases hslot : b.updates.slot with
        | none => rfl
        | some p => simp [statusMove?, hopen, Link.poll, hslot] at hmove
      have hline : b.updates.line = [] := by simpa [Link.granted?, hslot] using hgranted
      simp [Link.unfinished, Link.waiting?, hslot, hline]
  all_goals
    obtain h | h := h
    · rw [h]
      rfl
    · exact h.unfinished

/-! ## The books of the status link -/

/-- The books tally with the link. -/
def Booked (k : Daybook Status) (b : Bridge σ) : Prop := (b.daybook k).Tallies b.updates

theorem Booked.passes {e e₀ : Daybook Status} (h : Booked k b) (hp : b.Passes e b')
    (he : e.SameSenders e₀) (hdistinct : (k ++ e₀).tickets.Nodup) : Booked (k ++ e₀) b' := by
  unfold Booked
  rw [hp.daybook he]
  refine Daybook.Tallies.goes h hp.goes ?_
  rw [← hp.daybook he]
  exact hdistinct

/-- **Every step keeps the books.** -/
theorem booked_step [StatusHost σ] (h : Booked k b) (ha : Attended b) (s : Step)
    (hdistinct : (k ++ b.booking s).tickets.Nodup) :
    Booked (k ++ b.booking s) (b.step s) ∧ Attended (b.step s) := by
  cases s with
  | act a =>
    obtain ⟨e, hp, he⟩ := b.passes_act a
    exact ⟨h.passes hp he hdistinct, ha.happens (happens_act b a)⟩
  | move =>
    cases hnext : b.next? with
    | none =>
      rw [step, hnext]
      exact ⟨(Daybook.append_blank k).symm ▸ h, ha⟩
    | some m =>
      have hm := makes_perform hnext
      simp only [step, hnext]
      obtain ⟨e, hp, he⟩ := hm.passes fun hs => by
        unfold Attended at ha
        rwa [hs] at ha
      exact ⟨h.passes hp he hdistinct, ha.makes hm⟩

/-- **The books tally along every history**, and the link is attended to. -/
theorem booked_along [StatusHost σ] (h : Booked k b) (ha : Attended b) (history : List Step)
    (hdistinct : (k ++ b.bookings history).tickets.Nodup) :
    Booked (k ++ b.bookings history) (b.after history) ∧ Attended (b.after history) := by
  induction history generalizing k b with
  | nil => exact ⟨(Daybook.append_blank k).symm ▸ h, ha⟩
  | cons s later ih =>
    rw [bookings, ← Daybook.append_assoc] at hdistinct ⊢
    have hbefore := hdistinct
    rw [Daybook.tickets_append] at hbefore
    obtain ⟨hstep, hastep⟩ := booked_step h ha s hbefore.of_append_left
    exact ih hstep hastep hdistinct

theorem booked_after [StatusHost σ] (name handlerName : String) (context : Context) (host : σ)
    (history : List Step)
    (hdistinct : ((fresh name handlerName context host).bookings history).tickets.Nodup) :
    Booked ((fresh name handlerName context host).bookings history)
        ((fresh name handlerName context host).after history) ∧
      Attended ((fresh name handlerName context host).after history) := by
  have hfresh : Booked ∅ (fresh name handlerName context host) :=
    Daybook.tallies_blank (l := .unconnected) rfl rfl rfl
  exact booked_along hfresh rfl history hdistinct

/-- **The calls for statuses are those of the moves that take them, in order.** -/
theorem relayed_after [StatusHost σ] (name handlerName : String) (context : Context) (host : σ)
    (history : List Step) :
    relayed ((fresh name handlerName context host).after history).log =
      ((fresh name handlerName context host).moves history).filterMap Move.relayed? := by
  refine invariant_after (P := fun _ ms b => relayed b.log = ms.filterMap Move.relayed?) ?_ ?_ rfl
    history
  · intro as ms m b b' h hm
    rw [hm.relayed, h, List.filterMap_append]
    cases m <;> rfl
  · intro as ms a b b' h ha
    rw [ha.relayed, h]

/-- Each call for a status has the record of that status. -/
theorem record_of_relayed {ms : List Move} {call : Parcel Status × Record}
    (h : call ∈ ms.filterMap Move.relayed?) : call.2 = Record.ofStatus call.1.item .success := by
  obtain ⟨m, -, hm⟩ := List.mem_filterMap.mp h
  cases m with
  | relay p =>
    obtain rfl := Option.some.inj hm
    rfl
  | _ => cases hm

/-- **A sender of a status is told that it was taken if and only if it was reported.**  Along every
history in which senders have their own tickets: a sender that was not withdrawn is told that its status
was taken if and only if there is exactly one call of the report function for it, whatever the host
answered; and it is done, in one way or the other, when the bridge can only wait and when it has ended.
Nobody is told twice, and for a sender that was told that the link is closed there is no call, then or
later.  Each call is for the status of a sender that came, with the record of that status; the calls are
those of the moves that take a status, in order, and so in the order in which the senders came. -/
theorem acknowledged_when_reported [StatusHost σ] (name handlerName : String) (context : Context)
    (host : σ) (history : List Step)
    (hsenders : ((fresh name handlerName context host).bookings history).tickets.Nodup) :
    let start := fresh name handlerName context host
    let b := start.after history
    let k := start.bookings history
    (∀ p ∈ k.came, p.ticket ∉ k.withdrawn →
      ((p.ticket, .taken) ∈ statusesSent b.log ↔
        (relayed b.log).countP (·.1.ticket = p.ticket) = 1) ∧
      ((b.next? = none ∧ b.updates.granted? = none) ∨ b.ending?.isSome = true →
        (p.ticket, .taken) ∈ statusesSent b.log ∨ (p.ticket, .closed) ∈ statusesSent b.log)) ∧
    ((statusesSent b.log).map (·.1)).Nodup ∧
    (∀ before later, history = before ++ later →
      ∀ t, (t, .closed) ∈ statusesSent (start.after before).log →
        ∀ call ∈ relayed b.log, call.1.ticket ≠ t) ∧
    (∀ call ∈ relayed b.log, call.1 ∈ k.came ∧ call.2 = Record.ofStatus call.1.item .success) ∧
    relayed b.log = (start.moves history).filterMap Move.relayed? ∧
    (relayed b.log).map (·.1) <+: k.sent := by
  intro start b k
  obtain ⟨hbooked, hattended⟩ := booked_after name handlerName context host history hsenders
  have htallies : (b.daybook k).Tallies b.updates := hbooked
  have hmoves : relayed b.log = (start.moves history).filterMap Move.relayed? :=
    relayed_after name handlerName context host history
  have hcalls : ((relayed b.log).map (·.1.ticket)).Nodup := by
    have hnodup := htallies.sent_nodup.sublist (htallies.begins.sublist.map _)
    rwa [daybook, List.map_map] at hnodup
  have hreported : ∀ t, t ∈ (b.daybook k).taken.map (·.ticket) ↔
      (relayed b.log).countP (·.1.ticket = t) = 1 := by
    intro t
    have hcount : (relayed b.log).countP (·.1.ticket = t) =
        ((relayed b.log).map (·.1.ticket)).count t := by
      simp [List.count, List.countP_map, Function.comp_def, beq_eq_decide]
    have htaken : (b.daybook k).taken.map (·.ticket) = (relayed b.log).map (·.1.ticket) :=
      List.map_map
    rw [hcount, htaken]
    exact ⟨List.count_eq_one_of_mem hcalls, fun hone => List.count_pos_iff.mp (by omega)⟩
  refine ⟨fun p hp hw => ⟨?_, fun hrest => ?_⟩, htallies.results_nodup, ?_, ?_, hmoves,
    htallies.begins⟩
  · exact (htallies.taken_iff hw).trans (hreported p.ticket)
  · have hdone := (htallies.done_or_unfinished (List.mem_map_of_mem hp) hw).resolve_right
      (by rw [hattended.nobody hrest]; exact List.not_mem_nil)
    obtain ⟨⟨t, r⟩, hmem, rfl⟩ := List.mem_map.mp hdone
    cases r with
    | taken => exact .inl hmem
    | closed => exact .inr hmem
  · rintro before later rfl t hclosed call hcall rfl
    have hlog : (start.after before).log <+: b.log := by
      change _ <+: (start.after (before ++ later)).log
      rw [after_append]
      exact (start.after before).log_after later
    have hdone : (call.1.ticket, .closed) ∈ statusesSent b.log :=
      (hlog.filterMap _).subset hclosed
    have htaken := (htallies.truth _ _ hdone).1.mpr (List.mem_map_of_mem (List.mem_map_of_mem hcall))
    cases htaken
  · intro call hcall
    refine ⟨?_, record_of_relayed (hmoves ▸ hcall)⟩
    exact (List.mem_filter.mp (htallies.begins.subset (List.mem_map_of_mem hcall))).1

/-- Four senders of statuses: one is reported, one is refused by the host, one is withdrawn from the line
meanwhile, and one is still in line when that ends the run. -/
def fourStatuses : List Step :=
  [.act (.store (.ok ⟨1, ["svc"]⟩)), .act .announce, .move, .act .cloneUpdates,
    .act (.offerStatus 1 (.ofState .running)), .act (.offerStatus 2 (.ofState .paused)),
    .act (.offerStatus 3 (.ofState .running)), .act (.offerStatus 4 (.ofState .running)), .move,
    .act .enterStatus, .act (.cancelStatus 3), .move, .move, .move, .move, .move, .move]

/-- The two that were reported were told so, the host's refusal or not, and the last one was refused. -/
theorem fourStatuses_acknowledged :
    ((fresh "svc" "handler" 0 (ScriptedHost.mk [(1, .numbered 6)] 0)).bookings
      fourStatuses).tickets = [1, 2, 3, 4] ∧
    let b := (fresh "svc" "handler" 0 (ScriptedHost.mk [(1, .numbered 6)] 0)).after fourStatuses
    statusesSent b.log = [(1, .taken), (2, .taken), (4, .closed)] ∧
    (relayed b.log).countP (·.1.ticket = 2) = 1 ∧ ∀ call ∈ relayed b.log, call.1.ticket ≠ 4 := by
  have htickets : ((fresh "svc" "handler" 0 (ScriptedHost.mk [(1, .numbered 6)] 0)).bookings
      fourStatuses).tickets = [1, 2, 3, 4] := rfl
  have hsent : statusesSent ((fresh "svc" "handler" 0 (ScriptedHost.mk [(1, .numbered 6)] 0)).after
      fourStatuses).log = [(1, .taken), (2, .taken), (4, .closed)] := rfl
  have hcame : ((fresh "svc" "handler" 0 (ScriptedHost.mk [(1, .numbered 6)] 0)).bookings
      fourStatuses).came[1]? = some ⟨2, .ofState .paused⟩ := rfl
  have hwithdrawn : ((fresh "svc" "handler" 0 (ScriptedHost.mk [(1, .numbered 6)] 0)).bookings
      fourStatuses).withdrawn = [3] := rfl
  obtain ⟨htold, -, hnever, -⟩ := acknowledged_when_reported "svc" "handler" 0
    (ScriptedHost.mk [(1, .numbered 6)] 0) fourStatuses (htickets ▸ by decide)
  refine ⟨htickets, hsent, ?_, ?_⟩
  · refine (htold ⟨2, .ofState .paused⟩ (List.mem_of_getElem? hcame) ?_).1.mp ?_
    · rw [hwithdrawn]
      decide
    · rw [hsent]
      decide
  · refine hnever fourStatuses [] rfl 4 ?_
    rw [hsent]
    decide

end Bridge

end Steward

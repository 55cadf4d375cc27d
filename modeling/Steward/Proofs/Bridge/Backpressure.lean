import Steward.Proofs.Bridge.Ledger
import Steward.Proofs.Link.Basic

/-!
# Proofs/Bridge/Backpressure — one request at a time

A control event that was read is a request until the handler takes it or it is dropped, and while
there is such a request no event is read.  So a host that calls faster than the handler listens is
held up: its senders wait.

* `Offers` — a request is put onto the handler's link once, in the order in which they were made.
* `stands_of_holding` — while a request is under way nothing leaves the control link.
* `length_sendersTaken` — a sender is done with an event only when the event was read.
* `one_request_at_a_time` — all this in every state of every run.
-/

namespace Steward

/-- The request that is yet to be put onto the handler's link. -/
def Mailbox.unoffered : Mailbox → List Request
  | .holding _ (.fresh r) => [r]
  | _ => []

namespace Bridge

variable {σ : Type} {b b' : Bridge σ} {d : Driving}

/-- The request a move puts onto the handler's link. -/
def Move.offered? : Move → Option Request
  | .place r => some r
  | _ => none

/-- The requests put onto the handler's link, in order. -/
def offered (ms : List Move) : List Request := ms.filterMap Move.offered?

/-! ## Each request is offered once -/

theorem offered_concat (ms : List Move) (m : Move) :
    offered (ms ++ [m]) = offered ms ++ m.offered?.toList := by
  rw [offered, List.filterMap_append]
  cases h : m.offered? <;> simp [offered, h]

/-- **The offers of a run**: the requests put onto the handler's link, and the one yet to be put
there, begin those made; they are all of them until requests are dropped. -/
def Offers (ms : List Move) (b : Bridge σ) : Prop :=
  match b.stage with
  | .driving d => offered ms ++ d.mailbox.unoffered <+: (ledger b.log).made ∧
      (d.mailbox ≠ .detached → offered ms ++ d.mailbox.unoffered = (ledger b.log).made)
  | _ => offered ms <+: (ledger b.log).made

variable {ms : List Move}

theorem Offers.driving (h : Offers ms b) (hs : b.stage = .driving d) :
    offered ms ++ d.mailbox.unoffered <+: (ledger b.log).made ∧
      (d.mailbox ≠ .detached → offered ms ++ d.mailbox.unoffered = (ledger b.log).made) := by
  unfold Offers at h
  rwa [hs] at h

/-- In whatever stage, the requests offered begin those made. -/
theorem Offers.begins (h : Offers ms b) : offered ms <+: (ledger b.log).made := by
  cases hs : b.stage with
  | driving d => exact (List.prefix_append _ _).trans (h.driving hs).1
  | waiting | finishing | releasing | ended =>
    unfold Offers at h
    rwa [hs] at h

theorem Offers.of_begins (hs : ∀ d, b.stage ≠ .driving d)
    (h : offered ms <+: (ledger b.log).made) : Offers ms b := by
  unfold Offers
  split
  · exact absurd ‹_› (hs _)
  · exact h

/-- Offers that are all there is are the offers of a run that drives its handler. -/
theorem Offers.of_all (hs : b.stage = .driving d)
    (h : offered ms ++ d.mailbox.unoffered = (ledger b.log).made) : Offers ms b := by
  unfold Offers
  rw [hs]
  exact ⟨h ▸ List.prefix_rfl, fun _ => h⟩

/-- What makes no request and leaves the one yet to be offered leaves the offers. -/
theorem Offers.same {d' : Driving} (h : Offers ms b) (hs : b.stage = .driving d)
    (hs' : b'.stage = .driving d') (made : (ledger b'.log).made = (ledger b.log).made)
    (unoffered : d'.mailbox.unoffered = d.mailbox.unoffered)
    (detached : d.mailbox = .detached → d'.mailbox = .detached) : Offers ms b' := by
  unfold Offers
  rw [hs']
  dsimp only
  rw [made, unoffered]
  exact ⟨(h.driving hs).1, fun hd => (h.driving hs).2 fun hd' => hd (detached hd')⟩

theorem Offers.read_unflagged {p : Placed ControlEvent} (h : Offers ms b) (hb : Balanced b)
    (hs : b.stage = .driving d) (hm : d.mailbox.isHolding = false) (he : p.item.error = none) :
    Offers ms (b.read d p) := by
  have hcurrent := (hb.driving hs).2.1
  obtain ⟨hbegin, hall⟩ := h.driving hs
  cases hmail : d.mailbox with
  | holding =>
    rw [hmail] at hm
    cases hm
  | detached =>
    unfold Offers
    rw [(goesOn_read_detached hs hmail he).stage, ledger_read_detached b hmail he]
    exact ⟨hbegin.trans (List.prefix_append _ _), fun hd => absurd hmail hd⟩
  | awaiting =>
    have hoffered : offered ms = (ledger b.log).made := by
      simpa [hmail, Mailbox.unoffered] using hall
    refine .of_all (goesOn_read_awaiting hmail he).stage ?_
    rw [ledger_read_awaiting b hmail he, hcurrent, ← hoffered]
    rfl

/-- **A move of the bridge keeps the offers.** -/
theorem Offers.makes [StatusHost σ] {m : Move} (h : Offers ms b) (hb : Balanced b)
    (hm : b.Makes m b') : Offers (ms ++ [m]) b' := by
  have hbegins := h.begins
  have hnone : m.offered? = none → offered (ms ++ [m]) = offered ms := by
    intro hoffered
    rw [offered_concat, hoffered, Option.toList_none, List.append_nil]
  have hquiet : ∀ {b' : Bridge σ}, m.offered? = none → Offers ms b' → Offers (ms ++ [m]) b' := by
    intro b' hoffered h'
    unfold Offers at h' ⊢
    rwa [hnone hoffered]
  cases hm with
  | start hs =>
    have hmade : (ledger b.log).made = [] := by
      rw [ledger, ← requestsMade_deeds, (hb.waiting hs).2]
      rfl
    refine hquiet rfl (.of_all rfl ?_)
    have hnone : offered ms = [] := List.prefix_nil.mp (hmade ▸ hbegins)
    rw [ledger_start, hmade, hnone]
    rfl
  | refuse hs | abandon hs =>
    exact hquiet rfl (.of_begins (fun d hd => by cases hd) (by rwa [ledger_refuse]))
  | @read d p hs hm =>
    refine hquiet rfl ?_
    cases he : p.item.error with
    | some code =>
      refine .of_begins (fun d hd => ?_) (by rwa [ledger_read_flagged b he])
      simp [(cutsOff_read he).stage] at hd
    | none => exact h.read_unflagged hb hs hm he
  | @place d c r hs hm =>
    have hall := (h.driving hs).2 (by simp [hm])
    have hmailbox : Mailbox.unoffered
        (.holding c (if b.requests.closed then .resolved .closed else .placed)) = [] := by
      split <;> rfl
    refine .of_all rfl ?_
    rw [offered_concat, hmailbox, List.append_nil]
    rwa [hm] at hall
  | @settle d c r hs hm =>
    refine hquiet rfl ?_
    cases r with
    | taken =>
      refine h.same hs (goesOn_settle_taken c).stage (by rw [ledger_settle_taken]) ?_ ?_ <;> rw [hm]
      · rfl
      · intro hd
        cases hd
    | closed =>
      refine h.same hs (goesOn_settle_closed c).stage (by rw [ledger_settle_closed]) ?_ ?_ <;>
        rw [hm]
      · rfl
      · intro hd
        cases hd
  | @relay d p hs =>
    refine hquiet rfl ?_
    cases hr : (StatusHost.report b.host d.handle (Record.ofStatus p.item .success)).2 with
    | ok => exact h.same hs (goesOn_relay hr).stage (by rw [ledger_relay]) rfl id
    | error e =>
      refine .of_begins (fun d hd => ?_) (by rwa [ledger_relay])
      simp [(cutsOff_relay hr).stage] at hd
  | endStatuses hs => exact hquiet rfl (h.same hs rfl rfl rfl id)
  | complete hs =>
    exact hquiet rfl (.of_begins (fun d hd => by cases hd) (by rwa [ledger_complete]))
  | report hs => exact hquiet rfl (.of_begins (fun d hd => by cases hd) (by rwa [ledger_finish]))
  | @release ending next hs =>
    refine hquiet rfl (.of_begins (fun d hd => ?_) (by rwa [ledger_release]))
    cases next <;> cases hd

/-- **An action keeps the offers.** -/
theorem Offers.happens {a : Action} (h : Offers ms b) (ha : b.Happens a b') : Offers ms b' := by
  have hmade : (ledger b'.log).made = (ledger b.log).made := by
    cases ha.meets with
    | aside _ _ _ _ deeds | outlived _ _ _ _ _ _ deeds => rw [ledger_congr deeds (by rw [ha.events])]
    | take ht hp => rw [ledger_takeRequest ht hp]
    | dropRequests => rw [dropRequests_log]
    | finish => rw [finishHandler_log]
  by_cases hd : ∃ d, b.stage = .driving d
  · obtain ⟨d, hs⟩ := hd
    obtain hs' | ⟨c, r, hm, hs'⟩ := ha.meets.mailbox hs
    · exact h.same hs hs' hmade rfl id
    · exact h.same hs hs' hmade (by rw [hm]; rfl) (fun hd => by simp [hm] at hd)
  · have hnot : ∀ d, b.stage ≠ .driving d := fun d hs => hd ⟨d, hs⟩
    refine .of_begins (fun d hs => ?_) (hmade ▸ h.begins)
    exact hnot d (ha.meets.stage hnot ▸ hs)

/-- **The offers of a run are always in order.** -/
theorem offers_after [StatusHost σ] (name handlerName : String) (context : Context) (host : σ)
    (history : List Step) : Offers ((fresh name handlerName context host).moves history)
      ((fresh name handlerName context host).after history) :=
  (invariant_after (P := fun _ ms b => Balanced b ∧ Offers ms b)
    (fun h hm => ⟨h.1.makes hm, h.2.makes h.1 hm⟩)
    (fun h ha => ⟨h.1.meets ha.meets, h.2.happens ha⟩)
    ⟨balanced_fresh name handlerName context host, List.prefix_rfl⟩ history).2

/-! ## The control link -/

theorem read_control (b : Bridge σ) (d : Driving) (p : Placed ControlEvent) :
    (b.read d p).control = b.control.take := by
  obtain ⟨requests, updates, stage, log, h⟩ := b.read_eq d p
  rw [h]

theorem relay_control [StatusHost σ] (b : Bridge σ) (d : Driving) (p : Placed Status) :
    (b.relay d p).control = b.control := by
  obtain ⟨host, requests, updates, stage, log, h⟩ := b.relay_eq d p
  rw [h]

theorem controlsSent_append (l₁ l₂ : List Happening) :
    controlsSent (l₁ ++ l₂) = controlsSent l₁ ++ controlsSent l₂ := List.filterMap_append

/-- **Only who comes to the control link brings an event or is told something** by what happens between
the moves. -/
theorem Happens.control {a : Action} (ha : b.Happens a b') :
    (∃ ticket e, a = .offerControl ticket e ∧ b' = b.offerControl ticket e) ∨
    (b.control.Stirs b'.control ∧ controlsSent b'.log = controlsSent b.log) := by
  have hrefused : ∀ (refused : Bool) (h : Happening), controlsSent [h] = [] →
      controlsSent (b.log ++ if refused then [h] else []) = controlsSent b.log := by
    intro refused h hh
    rw [controlsSent_append]
    cases refused
    · exact List.append_nil _
    · exact (congrArg (_ ++ ·) hh).trans (List.append_nil _)
  cases ha with
  | idle | pass | store | announce | steal | enterStatus | cancelStatus | cloneUpdates | dropClone |
    lendRequests => exact .inr ⟨.still, rfl⟩
  | offerControl ticket e => exact .inl ⟨ticket, e, rfl, rfl⟩
  | enterControl => exact .inr ⟨.enter, rfl⟩
  | cloneControl => exact .inr ⟨.cloneOffer, rfl⟩
  | dropControl => exact .inr ⟨.dropOffer, rfl⟩
  | offerStatus | lineUpStatus => exact .inr ⟨.still, hrefused _ _ rfl⟩
  | takeRequest ht hp =>
    rw [takeRequest_eq hp, resolve_control, resolve_log]
    exact .inr ⟨.still, (controlsSent_append _ _).trans (List.append_nil _)⟩
  | dropRequests =>
    have hsame : b.dropRequests.control = b.control := resolve_control _ _
    rw [dropRequests_log, hsame]
    exact .inr ⟨.still, rfl⟩
  | dropUpdates =>
    obtain ⟨updates, holds, h⟩ := b.dropUpdates_eq
    rw [h]
    exact .inr ⟨.still, rfl⟩
  | finish c =>
    rw [finishHandler_log, finishHandler_control]
    exact .inr ⟨.still, rfl⟩

/-- An action leaves the events on the control link, and may bring one more. -/
theorem Happens.control_items {a : Action} (ha : b.Happens a b') :
    b'.control.items = b.control.items ∨ ∃ ticket e, a = .offerControl ticket e ∧
      b'.control.items = b.control.items ++ [e] := by
  obtain ⟨ticket, e, rfl, rfl⟩ | ⟨hstirs, -⟩ := ha.control
  · have hsend : (b.offerControl ticket e).control.items =
        b.control.items ++ if b.control.closed then [] else [e] := Link.items_send _ _
    cases hclosed : b.control.closed with
    | true => exact .inl (by simp [hsend, hclosed])
    | false => exact .inr ⟨ticket, e, rfl, by simp [hsend, hclosed]⟩
  · exact .inl hstirs.items

/-- The event a move reads. -/
def Move.event? : Move → Option ControlEvent
  | .read p => some p.item
  | _ => none

/-- What a move does to the control link: it leaves it alone, takes an event from it when no request
is under way, or closes it after the end. -/
theorem Makes.control [StatusHost σ] {m : Move} (hm : b.Makes m b') :
    (b'.control = b.control ∧ m.event? = none) ∨
    (∃ d p, b.stage = .driving d ∧ d.mailbox.isHolding = false ∧ b.control.slot = some p ∧
      m.event? = some p.item ∧ b'.control = b.control.take) ∨
    ((∀ d, b.stage ≠ .driving d) ∧ m.event? = none ∧ b'.control = b.control.close) := by
  cases hm with
  | start | refuse | abandon | place | endStatuses | complete | report => exact .inl ⟨rfl, rfl⟩
  | @settle d c r => cases r <;> exact .inl ⟨rfl, rfl⟩
  | relay => exact .inl ⟨relay_control _ _ _, rfl⟩
  | read hs hfree hp => exact .inr (.inl ⟨_, _, hs, hfree, hp, rfl, read_control _ _ _⟩)
  | @release ending next hs =>
    cases next with
    | closeControl => exact .inr (.inr ⟨fun d hd => by simp [hs] at hd, rfl, rfl⟩)
    | deregister | announce | signal => exact .inl ⟨rfl, rfl⟩

/-- **A move that reads an event is a reading move.** -/
theorem Makes.controlsRead [StatusHost σ] {m : Move} (hm : b.Makes m b') :
    controlsRead b'.log = controlsRead b.log ++ m.event?.toList := by
  rw [← controlsRead_deeds, ← controlsRead_deeds b.log]
  cases hm with
  | start => rw [deeds_start]; exact (List.append_nil _).symm
  | refuse | abandon => rw [deeds_refuse]; exact (List.append_nil _).symm
  | read =>
    rw [deeds_read, controlsRead_append]
    rfl
  | place | endStatuses => exact (List.append_nil _).symm
  | settle => rw [deeds_settle]; exact (List.append_nil _).symm
  | relay =>
    rw [deeds_relay, controlsRead_append]
    rfl
  | complete => rw [deeds_complete]; exact (List.append_nil _).symm
  | report =>
    rw [deeds_finish, controlsRead_append]
    rfl
  | release => rw [deeds_release]; exact (List.append_nil _).symm

/-- Only the bridge reads events. -/
theorem Happens.controlsRead {a : Action} (ha : b.Happens a b') :
    controlsRead b'.log = controlsRead b.log :=
  ha.filterMap_log fun h hh => by cases h <;> simp_all [Happening.isAnswer]

/-- **While a request is under way nothing leaves the control link**, whatever the next step. -/
theorem stands_of_holding [StatusHost σ] (hs : b.stage = .driving d)
    (hh : d.mailbox.isHolding = true) (s : Step) :
    b.control.items <+: (b.step s).control.items ∧
      controlsRead (b.step s).log = controlsRead b.log := by
  cases s with
  | act a =>
    have ha : b.Happens a (b.step (.act a)) := happens_act b a
    refine ⟨?_, ha.controlsRead⟩
    obtain heq | ⟨ticket, e, -, hmore⟩ := ha.control_items
    · exact heq ▸ List.prefix_rfl
    · exact hmore ▸ List.prefix_append _ _
  | move =>
    cases hnext : b.next? with
    | none =>
      rw [step, hnext]
      exact ⟨List.prefix_rfl, rfl⟩
    | some m =>
      have hmove := makes_perform hnext
      have hread := hmove.controlsRead
      simp only [step, hnext]
      obtain ⟨hsame, hnone⟩ | ⟨d', p, hs', hfree, -⟩ | ⟨hnot, -⟩ := hmove.control
      · rw [hnone, Option.toList_none, List.append_nil] at hread
        exact ⟨hsame ▸ List.prefix_rfl, hread⟩
      · obtain rfl := Stage.driving.inj (hs'.symm.trans hs)
        exact absurd (hfree.symm.trans hh) (by simp)
      · exact absurd hs (hnot d)

/-! ## Senders that are done -/

@[simp] theorem controlsSent_publish (b : Bridge σ) (e : Event) :
    controlsSent (b.publish e).log = controlsSent b.log :=
  (controlsSent_append _ _).trans (List.append_nil _)

@[simp] theorem controlsSent_leave (b : Bridge σ) (d : Driving) (exit : ExitCode) (left : Bool) :
    controlsSent (b.leave d exit left).log = controlsSent b.log := by
  simp [leave, controlsSent]

theorem controlsSent_news (told : List Event) (refused : List Nat) :
    controlsSent (news told refused) = [] := filterMap_news (fun _ => rfl) (fun _ _ => rfl) told refused

/-- The sender of an event that is read is done with it, if it still waits. -/
theorem controlsSent_read (b : Bridge σ) (d : Driving) (p : Placed ControlEvent) :
    controlsSent (b.read d p).log =
      controlsSent b.log ++ if p.awaited then [(p.ticket, .taken)] else [] := by
  obtain ⟨told, refused, hlog⟩ := b.read_log d p
  rw [hlog, controlsSent_append, controlsSent_append, controlsSent_news, List.append_nil]
  cases p.awaited <;> rfl

theorem controlsSent_relay [StatusHost σ] (b : Bridge σ) (d : Driving) (p : Placed Status) :
    controlsSent (b.relay d p).log = controlsSent b.log := by
  obtain ⟨told, refused, hlog⟩ := b.relay_log d p
  rw [hlog, controlsSent_append, controlsSent_append, controlsSent_append, controlsSent_news]
  cases p.awaited <;> simp [controlsSent]

/-- What the senders on the control link are told when the bridge gives something back. -/
def refusals (b : Bridge σ) : Release → List (Nat × SendResult)
  | .closeControl => b.control.unfinished.map (·, .closed)
  | .deregister | .announce | .signal => []

theorem controlsSent_release (b : Bridge σ) (ending : Ending) (next : Release) :
    controlsSent (b.release ending next).log = controlsSent b.log ++ b.refusals next := by
  cases next with
  | closeControl =>
    refine (controlsSent_append _ _).trans (congrArg (controlsSent b.log ++ ·) ?_)
    rw [controlsSent, List.filterMap_map]
    exact congrFun List.filterMap_eq_map b.control.unfinished
  | announce => exact (controlsSent_publish _ _).trans (List.append_nil _).symm
  | deregister | signal => exact (List.append_nil _).symm

/-- What the senders on the control link are told by a move. -/
def Move.answers (b : Bridge σ) : Move → List (Nat × SendResult)
  | .read p => if p.awaited then [(p.ticket, .taken)] else []
  | .release =>
    match b.stage with
    | .releasing _ next => b.refusals next
    | _ => []
  | _ => []

/-- A sender is told that its event was read, or that the link is closed, and nothing else. -/
theorem Makes.controlsSent [StatusHost σ] {m : Move} (hm : b.Makes m b') :
    controlsSent b'.log = controlsSent b.log ++ m.answers b := by
  cases hm with
  | start =>
    refine ((controlsSent_publish _ _).trans (controlsSent_publish _ _)).trans ?_
    exact (List.append_nil _).symm
  | refuse | abandon => exact (controlsSent_publish _ _).trans (List.append_nil _).symm
  | read => exact controlsSent_read _ _ _
  | place | endStatuses => exact (List.append_nil _).symm
  | @settle d c r =>
    cases r <;> exact (controlsSent_publish _ _).trans (List.append_nil _).symm
  | relay => exact (controlsSent_relay _ _ _).trans (List.append_nil _).symm
  | complete =>
    refine ((controlsSent_leave _ _ _ _).trans (controlsSent_publish _ _)).trans ?_
    exact (List.append_nil _).symm
  | report => exact (controlsSent_publish _ _).trans (controlsSent_append _ _)
  | release hs =>
    rw [controlsSent_release, Move.answers, hs]

/-- The senders on the control link whose event was taken, in order. -/
def sendersTaken (log : List Happening) : List Nat :=
  log.filterMap fun | .controlSent t .taken => some t | _ => none

/-- They are among the senders that are done. -/
theorem sendersTaken_eq (log : List Happening) : sendersTaken log =
    (controlsSent log).filterMap fun | (t, .taken) => some t | (_, .closed) => none := by
  rw [controlsSent, List.filterMap_filterMap]
  refine congrArg (List.filterMap · log) (funext fun h => ?_)
  cases h with
  | controlSent t r => cases r <;> rfl
  | _ => rfl

/-- The senders that are told by a move that their event was taken. -/
def Move.senders : Move → List Nat
  | .read p => if p.awaited then [p.ticket] else []
  | _ => []

/-- Only a reading move tells a sender that its event was taken. -/
theorem Makes.sendersTaken [StatusHost σ] {m : Move} (hm : b.Makes m b') :
    sendersTaken b'.log = sendersTaken b.log ++ m.senders := by
  rw [sendersTaken_eq, sendersTaken_eq b.log, hm.controlsSent, List.filterMap_append]
  refine congrArg (_ ++ ·) ?_
  cases m with
  | read p => cases hp : p.awaited <;> simp [Move.answers, Move.senders, hp]
  | release =>
    obtain ⟨ending, next, hs⟩ : ∃ ending next, b.stage = .releasing ending next := by
      cases hm with
      | release hs => exact ⟨_, _, hs⟩
    cases next <;> simp [Move.answers, Move.senders, Bridge.refusals, hs]
  | _ => rfl

/-- **A sender is done with an event only when the event was read.** -/
theorem length_sendersTaken [StatusHost σ] (name handlerName : String) (context : Context)
    (host : σ) (history : List Step) :
    (sendersTaken ((fresh name handlerName context host).after history).log).length ≤
      (controlsRead ((fresh name handlerName context host).after history).log).length := by
  refine invariant_after (P := fun _ _ (b : Bridge σ) =>
    (sendersTaken b.log).length ≤ (controlsRead b.log).length) ?_ ?_ ?_ history
  · intro as ms m b b' h hm
    have hmove : m.senders.length ≤ m.event?.toList.length := by
      cases m with
      | read p => cases hp : p.awaited <;> simp [Move.senders, Move.event?, hp]
      | _ => exact Nat.zero_le _
    rw [hm.controlsRead, hm.sendersTaken, List.length_append, List.length_append]
    exact Nat.add_le_add h hmove
  · intro as ms a b b' h ha
    have hsame : sendersTaken b'.log = sendersTaken b.log := by
      refine ha.filterMap_log fun h hh => ?_
      unfold Happening.isAnswer at hh
      split at hh <;> first | rfl | cases hh
    rw [hsame, ha.controlsRead]
    exact h
  · exact Nat.le_refl 0

/-! ## One request at a time -/

/-- **One request at a time.**  In every state of every run, whatever the order of the steps: the
requests made are those the handler took, those announced as dropped, and at most one more; the
handler's link has at most one, and each was put there once; while a request is under way the next
step, whatever it is, leaves all that is on the control link; and the senders of control events that
are done are at most one more than the requests taken or dropped. -/
theorem one_request_at_a_time [StatusHost σ] (name handlerName : String) (context : Context)
    (host : σ) (history : List Step) :
    let b := (fresh name handlerName context host).after history
    let ms := (fresh name handlerName context host).moves history
    let dropped := Event.commandsOf .requestDropped (events b.log)
    (∃ lost unresolved, requestsMade .stopped b.log =
        requestsDelivered b.log ++ lost ++ unresolved ∧
      dropped = lost.map (·.command) ∧ unresolved.length ≤ 1) ∧
    b.requests.items.length ≤ 1 ∧
    offered ms <+: requestsMade .stopped b.log ∧
    (∀ d, b.stage = .driving d → d.mailbox.isHolding = true → ∀ s,
      b.control.items <+: (b.step s).control.items ∧
        controlsRead (b.step s).log = controlsRead b.log) ∧
    (sendersTaken b.log).length ≤ (requestsDelivered b.log).length + dropped.length + 1 := by
  intro b ms dropped
  obtain ⟨lost, rest, ⟨all, hdropped, single⟩, -⟩ : Settles b :=
    settles_after name handlerName context host history
  have hlink : b.requests.items.length ≤ 1 := by
    have hline : b.requests.line = [] :=
      (balanced_after name handlerName context host history).noLine
    rw [Link.items, hline]
    cases b.requests.slot <;> simp
  have hsenders : (sendersTaken b.log).length ≤
      (requestsDelivered b.log).length + dropped.length + 1 := by
    have hread : (sendersTaken b.log).length ≤ (controlsRead b.log).length :=
      length_sendersTaken name handlerName context host history
    have hlost : dropped.length = lost.length := by
      rw [← List.length_map (f := Request.command)]
      exact congrArg List.length hdropped
    have hmade : (requestsMade .stopped b.log).length =
        (requestsDelivered b.log).length + lost.length + rest.length := by
      rw [← List.length_append, ← List.length_append]
      exact congrArg List.length all
    have hflagged : rest.length + (flaggedRead b.log).length ≤ 1 := single
    rw [length_controlsRead .stopped] at hread
    omega
  exact ⟨⟨lost, rest, all, hdropped, Nat.le_trans (Nat.le_add_right _ _) single⟩, hlink,
    (offers_after name handlerName context host history).begins,
    fun d hs hh s => stands_of_holding hs hh s, hsenders⟩

/-- Three senders call, and the handler listens to none of them. -/
def threeCalls : List Step :=
  [.act (.store (.ok ⟨1, ["svc"]⟩)), .act .announce, .move, .act .cloneControl, .act .cloneControl,
    .act (.offerControl 1 ⟨.stop, 0, 0, 0, none⟩), .act (.offerControl 2 ⟨.pause, 0, 0, 0, none⟩),
    .act (.offerControl 3 ⟨.interrogate, 0, 0, 0, none⟩), .move, .act .enterControl, .move, .move]

/-- One sender is done, and the others wait until its request is taken. -/
theorem held_up :
    let b := (fresh "svc" "handler" 0 (ScriptedHost.mk [] 0)).after threeCalls
    b.stage = .driving ⟨1, .holding .stop .placed, .stopped, true⟩ ∧
    sendersTaken b.log = [1] ∧ requestsDelivered b.log = [] ∧
    b.control.items = [⟨.pause, 0, 0, 0, none⟩, ⟨.interrogate, 0, 0, 0, none⟩] ∧
    ∀ s, b.control.items <+: (b.step s).control.items := by
  intro b
  have hstage : b.stage = .driving ⟨1, .holding .stop .placed, .stopped, true⟩ := rfl
  refine ⟨hstage, rfl, rfl, rfl, fun s => ?_⟩
  exact ((one_request_at_a_time "svc" "handler" 0 (ScriptedHost.mk [] 0) threeCalls).2.2.2.1 _
    hstage rfl s).1

end Bridge

end Steward

import Steward.Proofs.Bridge.Pass

/-!
# Proofs/Bridge/Desertion — after a handler has given up its requests

When a handler gives up its requests while it runs, the bridge goes on to read control events, and drops
each of them.  It finds out with the next request it has under way: that may have been put onto the
handler's link before or not, and there may be none yet.  From the loss on no request waits for the
handler (`Deserted`).

* `Deserted.after` — a handler does not get its requests back.
* `Deserted.answers_after` — every command received is told of as dropped, in order, and none is delivered.
  Only the end of the run may come before the last of this, and only if the request was given up, or
  taken, after the bridge had looked at it for the last time.
-/

namespace Steward

/-- The command of a request that was taken, until that is told of. -/
def Mailbox.untold : Mailbox → List Command
  | .holding command (.resolved .taken) => [command]
  | _ => []

/-- An empty mailbox has nothing to tell of. -/
theorem Mailbox.untold_of_not_holding {m : Mailbox} (h : m.isHolding = false) : m.untold = [] := by
  cases m with
  | awaiting | detached => rfl
  | holding => cases h

/-- The command received that is not told of as dropped yet. -/
def Stage.owed : Stage → List Command
  | .driving d => d.mailbox.unresolved
  | _ => []

/-- The command of the request taken that is not told of as delivered yet. -/
def Stage.untold : Stage → List Command
  | .driving d => d.mailbox.untold
  | _ => []

namespace Bridge

variable {σ : Type} {b b' b'' : Bridge σ} {d : Driving}

/-- No request waits for the handler, nor ever will. -/
structure Deserted (b : Bridge σ) : Prop where
  begun : b.stage ≠ .waiting
  shut : b.requests.Shut
  unplaced : ∀ d c, b.stage = .driving d → d.mailbox ≠ .holding c .placed

/-! ## Once deserted -/

/-- Once it is resolved, no request is on the handler's link. -/
theorem Stage.resolved_not_placed (stage : Stage) (r : SendResult) {c : Command}
    (hs : resolved stage r = .driving d) : d.mailbox ≠ .holding c .placed := by
  unfold resolved at hs
  split at hs
  · split at hs
    · obtain rfl := Stage.driving.inj hs
      simp
    · rename_i hnot
      obtain rfl := Stage.driving.inj hs
      exact hnot c
  · rename_i hnot
    exact absurd hs (hnot d)

/-- A handler that gives up its requests deserts the bridge. -/
theorem deserted_of_drop (hb : b.stage ≠ .waiting) : b.dropRequests.Deserted where
  begun hw := by
    rw [dropRequests_stage] at hw
    cases hs : b.stage with
    | waiting => exact hb hs
    | driving d =>
      obtain ⟨m, hm⟩ := Stage.resolved_driving d .closed
      cases hm.symm.trans (hs ▸ hw)
    | finishing | releasing | ended =>
      rw [hs] at hw
      cases hw
  shut := by
    rw [dropRequests_requests]
    exact b.requests.shut_close
  unplaced d c hs := by
    rw [dropRequests_stage] at hs
    exact Stage.resolved_not_placed b.stage .closed hs

theorem Deserted.of_goesOn {d' : Driving} (h : b.Deserted) (hg : b.GoesOn d' b')
    (hm : ∀ c, d'.mailbox ≠ .holding c .placed) : b'.Deserted where
  begun hw := by cases hg.stage.symm.trans hw
  shut := hg.requests ▸ h.shut
  unplaced d'' c hs := by
    obtain rfl := Stage.driving.inj (hg.stage.symm.trans hs)
    exact hm c

theorem Deserted.of_cutsOff {exit : ExitCode} {left : Bool} (h : b.Deserted)
    (hc : b.CutsOff d exit left b') : b'.Deserted where
  begun hw := by cases hc.stage.symm.trans hw
  shut := by
    have hshut := h.shut.cancel 0
    rw [hc.requests]
    exact ⟨hshut.closed, hshut.slot, hshut.line⟩
  unplaced d' c hs := by cases hc.stage.symm.trans hs

/-- To put a request onto the link of a handler that takes none is to resolve it. -/
theorem goesOn_place (h : b.requests.Shut) (c : Command) (r : Request) :
    b.GoesOn { d with mailbox := .holding c (.resolved .closed) } (b.place d c r) where
  stage := by
    unfold place
    rw [h.closed]
    rfl
  requests := h.send _
  handler := rfl
  lent := rfl

/-- **A move leaves the bridge deserted.** -/
theorem Deserted.makes [StatusHost σ] {m : Move} (h : b.Deserted) (hm : b.Makes m b') :
    b'.Deserted := by
  cases hm with
  | start hw | refuse hw | abandon hw => exact absurd hw h.begun
  | @read d p hs hfree =>
    cases he : p.item.error with
    | some code => exact h.of_cutsOff (cutsOff_read he)
    | none =>
      cases hmail : d.mailbox with
      | holding => simp [hmail, Mailbox.isHolding] at hfree
      | detached => exact h.of_goesOn (goesOn_read_detached hs hmail he) (by simp [hmail])
      | awaiting => exact h.of_goesOn (goesOn_read_awaiting hmail he) (by simp)
  | place => exact h.of_goesOn (goesOn_place h.shut _ _) (by simp)
  | @settle d c r =>
    cases r with
    | taken => exact h.of_goesOn (goesOn_settle_taken c) (by simp)
    | closed => exact h.of_goesOn (goesOn_settle_closed c) (by simp)
  | @relay d p hs =>
    cases hr : (StatusHost.report b.host d.handle (Record.ofStatus p.item .success)).2 with
    | ok => exact h.of_goesOn (goesOn_relay hr) (h.unplaced d · hs)
    | error e => exact h.of_cutsOff (cutsOff_relay hr)
  | @endStatuses d hs => exact h.of_goesOn ⟨rfl, rfl, rfl, rfl⟩ (h.unplaced d · hs)
  | complete => exact h.of_cutsOff (cutsOff_complete _)
  | report => exact ⟨Stage.noConfusion, h.shut, fun _ _ hs => by cases hs⟩
  | @release ending next =>
    cases next <;> exact ⟨Stage.noConfusion, h.shut, fun _ _ hs => by cases hs⟩

/-- No request is on the handler's link to be resolved. -/
theorem Deserted.stage (h : b.Deserted) (hm : b.Meets b') : b'.stage = b.stage := by
  by_cases hd : ∃ d, b.stage = .driving d
  · obtain ⟨d, hs⟩ := hd
    obtain hs' | ⟨c, r, hplaced, -⟩ := hm.mailbox hs
    · exact hs'.trans hs.symm
    · exact absurd hplaced (h.unplaced d c hs)
  · exact hm.stage fun d hs => hd ⟨d, hs⟩

/-- **Nor does anything else bring requests back to the handler.** -/
theorem Deserted.meets (h : b.Deserted) (hm : b.Meets b') : b'.Deserted where
  begun := h.stage hm ▸ h.begun
  shut := by
    cases hm with
    | aside _ requests | outlived _ _ _ _ requests => exact requests ▸ h.shut
    | take ht hp => cases h.shut.slot.symm.trans hp
    | dropRequests =>
      rw [dropRequests_requests]
      exact b.requests.shut_close
    | finish c hr hl =>
      rw [finishHandler_requests hl]
      exact b.requests.shut_close
  unplaced := h.stage hm ▸ h.unplaced

theorem Deserted.after [StatusHost σ] (h : b.Deserted) (later : List Step) :
    (b.after later).Deserted :=
  state_invariant_after (fun h hm => h.makes hm) (fun h hm => h.meets hm) h later

/-- A bridge with nothing to do for the mailbox has none under way. -/
theorem Deserted.free (h : b.Deserted) (hs : b.stage = .driving d) (hm : b.mailboxMove? d = none) :
    d.mailbox.isHolding = false := by
  cases hmail : d.mailbox with
  | awaiting | detached => rfl
  | holding c delivery =>
    cases delivery with
    | fresh r | resolved r => simp [mailboxMove?, hmail] at hm
    | placed => exact absurd hmail (h.unplaced d c hs)

/-! ## Every command is answered -/

/-- The commands of the events that are not flagged. -/
def unflagged (es : List ControlEvent) : List Command :=
  (es.filter (·.error.isNone)).map (·.command)

/-- From one state to another these commands were received: each is told of as dropped, or is still to be,
in order, and nothing is told of as delivered but what was taken before.  What is in the mailbox `left` is
told of no more. -/
structure Tells (b : Bridge σ) (received : List Command) (left : Mailbox) (b' : Bridge σ) : Prop where
  dropped : Event.commandsOf .requestDropped (events b'.log) ++ b'.stage.owed ++ left.unresolved =
    Event.commandsOf .requestDropped (events b.log) ++ b.stage.owed ++ received
  delivered : Event.commandsOf .requestDelivered (events b'.log) ++ b'.stage.untold ++ left.untold =
    Event.commandsOf .requestDelivered (events b.log) ++ b.stage.untold

/-- From one state to another these events were read and answered, but for what was left in the mailbox when
the handler was cut off, and no request was taken. -/
structure Answers (b : Bridge σ) (es : List ControlEvent) (left : Mailbox) (b' : Bridge σ) : Prop where
  read : controlsRead b'.log = controlsRead b.log ++ es
  taken : requestsDelivered b'.log = requestsDelivered b.log
  tells : b.Tells (unflagged es) left b'

/-- Nothing is left in a mailbox that holds nothing. -/
theorem Tells.of_told {received : List Command} {left : Mailbox} (hleft : left.isHolding = false)
    (dropped : Event.commandsOf .requestDropped (events b'.log) ++ b'.stage.owed =
      Event.commandsOf .requestDropped (events b.log) ++ b.stage.owed ++ received)
    (delivered : Event.commandsOf .requestDelivered (events b'.log) ++ b'.stage.untold =
      Event.commandsOf .requestDelivered (events b.log) ++ b.stage.untold) : b.Tells received left b' where
  dropped := by rw [Mailbox.unresolved_of_not_holding hleft, List.append_nil, dropped]
  delivered := by rw [Mailbox.untold_of_not_holding hleft, List.append_nil, delivered]

/-- Nothing is told of commands. -/
theorem Tells.of_same (commands : ∀ kind, Event.commandsOf kind (events b'.log) =
      Event.commandsOf kind (events b.log))
    (owed : b'.stage.owed = b.stage.owed) (untold : b'.stage.untold = b.stage.untold) :
    b.Tells [] .awaiting b' :=
  .of_told rfl (by rw [commands, owed, List.append_nil]) (by rw [commands, untold])

/-- Nothing happens that concerns a command. -/
theorem Answers.of_same (read : controlsRead b'.log = controlsRead b.log)
    (taken : requestsDelivered b'.log = requestsDelivered b.log) (tells : b.Tells [] .awaiting b') :
    b.Answers [] .awaiting b' := ⟨read.trans (List.append_nil _).symm, taken, tells⟩

theorem Answers.refl (b : Bridge σ) : b.Answers [] .awaiting b :=
  .of_same rfl rfl (.of_same (fun _ => rfl) rfl rfl)

/-- As long as nothing is left out more can be answered. -/
theorem Answers.trans {es es' : List ControlEvent} {left left' : Mailbox} (h : b.Answers es left b')
    (hleft : left.isHolding = false) (h' : b'.Answers es' left' b'') :
    b.Answers (es ++ es') left' b'' where
  read := by rw [h'.read, h.read, List.append_assoc]
  taken := h'.taken.trans h.taken
  tells := by
    have hdropped := h.tells.dropped
    have hdelivered := h.tells.delivered
    rw [Mailbox.unresolved_of_not_holding hleft, List.append_nil] at hdropped
    rw [Mailbox.untold_of_not_holding hleft, List.append_nil] at hdelivered
    constructor
    · rw [h'.tells.dropped, hdropped, List.append_assoc, unflagged, unflagged, unflagged,
        List.filter_append, List.map_append]
    · exact h'.tells.delivered.trans hdelivered

theorem Answers.of_quiet {es : List ControlEvent} {left : Mailbox} (h : b.Answers es left b')
    (hleft : left.isHolding = false) : b.Answers es .awaiting b' where
  read := h.read
  taken := h.taken
  tells := by
    have hdropped := h.tells.dropped
    have hdelivered := h.tells.delivered
    rw [Mailbox.unresolved_of_not_holding hleft] at hdropped
    rw [Mailbox.untold_of_not_holding hleft] at hdelivered
    exact ⟨hdropped, hdelivered⟩

/-- What is left out stays so. -/
theorem Answers.still {es : List ControlEvent} {left : Mailbox} (h : b.Answers es left b')
    (h' : b'.Answers [] .awaiting b'') : b.Answers es left b'' where
  read := by rw [h'.read, h.read, List.append_nil]
  taken := h'.taken.trans h.taken
  tells := by
    have hdropped := h'.tells.dropped
    have hdelivered := h'.tells.delivered
    rw [Mailbox.unresolved_of_not_holding rfl, List.append_nil] at hdropped
    rw [Mailbox.untold_of_not_holding rfl, List.append_nil] at hdelivered
    have hnone : unflagged [] = [] := rfl
    rw [hnone, List.append_nil] at hdropped
    exact ⟨hdropped ▸ h.tells.dropped, hdelivered ▸ h.tells.delivered⟩

/-- The handler takes requests, not the bridge. -/
theorem Makes.requestsDelivered [StatusHost σ] {m : Move} (hm : b.Makes m b') :
    requestsDelivered b'.log = requestsDelivered b.log := by
  rw [← requestsDelivered_deeds, ← requestsDelivered_deeds b.log]
  cases hm with
  | start => rw [deeds_start]
  | refuse | abandon => rw [deeds_refuse]
  | read => rw [deeds_read, requestsDelivered_append]; exact List.append_nil _
  | place | endStatuses => rfl
  | settle => rw [deeds_settle]
  | relay => rw [deeds_relay, requestsDelivered_append]; exact List.append_nil _
  | complete => rw [deeds_complete]
  | report => rw [deeds_finish, requestsDelivered_append]; exact List.append_nil _
  | release => rw [deeds_release]

/-- To read an event with nothing under way is to answer it, or to owe the answer. -/
theorem tells_read (hs : b.stage = .driving d) (hfree : d.mailbox.isHolding = false)
    (p : Placed ControlEvent) : b.Tells (unflagged [p.item]) .awaiting (b.read d p) := by
  have howed : b.stage.owed = [] := by rw [hs]; exact Mailbox.unresolved_of_not_holding hfree
  have huntold : b.stage.untold = [] := by rw [hs]; exact Mailbox.untold_of_not_holding hfree
  cases he : p.item.error with
  | some code =>
    have hstage := (cutsOff_read (b := b) (d := d) he).stage
    have hnobody : unflagged [p.item] = [] := by simp [unflagged, he]
    rw [hnobody]
    refine .of_same (fun kind => ?_) (by rw [hstage, howed]; rfl) (by rw [hstage, huntold]; rfl)
    rw [events_read_flagged b he]
    exact Event.commandsOf_append_of_none kind _ (List.forall_mem_singleton.mpr rfl)
  | none =>
    have hone : unflagged [p.item] = [p.item.command] := by simp [unflagged, he]
    cases hmail : d.mailbox with
    | holding => simp [hmail, Mailbox.isHolding] at hfree
    | detached =>
      have hstage := (goesOn_read_detached hs hmail he).stage.trans hs.symm
      refine .of_told rfl ?_ ?_ <;> rw [events_read_detached b hmail he, hstage,
        Event.commandsOf_append, Event.commandsOf_cons, Event.commandsOf_one, Event.commandsOf_one]
      · rw [howed, hone]
        simp
      · simp
    | awaiting =>
      have hstage := (goesOn_read_awaiting (b := b) hmail he).stage
      refine .of_told rfl ?_ ?_ <;> rw [events_read_awaiting b hmail he, hstage,
        Event.commandsOf_append, Event.commandsOf_one]
      · rw [howed, hone]
        simp [Stage.owed, Mailbox.unresolved]
      · rw [huntold]
        simp [Stage.untold, Mailbox.untold]

/-- The end of the request under way is told of, in the one way or the other. -/
theorem tells_settle {c : Command} {r : SendResult} (hs : b.stage = .driving d)
    (hm : d.mailbox = .holding c (.resolved r)) : b.Tells [] .awaiting (b.settle d c r) := by
  cases r with
  | taken =>
    have hstage := (goesOn_settle_taken (b := b) (d := d) c).stage
    refine .of_told rfl ?_ ?_ <;>
      rw [events_settle_taken, hstage, Event.commandsOf_append, Event.commandsOf_one, hs]
    · simp [Stage.owed, hm, Mailbox.unresolved]
    · simp [Stage.untold, hm, Mailbox.untold]
  | closed =>
    have hstage := (goesOn_settle_closed (b := b) (d := d) c).stage
    refine .of_told rfl ?_ ?_ <;>
      rw [events_settle_closed, hstage, Event.commandsOf_append, Event.commandsOf_one, hs]
    · simp [Stage.owed, hm, Mailbox.unresolved]
    · simp [Stage.untold, hm, Mailbox.untold]

/-- When the handler is cut off what is in the mailbox is told of no more. -/
theorem Tells.of_cutsOff {exit : ExitCode} {left : Bool} (hs : b.stage = .driving d)
    (hc : b.CutsOff d exit left b')
    (commands : ∀ kind, Event.commandsOf kind (events b'.log) = Event.commandsOf kind (events b.log)) :
    b.Tells [] d.mailbox b' := by
  constructor <;> rw [commands, hc.stage, hs]
  · simp [Stage.owed]
  · simp [Stage.untold]

/-- The handler is cut off in the middle of a pass. -/
structure Breaks (b b' : Bridge σ) : Prop where
  driving : ∃ d, b.stage = .driving d
  arm : b.arm ≠ .mailbox
  ended : b'.stage.isOver = true

/-- **A move answers what it reads**, and takes no request; one that ends the run in the middle of a pass may
leave the request under way unanswered. -/
theorem Deserted.answers_move [StatusHost σ] {m : Move} (h : b.Deserted) (hm : b.Makes m b') :
    ∃ left, b.Answers m.event?.toList left b' ∧ (left.isHolding = true → b.Breaks b') := by
  have hquiet : b.Tells (unflagged m.event?.toList) .awaiting b' →
      ∃ left, b.Answers m.event?.toList left b' ∧ (left.isHolding = true → b.Breaks b') :=
    fun htells => ⟨.awaiting, ⟨hm.controlsRead, hm.requestsDelivered, htells⟩, nofun⟩
  have hcut : ∀ {d : Driving} {exit : ExitCode} {left : Bool}, b.stage = .driving d →
      b.CutsOff d exit left b' → m.event? = none →
      (∀ kind, Event.commandsOf kind (events b'.log) = Event.commandsOf kind (events b.log)) →
      (b.arm = .mailbox → b.mailboxMove? d = none) →
      ∃ left, b.Answers m.event?.toList left b' ∧ (left.isHolding = true → b.Breaks b') := by
    intro d exit left hs hc hevent commands hnone
    have htells : b.Tells (unflagged m.event?.toList) d.mailbox b' := by
      rw [hevent]
      exact .of_cutsOff hs hc commands
    refine ⟨d.mailbox, ⟨hm.controlsRead, hm.requestsDelivered, htells⟩, fun hholding => ?_⟩
    refine ⟨⟨d, hs⟩, fun harm => ?_, by rw [hc.stage]; rfl⟩
    cases (h.free hs (hnone harm)).symm.trans hholding
  have hmove := hm
  cases hm with
  | start hw | refuse hw | abandon hw => exact absurd hw h.begun
  | read hs hfree => exact hquiet (tells_read hs hfree _)
  | @place d c r hs hm =>
    have hstage := (goesOn_place (d := d) h.shut c r).stage
    refine hquiet (.of_same (fun _ => rfl) ?_ ?_)
    · rw [hstage, hs, Stage.owed, Stage.owed, hm]
      rfl
    · rw [hstage, hs, Stage.untold, Stage.untold, hm]
      rfl
  | settle hs hm => exact hquiet (tells_settle hs hm)
  | @relay d p hs hnone =>
    cases hr : (StatusHost.report b.host d.handle (Record.ofStatus p.item .success)).2 with
    | ok =>
      have hstage := (goesOn_relay hr).stage
      exact hquiet
        (.of_same (commandsOf_relay b d · p) (by rw [hstage, hs]; rfl) (by rw [hstage, hs]; rfl))
    | error e =>
      exact hcut hs (cutsOff_relay hr) rfl (commandsOf_relay b d · p)
        fun harm => hnone (by rw [harm]; nofun)
  | endStatuses hs => exact hquiet (.of_same (fun _ => rfl) (by rw [hs]; rfl) (by rw [hs]; rfl))
  | @complete d c hs hnone => exact hcut hs (cutsOff_complete c) rfl (commandsOf_complete b d · c) hnone
  | @report handle exit left hs =>
    exact hquiet (.of_same (commandsOf_finish b · handle exit left) (by rw [hs]; rfl) (by rw [hs]; rfl))
  | @release ending next hs =>
    refine hquiet (.of_same (commandsOf_release b · ending next) ?_ ?_)
    · rw [hs]
      cases next <;> rfl
    · rw [hs]
      cases next <;> rfl

/-- **What happens between the moves answers nothing**, and no request is taken. -/
theorem Deserted.answers_act {a : Action} (h : b.Deserted) (ha : b.Happens a b') :
    b.Answers [] .awaiting b' := by
  have hstage := h.stage ha.meets
  refine .of_same ha.controlsRead ?_ (.of_same (fun kind => by rw [ha.events]) (by rw [hstage])
    (by rw [hstage]))
  rw [← requestsDelivered_deeds, ← requestsDelivered_deeds b.log]
  cases ha.meets with
  | aside _ _ _ _ deeds | outlived _ _ _ _ _ _ deeds => rw [deeds]
  | take ht hp => cases h.shut.slot.symm.trans hp
  | dropRequests => rw [dropRequests_log]
  | finish => rw [finishHandler_log]

/-- To give up the requests answers nothing either. -/
theorem answers_dropRequests (b : Bridge σ) : b.Answers [] .awaiting b.dropRequests := by
  have hlog := b.dropRequests_log
  have hstage : b.dropRequests.stage.owed = b.stage.owed ∧
      b.dropRequests.stage.untold = b.stage.untold := by
    rw [dropRequests_stage]
    unfold Stage.resolved
    split
    · split
      · simp [Stage.owed, Stage.untold, Mailbox.unresolved, Mailbox.untold, *]
      · exact ⟨rfl, rfl⟩
    · exact ⟨rfl, rfl⟩
  exact .of_same (by rw [hlog]) (by rw [hlog])
    (.of_same (fun kind => by rw [hlog]) hstage.1 hstage.2)

/-- Past the end of a run no event is read. -/
theorem Makes.event_of_over [StatusHost σ] {m : Move} (hm : b.Makes m b')
    (hover : b.stage.isOver = true) : m.event? = none := by
  cases hm with
  | read hs => exact absurd hs (not_driving_of_over hover _)
  | start | refuse | abandon | place | settle | relay | endStatuses | complete | report | release => rfl

/-- What a deserted bridge has answered along a history with these actions.  Nothing is left out unless the
run is over, and a look in vain was overtaken. -/
structure Answering (b : Bridge σ) (as : List Action) (b' : Bridge σ) : Prop where
  deserted : b'.Deserted
  answers : ∃ es left, b.Answers es left b' ∧
    (left.isHolding = true → b'.stage.isOver = true ∧ (b.arm = .mailbox → .pass ∈ as))
  arm : b.arm = .mailbox → .pass ∉ as → ∀ d, b'.stage = .driving d → b'.arm = .mailbox

theorem Answering.makes [StatusHost σ] {as : List Action} {m : Move} (h : b.Answering as b')
    (hm : b'.Makes m b'') : b.Answering as b'' where
  deserted := h.deserted.makes hm
  answers := by
    obtain ⟨es, left, hes, hleft⟩ := h.answers
    obtain ⟨left', hanswers, hbreaks⟩ := h.deserted.answers_move hm
    cases hholding : left.isHolding with
    | false =>
      refine ⟨_, left', hes.trans hholding hanswers, fun hholding' => ?_⟩
      obtain ⟨⟨d, hs⟩, hbehind, hover⟩ := hbreaks hholding'
      refine ⟨hover, fun harm => Classical.byContradiction fun hnone => ?_⟩
      exact hbehind (h.arm harm hnone d hs)
    | true =>
      obtain ⟨hover, hpass⟩ := hleft hholding
      have hquiet : left'.isHolding = false := by
        refine Bool.eq_false_iff.mpr fun hholding' => ?_
        obtain ⟨⟨d, hs⟩, -⟩ := hbreaks hholding'
        exact not_driving_of_over hover d hs
      rw [hm.event_of_over hover] at hanswers
      refine ⟨es, left, hes.still (hanswers.of_quiet hquiet), fun _ => ⟨?_, hpass⟩⟩
      exact (hm.refuses hover).past
  arm _ _ _ hs := hm.arm hs

theorem Answering.happens {as : List Action} {a : Action} (h : b.Answering as b')
    (ha : b'.Happens a b'') : b.Answering (as ++ [a]) b'' where
  deserted := h.deserted.meets ha.meets
  answers := by
    obtain ⟨es, left, hes, hleft⟩ := h.answers
    refine ⟨es, left, hes.still (h.deserted.answers_act ha), fun hholding => ?_⟩
    obtain ⟨hover, hpass⟩ := hleft hholding
    rw [h.deserted.stage ha.meets]
    exact ⟨hover, fun harm => List.mem_append_left _ (hpass harm)⟩
  arm harm hnone d hs := by
    rw [List.mem_append, not_or] at hnone
    rw [h.deserted.stage ha.meets] at hs
    obtain hsame | ⟨rfl, -⟩ := ha.arm
    · exact hsame.trans (h.arm harm hnone.1 d hs)
    · exact absurd (List.mem_singleton_self _) hnone.2

/-- **A deserted bridge answers every event it reads**, in order, and delivers none.  Only the end of the run
may leave the last one unanswered, and not if the bridge is never interrupted between two looks. -/
theorem Deserted.answers_after [StatusHost σ] (h : b.Deserted) (later : List Step) :
    ∃ es left, b.Answers es left (b.after later) ∧
      (left.isHolding = true →
        (b.after later).stage.isOver = true ∧ (b.arm = .mailbox → .pass ∈ acts later)) :=
  (invariant_after (P := fun as _ (b' : Bridge σ) => b.Answering as b') (fun h hm => h.makes hm)
    (fun h ha => h.happens ha)
    ⟨h, ⟨[], .awaiting, .refl b, nofun⟩, fun harm _ _ _ => harm⟩ later).answers

end Bridge

end Steward

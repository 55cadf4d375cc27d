import Steward.Proofs.Bridge.Moves
import Steward.Proofs.Link.Basic

/-!
# Proofs/Bridge/Actions — what happens between the moves of a bridge

Every action happens or leaves things as they are (`happens_act`).  Of all that happens only the
taking of a request, the loss of the request stream and the end of the handler touch what is between
the bridge and the handler (`Happens.meets`).  What it does to the control link and the status link is one of
a few things that can be done to any link (`Happens.undergoes_control`, `Happens.undergoes_updates`).
-/

namespace Steward.Bridge

variable {σ : Type}

/-! ## The parts of an action -/

/-- The stage when the request under way comes to its end, if it is on the handler's link. -/
def Stage.resolved (stage : Stage) (r : SendResult) : Stage :=
  match stage with
  | .driving d =>
    match d.mailbox with
    | .holding command .placed => .driving { d with mailbox := .holding command (.resolved r) }
    | _ => stage
  | _ => stage

/-- What is resolved is the request on the handler's link. -/
theorem Stage.resolved_placed {d : Driving} {c : Command} (hm : d.mailbox = .holding c .placed)
    (r : SendResult) :
    resolved (.driving d) r = .driving { d with mailbox := .holding c (.resolved r) } := by
  simp only [resolved, hm]

/-- Without a request on the handler's link nothing is resolved. -/
theorem Stage.resolved_unplaced {stage : Stage}
    (h : ∀ d c, stage = .driving d → d.mailbox ≠ .holding c .placed) (r : SendResult) :
    resolved stage r = stage := by
  unfold resolved
  split
  · split
    · exact absurd ‹_› (h _ _ rfl)
    · rfl
  · rfl

/-- Whether it is resolved or not, only the request under way changes. -/
theorem Stage.resolved_driving (d : Driving) (r : SendResult) :
    ∃ m, resolved (.driving d) r = .driving { d with mailbox := m } := by
  unfold resolved
  dsimp only
  split
  · exact ⟨_, rfl⟩
  · exact ⟨d.mailbox, rfl⟩

/-- What is resolved is the request on the handler's link, or nothing. -/
theorem Stage.resolved_cases (d : Driving) (r : SendResult) :
    resolved (.driving d) r = .driving d ∨ ∃ c, d.mailbox = .holding c .placed ∧
      resolved (.driving d) r = .driving { d with mailbox := .holding c (.resolved r) } := by
  unfold resolved
  dsimp only
  split
  · exact .inr ⟨_, ‹_›, rfl⟩
  · exact .inl rfl

/-- Nothing but the stage changes when a request is resolved. -/
theorem resolve_eq (b : Bridge σ) (r : SendResult) :
    b.resolve r = { b with stage := Stage.resolved b.stage r } := by
  by_cases hplaced : ∃ d c, b.stage = .driving d ∧ d.mailbox = .holding c .placed
  · obtain ⟨d, c, hs, hm⟩ := hplaced
    rw [hs, Stage.resolved_placed hm]
    simp only [resolve, hs, hm]
  · have hnot : ∀ d c, b.stage = .driving d → d.mailbox ≠ .holding c .placed :=
      fun d c hs hm => hplaced ⟨d, c, hs, hm⟩
    rw [Stage.resolved_unplaced hnot]
    unfold resolve
    split
    · split
      · exact absurd ‹_› (hnot _ _ ‹_›)
      · rfl
    · rfl

@[simp] theorem resolve_stage (b : Bridge σ) (r : SendResult) :
    (b.resolve r).stage = Stage.resolved b.stage r := by rw [resolve_eq]

@[simp] theorem resolve_log (b : Bridge σ) (r : SendResult) : (b.resolve r).log = b.log := by rw [resolve_eq]

@[simp] theorem resolve_requests (b : Bridge σ) (r : SendResult) :
    (b.resolve r).requests = b.requests := by rw [resolve_eq]

@[simp] theorem resolve_updates (b : Bridge σ) (r : SendResult) :
    (b.resolve r).updates = b.updates := by rw [resolve_eq]

@[simp] theorem resolve_handler (b : Bridge σ) (r : SendResult) :
    (b.resolve r).handler = b.handler := by rw [resolve_eq]

@[simp] theorem resolve_handshake (b : Bridge σ) (r : SendResult) :
    (b.resolve r).handshake = b.handshake := by rw [resolve_eq]

@[simp] theorem dropRequests_stage (b : Bridge σ) :
    b.dropRequests.stage = Stage.resolved b.stage .closed := resolve_stage _ _

@[simp] theorem dropRequests_log (b : Bridge σ) : b.dropRequests.log = b.log := resolve_log _ _

@[simp] theorem dropRequests_requests (b : Bridge σ) :
    b.dropRequests.requests = b.requests.close := resolve_requests _ _

@[simp] theorem dropRequests_updates (b : Bridge σ) : b.dropRequests.updates = b.updates :=
  resolve_updates _ _

@[simp] theorem dropRequests_handler (b : Bridge σ) : b.dropRequests.handler = b.handler :=
  resolve_handler _ _

theorem dropRequests_lent (b : Bridge σ) : b.dropRequests.lent = b.lent := by
  rw [dropRequests, resolve_eq]

theorem dropRequests_arm (b : Bridge σ) : b.dropRequests.arm = b.arm := by
  rw [dropRequests, resolve_eq]

@[simp] theorem dropRequests_handshake (b : Bridge σ) : b.dropRequests.handshake = b.handshake :=
  resolve_handshake _ _

/-- To give up the sending handle concerns the status link only. -/
theorem dropUpdates_eq (b : Bridge σ) :
    ∃ updates holds, b.dropUpdates = { b with updates := updates, holdsUpdates := holds } := by
  unfold dropUpdates
  split
  · exact ⟨_, _, rfl⟩
  · exact ⟨b.updates, b.holdsUpdates, rfl⟩

/-- What the handler gave to another task stays there. -/
theorem leaveRequests_of_lent {b : Bridge σ} (hl : b.lent = true) : b.leaveRequests = b := if_pos hl

theorem leaveRequests_of_kept {b : Bridge σ} (hl : b.lent = false) : b.leaveRequests = b.dropRequests :=
  if_neg (by simp [hl])

/-- What a handler that leaves its requests changes, if it still has them: the link, and the request under
way. -/
theorem leaveRequests_eq (b : Bridge σ) :
    ∃ requests stage, b.leaveRequests = { b with requests := requests, stage := stage } := by
  unfold leaveRequests
  split
  · exact ⟨b.requests, b.stage, rfl⟩
  · exact ⟨_, _, resolve_eq _ _⟩

/-- A handler that ends has left its requests; what else changes is on the status link. -/
theorem finishHandler_eq (b : Bridge σ) (c : Completion) :
    ∃ updates holds, b.finishHandler c =
      { b.leaveRequests with updates := updates, holdsUpdates := holds, handler := .ended c } := by
  obtain ⟨updates, holds, h⟩ := b.leaveRequests.dropUpdates_eq
  exact ⟨updates, holds, by rw [finishHandler, h]⟩

theorem finishHandler_stage {b : Bridge σ} (hl : b.lent = false) (c : Completion) :
    (b.finishHandler c).stage = Stage.resolved b.stage .closed := by
  obtain ⟨updates, holds, h⟩ := b.finishHandler_eq c
  rw [h, leaveRequests_of_kept hl]
  exact b.dropRequests_stage

theorem finishHandler_requests {b : Bridge σ} (hl : b.lent = false) (c : Completion) :
    (b.finishHandler c).requests = b.requests.close := by
  obtain ⟨updates, holds, h⟩ := b.finishHandler_eq c
  rw [h, leaveRequests_of_kept hl]
  exact b.dropRequests_requests

@[simp] theorem finishHandler_log (b : Bridge σ) (c : Completion) :
    (b.finishHandler c).log = b.log := by
  obtain ⟨updates, holds, h⟩ := b.finishHandler_eq c
  obtain ⟨requests, stage, hleft⟩ := b.leaveRequests_eq
  rw [h, hleft]

@[simp] theorem finishHandler_handshake (b : Bridge σ) (c : Completion) :
    (b.finishHandler c).handshake = b.handshake := by
  obtain ⟨updates, holds, h⟩ := b.finishHandler_eq c
  obtain ⟨requests, stage, hleft⟩ := b.leaveRequests_eq
  rw [h, hleft]

/-- What it is to take the request on the link. -/
theorem takeRequest_eq {b : Bridge σ} {p : Placed Request} (hp : b.requests.slot = some p) :
    b.takeRequest =
      ({ b with requests := b.requests.take }.note (.delivered p.item)).resolve .taken := by
  simp only [takeRequest, hp]

theorem takeRequest_stage {b : Bridge σ} {p : Placed Request} (hp : b.requests.slot = some p) :
    b.takeRequest.stage = Stage.resolved b.stage .taken := by
  rw [takeRequest_eq hp, resolve_stage]
  rfl

theorem takeRequest_requests {b : Bridge σ} {p : Placed Request}
    (hp : b.requests.slot = some p) : b.takeRequest.requests = b.requests.take := by
  rw [takeRequest_eq hp, resolve_requests]
  rfl

theorem takeRequest_updates (b : Bridge σ) : b.takeRequest.updates = b.updates := by
  unfold takeRequest
  split
  · exact resolve_updates _ _
  · rfl

theorem takeRequest_handler (b : Bridge σ) : b.takeRequest.handler = b.handler := by
  unfold takeRequest
  split
  · exact resolve_handler _ _
  · rfl

theorem takeRequest_lent (b : Bridge σ) : b.takeRequest.lent = b.lent := by
  unfold takeRequest
  split
  · rw [resolve_eq]
    rfl
  · rfl

theorem takeRequest_handshake (b : Bridge σ) : b.takeRequest.handshake = b.handshake := by
  unfold takeRequest
  split
  · exact resolve_handshake _ _
  · rfl

/-! ## What happens -/

/-- The running handler may have its requests. -/
theorem hasTaker_of_running {b : Bridge σ} (hr : b.handler = .running) : b.hasTaker = true := by
  simp [hasTaker, handlerRuns, hr]

/-- So may the task it gave them to. -/
theorem hasTaker_of_lent {b : Bridge σ} (hl : b.lent = true) : b.hasTaker = true := by
  simp [hasTaker, hl]

/-- Nobody else has them. -/
theorem hasTaker_iff {b : Bridge σ} : b.hasTaker = true ↔ b.handler = .running ∨ b.lent = true := by
  simp [hasTaker, handlerRuns]

/-- An action happens and leads to a new state: what each needs in order to happen.  One that cannot
happen leaves things as they are; an outcome can always be put down, also in vain. -/
inductive Happens (b : Bridge σ) : Action → Bridge σ → Prop where
  | idle {a : Action} (ha : ∀ o, a ≠ .store o) : Happens b a b
  | pass {d : Driving} (hs : b.stage = .driving d) (hm : b.armMove? d b.arm = none) :
      Happens b .pass { b with arm := b.arm.next }
  | store (o : Outcome) : Happens b (.store o) { b with handshake := (b.handshake.store o).1 }
  | announce (hs : b.handshake.isStored = true) :
      Happens b .announce { b with handshake := b.handshake.announce }
  | steal : Happens b .steal { b with handshake := b.handshake.poll.1 }
  | offerControl (ticket : Nat) (e : ControlEvent) (hc : b.canControl = true) :
      Happens b (.offerControl ticket e) (b.offerControl ticket e)
  | enterControl : Happens b .enterControl { b with control := b.control.enter }
  | cloneControl (hc : b.canControl = true) :
      Happens b .cloneControl { b with control := b.control.cloneOffer }
  | dropControl (hc : b.control.canDropOffer = true) :
      Happens b .dropControl { b with control := b.control.dropOffer }
  | offerStatus (ticket : Nat) (s : Status) (hc : b.canSend = true) :
      Happens b (.offerStatus ticket s) (b.offerStatus ticket s)
  | lineUpStatus (ticket : Nat) (s : Status) (hc : b.canSend = true) :
      Happens b (.lineUpStatus ticket s) (b.lineUpStatus ticket s)
  | enterStatus : Happens b .enterStatus { b with updates := b.updates.enter }
  | cancelStatus (ticket : Nat) :
      Happens b (.cancelStatus ticket) { b with updates := b.updates.cancel ticket }
  | cloneUpdates (hc : b.canSend = true) : Happens b .cloneUpdates
      { b with updates := b.updates.cloneOffer, clones := b.clones + 1 }
  | dropClone (hc : b.canDropHandle = true) : Happens b .dropClone
      { b with updates := b.updates.dropOffer, clones := b.clones - 1 }
  | lendRequests (hr : b.handler = .running) : Happens b .lendRequests { b with lent := true }
  | takeRequest {p : Placed Request} (ht : b.hasTaker = true) (hp : b.requests.slot = some p) :
      Happens b .takeRequest b.takeRequest
  | dropRequests (ht : b.hasTaker = true) : Happens b .dropRequests b.dropRequests
  | dropUpdates (hr : b.handler = .running) (hl : b.canLetGo = true) :
      Happens b .dropUpdates b.dropUpdates
  | finish (c : Completion) (hr : b.handler = .running) (hl : b.canLetGo = true) :
      Happens b (.finish c) (b.finishHandler c)

/-- What happens in a case distinction happens, or nothing does. -/
theorem happens_ite {b b' : Bridge σ} {a : Action} (ha : ∀ o, a ≠ .store o) {p : Prop}
    [Decidable p] (h : p → b.Happens a b') : b.Happens a (if p then b' else b) := by
  split
  · exact h ‹_›
  · exact .idle ha

/-- **Every action happens or leaves things as they are.** -/
theorem happens_act (b : Bridge σ) (a : Action) : b.Happens a (b.act a) := by
  have hruns : b.handlerRuns = true → b.handler = .running := fun h => by
    simpa [handlerRuns] using h
  have hfree : (b.handlerRuns && b.canLetGo) = true →
      b.handler = .running ∧ b.canLetGo = true := by
    intro h
    rw [Bool.and_eq_true] at h
    exact ⟨hruns h.1, h.2⟩
  cases a with
  | pass =>
    change b.Happens .pass b.pass
    unfold Bridge.pass
    split
    · exact happens_ite (by simp) (.pass ‹_›)
    · exact .idle (by simp)
  | store o => exact .store o
  | announce => exact happens_ite (by simp) .announce
  | steal => exact .steal
  | enterControl => exact .enterControl
  | enterStatus => exact .enterStatus
  | cancelStatus ticket => exact .cancelStatus ticket
  | offerControl ticket e => exact happens_ite (by simp) (.offerControl ticket e)
  | cloneControl => exact happens_ite (by simp) .cloneControl
  | dropControl => exact happens_ite (by simp) .dropControl
  | offerStatus ticket s => exact happens_ite (by simp) (.offerStatus ticket s)
  | lineUpStatus ticket s => exact happens_ite (by simp) (.lineUpStatus ticket s)
  | cloneUpdates => exact happens_ite (by simp) .cloneUpdates
  | dropClone =>
    refine happens_ite (by simp) fun h => .dropClone ?_
    rw [Bool.and_eq_true] at h
    exact h.2
  | lendRequests => exact happens_ite (by simp) fun h => .lendRequests (hruns h)
  | takeRequest =>
    refine happens_ite (by simp) fun h => ?_
    cases hp : b.requests.slot with
    | some p => exact .takeRequest h hp
    | none =>
      have hb : b.takeRequest = b := by simp [Bridge.takeRequest, hp]
      rw [hb]
      exact .idle (by simp)
  | dropRequests => exact happens_ite (by simp) .dropRequests
  | dropUpdates =>
    exact happens_ite (by simp) fun h => .dropUpdates (hfree h).1 (hfree h).2
  | finish c => exact happens_ite (by simp) fun h => .finish c (hfree h).1 (hfree h).2

/-- **What a run has from its start is left alone by all that happens**: its name, its id, the
startup arguments, its host and its registration. -/
theorem Happens.keeps {b b' : Bridge σ} {a : Action} (ha : b.Happens a b') :
    b'.name = b.name ∧ b'.context = b.context ∧ b'.args = b.args ∧ b'.host = b.host ∧
      b'.registered = b.registered := by
  cases ha with
  | idle | pass | store | announce | steal | offerControl | enterControl | cloneControl | dropControl |
    offerStatus | lineUpStatus | enterStatus | cancelStatus | cloneUpdates | dropClone | lendRequests =>
    exact ⟨rfl, rfl, rfl, rfl, rfl⟩
  | takeRequest hr hp =>
    rw [takeRequest_eq hp, resolve_eq]
    exact ⟨rfl, rfl, rfl, rfl, rfl⟩
  | dropRequests =>
    rw [Bridge.dropRequests, resolve_eq]
    exact ⟨rfl, rfl, rfl, rfl, rfl⟩
  | dropUpdates =>
    obtain ⟨updates, holds, h⟩ := b.dropUpdates_eq
    rw [h]
    exact ⟨rfl, rfl, rfl, rfl, rfl⟩
  | finish c =>
    obtain ⟨updates, holds, h⟩ := b.finishHandler_eq c
    obtain ⟨requests, stage, hleft⟩ := b.leaveRequests_eq
    rw [h, hleft]
    exact ⟨rfl, rfl, rfl, rfl, rfl⟩

/-- Something happens and leads to a new state.  Most actions are aside of what is between the bridge
and the handler; of the others each needs somebody who has the requests. -/
inductive Meets (b : Bridge σ) : Bridge σ → Prop where
  | aside {b' : Bridge σ} (stage : b'.stage = b.stage) (requests : b'.requests = b.requests)
      (handler : b'.handler = b.handler) (lent : b.lent = true → b'.lent = true)
      (deeds : deeds b'.log = deeds b.log) : Meets b b'
  | take {p : Placed Request} (ht : b.hasTaker = true) (hp : b.requests.slot = some p) :
      Meets b b.takeRequest
  | dropRequests (ht : b.hasTaker = true) : Meets b b.dropRequests
  | finish (c : Completion) (hr : b.handler = .running) (hl : b.lent = false) :
      Meets b (b.finishHandler c)
  /-- The handler ends, and another task has its requests. -/
  | outlived {b' : Bridge σ} (c : Completion) (hr : b.handler = .running) (hl : b'.lent = true)
      (stage : b'.stage = b.stage) (requests : b'.requests = b.requests)
      (handler : b'.handler = .ended c) (deeds : deeds b'.log = deeds b.log) : Meets b b'

/-- To take a request is one deed. -/
theorem deeds_takeRequest {b : Bridge σ} {p : Placed Request} (hp : b.requests.slot = some p) :
    deeds b.takeRequest.log = deeds b.log ++ [.delivered p.item] := by
  rw [takeRequest_eq hp, resolve_log, note, deeds_append]
  rfl

/-- Nothing at all is aside. -/
theorem Meets.refl (b : Bridge σ) : b.Meets b := .aside rfl rfl rfl id rfl

/-- A sender that is refused at once does no deed. -/
theorem deeds_append_refusal (log : List Happening) (refused : Bool) (ticket : Nat) :
    deeds (log ++ if refused then [.statusSent ticket .closed] else []) = deeds log := by
  cases refused <;> simp [deeds, Happening.isDeed]

/-- **An action is one of the five above.** -/
theorem Happens.meets {b b' : Bridge σ} {a : Action} (h : b.Happens a b') : b.Meets b' := by
  cases h with
  | idle => exact .refl b
  | pass | store | announce | steal | enterControl | enterStatus | cancelStatus | cloneControl | dropControl |
    cloneUpdates | dropClone => exact .aside rfl rfl rfl id rfl
  | lendRequests => exact .aside rfl rfl rfl (fun _ => rfl) rfl
  | offerControl ticket e =>
    refine .aside rfl rfl rfl id ?_
    simp only [Bridge.offerControl]
    split <;> simp [deeds, Happening.isDeed]
  | offerStatus | lineUpStatus => exact .aside rfl rfl rfl id (deeds_append_refusal _ _ _)
  | dropUpdates =>
    unfold Bridge.dropUpdates
    split
    · exact .aside rfl rfl rfl id rfl
    · exact .refl b
  | takeRequest ht hp => exact .take ht hp
  | dropRequests ht => exact .dropRequests ht
  | finish c hr =>
    cases hl : b.lent with
    | false => exact .finish c hr hl
    | true =>
      obtain ⟨updates, holds, h⟩ := b.finishHandler_eq c
      rw [leaveRequests_of_lent hl] at h
      rw [h]
      exact .outlived c hr hl rfl rfl rfl rfl

/-- A stage in which the handler is not driven changes by moves of the bridge only. -/
theorem Meets.stage {b b' : Bridge σ} (h : b.Meets b') (hs : ∀ d, b.stage ≠ .driving d) :
    b'.stage = b.stage := by
  have hresolved : ∀ r, Stage.resolved b.stage r = b.stage := by
    intro r
    exact Stage.resolved_unplaced (fun d c hd => absurd hd (hs d)) r
  cases h with
  | aside stage | outlived _ _ _ stage => exact stage
  | take ht hp => rw [takeRequest_stage hp, hresolved]
  | dropRequests => rw [dropRequests_stage, hresolved]
  | finish c hr hl => rw [finishHandler_stage hl, hresolved]

/-- While the handler is driven only the request under way changes. -/
theorem Meets.driving {b b' : Bridge σ} {d : Driving} (h : b.Meets b') (hs : b.stage = .driving d) :
    ∃ m, b'.stage = .driving { d with mailbox := m } := by
  cases h with
  | aside stage | outlived _ _ _ stage => exact ⟨d.mailbox, stage.trans hs⟩
  | take ht hp =>
    rw [takeRequest_stage hp, hs]
    exact Stage.resolved_driving d .taken
  | dropRequests =>
    rw [dropRequests_stage, hs]
    exact Stage.resolved_driving d .closed
  | finish c hr hl =>
    rw [finishHandler_stage hl, hs]
    exact Stage.resolved_driving d .closed

/-- A view of the stage that does not look at the request under way sees no action. -/
theorem Meets.stage_view {α : Type} (view : Stage → α)
    (hview : ∀ d m, view (.driving { d with mailbox := m }) = view (.driving d)) {b b' : Bridge σ}
    (h : b.Meets b') : view b'.stage = view b.stage := by
  by_cases hd : ∃ d, b.stage = .driving d
  · obtain ⟨d, hs⟩ := hd
    obtain ⟨m, hs'⟩ := h.driving hs
    rw [hs, hs', hview]
  · rw [h.stage fun d hs => hd ⟨d, hs⟩]

/-- Nobody but the bridge ends its waiting. -/
theorem Meets.waiting_iff {b b' : Bridge σ} (hm : b.Meets b') : b'.stage = .waiting ↔ b.stage = .waiting :=
  iff_of_eq (hm.stage_view (· = .waiting) fun _ _ => propext ⟨Stage.noConfusion, Stage.noConfusion⟩)

/-- While the handler is driven an action leaves the stage alone, or resolves the request on the
handler's link. -/
theorem Meets.mailbox {b b' : Bridge σ} {d : Driving} (h : b.Meets b') (hs : b.stage = .driving d) :
    b'.stage = .driving d ∨ ∃ c r, d.mailbox = .holding c .placed ∧
      b'.stage = .driving { d with mailbox := .holding c (.resolved r) } := by
  have hresolved : ∀ r, b'.stage = Stage.resolved b.stage r → b'.stage = .driving d ∨
      ∃ c r, d.mailbox = .holding c .placed ∧
        b'.stage = .driving { d with mailbox := .holding c (.resolved r) } := by
    intro r hs'
    rw [hs] at hs'
    obtain h | ⟨c, hm, h⟩ := Stage.resolved_cases d r
    · exact .inl (hs'.trans h)
    · exact .inr ⟨c, r, hm, hs'.trans h⟩
  cases h with
  | aside stage | outlived _ _ _ stage => exact .inl (stage.trans hs)
  | take ht hp => exact hresolved _ (takeRequest_stage hp)
  | dropRequests => exact hresolved _ (dropRequests_stage b)
  | finish c hr hl => exact hresolved _ (finishHandler_stage hl c)

/-! ## What happens to the links -/

/-- A sender comes to one of the links. -/
def Action.comes : Action → Bool
  | .offerControl _ _ | .offerStatus _ _ | .lineUpStatus _ _ => true
  | _ => false

theorem resolve_control (b : Bridge σ) (r : SendResult) : (b.resolve r).control = b.control := by
  rw [resolve_eq]

theorem dropUpdates_control (b : Bridge σ) : b.dropUpdates.control = b.control := by
  obtain ⟨updates, holds, h⟩ := b.dropUpdates_eq
  rw [h]

theorem finishHandler_control (b : Bridge σ) (c : Completion) :
    (b.finishHandler c).control = b.control := by
  obtain ⟨updates, holds, h⟩ := b.finishHandler_eq c
  obtain ⟨requests, stage, hleft⟩ := b.leaveRequests_eq
  rw [h, hleft]

/-- **What an action does to the control link.** -/
theorem Happens.undergoes_control {b b' : Bridge σ} {a : Action} (ha : b.Happens a b') :
    b.control.Undergoes a.comes b'.control := by
  have hsame : b'.control = b.control → b.control.Undergoes a.comes b'.control := fun hsame => hsame ▸ .still
  cases ha with
  | idle | pass | store | announce | steal | offerStatus | lineUpStatus | enterStatus | cancelStatus |
    cloneUpdates | dropClone | lendRequests => exact .still
  | offerControl ticket e hc => exact .send rfl (by simpa [canControl] using hc) _
  | enterControl => exact .enter
  | cloneControl hc => exact .cloneOffer (by simpa [canControl] using hc)
  | dropControl hc => exact .dropOffer hc
  | takeRequest ht hp => exact hsame (by rw [takeRequest_eq hp, resolve_control]; rfl)
  | dropRequests => exact hsame (resolve_control _ _)
  | dropUpdates => exact hsame (dropUpdates_control b)
  | finish c => exact hsame (b.finishHandler_control c)

/-- **What an action does to the status link.** -/
theorem Happens.undergoes_updates {b b' : Bridge σ} {a : Action} (ha : b.Happens a b') :
    b.updates.Undergoes a.comes b'.updates := by
  have hdropped : ∀ {b : Bridge σ}, b.canLetGo = true →
      b.updates.Undergoes a.comes b.dropUpdates.updates := by
    intro b hl
    unfold Bridge.dropUpdates
    split
    · rename_i hholds
      exact .dropOffer (by simpa [canLetGo, canDropHandle, hholds] using hl)
    · exact .still
  cases ha with
  | idle | pass | store | announce | steal | offerControl | enterControl | cloneControl | dropControl |
    lendRequests => exact .still
  | offerStatus ticket s hc => exact .send rfl (by simpa [canSend] using hc) _
  | lineUpStatus ticket s hc => exact .lineUp rfl (by simpa [canSend] using hc) _
  | enterStatus => exact .enter
  | cancelStatus ticket => exact .cancel ticket
  | cloneUpdates hc => exact .cloneOffer (by simpa [canSend] using hc)
  | dropClone hc => exact .dropOffer hc
  | takeRequest =>
    rw [takeRequest_updates]
    exact .still
  | dropRequests =>
    rw [dropRequests_updates]
    exact .still
  | dropUpdates hr hl => exact hdropped hl
  | finish c hr hl =>
    obtain ⟨requests, stage, hleft⟩ := b.leaveRequests_eq
    have hboth := hdropped (b := b.leaveRequests) (by rw [hleft]; exact hl)
    have hsame : b.leaveRequests.updates = b.updates := by rw [hleft]
    rwa [hsame] at hboth

end Steward.Bridge

import Steward.Bridge.Session.Round
import Steward.Proofs.Bridge.Run

/-!
# Proofs/Bridge/Session — what the scheduler does is a history

The scheduler decides who goes on, and for how long; what it has done to the bridge, whatever it
decided, are moves of the bridge and actions from outside.  So what holds after every history holds
after every round.

* `follows_settle` — when everybody has run until all have to wait, the bridge went through a history
  that left the outcome of the start to the bridge.
* `follows_round` — so it did in a round of operations that have nothing to do with that outcome.
-/

namespace Steward.Bridge

variable {σ : Type}

namespace Session

/-- The bridge went through a history in which nobody else had to do with the outcome of the
start. -/
def Follows [StatusHost σ] (s s' : Session σ) : Prop :=
  ∃ history, s'.bridge = s.bridge.after history ∧ ∀ a ∈ acts history, a.concernsStart = false

section Scheduler

variable [StatusHost σ] {s s₁ s₂ : Session σ}

/-- The scheduler did nothing to the bridge. -/
theorem Follows.of_eq (h : s₁.bridge = s.bridge) : s.Follows s₁ :=
  ⟨[], h, fun _ ha => nomatch ha⟩

theorem Follows.refl (s : Session σ) : s.Follows s := .of_eq rfl

theorem Follows.trans (h₁ : s.Follows s₁) (h₂ : s₁.Follows s₂) : s.Follows s₂ := by
  obtain ⟨before, hbefore, haside⟩ := h₁
  obtain ⟨later, hlater, haside'⟩ := h₂
  refine ⟨before ++ later, ?_, fun a ha => ?_⟩
  · rw [after_append, ← hbefore, hlater]
  · rw [acts_append, List.mem_append] at ha
    exact ha.elim (haside a) (haside' a)

/-- What the scheduler does beside the bridge may come after. -/
theorem Follows.congr (h : s.Follows s₁) (hb : s₂.bridge = s₁.bridge) : s.Follows s₂ :=
  h.trans (.of_eq hb)

/-- What the scheduler does beside the bridge may come before. -/
theorem Follows.of_aside (h : s₁.Follows s₂) (hb : s₁.bridge = s.bridge) : s.Follows s₂ :=
  (Follows.of_eq hb).trans h

/-- Either way of a case distinction. -/
theorem follows_ite {p : Prop} [Decidable p] (h₁ : s.Follows s₁) (h₂ : s.Follows s₂) :
    s.Follows (if p then s₁ else s₂) := by
  split
  · exact h₁
  · exact h₂

/-! ## What does not touch the bridge -/

omit [StatusHost σ] in
@[simp] theorem bridge_wakeBridge (s : Session σ) (listens : Bool) :
    (s.wakeBridge listens).bridge = s.bridge := by
  unfold wakeBridge
  split <;> rfl

omit [StatusHost σ] in
@[simp] theorem bridge_await (s : Session σ) (doing : Doing) : (s.await doing).bridge = s.bridge := by
  unfold await
  split <;> rfl

omit [StatusHost σ] in
@[simp] theorem bridge_awaitTaken (s : Session σ) (number : Nat) :
    (s.awaitTaken number).bridge = s.bridge := by
  unfold awaitTaken
  split
  · rfl
  · split
    · exact bridge_await _ _
    · rfl

omit [StatusHost σ] in
@[simp] theorem bridge_act (s : Session σ) (a : Action) : (s.act a).bridge = s.bridge.act a :=
  bridge_wakeBridge _ _

/-! ## One step -/

/-- An action that leaves the outcome of the start alone. -/
theorem follows_act (s : Session σ) {a : Action} (ha : a.concernsStart = false) :
    s.Follows (s.act a) := by
  refine ⟨[.act a], bridge_act s a, fun a' ha' => ?_⟩
  obtain rfl := List.mem_singleton.mp ha'
  exact ha

/-- A move of the bridge, and those it wakes. -/
theorem follows_move {m : Move} (hm : s.bridge.next? = some m) :
    s.Follows ({ s with bridge := s.bridge.perform m }.wakeAll (s.woken m)) := by
  refine ⟨[.move], ?_, fun a ha => nomatch ha⟩
  simp [after, step, hm]

/-! ## One turn -/

/-- A bridge that has to wait does nothing. -/
theorem runBridge_of_waits (h : s.bridge.next? = none) : s.runBridge = s := by
  rw [runBridge]
  split
  · rfl
  · rename_i hm
    cases h.symm.trans hm

/-- A bridge that can go on makes its move first. -/
theorem runBridge_of_move {m : Move} (h : s.bridge.next? = some m) :
    s.runBridge = ({ s with bridge := s.bridge.perform m }.wakeAll (s.woken m)).runBridge := by
  rw [runBridge]
  split
  · rename_i hm
    cases h.symm.trans hm
  · rename_i hm
    obtain rfl := Option.some.inj (h.symm.trans hm)
    rfl

/-- The bridge runs. -/
theorem follows_runBridge (s : Session σ) : s.Follows s.runBridge := by
  induction s using runBridge.induct with
  | case1 s hnone =>
    rw [runBridge, hnone]
    exact .refl s
  | case2 s m hm ih =>
    rw [runBridge]
    split
    · exact .refl s
    · rename_i m' hm'
      obtain rfl := Option.some.inj (hm'.symm.trans hm)
      exact (follows_move hm').trans ih

theorem follows_send (s : Session σ) (number : Nat) (st : Status) : s.Follows (s.send number st) := by
  refine follows_ite ?_ ?_
  · exact (s.follows_act (a := .lineUpStatus number st) rfl).congr rfl
  · exact (s.follows_act (a := .offerStatus number st) rfl).congr (bridge_awaitTaken _ _)

/-- The handler looks for a request; `pending` is what it does without one. -/
theorem follows_look (s : Session σ) (number : Nat) {pending : Session σ} (h : s.Follows pending) :
    s.Follows (s.look number pending) := by
  unfold look
  split
  · exact h
  · split
    · exact (s.spend.follows_act (a := .takeRequest) rfl).congr rfl
    · exact .of_eq rfl
    · exact h

theorem follows_begin (s : Session σ) (number : Nat) (step : HandlerStep) :
    s.Follows (s.begin number step) := by
  cases step with
  | receive =>
    exact follows_ite (.of_eq rfl) (s.follows_look number (.of_eq (bridge_await _ _)))
  | poll => exact follows_ite (.of_eq rfl) (s.follows_look number (.of_eq rfl))
  | send st => exact follows_ite (s.follows_send number st) (.of_eq rfl)
  | isClosed | hang => exact .of_eq rfl
  | dropRequests => exact (s.follows_act (a := .dropRequests) rfl).congr rfl
  | dropUpdates => exact (s.follows_act (a := .dropUpdates) rfl).congr rfl
  | exit e => exact (s.follows_act (a := .finish (.exited e)) rfl).congr rfl
  | panic p => exact (s.follows_act (a := .finish (.panicked p.message)) rfl).congr rfl

/-- The handler does steps. -/
theorem follows_runSteps (s : Session σ) (steps : List (Nat × HandlerStep)) :
    s.Follows (s.runSteps steps) := by
  induction steps generalizing s with
  | nil =>
    refine follows_ite (.of_eq rfl) (follows_ite (.of_eq rfl) ?_)
    exact (s.follows_act (a := .finish (.exited .success)) rfl).congr rfl
  | cons step rest ih =>
    have hbegin : s.Follows ({ s.spend with steps := rest }.begin step.1 step.2) :=
      (follows_begin _ _ _).of_aside rfl
    exact follows_ite (.of_eq rfl) (follows_ite (hbegin.trans (ih _)) hbegin)

/-- The handler runs. -/
theorem follows_runHandler (s : Session σ) : s.Follows s.runHandler := by
  suffices h : { s with share := Rota.allowance }.Follows s.runHandler from h.of_aside rfl
  have hlook : ∀ (s : Session σ) (number : Nat),
      s.Follows (s.look number (s.await (.receiving number))) :=
    fun s number => s.follows_look number (.of_eq (bridge_await _ _))
  unfold runHandler
  cases s.doing with
  | unstarted =>
    dsimp only
    split
    · exact ((follows_act _ (a := .cloneUpdates) rfl).congr rfl).trans (follows_runSteps _ _)
    · exact follows_runSteps _ _
  | idle =>
    dsimp only
    exact follows_runSteps _ _
  | receiving number =>
    dsimp only
    exact follows_ite ((hlook _ number).trans (follows_runSteps _ _)) (hlook _ number)
  | inLine number =>
    dsimp only
    split
    · exact (follows_runSteps _ _).of_aside rfl
    · refine follows_ite ?_ (.refl _)
      exact (follows_act _ (a := .enterStatus) rfl).congr (bridge_awaitTaken _ _)
  | sending number =>
    dsimp only
    split
    · exact (follows_runSteps _ _).of_aside rfl
    · exact .of_eq (bridge_await _ _)
  | hanging | ended =>
    dsimp only
    exact .refl _

theorem follows_retireControl (s : Session σ) (number : Nat) : s.Follows (s.retireControl number) :=
  follows_ite (s.follows_act rfl) (.refl s)

/-- A sender of a control event runs. -/
theorem follows_runControl (s : Session σ) (number : Nat) : s.Follows (s.runControl number) := by
  unfold runControl
  split
  · rename_i e he
    exact ((follows_act _ (a := .offerControl number e) rfl).trans
      (follows_retireControl _ _)).of_aside rfl
  · split
    · exact s.follows_act rfl
    · exact s.follows_retireControl number

theorem follows_retireAux (s : Session σ) (number : Nat) : s.Follows (s.retireAux number) :=
  follows_ite (s.follows_act rfl) (.refl s)

/-- A sender of a status runs. -/
theorem follows_runAux (s : Session σ) (number : Nat) : s.Follows (s.runAux number) := by
  unfold runAux
  split
  · rename_i st hst
    exact ((follows_act _ (a := .offerStatus number st) rfl).trans
      (follows_retireAux _ _)).of_aside rfl
  · split
    · exact s.follows_act rfl
    · exact s.follows_retireAux number

theorem follows_run (s : Session σ) (a : Actor) : s.Follows (s.run a) := by
  cases a with
  | bridge => exact s.follows_runBridge
  | handler => exact s.follows_runHandler
  | control number => exact s.follows_runControl number
  | aux number => exact s.follows_runAux number

/-! ## One round -/

theorem follows_runQueue (s : Session σ) (turns : Nat) : s.Follows (s.runQueue turns) := by
  induction turns generalizing s with
  | zero => exact .refl s
  | succ turns ih =>
    unfold runQueue
    split
    · exact .of_eq rfl
    · exact ((follows_run _ _).trans (ih _)).of_aside rfl

/-- **Everybody runs until all have to wait.** -/
theorem follows_settle (s : Session σ) : s.Follows s.settle := s.follows_runQueue s.turns

/-- A run with nobody on the rota is at rest. -/
theorem runQueue_of_rest (h : s.rota.next? = none) (turns : Nat) :
    s.runQueue (turns + 1) = { s with rota := .empty } := by
  rw [runQueue, h]

/-- If the bridge alone can run, it has the first turn. -/
theorem settle_of_woken (h : s.rota = Rota.empty.wake .bridge) :
    ∃ turns, s.settle =
      ({ s with rota := { Rota.empty with given := 1 } }.runBridge).runQueue (turns + 1) := by
  refine ⟨s.turns - 2, ?_⟩
  obtain ⟨t, ht⟩ : ∃ t, s.turns = t + 2 := ⟨s.turns - 2, by unfold turns; omega⟩
  rw [settle, ht, runQueue, h]
  rfl

/-- It has to do with the outcome of the start. -/
def Op.concernsStart : Op → Bool
  | .publish _ | .steal => true
  | _ => false

theorem follows_issue (s : Session σ) {op : Op} (h : op.concernsStart = false) :
    s.Follows (s.issue op).1 := by
  -- the session is the first component of either way, so each distinction is on a pair
  have hpair : ∀ {p : Prop} [Decidable p] {x y : Session σ × Answer}, s.Follows x.1 →
      s.Follows y.1 → s.Follows (if p then x else y).1 := by
    intro p _ x y hx hy
    split
    · exact hx
    · exact hy
  cases op with
  | publish | steal => cases h
  | start => exact hpair (.refl s) (.of_eq rfl)
  | control caller call =>
    exact hpair ((s.follows_act (a := .cloneControl) rfl).congr rfl) (.refl s)
  | closeControl => exact hpair ((follows_act _ rfl).of_aside rfl) (.refl s)
  | aux st => exact hpair ((s.follows_act (a := .cloneUpdates) rfl).congr rfl) (.refl s)
  | dropAux => exact hpair ((follows_act _ rfl).of_aside rfl) (.refl s)
  | endSteps => exact follows_ite (.of_eq rfl) (.of_eq rfl)
  | tell step => exact hpair (follows_ite (.of_eq rfl) (.of_eq rfl)) (.of_eq rfl)

theorem follows_issueAll (s : Session σ) {ops : List Op}
    (h : ∀ op ∈ ops, op.concernsStart = false) : s.Follows (s.issueAll ops).1 := by
  induction ops generalizing s with
  | nil => exact .refl s
  | cons op ops ih =>
    exact (s.follows_issue (h op List.mem_cons_self)).trans
      (ih _ fun op' hop => h op' (List.mem_cons_of_mem _ hop))

/-- **A round in which nobody has to do with the outcome of the start.** -/
theorem follows_round (s : Session σ) {ops : List Op} (h : ∀ op ∈ ops, op.concernsStart = false) :
    s.Follows (s.round ops).1 := (s.follows_issueAll h).trans (follows_settle _)

/-- A round in which an outcome is published. -/
theorem follows_round_publish (s : Session σ) (o : Outcome) :
    ((s.act (.store o)).act .announce).Follows (s.round [.publish o]).1 := follows_settle _

/-- Whatever is done, the bridge goes through a history. -/
theorem exists_history_issueAll (s : Session σ) (ops : List Op) :
    ∃ history, (s.issueAll ops).1.bridge = s.bridge.after history := by
  induction ops generalizing s with
  | nil => exact ⟨[], rfl⟩
  | cons op ops ih =>
    obtain ⟨later, hlater⟩ := ih (s.issue op).1
    obtain ⟨now, hnow⟩ : ∃ now, (s.issue op).1.bridge = s.bridge.after now := by
      cases hconcerns : op.concernsStart with
      | false =>
        obtain ⟨now, hnow, -⟩ := s.follows_issue hconcerns
        exact ⟨now, hnow⟩
      | true =>
        cases op with
        | publish o =>
          refine ⟨[.act (.store o), .act .announce], ?_⟩
          change ((s.act (.store o)).act .announce).bridge = _
          rw [bridge_act, bridge_act]
          rfl
        | steal => exact ⟨[.act .steal], bridge_act s _⟩
        | _ => cases hconcerns
    refine ⟨now ++ later, ?_⟩
    rw [after_append, ← hnow]
    exact hlater

/-- **Whatever is done in a round, the bridge goes through a history.** -/
theorem exists_history_round (s : Session σ) (ops : List Op) :
    ∃ history, (s.round ops).1.bridge = s.bridge.after history := by
  obtain ⟨issued, hissued⟩ := s.exists_history_issueAll ops
  obtain ⟨settled, hsettled, -⟩ := (s.issueAll ops).1.follows_settle
  refine ⟨issued ++ settled, ?_⟩
  rw [after_append, ← hissued]
  exact hsettled

end Scheduler

end Session

end Steward.Bridge

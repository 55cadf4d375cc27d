import Steward.Proofs.Bridge.Callers

/-!
# Proofs/Bridge/Pass — one pass over the arms

A bridge that drives a handler begins with its first arm after each move and goes on to the next as long
as it finds nothing; others may act between two looks.  What the mailbox waits for stays there until the
bridge turns to it.  So as long as the bridge is at its first arm, that is what comes next, whatever
happens before (`ComesNext`).  Only what comes to an arm after it was looked at may be overtaken, and only
by the one move that ends the pass.

* `Makes.arm`, `Happens.arm` — a move begins a new pass, and only a look in vain goes on to the next arm.
* `comesNext_of_mailbox` — what the mailbox waits for comes next.
* `undisturbed_after` — a bridge that is never interrupted between two looks is always at its first arm.
-/

namespace Steward.Bridge

variable {σ : Type} {b b' : Bridge σ} {d : Driving}

/-! ## Where the bridge looks -/

/-- **Each move that leaves the bridge driving begins a new pass.** -/
theorem Makes.arm [StatusHost σ] {m : Move} (hm : b.Makes m b') (hs' : b'.stage = .driving d) :
    b'.arm = .mailbox := by
  cases hm with
  | start | place | endStatuses => rfl
  | @settle d c r => cases r <;> rfl
  | @read d p =>
    obtain ⟨requests, updates, stage, log, h⟩ := b.read_eq d p
    rw [h]
  | @relay d p =>
    obtain ⟨host, requests, updates, stage, log, h⟩ := b.relay_eq d p
    rw [h]
  | refuse | abandon | complete | report => cases hs'
  | @release ending next => cases next <;> cases hs'

/-- **Only a look in vain goes on to the next arm.** -/
theorem Happens.arm {a : Action} (ha : b.Happens a b') :
    b'.arm = b.arm ∨
      a = .pass ∧ b'.arm = b.arm.next ∧ ∃ d, b.stage = .driving d ∧ b.armMove? d b.arm = none := by
  cases ha with
  | pass hs hm => exact .inr ⟨rfl, rfl, _, hs, hm⟩
  | idle | store | announce | steal | offerControl | enterControl | cloneControl | dropControl | offerStatus |
    lineUpStatus | enterStatus | cancelStatus | cloneUpdates | dropClone | lendRequests =>
    exact .inl rfl
  | takeRequest _ hp =>
    rw [takeRequest_eq hp, resolve_eq]
    exact .inl rfl
  | dropRequests =>
    rw [Bridge.dropRequests, resolve_eq]
    exact .inl rfl
  | dropUpdates =>
    obtain ⟨updates, holds, h⟩ := b.dropUpdates_eq
    rw [h]
    exact .inl rfl
  | finish c =>
    obtain ⟨updates, holds, h⟩ := b.finishHandler_eq c
    obtain ⟨requests, stage, hleft⟩ := b.leaveRequests_eq
    rw [h, hleft]
    exact .inl rfl

/-- The arm stays the same as long as it has something. -/
theorem Happens.arm_of_some {a : Action} {m : Move} (ha : b.Happens a b') (hs : b.stage = .driving d)
    (hm : b.armMove? d b.arm = some m) : b'.arm = b.arm := by
  refine ha.arm.resolve_right fun ⟨_, _, d', hs', hnone⟩ => ?_
  obtain rfl := Stage.driving.inj (hs'.symm.trans hs)
  cases hm.symm.trans hnone

/-- **A bridge that is never interrupted between two looks is always at its first arm.** -/
theorem undisturbed_after [StatusHost σ] (harm : b.arm = .mailbox) {later : List Step}
    (hnone : .pass ∉ acts later) {d : Driving} (hs : (b.after later).stage = .driving d) :
    (b.after later).arm = .mailbox := by
  refine invariant_after (P := fun as _ b => .pass ∉ as → ∀ d, b.stage = .driving d → b.arm = .mailbox)
    ?_ ?_ (fun _ _ _ => harm) later hnone d hs
  · intro as ms m b b' h hm hnone d hs
    exact hm.arm hs
  · intro as ms a b b' h ha hnone d hs
    rw [List.mem_append, not_or] at hnone
    obtain hsame | ⟨rfl, -⟩ := ha.arm
    · obtain ⟨d₀, hs₀⟩ : ∃ d₀, b.stage = .driving d₀ := by
        refine Classical.byContradiction fun hnot => ?_
        exact hnot ⟨d, (ha.meets.stage fun d₀ hs₀ => hnot ⟨d₀, hs₀⟩).symm.trans hs⟩
      exact hsame.trans (h hnone.1 d₀ hs₀)
    · exact absurd (List.mem_singleton_self _) hnone.2

/-! ## What comes next -/

/-- Whatever happens before the bridge gets to make a move, this is the move it makes. -/
def ComesNext [StatusHost σ] (b : Bridge σ) (m : Move) : Prop :=
  ∀ as : List Action, (b.after (as.map .act)).next? = some m

theorem ComesNext.next [StatusHost σ] {m : Move} (h : b.ComesNext m) : b.next? = some m := h []

/-- What is kept by all that happens holds until the bridge makes a move. -/
theorem holds_until_move [StatusHost σ] {P : Bridge σ → Prop}
    (happens : ∀ {a : Action} {b b' : Bridge σ}, P b → b.Happens a b' → P b') (h : P b)
    (as : List Action) : P (b.after (as.map .act)) := by
  induction as generalizing b with
  | nil => exact h
  | cons a as ih => exact ih (happens h (happens_act b a))

/-- Without a request on the handler's link only the bridge changes the stage. -/
theorem Meets.stage_of_unplaced (hm : b.Meets b') (hs : b.stage = .driving d)
    (hunplaced : ∀ c, d.mailbox ≠ .holding c .placed) : b'.stage = .driving d := by
  obtain hsame | ⟨c, r, hplaced, -⟩ := hm.mailbox hs
  · exact hsame
  · exact absurd hplaced (hunplaced c)

/-- With something to do for the mailbox no request waits on the handler's link. -/
theorem unplaced_of_mailboxMove {m : Move} (hm : b.mailboxMove? d = some m) (c : Command) :
    d.mailbox ≠ .holding c .placed := by
  intro hplaced
  simp [mailboxMove?, hplaced] at hm

/-- **What the mailbox waits for does not go away.** -/
theorem Happens.mailboxMove {a : Action} {m : Move} (ha : b.Happens a b') (hs : b.stage = .driving d)
    (hm : b.mailboxMove? d = some m) : b'.stage = .driving d ∧ b'.mailboxMove? d = some m := by
  refine ⟨ha.meets.stage_of_unplaced hs (unplaced_of_mailboxMove hm), ?_⟩
  rcases mailboxMove?_cases hm with ⟨c, r, hmail, rfl⟩ | ⟨c, r, hmail, rfl⟩ | ⟨p, hfree, hp, rfl⟩
  · simp [mailboxMove?, hmail]
  · simp [mailboxMove?, hmail]
  · have hp' := ha.control_slot hp
    cases hmail : d.mailbox with
    | holding => simp [hmail, Mailbox.isHolding] at hfree
    | awaiting | detached => simp [mailboxMove?, hmail, hp']

/-- At its first arm the bridge makes the move on the mailbox, if there is one. -/
theorem next?_of_mailbox {m : Move} (hs : b.stage = .driving d) (harm : b.arm = .mailbox)
    (hm : b.mailboxMove? d = some m) : b.next? = some m := by
  simp [next?, hs, drivingMove?, harm, armMove?, hm]

/-- **What the mailbox waits for comes next** when the bridge is at its first arm. -/
theorem comesNext_of_mailbox [StatusHost σ] {m : Move} (hs : b.stage = .driving d)
    (harm : b.arm = .mailbox) (hm : b.mailboxMove? d = some m) : b.ComesNext m := by
  intro as
  have hkept : ∀ {a : Action} {b b' : Bridge σ},
      b.stage = .driving d ∧ b.arm = .mailbox ∧ b.mailboxMove? d = some m → b.Happens a b' →
      b'.stage = .driving d ∧ b'.arm = .mailbox ∧ b'.mailboxMove? d = some m := by
    rintro a b b' ⟨hs, harm, hm⟩ ha
    obtain ⟨hs', hm'⟩ := ha.mailboxMove hs hm
    have hseen : b.armMove? d b.arm = some m := by
      rw [harm]
      exact hm
    exact ⟨hs', (ha.arm_of_some hs hseen).trans harm, hm'⟩
  obtain ⟨hs', harm', hm'⟩ := holds_until_move hkept ⟨hs, harm, hm⟩ as
  exact next?_of_mailbox hs' harm' hm'

/-- With no request under way the mailbox waits for a control event. -/
theorem mailboxMove?_of_free {p : Placed ControlEvent} (hfree : d.mailbox.isHolding = false)
    (hp : b.control.slot = some p) : b.mailboxMove? d = some (.read p) := by
  cases hmail : d.mailbox with
  | holding => simp [hmail, Mailbox.isHolding] at hfree
  | awaiting | detached => simp [mailboxMove?, hmail, hp]

/-- **A control event comes next**, unless a request is under way. -/
theorem comesNext_read [StatusHost σ] {p : Placed ControlEvent} (hs : b.stage = .driving d)
    (harm : b.arm = .mailbox) (hfree : d.mailbox.isHolding = false) (hp : b.control.slot = some p) :
    b.ComesNext (.read p) :=
  comesNext_of_mailbox hs harm (mailboxMove?_of_free hfree hp)

/-- **The end of the request under way comes next.** -/
theorem comesNext_settle [StatusHost σ] {c : Command} {r : SendResult} (hs : b.stage = .driving d)
    (harm : b.arm = .mailbox) (hm : d.mailbox = .holding c (.resolved r)) : b.ComesNext (.settle r) :=
  comesNext_of_mailbox hs harm (by simp [mailboxMove?, hm])

/-- So does its beginning. -/
theorem comesNext_place [StatusHost σ] {c : Command} {r : Request} (hs : b.stage = .driving d)
    (harm : b.arm = .mailbox) (hm : d.mailbox = .holding c (.fresh r)) : b.ComesNext (.place r) :=
  comesNext_of_mailbox hs harm (by simp [mailboxMove?, hm])

/-! ## A request that is not on the link yet -/

/-- A request that is yet to be put onto the handler's link is what the bridge looks at. -/
def Faces (b : Bridge σ) : Prop :=
  ∀ d c r, b.stage = .driving d → d.mailbox = .holding c (.fresh r) → b.arm = .mailbox

theorem Faces.makes [StatusHost σ] {m : Move} (hm : b.Makes m b') : b'.Faces :=
  fun _ _ _ hs _ => hm.arm hs

theorem Faces.happens {a : Action} (h : b.Faces) (ha : b.Happens a b') : b'.Faces := by
  intro d' c r hs' hm'
  obtain ⟨d, hs⟩ : ∃ d, b.stage = .driving d := by
    refine Classical.byContradiction fun hnot => ?_
    exact hnot ⟨d', (ha.meets.stage fun d hs => hnot ⟨d, hs⟩).symm.trans hs'⟩
  have hmail : d.mailbox = .holding c (.fresh r) := by
    obtain hsame | ⟨c', r', -, hresolved⟩ := ha.meets.mailbox hs
    · exact Stage.driving.inj (hsame.symm.trans hs') ▸ hm'
    · obtain rfl := Stage.driving.inj (hresolved.symm.trans hs')
      cases hm'
  have harm := h d c r hs hmail
  refine (ha.arm_of_some (m := .place r) hs ?_).trans harm
  simp [harm, armMove?, mailboxMove?, hmail]

theorem Faces.after [StatusHost σ] (h : b.Faces) (later : List Step) : (b.after later).Faces :=
  invariant_after (P := fun _ _ b => b.Faces) (fun _ hm => Faces.makes hm) (fun h ha => h.happens ha) h
    later

/-- **A request is put onto the handler's link before the bridge looks at anything else.** -/
theorem faces_after [StatusHost σ] (name handlerName : String) (context : Context) (host : σ)
    (history : List Step) : ((fresh name handlerName context host).after history).Faces :=
  Faces.after (fun _ _ _ hs => by cases hs) history

/-! ## How often the bridge moves -/

/-- The bridge gets to run in this step. -/
def Step.isMove : Step → Bool
  | .move => true
  | .act _ => false

/-- How often the bridge gets to run along a history. -/
def moveCount (history : List Step) : Nat := history.countP Step.isMove

theorem moveCount_append (h₁ h₂ : List Step) : moveCount (h₁ ++ h₂) = moveCount h₁ + moveCount h₂ :=
  List.countP_append

theorem moveCount_move (later : List Step) : moveCount (.move :: later) = moveCount later + 1 :=
  List.countP_cons_of_pos rfl

/-- Before the bridge gets to run other things may happen. -/
theorem exists_first_move {later : List Step} (h : 1 ≤ moveCount later) :
    ∃ (as : List Action) (late : List Step), later = as.map .act ++ .move :: late ∧
      moveCount late + 1 = moveCount later := by
  induction later with
  | nil => exact absurd h (Nat.not_succ_le_zero 0)
  | cons s later ih =>
    cases s with
    | move => exact ⟨[], later, rfl, (moveCount_move later).symm⟩
    | act a =>
      obtain ⟨as, late, rfl, hcount⟩ := ih h
      exact ⟨a :: as, late, rfl, hcount⟩

end Steward.Bridge

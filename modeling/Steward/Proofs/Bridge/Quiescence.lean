import Steward.Proofs.Bridge.Precedence

/-!
# Proofs/Bridge/Quiescence — a bridge does not turn round for nothing

While it drives a handler a bridge goes round a loop: it waits until one of its sources is ready, turns to
that source, and waits again.  A source that has ended is ready on every round.  All the same the bridge does
not go round without end: the control link that has ended is no match, the end of the status link is taken
note of once, and a request under way comes to its end once.  So each turn is paid for by an event, a status,
a flag or the request under way (`Spends`), and when nobody comes any more there are only so many turns left.

* `Makes.spends`, `Happens.spends` — what a move and an action cost.
* `spends_after` — a whole history in which nobody comes.
* `comes_to_rest` — how many turns are left in any state of any run, and what the bridge waits for then.
-/

namespace Steward

/-! ## Sources and turns -/

/-- What a bridge that drives a handler can turn to. -/
inductive Source where
  /-- The control link. -/
  | control
  /-- The request under way. -/
  | delivery
  /-- The status link. -/
  | status
  /-- The end of the handler. -/
  | completion
  deriving DecidableEq

/-- Turns are counted source by source. -/
theorem Source.length_eq (ss : List Source) :
    ss.length = ss.count .control + ss.count .delivery + ss.count .status + ss.count .completion := by
  induction ss with
  | nil => rfl
  | cons s ss ih => cases s <;> simp [ih] <;> omega

/-! ## Links to which nobody comes -/

section Links

variable {α : Type} {l : Link α}

/-- Who is withdrawn adds nothing to a link. -/
theorem Link.length_parcels_cancel (l : Link α) (t : Nat) :
    (l.cancel t).parcels.length ≤ l.parcels.length := by
  rw [parcels, parcels, List.length_append, List.length_append]
  refine Nat.add_le_add (Nat.le_of_eq ?_) (List.length_filter_le _ _)
  cases hslot : l.slot <;> simp [cancel, hslot]

/-- Nothing is added to a link when nobody comes, or nobody can. -/
theorem Link.Undergoes.length_parcels {l' : Link α} {comes : Bool} (h : l.Undergoes comes l')
    (hquiet : comes = false ∨ l.offers = 0) : l'.parcels.length ≤ l.parcels.length := by
  cases h with
  | still | cloneOffer | dropOffer => exact Nat.le_refl _
  | enter => exact Nat.le_of_eq (congrArg List.length l.parcels_enter)
  | cancel ticket => exact l.length_parcels_cancel ticket
  | send hcomes hc | lineUp hcomes hc =>
    obtain hnobody | hnone := hquiet
    · cases hnobody.symm.trans hcomes
    · exact absurd hnone hc

/-- Without a handle there is nobody in line, and nobody waits for the item in the slot. -/
theorem Link.Manned.left_alone (h : l.Manned) (hoffers : l.offers = 0) :
    l.line = [] ∧ ∀ p, l.slot = some p → p.awaited = false := by
  have hnobody := h.handles hoffers
  rw [unfinished, List.append_eq_nil_iff, List.map_eq_nil_iff] at hnobody
  refine ⟨hnobody.1, fun p hp => Bool.eq_false_iff.mpr fun hawaited => ?_⟩
  simp [waiting?, hp, hawaited] at hnobody

/-- A link whose senders all wait for their items is empty when no handle is left. -/
theorem Link.Manned.unconnected_of_waits (h : l.Manned) (hwaits : l.Waits) (hoffers : l.offers = 0) :
    l = .unconnected := by
  have hslot : l.slot = none := by
    refine Option.eq_none_iff_forall_ne_some.mpr fun p hp => ?_
    cases (hwaits p hp).symm.trans ((h.left_alone hoffers).2 p hp)
  exact h.unconnected (by simp [poll, hslot, hoffers])

end Links

/-! ## What a stage still asks for -/

/-- The request under way, to be settled once. -/
def Stage.underWay : Stage → Nat
  | .driving d => if d.mailbox.isHolding then 1 else 0
  | _ => 0

theorem Stage.underWay_le (s : Stage) : s.underWay ≤ 1 := by
  unfold underWay
  split
  · split <;> decide
  · exact Nat.zero_le 1

/-- The end of the statuses, to be noticed once. -/
def Stage.toHear : Stage → Nat
  | .driving d => if d.statusesOpen then 1 else 0
  | _ => 0

theorem Stage.toHear_le (s : Stage) : s.toHear ≤ 1 := by
  unfold toHear
  split
  · split <;> decide
  · exact Nat.zero_le 1

/-- The end of the handler, to be seen once. -/
def Stage.toSee : Stage → Nat
  | .driving _ => 1
  | _ => 0

theorem Stage.toSee_le (s : Stage) : s.toSee ≤ 1 := by
  unfold toSee
  split
  · exact Nat.le_refl 1
  · exact Nat.zero_le 1

namespace Bridge

variable {σ : Type} {b b' b'' : Bridge σ} {d : Driving}

/-- The bridge looks at this source.  At the control link it looks while no request is under way, as long as
something can come; at the status link until it has ended; at the end of the handler if there is one. -/
def looksAt (b : Bridge σ) (d : Driving) : Source → Bool
  | .control => !d.mailbox.isHolding && b.control.poll != .ended
  | .delivery => d.mailbox.isHolding
  | .status => d.statusesOpen
  | .completion => b.handler != .absent

/-- The source a move turns to.  To put a request onto the handler's link is no turn of its own: it is how the
bridge begins to wait for the end of that request. -/
def Move.source? : Move → Option Source
  | .read _ => some .control
  | .settle _ => some .delivery
  | .relay _ | .endStatuses => some .status
  | .complete _ => some .completion
  | .start _ | .refuse _ | .place _ | .report | .release => none

/-- The turns of a bridge among its moves. -/
def turns (ms : List Move) : List Source := ms.filterMap Move.source?

theorem turns_append (ms ms' : List Move) : turns (ms ++ ms') = turns ms ++ turns ms' :=
  List.filterMap_append

/-- **A bridge turns only to what it looks at.** -/
theorem looksAt_of_next [StatusHost σ] {m : Move} {s : Source} (hs : b.stage = .driving d)
    (hnext : b.next? = some m) (hm : m.source? = some s) (hthere : b.handler ≠ .absent) :
    b.looksAt d s = true := by
  have hmove := makes_perform hnext
  generalize b.perform m = b' at hmove
  cases hmove with
  | start | refuse | abandon | place | report | release => cases hm
  | read hs' hfree hp =>
    obtain rfl := Stage.driving.inj (hs'.symm.trans hs)
    obtain rfl := Option.some.inj hm
    simp [looksAt, hfree, Link.poll, hp]
  | settle hs' hmail =>
    obtain rfl := Stage.driving.inj (hs'.symm.trans hs)
    obtain rfl := Option.some.inj hm
    rw [looksAt, hmail]
    rfl
  | relay hs' _ hopen | endStatuses hs' _ hopen =>
    obtain rfl := Stage.driving.inj (hs'.symm.trans hs)
    obtain rfl := Option.some.inj hm
    exact hopen
  | complete =>
    obtain rfl := Option.some.inj hm
    simpa [looksAt] using hthere

/-! ## What a turn costs -/

/-- From one state to another the bridge made these turns, and each was paid for: with an event or a status on
its links, with the request under way, which only an event brings, or with what is noticed once. -/
structure Spends (b : Bridge σ) (ts : List Source) (b' : Bridge σ) : Prop where
  control : b'.control.parcels.length + ts.count .control ≤ b.control.parcels.length
  delivery : b'.stage.underWay + ts.count .delivery ≤ b.stage.underWay + ts.count .control
  status : b'.updates.parcels.length + b'.stage.toHear + ts.count .status ≤
    b.updates.parcels.length + b.stage.toHear
  completion : b'.stage.toSee + ts.count .completion ≤ b.stage.toSee

theorem Spends.refl (b : Bridge σ) : b.Spends [] b :=
  ⟨Nat.le_refl _, Nat.le_refl _, Nat.le_refl _, Nat.le_refl _⟩

theorem Spends.trans {ts ts' : List Source} (h : b.Spends ts b') (h' : b'.Spends ts' b'') :
    b.Spends (ts ++ ts') b'' where
  control := by
    have hfirst := h.control
    have hthen := h'.control
    rw [List.count_append]
    omega
  delivery := by
    have hfirst := h.delivery
    have hthen := h'.delivery
    rw [List.count_append, List.count_append]
    omega
  status := by
    have hfirst := h.status
    have hthen := h'.status
    rw [List.count_append]
    omega
  completion := by
    have hfirst := h.completion
    have hthen := h'.completion
    rw [List.count_append]
    omega

/-- While the handler is driven its end is not seen. -/
theorem Spends.of_driving {d' : Driving} {ts : List Source} (hs : b.stage = .driving d)
    (hs' : b'.stage = .driving d')
    (control : b'.control.parcels.length + ts.count .control ≤ b.control.parcels.length)
    (delivery : Stage.underWay (.driving d') + ts.count .delivery ≤
      Stage.underWay (.driving d) + ts.count .control)
    (status : b'.updates.parcels.length + Stage.toHear (.driving d') + ts.count .status ≤
      b.updates.parcels.length + Stage.toHear (.driving d))
    (completion : ts.count .completion = 0) : b.Spends ts b' where
  control := control
  delivery := by rwa [hs, hs']
  status := by rwa [hs, hs']
  completion := by
    rw [hs, hs', completion]
    exact Nat.le_refl _

/-- When the handler is cut off nothing is left to turn to but what is on the control link. -/
theorem Spends.of_cutsOff {s : Source} {exit : ExitCode} {left : Bool} (hs : b.stage = .driving d)
    (hcut : b.CutsOff d exit left b')
    (control : b'.control.parcels.length + [s].count .control ≤ b.control.parcels.length)
    (delivery : s ≠ .delivery) (status : [s].count .status ≤ b.updates.parcels.length) :
    b.Spends [s] b' where
  control := control
  delivery := by
    rw [hcut.stage, List.count_singleton, if_neg (by simpa using delivery)]
    exact Nat.zero_le _
  status := by
    obtain ⟨l, hl⟩ := hcut.updates
    have hnone : b'.updates.parcels = [] := by rw [hl]; rfl
    rw [hcut.stage, hnone]
    simp only [List.length_nil, Stage.toHear]
    omega
  completion := by
    have hone : [s].count .completion ≤ 1 := List.count_le_length
    rw [hcut.stage, hs]
    simp only [Stage.toSee]
    omega

/-- Past the end of a run there is nothing to turn to. -/
theorem Spends.of_over (hover' : b'.stage.isOver = true)
    (control : b'.control.parcels.length ≤ b.control.parcels.length)
    (updates : b'.updates.parcels.length ≤ b.updates.parcels.length) : b.Spends [] b' := by
  have hnothing : b'.stage.underWay = 0 ∧ b'.stage.toHear = 0 ∧ b'.stage.toSee = 0 := by
    cases hs' : b'.stage with
    | waiting | driving =>
      rw [hs'] at hover'
      cases hover'
    | finishing | releasing | ended => exact ⟨rfl, rfl, rfl⟩
  obtain ⟨hunderWay, htoHear, htoSee⟩ := hnothing
  refine ⟨control, ?_, ?_, ?_⟩
  · rw [hunderWay]
    exact Nat.zero_le _
  · rw [htoHear]
    exact Nat.le_add_right_of_le updates
  · rw [htoSee]
    exact Nat.zero_le _

/-- **A move spends what it turns to.** -/
theorem Makes.spends [StatusHost σ] {m : Move} (hm : b.Makes m b') (hbegun : b.stage ≠ .waiting) :
    b.Spends m.source?.toList b' := by
  cases hm with
  | start hs | refuse hs | abandon hs => exact absurd hs hbegun
  | @read d p hs hfree hp =>
    have hcontrol : (b.read d p).control.parcels.length + 1 ≤ b.control.parcels.length := by
      rw [read_control, Link.parcels_of_slot hp]
      exact Nat.le_refl _
    cases he : p.item.error with
    | some code => exact .of_cutsOff hs (cutsOff_read he) hcontrol (by simp) (Nat.zero_le _)
    | none =>
      have hstatus : (b.read d p).updates.parcels.length + Stage.toHear (.driving d) ≤
          b.updates.parcels.length + Stage.toHear (.driving d) := by
        rw [updates_read b d he]
      cases hmail : d.mailbox with
      | holding => simp [hmail, Mailbox.isHolding] at hfree
      | detached =>
        exact .of_driving hs (goesOn_read_detached hs hmail he).stage hcontrol (Nat.le_add_right _ _)
          hstatus rfl
      | awaiting =>
        exact .of_driving hs (goesOn_read_awaiting hmail he).stage hcontrol (Nat.le_add_left _ _)
          hstatus rfl
  | @place d c r hs hmail =>
    have hunderWay : Stage.underWay (.driving d) = 1 := by rw [Stage.underWay, hmail]; rfl
    exact .of_driving hs rfl (Nat.le_refl _) (by rw [hunderWay]; exact Nat.le_refl _) (Nat.le_refl _) rfl
  | @settle d c r hs hmail =>
    have hunderWay : Stage.underWay (.driving d) = 1 := by rw [Stage.underWay, hmail]; rfl
    cases r with
    | taken =>
      exact .of_driving hs (goesOn_settle_taken c).stage (Nat.le_refl _)
        (by rw [hunderWay]; exact Nat.le_refl _) (Nat.le_refl _) rfl
    | closed =>
      exact .of_driving hs (goesOn_settle_closed c).stage (Nat.le_refl _)
        (by rw [hunderWay]; exact Nat.le_refl _) (Nat.le_refl _) rfl
  | @relay d p hs hnone hopen hp =>
    have hstatus : b.updates.take.parcels.length + 1 = b.updates.parcels.length := by
      rw [Link.parcels_of_slot hp]
      rfl
    have hcontrol : (b.relay d p).control.parcels.length ≤ b.control.parcels.length := by
      rw [relay_control]
    cases hr : (StatusHost.report b.host d.handle (Record.ofStatus p.item .success)).2 with
    | ok =>
      refine .of_driving hs (goesOn_relay hr).stage hcontrol (Nat.le_refl _) ?_ rfl
      rw [updates_relay hr]
      change _ + Stage.toHear (.driving d) + 1 ≤ _
      omega
    | error e =>
      exact .of_cutsOff hs (cutsOff_relay hr) hcontrol (by simp) (hstatus ▸ Nat.le_add_left 1 _)
  | @endStatuses d hs hnone hopen =>
    refine .of_driving hs rfl (Nat.le_refl _) (Nat.le_refl _) ?_ rfl
    have htoHear : Stage.toHear (.driving d) = 1 := by rw [Stage.toHear, if_pos hopen]
    rw [htoHear]
    exact Nat.le_refl _
  | @complete d c hs =>
    exact .of_cutsOff hs (cutsOff_complete c) (Nat.le_refl _) (by simp) (Nat.zero_le _)
  | report => exact .of_over rfl (Nat.le_refl _) (Nat.le_refl _)
  | @release ending next hs =>
    cases next with
    | closeControl => exact .of_over rfl (Nat.zero_le _) (Nat.le_refl _)
    | deregister | announce | signal => exact .of_over rfl (Nat.le_refl _) (Nat.le_refl _)

/-! ## When nobody comes -/

/-- No sending handle is left, neither for control events nor for statuses. -/
structure Handleless (b : Bridge σ) : Prop where
  control : b.control.offers = 0
  updates : b.updates.offers = 0

/-- Who has no handle gets none. -/
theorem Handleless.happens {a : Action} (h : b.Handleless) (ha : b.Happens a b') : b'.Handleless :=
  ⟨ha.undergoes_control.offers h.control, ha.undergoes_updates.offers h.updates⟩

/-- The bridge hands out no handle once the handler was started. -/
theorem Handleless.makes [StatusHost σ] {m : Move} (h : b.Handleless) (hbegun : b.stage ≠ .waiting)
    (hm : b.Makes m b') : b'.Handleless where
  control := by
    obtain ⟨hsame, -⟩ | ⟨-, -, -, -, -, -, htake⟩ | ⟨-, -, hclose⟩ := hm.control
    · exact hsame ▸ h.control
    · exact htake ▸ h.control
    · exact hclose ▸ h.control
  updates := by
    cases hm with
    | start hs | refuse hs | abandon hs => exact absurd hs hbegun
    | read =>
      unfold Bridge.read
      dsimp only
      split
      · exact h.updates
      · split <;> exact h.updates
    | relay =>
      unfold Bridge.relay
      dsimp only
      split <;> exact h.updates
    | @settle d c r => cases r <;> exact h.updates
    | @release ending next => cases next <;> exact h.updates
    | place | endStatuses | complete | report => exact h.updates

/-- A request under way stays under way until the bridge turns to it. -/
theorem Meets.underWay (hm : b.Meets b') : b'.stage.underWay = b.stage.underWay := by
  by_cases hd : ∃ d, b.stage = .driving d
  · obtain ⟨d, hs⟩ := hd
    obtain hs' | ⟨c, r, hmail, hs'⟩ := hm.mailbox hs
    · rw [hs', hs]
    · rw [hs', hs, Stage.underWay, Stage.underWay, hmail]
      rfl
  · rw [hm.stage fun d hs => hd ⟨d, hs⟩]

/-- **What happens from outside costs nothing**, as long as nobody comes. -/
theorem Happens.spends {a : Action} (ha : b.Happens a b') (hquiet : a.comes = false ∨ b.Handleless) :
    b.Spends [] b' where
  control := ha.undergoes_control.length_parcels (hquiet.imp_right Handleless.control)
  delivery := Nat.le_of_eq ha.meets.underWay
  status := by
    rw [ha.meets.stage_view Stage.toHear fun _ _ => rfl]
    exact Nat.add_le_add_right
      (ha.undergoes_updates.length_parcels (hquiet.imp_right Handleless.updates)) _
  completion := Nat.le_of_eq (ha.meets.stage_view Stage.toSee fun _ _ => rfl)

theorem turns_singleton (m : Move) : turns [m] = m.source?.toList := by
  cases h : m.source? <;> simp [turns, h]

/-- **As long as nobody comes every turn is paid for.** -/
theorem spends_after [StatusHost σ] (hbegun : b.stage ≠ .waiting) (later : List Step)
    (hquiet : (∀ a ∈ acts later, a.comes = false) ∨ b.Handleless) :
    b.Spends (turns (b.moves later)) (b.after later) := by
  induction later generalizing b with
  | nil => exact .refl b
  | cons s later ih =>
    rw [moves, turns_append, after_cons]
    cases s with
    | act a =>
      have ha : b.Happens a (b.step (.act a)) := happens_act b a
      refine (ha.spends (hquiet.imp_left fun h => h a List.mem_cons_self)).trans (ih ?_ ?_)
      · exact fun hw => hbegun (ha.meets.waiting_iff.mp hw)
      · exact hquiet.imp (fun h a' ha' => h a' (List.mem_cons_of_mem a ha')) fun h => h.happens ha
    | move =>
      cases hnext : b.next? with
      | none =>
        have hstill : b.step .move = b := by simp [step, hnext]
        rw [moveIn, hnext, hstill]
        exact ih hbegun hquiet
      | some m =>
        have hm : b.Makes m (b.step .move) := by
          simpa [step, hnext] using makes_perform hnext
        rw [moveIn, hnext, Option.toList_some, turns_singleton]
        exact (hm.spends hbegun).trans (ih hm.not_waiting (hquiet.imp_right fun h => h.makes hbegun hm))

/-! ## When no handle is left -/

/-- Until the end of a run the control link is open, and nobody under way on it has lost the last handle. -/
def ControlManned (b : Bridge σ) : Prop := b.stage.isOver = false → b.control.Manned

theorem ControlManned.makes [StatusHost σ] {m : Move} (h : b.ControlManned) (hm : b.Makes m b') :
    b'.ControlManned := by
  intro hover'
  have hover := hm.not_over hover'
  have hmanned := h hover
  cases hm with
  | read =>
    rw [read_control]
    exact hmanned.take
  | relay => rwa [relay_control]
  | @settle d c r => cases r <;> exact hmanned
  | release hs =>
    rw [hs] at hover
    cases hover
  | start | refuse | abandon | place | endStatuses | complete | report => exact hmanned

theorem ControlManned.happens {a : Action} (h : b.ControlManned) (ha : b.Happens a b') :
    b'.ControlManned := by
  intro hover'
  rw [ha.meets.stage_view Stage.isOver fun _ _ => rfl] at hover'
  exact ha.undergoes_control.manned (h hover')

theorem ControlManned.after [StatusHost σ] (h : b.ControlManned) (later : List Step) :
    (b.after later).ControlManned :=
  invariant_after (P := fun _ _ b => b.ControlManned) (fun h hm => h.makes hm) (fun h ha => h.happens ha) h
    later

/-- No event is on the control link when no handle is left. -/
theorem Handleless.control_empty (h : b.Handleless) (hmanned : b.ControlManned) (hlistens : b.Listens)
    (hover : b.stage.isOver = false) : b.control = .unconnected :=
  (hmanned hover).unconnected_of_waits hlistens.waits h.control

theorem Handleless.after [StatusHost σ] (h : b.Handleless) (hbegun : b.stage ≠ .waiting)
    (later : List Step) : (b.after later).Handleless :=
  (invariant_after (P := fun _ _ b => b.stage ≠ .waiting ∧ b.Handleless)
    (fun h hm => ⟨hm.not_waiting, h.2.makes h.1 hm⟩)
    (fun h ha => ⟨fun hw => h.1 (ha.meets.waiting_iff.mp hw), h.2.happens ha⟩) ⟨hbegun, h⟩ later).2

/-- It is once, after what is left of the statuses, that the bridge turns to a link then. -/
theorem Handleless.turns_once [StatusHost σ] (h : b.Handleless) (hbegun : b.stage ≠ .waiting)
    (hempty : b.control = .unconnected) (later : List Step) :
    (turns (b.moves later)).count .control = 0 ∧
      (turns (b.moves later)).count .status ≤ b.updates.parcels.length + 1 := by
  obtain ⟨hcontrol, -, hstatus, -⟩ := spends_after hbegun later (.inr h)
  have htoHear := b.stage.toHear_le
  have hnothing : b.control.parcels = [] := by rw [hempty]; rfl
  rw [hnothing, List.length_nil] at hcontrol
  omega

/-- Without a handle the control link is not looked at. -/
theorem not_looksAt_control (hempty : b.control = .unconnected) : b.looksAt d .control = false := by
  have hended : b.control.poll = .ended := by rw [hempty]; rfl
  simp [looksAt, hended]

/-- As long as the bridge looks at a link it has not turned to one for the last time. -/
theorem Handleless.looks_on [StatusHost σ] (h : b.Handleless) (hbegun : b.stage ≠ .waiting)
    {later : List Step} (hempty : (b.after later).control = .unconnected)
    (hd : (b.after later).stage = .driving d) {s : Source}
    (hlooks : (b.after later).looksAt d s = true) :
    s = .delivery ∨ s = .completion ∨
      s = .status ∧ (turns (b.moves later)).count .status ≤ b.updates.parcels.length := by
  cases s with
  | delivery => exact .inl rfl
  | completion => exact .inr (.inl rfl)
  | control => cases (not_looksAt_control hempty).symm.trans hlooks
  | status =>
    have hstatus := (spends_after hbegun later (.inr h)).status
    have htoHear := b.stage.toHear_le
    have hopen : d.statusesOpen = true := hlooks
    rw [hd, Stage.toHear, if_pos hopen] at hstatus
    exact .inr (.inr ⟨rfl, by omega⟩)

/-- A bridge that waits does not wait for a link then. -/
theorem Handleless.rests [StatusHost σ] (h : b.Handleless) (hempty : b.control = .unconnected)
    (hs : b.stage = .driving d) (hnext : b.next? = none) {s : Source} (hlooks : b.looksAt d s = true) :
    s = .delivery ∨ s = .completion := by
  obtain ⟨-, hstatus, -⟩ := (next?_eq_none_of_driving hs).mp hnext
  cases s with
  | delivery => exact .inl rfl
  | completion => exact .inr rfl
  | control => cases (not_looksAt_control hempty).symm.trans hlooks
  | status =>
    have hopen : d.statusesOpen = true := hlooks
    rw [statusMove?, if_pos hopen] at hstatus
    cases hslot : b.updates.slot <;> simp [Link.poll, hslot, h.updates] at hstatus

/-! ## Coming to rest -/

/-- What a bridge can still spend. -/
theorem Spends.length_le {ts : List Source} (h : b.Spends ts b') :
    ts.length ≤ 2 * b.control.parcels.length + b.updates.parcels.length + 3 := by
  obtain ⟨hcontrol, hdelivery, hstatus, hcompletion⟩ := h
  have hunderWay := b.stage.underWay_le
  have htoHear := b.stage.toHear_le
  have htoSee := b.stage.toSee_le
  rw [Source.length_eq]
  omega

/-- A bridge that drives a handler makes a turn to what it looks at, or puts the request under way onto the
handler's link. -/
theorem place_or_turn [StatusHost σ] {m : Move} (hs : b.stage = .driving d) (hnext : b.next? = some m)
    (hthere : b.handler ≠ .absent) :
    (∃ r, m = .place r) ∨ ∃ s, m.source? = some s ∧ b.looksAt d s = true := by
  cases hsource : m.source? with
  | some s => exact .inr ⟨s, rfl, looksAt_of_next hs hnext hsource hthere⟩
  | none =>
    have hmove := makes_perform hnext
    generalize b.perform m = b' at hmove
    cases hmove with
    | place => exact .inl ⟨_, rfl⟩
    | start hs' | refuse hs' | abandon hs' | report hs' | release hs' => cases hs'.symm.trans hs
    | read | settle | relay | endStatuses | complete => cases hsource

/-- A bridge that waits waits for the handler, or for those who come. -/
theorem Staffed.waits (h : b.Staffed) (hs : b.stage = .driving d) (hnext : b.next? = none) :
    b.handler = .running ∧ ∀ c delivery, d.mailbox = .holding c delivery → delivery = .placed := by
  obtain ⟨hmailbox, -, hcompletion⟩ := (next?_eq_none_of_driving hs).mp hnext
  constructor
  · cases hhandler : b.handler with
    | absent => exact absurd hhandler (h.present d hs)
    | running => rfl
    | ended c => simp [completionMove?, hhandler] at hcompletion
  · intro c delivery hm
    cases delivery with
    | placed => rfl
    | fresh r | resolved r => simp [mailboxMove?, hm] at hmailbox

/-- How far a bridge that drives a handler is from rest, and what it waits for. -/
structure ComesToRest [StatusHost σ] (b : Bridge σ) (d : Driving) : Prop where
  /-- As long as nobody comes there are two turns for each event on the control link, one for each status on
  the status link, and three for the request under way, the end of the statuses and that of the handler. -/
  bounded : ∀ later, (∀ a ∈ acts later, a.comes = false) →
    (turns (b.moves later)).length ≤ 2 * b.control.parcels.length + b.updates.parcels.length + 3
  /-- When no handle is left nothing is on the links but a status whose sender was withdrawn. -/
  left_over : b.Handleless → b.control.parcels = [] ∧ b.updates.line = [] ∧
    ∀ p, b.updates.slot = some p → p.awaited = false
  /-- Then it is once, if there is no such status, that the bridge turns to a link; from then on it looks at
  the request under way and the end of the handler only. -/
  once : b.Handleless → ∀ later,
    (turns (b.moves later)).count .control = 0 ∧
    (turns (b.moves later)).count .status ≤ b.updates.parcels.length + 1 ∧
    ∀ d', (b.after later).stage = .driving d' → ∀ s, (b.after later).looksAt d' s = true →
      s = .delivery ∨ s = .completion ∨
        s = .status ∧ (turns (b.moves later)).count .status ≤ b.updates.parcels.length
  /-- So with no status left over it makes at most one more turn before it waits for these two, or turns to
  them. -/
  one_more : b.Handleless → b.updates.slot = none → ∀ later,
    (turns (b.moves later)).count .control + (turns (b.moves later)).count .status ≤ 1 ∧
    ((turns (b.moves later)).count .status = 1 →
      ∀ d', (b.after later).stage = .driving d' → ∀ s, (b.after later).looksAt d' s = true →
        s = .delivery ∨ s = .completion)
  /-- These two are what it waits for then. -/
  rests : b.Handleless → b.next? = none → ∀ s, b.looksAt d s = true → s = .delivery ∨ s = .completion
  /-- The bridge is never without something to look at. -/
  looks : b.looksAt d .completion = true
  /-- It turns to something only when it looks at it; else it puts the request under way onto the handler's
  link, which is how it begins to wait for the end of that request. -/
  turns_to : ∀ m, b.next? = some m → (∃ r, m = .place r) ∨ ∃ s, m.source? = some s ∧ b.looksAt d s = true
  /-- When it waits the handler is there, and no request under way has come to its end. -/
  waits : b.next? = none → b.handler = .running ∧
    ∀ c delivery, d.mailbox = .holding c delivery → delivery = .placed

/-- **Every bridge comes to rest when nobody comes any more**, in every state of every run. -/
theorem comes_to_rest [StatusHost σ] (name handlerName : String) (context : Context) (host : σ)
    (history : List Step) {d : Driving}
    (hd : ((fresh name handlerName context host).after history).stage = .driving d) :
    ComesToRest ((fresh name handlerName context host).after history) d := by
  have hstaffed := staffed_after name handlerName context host history
  have hlistens := listens_after name handlerName context host history
  have hattended : Attended ((fresh name handlerName context host).after history) :=
    Attended.after (b := fresh name handlerName context host) rfl history
  have hmanned : ((fresh name handlerName context host).after history).ControlManned :=
    ControlManned.after (fun _ => ⟨rfl, fun hnone => by cases hnone⟩) history
  generalize (fresh name handlerName context host).after history = b at *
  have hbegun : b.stage ≠ .waiting := fun hw => by cases hw.symm.trans hd
  have hempty : b.Handleless → b.control = .unconnected := fun hnone =>
    hnone.control_empty hmanned hlistens (by rw [hd]; rfl)
  constructor
  · exact fun later hnobody => (spends_after hbegun later (.inl hnobody)).length_le
  · intro hnone
    obtain ⟨hline, hslot⟩ := (hattended.driving hd).1.left_alone hnone.updates
    exact ⟨by rw [hempty hnone]; rfl, hline, hslot⟩
  · intro hnone later
    obtain ⟨hcontrol, hstatus⟩ := hnone.turns_once hbegun (hempty hnone) later
    refine ⟨hcontrol, hstatus, fun d' hd' s hlooks => ?_⟩
    refine hnone.looks_on hbegun ?_ hd' hlooks
    exact (hnone.after hbegun later).control_empty (hmanned.after later) (hlistens.after later)
      (by rw [hd']; rfl)
  · intro hnone hslot later
    have hnothing : b.updates.parcels = [] := by
      rw [Link.parcels, hslot, ((hattended.driving hd).1.left_alone hnone.updates).1]
      rfl
    obtain ⟨hcontrol, hstatus⟩ := hnone.turns_once hbegun (hempty hnone) later
    rw [hnothing, List.length_nil] at hstatus
    refine ⟨by omega, fun hspent d' hd' s hlooks => ?_⟩
    have hempty' := (hnone.after hbegun later).control_empty (hmanned.after later) (hlistens.after later)
      (by rw [hd']; rfl)
    obtain hs | hs | ⟨-, hunspent⟩ := hnone.looks_on hbegun hempty' hd' hlooks
    · exact .inl hs
    · exact .inr hs
    · rw [hnothing, hspent] at hunspent
      cases hunspent
  · exact fun hnone hnext s hlooks => hnone.rests (hempty hnone) hd hnext hlooks
  · simpa [looksAt] using hstaffed.present d hd
  · exact fun m hnext => place_or_turn hd hnext (hstaffed.present d hd)
  · exact hstaffed.waits hd

/-- The handler takes its requests one by one, and then every handle is given up. -/
def lastHandles : List Step :=
  [.act .takeRequest, .move, .move, .move, .act .takeRequest, .move, .act .enterControl, .move, .move,
    .act .takeRequest, .move, .move, .act .dropUpdates, .act .dropControl]

/-- The bridge turns to the status link once more. -/
def lastTurn : List Step := lastHandles ++ [.move]

/-- With two events and one status on the links there are eight turns at most, and it may come to eight.  One
of them is left to a link when every handle is gone, and then the bridge waits for the handler only. -/
theorem crowded_comes_to_rest :
    let b := (fresh "svc" "handler" 0 (ScriptedHost.mk [] 0)).after crowded
    let b' := (fresh "svc" "handler" 0 (ScriptedHost.mk [] 0)).after (crowded ++ lastHandles)
    let b'' := (fresh "svc" "handler" 0 (ScriptedHost.mk [] 0)).after (crowded ++ lastTurn)
    (∀ later, (∀ a ∈ acts later, a.comes = false) → (turns (b.moves later)).length ≤ 8) ∧
    turns (b.moves (lastTurn ++ [.act (.finish (.exited .success)), .move])) =
      [.delivery, .control, .delivery, .control, .delivery, .status, .status, .completion] ∧
    (∀ later, (turns (b'.moves later)).count .control = 0 ∧ (turns (b'.moves later)).count .status ≤ 1) ∧
    b''.next? = none ∧
    ∀ s, b''.looksAt ⟨1, .awaiting, .ofState .running, false⟩ s = true → s = .delivery ∨ s = .completion := by
  intro b b' b''
  have hd : b.stage = .driving ⟨1, .holding .interrogate .placed, .stopped, true⟩ := by decide
  have hd' : b'.stage = .driving ⟨1, .awaiting, .ofState .running, true⟩ := by decide
  have hd'' : b''.stage = .driving ⟨1, .awaiting, .ofState .running, false⟩ := by decide
  have hrest : b.ComesToRest _ := comes_to_rest "svc" "handler" 0 (ScriptedHost.mk [] 0) crowded hd
  have hrest' : b'.ComesToRest _ :=
    comes_to_rest "svc" "handler" 0 (ScriptedHost.mk [] 0) (crowded ++ lastHandles) hd'
  have hrest'' : b''.ComesToRest _ :=
    comes_to_rest "svc" "handler" 0 (ScriptedHost.mk [] 0) (crowded ++ lastTurn) hd''
  have hnext : b''.next? = none := by decide
  refine ⟨fun later hnobody => ?_, by decide, fun later => ?_, hnext, ?_⟩
  · have hcontrol : b.control.parcels.length = 2 := by decide
    have hstatus : b.updates.parcels.length = 1 := by decide
    have hbounded := hrest.bounded later hnobody
    rwa [hcontrol, hstatus] at hbounded
  · have hstatus : b'.updates.parcels.length = 0 := by decide
    obtain ⟨hno, honce, -⟩ := hrest'.once ⟨by decide, by decide⟩ later
    rw [hstatus] at honce
    exact ⟨hno, honce⟩
  · exact hrest''.rests ⟨by decide, by decide⟩ hnext

end Bridge

end Steward

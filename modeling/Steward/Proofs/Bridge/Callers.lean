import Steward.Proofs.Bridge.Release
import Steward.Proofs.Link.Daybook

/-!
# Proofs/Bridge/Callers — the control link is served in order

Nobody who came to the control link is ever withdrawn from it.  So as long as the link is open, each
sender is served in its turn: its event is read, and it is told so.

* `serves_step`, `serves_after` — who was served, then who is still on the link, are all who came, in
  order.
* `listens_after` — the link is open until the end of the run.
-/

namespace Steward

namespace Link

variable {α : Type} {l l' : Link α}

/-- The sender whose item is in the slot waits for it to be taken. -/
def Waits (l : Link α) : Prop := ∀ p, l.slot = some p → p.awaited = true

theorem Waits.of_empty (h : l.slot = none) : l.Waits := fun p hp => by
  rw [h] at hp
  cases hp

theorem Waits.send (h : l.Waits) (p : Parcel α) : (l.send p).Waits := by
  unfold Link.send
  split
  · exact h
  · intro q hq
    obtain rfl := Option.some.inj hq
    rfl
  · exact h

theorem Waits.enter (h : l.Waits) : l.enter.Waits := by
  unfold Link.enter
  split
  · intro q hq
    obtain rfl := Option.some.inj hq
    rfl
  · exact h

theorem Stirs.waits (h : l.Stirs l') (hw : l.Waits) : l'.Waits := by
  cases h with
  | still | cloneOffer | dropOffer => exact hw
  | enter => exact hw.enter

theorem Stirs.parcels (h : l.Stirs l') : l'.parcels = l.parcels := by
  cases h with
  | still | cloneOffer | dropOffer => rfl
  | enter => exact parcels_enter l

theorem Stirs.closed (h : l.Stirs l') : l'.closed = l.closed := by
  cases h with
  | still | cloneOffer | dropOffer => rfl
  | enter => exact l.closed_enter

/-- What is in the slot stays there until it is taken. -/
theorem slot_send {p : Placed α} (hp : l.slot = some p) (q : Parcel α) : (l.send q).slot = some p := by
  unfold Link.send
  split
  · exact hp
  · rename_i hstart
    have hnot : l.start ≠ .placed := by
      unfold Link.start
      rw [hp]
      split <;> simp
    exact absurd hstart hnot
  · exact hp

theorem slot_enter {p : Placed α} (hp : l.slot = some p) : l.enter.slot = some p := by
  simp [enter, hp]

theorem Stirs.slot {p : Placed α} (h : l.Stirs l') (hp : l.slot = some p) : l'.slot = some p := by
  cases h with
  | still | cloneOffer | dropOffer => exact hp
  | enter => exact slot_enter hp

/-- Whose item is in the slot does not change by what happens from outside. -/
theorem Undergoes.slot_parcel {comes : Bool} {q : Parcel α} (h : l.Undergoes comes l')
    (hq : l.slot.map (·.toParcel) = some q) : l'.slot.map (·.toParcel) = some q := by
  obtain ⟨p, hp, hpq⟩ := Option.map_eq_some_iff.mp hq
  cases h with
  | still | cloneOffer | dropOffer => exact hq
  | send =>
    rw [slot_send hp]
    exact congrArg some hpq
  | lineUp =>
    unfold Link.lineUp
    split <;> exact hq
  | enter =>
    rw [slot_enter hp]
    exact congrArg some hpq
  | cancel ticket =>
    rw [Link.cancel, hp, ← hpq]
    change some (Placed.toParcel (if _ then _ else _)) = _
    split <;> rfl

/-- Who is first on a link gets into the slot. -/
theorem slot_of_enter (h : l.parcels ≠ []) : ∃ p, l.enter.slot = some p := by
  cases hslot : l.slot with
  | some p => exact ⟨p, slot_enter hslot⟩
  | none =>
    cases hline : l.line with
    | nil => simp [parcels, hslot, hline] at h
    | cons q rest => simp [enter, hslot, hline]

/-- What is in the slot is taken first. -/
theorem parcels_of_slot {p : Placed α} (hp : l.slot = some p) :
    l.parcels = p.toParcel :: l.take.parcels := by
  simp [parcels, take, hp]

end Link

namespace Bridge

variable {σ : Type} {b b' b'' : Bridge σ}

/-- Who comes to the control link in a step, as long as the link is open. -/
def caller? (b : Bridge σ) : Step → Option (Parcel ControlEvent)
  | .act (.offerControl ticket e) =>
    if b.canControl && !b.control.closed then some ⟨ticket, e⟩ else none
  | _ => none

/-- Who comes to the control link along a history, as long as the link is open, in order. -/
def callers [StatusHost σ] (b : Bridge σ) : List Step → List (Parcel ControlEvent)
  | [] => []
  | s :: later => (b.caller? s).toList ++ (b.step s).callers later

theorem callers_append [StatusHost σ] (b : Bridge σ) (h₁ h₂ : List Step) :
    b.callers (h₁ ++ h₂) = b.callers h₁ ++ (b.after h₁).callers h₂ := by
  induction h₁ generalizing b with
  | nil => rfl
  | cons s h₁ ih => rw [List.cons_append, callers, callers, ih, List.append_assoc, after_cons]

/-- From one state to another these came to the control link, and these were served: their events were
read, and they were told so. -/
structure Serves (b : Bridge σ) (came served : List (Parcel ControlEvent)) (b' : Bridge σ) : Prop where
  order : served ++ b'.control.parcels = b.control.parcels ++ came
  read : controlsRead b'.log = controlsRead b.log ++ served.map (·.item)
  told : controlsSent b'.log = controlsSent b.log ++ served.map fun p => (p.ticket, .taken)

theorem Serves.of_same {came : List (Parcel ControlEvent)}
    (parcels : b'.control.parcels = b.control.parcels ++ came)
    (read : controlsRead b'.log = controlsRead b.log)
    (told : controlsSent b'.log = controlsSent b.log) : b.Serves came [] b' :=
  ⟨parcels, read.trans (List.append_nil _).symm, told.trans (List.append_nil _).symm⟩

theorem Serves.refl (b : Bridge σ) : b.Serves [] [] b := .of_same (List.append_nil _).symm rfl rfl

theorem Serves.trans {came served came' served' : List (Parcel ControlEvent)}
    (h : b.Serves came served b') (h' : b'.Serves came' served' b'') :
    b.Serves (came ++ came') (served ++ served') b'' where
  order := by rw [List.append_assoc, h'.order, ← List.append_assoc, h.order, List.append_assoc]
  read := by rw [h'.read, h.read, List.map_append, List.append_assoc]
  told := by rw [h'.told, h.told, List.map_append, List.append_assoc]

/-- Who is served first is who has its event in the slot. -/
theorem Serves.first {came served : List (Parcel ControlEvent)} {p : Placed ControlEvent}
    (h : b.Serves came served b') (hp : b.control.slot = some p)
    (hread : controlsRead b'.log ≠ controlsRead b.log) : ∃ rest, served = p.toParcel :: rest := by
  cases hserved : served with
  | nil =>
    rw [h.read, hserved] at hread
    exact absurd (List.append_nil _) hread
  | cons q rest =>
    have horder := h.order
    rw [hserved, Link.parcels_of_slot hp] at horder
    obtain ⟨rfl, -⟩ := List.cons.inj horder
    exact ⟨rest, rfl⟩

/-! ## One step -/

/-- A move that reads an event serves the one who brought it. -/
theorem Makes.serves [StatusHost σ] {m : Move} (hm : b.Makes m b') (hw : b.control.Waits)
    (hopen : b'.control.closed = false) : ∃ served, b.Serves [] served b' := by
  have hread := hm.controlsRead
  have hsent := hm.controlsSent
  have hquiet : b'.control = b.control → m.event? = none → m.answers b = [] →
      ∃ served, b.Serves [] served b' := by
    intro hsame hevent hanswers
    rw [hevent] at hread
    rw [hanswers] at hsent
    refine ⟨[], .of_same ?_ (hread.trans (List.append_nil _)) (hsent.trans (List.append_nil _))⟩
    rw [hsame, List.append_nil]
  cases hm with
  | @read d p hs hm hp =>
    refine ⟨[p.toParcel], ?_, hread, ?_⟩
    · rw [read_control, List.append_nil, Link.parcels_of_slot hp]
      rfl
    · rw [hsent, Move.answers, hw p hp]
      rfl
  | @release ending next hs =>
    cases next with
    | closeControl => cases hopen
    | deregister | announce | signal =>
      refine hquiet rfl rfl ?_
      rw [Move.answers, hs]
      rfl
  | relay => exact hquiet (relay_control _ _ _) rfl rfl
  | @settle d c r => cases r <;> exact hquiet rfl rfl rfl
  | start | refuse | abandon | place | endStatuses | complete | report => exact hquiet rfl rfl rfl

theorem Makes.waits [StatusHost σ] {m : Move} (hm : b.Makes m b') (hw : b.control.Waits) :
    b'.control.Waits := by
  obtain ⟨hsame, -⟩ | ⟨-, -, -, -, -, -, htake⟩ | ⟨-, -, hclose⟩ := hm.control
  · rwa [hsame]
  · exact htake ▸ .of_empty rfl
  · exact hclose ▸ .of_empty rfl

theorem Happens.waits {a : Action} (ha : b.Happens a b') (hw : b.control.Waits) :
    b'.control.Waits := by
  obtain ⟨ticket, e, -, rfl⟩ | ⟨hstirs, -⟩ := ha.control
  · exact hw.send _
  · exact hstirs.waits hw

theorem Happens.control_slot {a : Action} {p : Placed ControlEvent} (ha : b.Happens a b')
    (hp : b.control.slot = some p) : b'.control.slot = some p := by
  obtain ⟨ticket, e, -, rfl⟩ | ⟨hstirs, -⟩ := ha.control
  · exact Link.slot_send hp _
  · exact hstirs.slot hp

/-- Who comes to the open link joins it at its end, and what happens otherwise serves nobody. -/
theorem serves_act (b : Bridge σ) (a : Action) (hopen : (b.act a).control.closed = false) :
    b.Serves (b.caller? (.act a)).toList [] (b.act a) := by
  by_cases hcalls : ∃ ticket e, a = .offerControl ticket e
  · obtain ⟨ticket, e, rfl⟩ := hcalls
    rw [act] at hopen ⊢
    rw [caller?]
    cases hcan : b.canControl with
    | false => exact .refl b
    | true =>
      rw [hcan, if_pos rfl] at hopen
      have hbefore : b.control.closed = false := (b.control.closed_send _).symm.trans hopen
      have hlog : (b.offerControl ticket e).log = b.log := by
        simp [Bridge.offerControl, hbefore]
      rw [hbefore, if_pos rfl]
      exact .of_same (b.control.parcels_send hbefore _) (congrArg _ hlog) (congrArg _ hlog)
  · have hnobody : b.caller? (.act a) = none := by
      unfold caller?
      split
      · rename_i h
        exact absurd ⟨_, _, Step.act.inj h⟩ hcalls
      · rfl
    have ha := happens_act b a
    obtain ⟨ticket, e, hcall, -⟩ | ⟨hstirs, hsent⟩ := ha.control
    · exact absurd ⟨ticket, e, hcall⟩ hcalls
    · rw [hnobody]
      exact .of_same (hstirs.parcels.trans (List.append_nil _).symm) ha.controlsRead hsent

/-- **Each step of an open link serves its first sender or nobody.** -/
theorem serves_step [StatusHost σ] (hw : b.control.Waits) (s : Step)
    (hopen : (b.step s).control.closed = false) :
    ∃ served, b.Serves (b.caller? s).toList served (b.step s) := by
  cases s with
  | act a => exact ⟨[], b.serves_act a hopen⟩
  | move =>
    cases hnext : b.next? with
    | none =>
      rw [step, hnext]
      exact ⟨[], .refl b⟩
    | some m =>
      simp only [step, hnext] at hopen ⊢
      exact (makes_perform hnext).serves hw hopen

theorem waits_step [StatusHost σ] (hw : b.control.Waits) (s : Step) : (b.step s).control.Waits := by
  cases s with
  | act a => exact (happens_act b a).waits hw
  | move =>
    cases hnext : b.next? with
    | none => rwa [step, hnext]
    | some m =>
      simp only [step, hnext]
      exact (makes_perform hnext).waits hw

/-! ## A history -/

/-- A closed link stays closed. -/
theorem closed_after [StatusHost σ] (hclosed : b.control.closed = true) (later : List Step) :
    (b.after later).control.closed = true := by
  refine invariant_after (P := fun _ _ (b : Bridge σ) => b.control.closed = true) ?_ ?_ hclosed later
  · intro as ms m b b' hclosed hm
    obtain ⟨hsame, -⟩ | ⟨-, -, -, -, -, -, htake⟩ | ⟨-, -, hclose⟩ := hm.control
    · rwa [hsame]
    · rwa [htake]
    · rw [hclose]
      rfl
  · intro as ms a b b' hclosed ha
    obtain ⟨ticket, e, -, rfl⟩ | ⟨hstirs, -⟩ := ha.control
    · exact (b.control.closed_send _).trans hclosed
    · exact hstirs.closed.trans hclosed

/-- **An open link serves its senders in the order in which they came.** -/
theorem serves_after [StatusHost σ] (hw : b.control.Waits) (history : List Step)
    (hopen : (b.after history).control.closed = false) :
    ∃ served, b.Serves (b.callers history) served (b.after history) := by
  induction history generalizing b with
  | nil => exact ⟨[], .refl b⟩
  | cons s later ih =>
    have hstep : (b.step s).control.closed = false := by
      refine Bool.eq_false_iff.mpr fun hclosed => ?_
      cases (closed_after hclosed later).symm.trans hopen
    obtain ⟨now, hnow⟩ := serves_step hw s hstep
    obtain ⟨served, hlater⟩ := ih (waits_step hw s) hopen
    exact ⟨now ++ served, hnow.trans hlater⟩

/-! ## As long as the run goes on -/

/-- The bridge listens to its callers: the control link is open until the end of the run, and who has its
event in the slot waits. -/
structure Listens (b : Bridge σ) : Prop where
  isOpen : b.stage.isOver = false → b.control.closed = false
  waits : b.control.Waits

theorem Listens.makes [StatusHost σ] {m : Move} (h : b.Listens) (hm : b.Makes m b') : b'.Listens where
  isOpen hover' := by
    have hover := hm.not_over hover'
    have hopen := h.isOpen hover
    cases hm with
    | read => rwa [read_control]
    | relay => rwa [relay_control]
    | @settle d c r => cases r <;> exact hopen
    | release hs =>
      rw [hs] at hover
      cases hover
    | start | refuse | abandon | place | endStatuses | complete | report => exact hopen
  waits := hm.waits h.waits

theorem Listens.happens {a : Action} (h : b.Listens) (ha : b.Happens a b') : b'.Listens where
  isOpen hover := by
    rw [ha.meets.stage_view Stage.isOver fun _ _ => rfl] at hover
    obtain ⟨ticket, e, -, rfl⟩ | ⟨hstirs, -⟩ := ha.control
    · exact (b.control.closed_send _).trans (h.isOpen hover)
    · exact hstirs.closed.trans (h.isOpen hover)
  waits := ha.waits h.waits

theorem Listens.after [StatusHost σ] (h : b.Listens) (later : List Step) : (b.after later).Listens :=
  invariant_after (P := fun _ _ (b : Bridge σ) => b.Listens) (fun h hm => h.makes hm)
    (fun h ha => h.happens ha) h later

/-- **Every bridge listens to its callers.** -/
theorem listens_after [StatusHost σ] (name handlerName : String) (context : Context) (host : σ)
    (history : List Step) : ((fresh name handlerName context host).after history).Listens :=
  Listens.after ⟨fun _ => rfl, .of_empty rfl⟩ history

/-- Its callers are served in order, as long as the run goes on. -/
theorem Listens.serves [StatusHost σ] (h : b.Listens) (later : List Step)
    (hover : (b.after later).stage.isOver = false) :
    ∃ served, b.Serves (b.callers later) served (b.after later) :=
  serves_after h.waits later ((h.after later).isOpen hover)

end Bridge

end Steward

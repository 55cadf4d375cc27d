import Steward.Proofs.Bridge.Acknowledgment
import Steward.Proofs.Bridge.Callers
import Steward.Proofs.Bridge.Cause
import Steward.Proofs.Bridge.Desertion

/-!
# Proofs/Bridge/Unblocked — a handler that gives up its requests blocks nobody

A bridge whose handler has given up its requests has no request that waits for the handler, so it needs no
more than two moves to be done with the one under way, and one more to read what is in the slot.  Whatever
happens in between does not matter, and nothing has to be done by the handler.  A bridge that has just
looked in vain at its first arm may spend one of these moves on another arm; only if that move ends the run
does it not come round to the first again (`ComesRound`).

* `Deserted.free_soon` — the request under way comes to its end.
* `Deserted.unblocked` — whoever comes to the control link is served, and each answer that is owed comes.
* `Deserted.reports_soon` — a status in the slot is reported.
* `desertion_blocks_nobody` — all this, for every run.
-/

namespace Steward

/-- How many moves a mailbox asks for before an event is read, if the handler takes no request. -/
def Mailbox.toGo : Mailbox → Nat
  | .holding _ (.fresh _) => 2
  | .holding _ _ => 1
  | .awaiting | .detached => 0

theorem Mailbox.toGo_le (m : Mailbox) : m.toGo ≤ 2 := by
  cases m with
  | holding c delivery => cases delivery <;> simp [toGo]
  | awaiting | detached => simp [toGo]

namespace Bridge

variable {σ : Type} {b b' b'' : Bridge σ} {d : Driving}

/-! ## Every caller is served -/

/-- Before the end of its run a deserted bridge drives the handler. -/
theorem Deserted.driving (h : b.Deserted) (hover : b.stage.isOver = false) :
    ∃ d, b.stage = .driving d := by
  cases hs : b.stage with
  | waiting => exact absurd hs h.begun
  | driving d => exact ⟨d, rfl⟩
  | finishing | releasing | ended =>
    rw [hs] at hover
    cases hover

/-- From one state to another the bridge does something about the request under way, and nothing else. -/
structure Carries (b b' : Bridge σ) : Prop where
  control : b'.control = b.control
  updates : b'.updates = b.updates
  deeds : deeds b'.log = deeds b.log

/-- Between its moves the stage of a deserted bridge stays as it is. -/
theorem Deserted.stage_until_move [StatusHost σ] (h : b.Deserted) (as : List Action) :
    (b.after (as.map .act)).stage = b.stage :=
  (holds_until_move (P := fun b' => b'.Deserted ∧ b'.stage = b.stage)
    (fun ⟨h, hs⟩ ha => ⟨h.meets ha.meets, (h.stage ha.meets).trans hs⟩) ⟨h, rfl⟩ as).2

/-- A request under way is taken one step on by the next move. -/
theorem Deserted.step_holding [StatusHost σ] (h : b.Deserted) (hs : b.stage = .driving d)
    (harm : b.arm = .mailbox) (hm : d.mailbox.isHolding = true) :
    ∃ d', (b.step .move).stage = .driving d' ∧ d'.mailbox.toGo + 1 = d.mailbox.toGo ∧
      (b.step .move).arm = .mailbox ∧ b.Carries (b.step .move) := by
  cases hmail : d.mailbox with
  | awaiting | detached =>
    rw [hmail] at hm
    cases hm
  | holding c delivery =>
    cases delivery with
    | placed => exact absurd hmail (h.unplaced d c hs)
    | fresh r =>
      have hstep : b.step .move = b.place d c r := by
        simp [step, (comesNext_place hs harm hmail).next, perform, hs, hmail]
      rw [hstep]
      exact ⟨_, (goesOn_place h.shut c r).stage, rfl, rfl, rfl, rfl, rfl⟩
    | resolved r =>
      have hstep : b.step .move = b.settle d c r := by
        simp [step, (comesNext_settle hs harm hmail).next, perform, hs, hmail]
      rw [hstep]
      cases r with
      | taken =>
        exact ⟨_, (goesOn_settle_taken c).stage, rfl, rfl, rfl, rfl, deeds_settle b d c .taken⟩
      | closed =>
        exact ⟨_, (goesOn_settle_closed c).stage, rfl, rfl, rfl, rfl, deeds_settle b d c .closed⟩

/-- With a request under way a deserted bridge has something to do for the mailbox. -/
theorem Deserted.mailboxMove_of_holding (h : b.Deserted) (hs : b.stage = .driving d)
    (hm : d.mailbox.isHolding = true) : ∃ m, b.mailboxMove? d = some m := by
  refine Option.ne_none_iff_exists'.mp fun hnone => ?_
  cases (h.free hs hnone).symm.trans hm

/-- **A deserted bridge at its first arm is soon free for the next event**, whatever happens meanwhile; and
what has nothing to do with the request under way, nor with what happens between the moves, holds as
before. -/
theorem Deserted.free_soon [StatusHost σ] {P : Bridge σ → Prop}
    (happens : ∀ {a : Action} {b b' : Bridge σ}, P b → b.Happens a b' → P b')
    (carries : ∀ {b b' : Bridge σ}, P b → b.Carries b' → P b')
    (h : b.Deserted) (hs : b.stage = .driving d) (harm : b.arm = .mailbox) (hb : P b) {more : List Step}
    (hmore : d.mailbox.toGo ≤ moveCount more) :
    ∃ early late d', more = early ++ late ∧ moveCount early ≤ d.mailbox.toGo ∧
      (b.after early).stage = .driving d' ∧ (b.after early).arm = .mailbox ∧
      d'.mailbox.isHolding = false ∧ P (b.after early) := by
  induction more generalizing b d with
  | nil =>
    cases hm : d.mailbox.isHolding with
    | false => exact ⟨[], [], d, rfl, Nat.zero_le _, hs, harm, hm, hb⟩
    | true =>
      obtain ⟨d₁, -, htogo, -⟩ := h.step_holding hs harm hm
      exact absurd (htogo ▸ hmore) (Nat.not_succ_le_zero _)
  | cons s more ih =>
    cases hm : d.mailbox.isHolding with
    | false => exact ⟨[], s :: more, d, rfl, Nat.zero_le _, hs, harm, hm, hb⟩
    | true =>
      cases s with
      | act a =>
        have ha := happens_act b a
        obtain ⟨m, hseen⟩ := h.mailboxMove_of_holding hs hm
        have harm' := (ha.arm_of_some hs (by rw [harm]; exact hseen)).trans harm
        obtain ⟨early, late, d', rfl, hlater⟩ :=
          ih (h.meets ha.meets) ((h.stage ha.meets).trans hs) harm' (happens hb ha) hmore
        exact ⟨.act a :: early, late, d', rfl, hlater⟩
      | move =>
        obtain ⟨d₁, hs₁, htogo, harm₁, hcarries⟩ := h.step_holding hs harm hm
        have hcount := moveCount_move more
        obtain ⟨early, late, d', rfl, hspent, hlater⟩ :=
          ih (h.after [.move]) hs₁ harm₁ (carries hb hcarries) (by omega)
        have hearly := moveCount_move early
        exact ⟨.move :: early, late, d', rfl, by omega, hlater⟩

/-- What was read, and who was told, stays so. -/
theorem prefix_controlsRead {l₁ l₂ : List Happening} (h : l₁ <+: l₂) : controlsRead l₁ <+: controlsRead l₂ :=
  h.filterMap _

theorem prefix_controlsSent {l₁ l₂ : List Happening} (h : l₁ <+: l₂) : controlsSent l₁ <+: controlsSent l₂ :=
  h.filterMap _

/-- What is not over was not over before. -/
theorem not_over_of_after [StatusHost σ] {later : List Step}
    (hover : (b.after later).stage.isOver = false) : b.stage.isOver = false :=
  Bool.eq_false_iff.mpr fun ho => by cases (refuses_after ho later).past.symm.trans hover

/-- The bridge comes round to its first arm: it is there, or the run goes on after its next move. -/
def ComesRound [StatusHost σ] (b : Bridge σ) (more : List Step) : Prop :=
  b.arm = .mailbox ∨ ∃ early late, more = early ++ late ∧ 1 ≤ moveCount early ∧
    (b.after early).stage.isOver = false

/-- A run that goes on comes round. -/
theorem comesRound_of_not_over [StatusHost σ] {more : List Step} (hmore : 1 ≤ moveCount more)
    (hover : (b.after more).stage.isOver = false) : b.ComesRound more :=
  .inr ⟨more, [], (List.append_nil _).symm, hmore, hover⟩

/-- Behind its first arm a bridge that comes round makes a move that does not end the run. -/
theorem ComesRound.first [StatusHost σ] {more : List Step} (h : b.ComesRound more)
    (hbehind : b.arm ≠ .mailbox) :
    ∃ (as : List Action) (late : List Step), more = as.map .act ++ .move :: late ∧
      moveCount late + 1 = moveCount more ∧
      ((b.after (as.map .act)).step .move).stage.isOver = false := by
  obtain ⟨early, rest, rfl, hmove, hover⟩ := h.resolve_left hbehind
  obtain ⟨as, late, rfl, hcount⟩ := exists_first_move hmove
  refine ⟨as, late ++ rest, by simp, ?_, ?_⟩
  · rw [moveCount_append, moveCount_append, ← hcount, Nat.add_right_comm]
  · rw [after_append, after_cons] at hover
    exact not_over_of_after hover

/-- What the next move of a bridge behind its first arm may be: it reads what is in the slot, or goes back to
the first arm, having reported a status or done with the request under way; or there is none. -/
inductive Turns [StatusHost σ] (b : Bridge σ) : Prop where
  | rests (hnext : b.next? = none)
  | reads {d : Driving} {p : Placed ControlEvent} (hs : b.stage = .driving d)
      (hfree : d.mailbox.isHolding = false) (hnext : b.next? = some (.read p)) (hp : b.control.slot = some p)
  | goesBack {d : Driving} (hs : (b.step .move).stage = .driving d) (harm : (b.step .move).arm = .mailbox)
      (htogo : d.mailbox.toGo ≤ 1) (control : (b.step .move).control = b.control)
      (what : (∃ p, b.next? = some (.relay p) ∧ b.updates.slot = some p) ∨ b.Carries (b.step .move))

/-- **Behind its first arm a bridge needs one move to come round**, unless that ends the run.  The request
under way is on the handler's link, or was, so it needs one more at most. -/
theorem Deserted.turns [StatusHost σ] (h : b.Deserted) (hfaces : b.Faces) (hbehind : b.arm ≠ .mailbox)
    (hover : (b.step .move).stage.isOver = false) : b.Turns := by
  have hunderway : ∀ d, b.stage = .driving d → d.mailbox.toGo ≤ 1 := by
    intro d hs
    cases hmail : d.mailbox with
    | awaiting | detached => exact Nat.zero_le 1
    | holding c delivery =>
      cases delivery with
      | fresh r => exact absurd (hfaces d c r hs hmail) hbehind
      | placed | resolved r => exact Nat.le_refl 1
  cases hnext : b.next? with
  | none => exact .rests hnext
  | some m =>
    have hm := makes_perform hnext
    have hstep : b.step .move = b.perform m := by simp only [step, hnext]
    have hback : ∀ {d : Driving}, (b.perform m).stage = .driving d → d.mailbox.toGo ≤ 1 →
        (b.perform m).control = b.control →
        ((∃ p, m = .relay p ∧ b.updates.slot = some p) ∨ b.Carries (b.perform m)) → b.Turns := by
      intro d hs htogo control what
      refine .goesBack (hstep ▸ hs) (hstep ▸ hm.arm hs) htogo (hstep ▸ control) ?_
      obtain ⟨p, rfl, hp⟩ | hcarries := what
      · exact .inl ⟨p, hnext, hp⟩
      · exact .inr (hstep ▸ hcarries)
    rw [hstep] at hover
    generalize b.perform m = b' at hm hover hback
    cases hm with
    | start hw | refuse hw | abandon hw => exact absurd hw h.begun
    | read hs hfree hp => exact .reads hs hfree hnext hp
    | place hs hmail => exact absurd (hfaces _ _ _ hs hmail) hbehind
    | @settle d c r =>
      cases r with
      | taken =>
        exact hback (goesOn_settle_taken c).stage (Nat.zero_le 1) rfl
          (.inr ⟨rfl, rfl, deeds_settle b d c .taken⟩)
      | closed =>
        exact hback (goesOn_settle_closed c).stage (Nat.zero_le 1) rfl
          (.inr ⟨rfl, rfl, deeds_settle b d c .closed⟩)
    | @relay d p hs _ _ hp =>
      cases hr : (StatusHost.report b.host d.handle (Record.ofStatus p.item .success)).2 with
      | ok => exact hback (goesOn_relay hr).stage (hunderway d hs) (relay_control b d p) (.inl ⟨p, rfl, hp⟩)
      | error e =>
        rw [(cutsOff_relay hr).stage] at hover
        cases hover
    | @endStatuses d hs =>
      exact hback (d := { d with statusesOpen := false }) rfl (hunderway d hs) rfl (.inr ⟨rfl, rfl, rfl⟩)
    | complete | report => cases hover
    | @release ending next => cases next <;> cases hover

/-- **A bridge that comes round is at its first arm, or its next move takes it there.** -/
theorem Deserted.comes_round [StatusHost σ] {more : List Step} (h : b.Deserted) (hfaces : b.Faces)
    (hround : b.ComesRound more) :
    ∃ early late, more = early ++ late ∧ (b.after early).stage = b.stage ∧
      (∀ {P : Bridge σ → Prop}, (∀ {a : Action} {b b' : Bridge σ}, P b → b.Happens a b' → P b') →
        P b → P (b.after early)) ∧
      ((b.after early).arm = .mailbox ∧ moveCount late = moveCount more ∨
        ∃ rest, late = .move :: rest ∧ moveCount rest + 1 = moveCount more ∧ (b.after early).Turns) := by
  by_cases harm : b.arm = .mailbox
  · exact ⟨[], more, rfl, rfl, fun _ hb => hb, .inl ⟨harm, rfl⟩⟩
  · obtain ⟨as, late, rfl, hcount, hover⟩ := hround.first harm
    refine ⟨as.map .act, .move :: late, rfl, h.stage_until_move as,
      fun happens hb => holds_until_move happens hb as, ?_⟩
    by_cases harm' : (b.after (as.map .act)).arm = .mailbox
    · exact .inl ⟨harm', (moveCount_move late).trans hcount⟩
    · exact .inr ⟨late, rfl, hcount, (h.after _).turns (hfaces.after _) harm' hover⟩

/-- **What is in the slot is read soon** by a bridge at its first arm. -/
theorem Deserted.reads_from_top [StatusHost σ] {p : Placed ControlEvent} (h : b.Deserted)
    (hs : b.stage = .driving d) (harm : b.arm = .mailbox) (hp : b.control.slot = some p)
    {more : List Step} (hmore : d.mailbox.toGo < moveCount more) :
    ∃ early late d', more = early ++ .move :: late ∧ (b.after early).stage = .driving d' ∧
      (b.after early).next? = some (.read p) := by
  obtain ⟨early, late, d', rfl, hspent, hs', harm', hfree, hp'⟩ :=
    h.free_soon (P := fun b => b.control.slot = some p) (fun hp ha => ha.control_slot hp)
      (fun hp hcarries => hcarries.control ▸ hp) hs harm hp (Nat.le_of_lt hmore)
  have hcount := moveCount_append early late
  obtain ⟨as, rest, rfl, -⟩ := exists_first_move (show 1 ≤ moveCount late by omega)
  refine ⟨early ++ as.map .act, rest, d', by simp, ?_, ?_⟩
  · rw [after_append]
    exact ((h.after early).stage_until_move as).trans hs'
  · rw [after_append]
    exact comesNext_read hs' harm' hfree hp' as

/-- With an event in the slot a deserted bridge has a move to make. -/
theorem Deserted.next?_of_slot [StatusHost σ] {p : Placed ControlEvent} (h : b.Deserted)
    (hs : b.stage = .driving d) (hp : b.control.slot = some p) : ∃ m, b.next? = some m := by
  refine Option.ne_none_iff_exists'.mp fun hnone => ?_
  rw [next?, hs] at hnone
  have hmove := (drivingMove?_eq_none.mp hnone).1
  cases (mailboxMove?_of_free (h.free hs hmove) hp).symm.trans hmove

/-- **What is in the slot is read soon.** -/
theorem Deserted.reads_soon [StatusHost σ] {p : Placed ControlEvent} (h : b.Deserted) (hfaces : b.Faces)
    (hover : b.stage.isOver = false) (hp : b.control.slot = some p) {more : List Step}
    (hround : b.ComesRound more) (hmore : 3 ≤ moveCount more) :
    ∃ early late d', more = early ++ .move :: late ∧ (b.after early).stage = .driving d' ∧
      (b.after early).next? = some (.read p) := by
  obtain ⟨d, hs⟩ := h.driving hover
  have htogo := d.mailbox.toGo_le
  obtain ⟨early, late, rfl, hsame, hkept, hwhere⟩ := h.comes_round hfaces hround
  have h₀ := h.after early
  have hs₀ := hsame.trans hs
  have hp₀ : (b.after early).control.slot = some p :=
    hkept (P := fun b => b.control.slot = some p) (fun hp ha => ha.control_slot hp) hp
  obtain ⟨harm, hcount⟩ | ⟨rest, rfl, hcount, hturns⟩ := hwhere
  · have henough : d.mailbox.toGo < moveCount late := by omega
    obtain ⟨early', rest, d', rfl, hread⟩ := h₀.reads_from_top hs₀ harm hp₀ henough
    refine ⟨early ++ early', rest, d', (List.append_assoc ..).symm, ?_⟩
    rw [after_append]
    exact hread
  · cases hturns with
    | rests hnext =>
      obtain ⟨m, hsome⟩ := h₀.next?_of_slot hs₀ hp₀
      cases hnext.symm.trans hsome
    | reads _ _ hnext hq =>
      obtain rfl := Option.some.inj (hq.symm.trans hp₀)
      exact ⟨early, rest, d, rfl, hs₀, hnext⟩
    | @goesBack d₁ hs₁ harm htogo₁ control =>
      have henough : d₁.mailbox.toGo < moveCount rest := by omega
      obtain ⟨early', rest, d', rfl, hread⟩ :=
        (h₀.after [.move]).reads_from_top hs₁ harm (control.symm ▸ hp₀) henough
      refine ⟨early ++ .move :: early', rest, d', by simp, ?_⟩
      rw [after_append]
      exact hread

/-- To read the event in the slot is to serve the one who is first, also if that ends the run. -/
theorem Listens.serves_read [StatusHost σ] {early : List Step} {p : Placed ControlEvent} (h : b.Listens)
    (hp : b.control.slot = some p) (hs : (b.after early).stage = .driving d)
    (hnext : (b.after early).next? = some (.read p)) :
    ∃ came rest, b.Serves came (p.toParcel :: rest) (b.after (early ++ [.move])) := by
  have hopen : (b.after early).control.closed = false :=
    (h.after early).isOpen (by rw [hs]; rfl)
  have hstep : b.after (early ++ [.move]) = (b.after early).read d p := by
    rw [after_append]
    change (b.after early).step .move = _
    simp [step, hnext, perform, hs]
  have hread : controlsRead (b.after (early ++ [.move])).log =
      controlsRead (b.after early).log ++ [p.item] := by
    rw [hstep, ← controlsRead_deeds, deeds_read, controlsRead_append, controlsRead_deeds]
    rfl
  obtain ⟨earlier, hbefore⟩ := serves_after h.waits early hopen
  obtain ⟨served, hserves⟩ := serves_after h.waits (early ++ [.move])
    (by rw [hstep, read_control]; exact hopen)
  have hnew : controlsRead (b.after (early ++ [.move])).log ≠ controlsRead b.log := by
    intro hsame
    have hlength := congrArg List.length (hread.symm.trans hsame)
    rw [hbefore.read, List.length_append, List.length_append, List.length_singleton] at hlength
    omega
  obtain ⟨rest, rfl⟩ := hserves.first hp hnew
  exact ⟨_, rest, hserves⟩

/-- **Who has its event in the slot is served soon**, and a flagged event ends the run. -/
theorem Deserted.serves_soon [StatusHost σ] {p : Placed ControlEvent} (h : b.Deserted) (hfaces : b.Faces)
    (hl : b.Listens) (hover : b.stage.isOver = false) (hp : b.control.slot = some p) {more : List Step}
    (hround : b.ComesRound more) (hmore : 3 ≤ moveCount more) :
    controlsRead b.log ++ [p.item] <+: controlsRead (b.after more).log ∧
      controlsSent b.log ++ [(p.ticket, .taken)] <+: controlsSent (b.after more).log ∧
      ∀ code, p.item.error = some code →
        (b.after more).verdict? = some (.ofService code, true) := by
  obtain ⟨early, late, d', rfl, hs', hnext⟩ := h.reads_soon hfaces hover hp hround hmore
  obtain ⟨came, rest, hserves⟩ := hl.serves_read hp hs' hnext
  have hlater : b.after (early ++ .move :: late) = (b.after (early ++ [.move])).after late := by
    rw [← after_append, List.append_assoc]
    rfl
  have hlog : (b.after (early ++ [.move])).log <+: (b.after (early ++ .move :: late)).log :=
    hlater ▸ log_after _ late
  refine ⟨.trans ?_ (prefix_controlsRead hlog), .trans ?_ (prefix_controlsSent hlog), fun code he => ?_⟩
  · rw [hserves.read, List.map_cons]
    exact (List.prefix_append_right_inj _).mpr (List.prefix_append [p.item] _)
  · rw [hserves.told, List.map_cons]
    exact (List.prefix_append_right_inj _).mpr (List.prefix_append [(p.ticket, SendResult.taken)] _)
  · rw [hlater, after_append]
    exact verdict?_after (step_read_flagged hs' hnext he).2.1 late

/-- As long as the run goes on, what was told of as dropped, or is owed, is so later. -/
theorem Deserted.told_grows [StatusHost σ] (h : b.Deserted) (later : List Step)
    (hover : (b.after later).stage.isOver = false) :
    Event.commandsOf .requestDropped (events b.log) ++ b.stage.owed <+:
      Event.commandsOf .requestDropped (events (b.after later).log) ++ (b.after later).stage.owed := by
  obtain ⟨es, left, hanswers, hleft⟩ := h.answers_after later
  have hnothing : left.isHolding = false := by
    refine Bool.eq_false_iff.mpr fun hholding => ?_
    cases hover.symm.trans (hleft hholding).1
  have hdropped := hanswers.tells.dropped
  rw [Mailbox.unresolved_of_not_holding hnothing, List.append_nil] at hdropped
  exact ⟨unflagged es, hdropped.symm⟩

/-- With no request under way nothing is owed any more. -/
theorem Deserted.told_of_free [StatusHost σ] (h : b.Deserted) {early : List Step}
    (hs : (b.after early).stage = .driving d) (hfree : d.mailbox.isHolding = false) (late : List Step) :
    Event.commandsOf .requestDropped (events b.log) ++ b.stage.owed <+:
      Event.commandsOf .requestDropped (events (b.after (early ++ late)).log) := by
  have hgrows := h.told_grows early (by rw [hs]; rfl)
  have howed : (b.after early).stage.owed = [] := by
    rw [hs]
    exact Mailbox.unresolved_of_not_holding hfree
  rw [howed, List.append_nil] at hgrows
  rw [after_append]
  exact hgrows.trans (((log_after _ late).filterMap _).filterMap _)

/-- The answer that is owed comes soon if the bridge is at its first arm. -/
theorem Deserted.told_from_top [StatusHost σ] (h : b.Deserted) (hs : b.stage = .driving d)
    (harm : b.arm = .mailbox) {more : List Step} (hmore : d.mailbox.toGo ≤ moveCount more) :
    Event.commandsOf .requestDropped (events b.log) ++ b.stage.owed <+:
      Event.commandsOf .requestDropped (events (b.after more).log) := by
  obtain ⟨early, late, d', rfl, -, hs', -, hfree, -⟩ :=
    h.free_soon (P := fun _ => True) (fun _ _ => trivial) (fun _ _ => trivial) hs harm trivial hmore
  exact h.told_of_free hs' hfree late

/-- **The answer that is owed comes soon.** -/
theorem Deserted.told_soon [StatusHost σ] (h : b.Deserted) (hfaces : b.Faces)
    (hover : b.stage.isOver = false) {more : List Step} (hround : b.ComesRound more)
    (hmore : 2 ≤ moveCount more) :
    Event.commandsOf .requestDropped (events b.log) ++ b.stage.owed <+:
      Event.commandsOf .requestDropped (events (b.after more).log) := by
  obtain ⟨d, hs⟩ := h.driving hover
  obtain ⟨early, late, rfl, hsame, -, hwhere⟩ := h.comes_round hfaces hround
  have h₀ := h.after early
  have hs₀ := hsame.trans hs
  have hgrows := h.told_grows early (by rw [hs₀]; rfl)
  obtain ⟨harm, hcount⟩ | ⟨rest, rfl, hcount, hturns⟩ := hwhere
  · rw [after_append]
    exact hgrows.trans (h₀.told_from_top hs₀ harm ((d.mailbox.toGo_le.trans hmore).trans_eq hcount.symm))
  · cases hturns with
    | rests hnext =>
      have hfree := h₀.free hs₀ ((next?_eq_none_of_driving hs₀).mp hnext).1
      exact h.told_of_free hs₀ hfree _
    | reads hs₁ hfree => exact h.told_of_free hs₁ hfree _
    | goesBack hs₁ harm htogo =>
      have hover₁ : ((b.after early).step .move).stage.isOver = false := by rw [hs₁]; rfl
      rw [after_append, after_cons]
      exact (hgrows.trans (h₀.told_grows [.move] hover₁)).trans
        ((h₀.after [.move]).told_from_top hs₁ harm (by omega))

/-- A round: who is first in line gets to put its event into the slot, and then the bridge gets to run
three times, in between anything. -/
def IsRound (r : List Step) : Prop :=
  ∃ early late, r = early ++ .act .enterControl :: late ∧ 3 ≤ moveCount late

/-- When the one who is first gets into the slot, its event is read soon. -/
theorem Deserted.serves_entered [StatusHost σ] (h : b.Deserted) (hfaces : b.Faces) (hl : b.Listens)
    (hsome : b.control.parcels ≠ []) {late : List Step} (hlate : 3 ≤ moveCount late)
    (hover : ((b.act .enterControl).after late).stage.isOver = false) :
    (controlsRead b.log).length < (controlsRead ((b.act .enterControl).after late).log).length := by
  have henters : b.Happens .enterControl (b.act .enterControl) := .enterControl
  obtain ⟨p, hp⟩ := Link.slot_of_enter hsome
  obtain ⟨hread, -⟩ := (h.meets henters.meets).serves_soon (hfaces.happens henters) (hl.happens henters)
    (not_over_of_after hover) hp (comesRound_of_not_over (by omega) hover) hlate
  have hlength := hread.length_le
  rwa [List.length_append, List.length_singleton, henters.controlsRead] at hlength

/-- In a round somebody is served, if somebody is on the link. -/
theorem Deserted.serves_round [StatusHost σ] (h : b.Deserted) (hfaces : b.Faces) (hl : b.Listens)
    {r : List Step}
    (hr : IsRound r) (hover : (b.after r).stage.isOver = false) :
    ∃ served, b.Serves (b.callers r) served (b.after r) ∧ (b.control.parcels ≠ [] → served ≠ []) := by
  obtain ⟨served, hserves⟩ := hl.serves r hover
  refine ⟨served, hserves, ?_⟩
  rintro hsome rfl
  obtain ⟨early, late, rfl, hlate⟩ := hr
  have hnobody := hserves.read
  rw [List.map_nil, List.append_nil, after_append] at hnobody
  rw [after_append] at hover
  have hover₁ := not_over_of_after hover
  obtain ⟨earlier, hbefore⟩ := hl.serves early hover₁
  have horder := hbefore.order
  have hread := hbefore.read
  cases earlier with
  | nil =>
    have hfirst : (b.after early).control.parcels ≠ [] := by
      rw [List.nil_append] at horder
      simp [horder, hsome]
    have hgrown :=
      (h.after early).serves_entered (hfaces.after early) (hl.after early) hfirst hlate hover
    rw [hread, List.map_nil, List.append_nil, ← hnobody] at hgrown
    exact absurd hgrown (Nat.lt_irrefl _)
  | cons p rest =>
    have hkept := (prefix_controlsRead (log_after (b.after early) (.act .enterControl :: late))).length_le
    rw [hnobody, hread, List.length_append, List.length_map, List.length_cons] at hkept
    omega

/-- **In as many rounds as there are senders on the link all of them are served**, as long as the run goes
on. -/
theorem Deserted.serves_rounds [StatusHost σ] (h : b.Deserted) (hfaces : b.Faces) (hl : b.Listens)
    {rounds : List (List Step)}
    (hrounds : ∀ r ∈ rounds, IsRound r) (hover : (b.after rounds.flatten).stage.isOver = false) :
    ∃ served, b.Serves (b.callers rounds.flatten) served (b.after rounds.flatten) ∧
      min rounds.length b.control.parcels.length ≤ served.length := by
  induction rounds generalizing b with
  | nil => exact ⟨[], .refl b, by simp⟩
  | cons r rounds ih =>
    obtain ⟨hr, hrounds⟩ := List.forall_mem_cons.mp hrounds
    rw [List.flatten_cons, after_append] at hover ⊢
    obtain ⟨now, hnow, hsome⟩ := h.serves_round hfaces hl hr (not_over_of_after hover)
    obtain ⟨served, hserves, hcount⟩ := ih (h.after r) (hfaces.after r) (hl.after r) hrounds hover
    refine ⟨now ++ served, ?_, ?_⟩
    · rw [callers_append]
      exact hnow.trans hserves
    · have horder := congrArg List.length hnow.order
      rw [List.length_append, List.length_append] at horder
      rw [← List.length_pos_iff, ← List.length_pos_iff] at hsome
      rw [List.length_append, List.length_cons]
      omega

/-- **A deserted bridge that can only wait has served everybody**, and owes no answer. -/
theorem Deserted.rest [StatusHost σ] (h : b.Deserted) (hover : b.stage.isOver = false)
    (hnext : b.next? = none) (hgranted : b.control.granted? = none) :
    b.control.parcels = [] ∧ b.stage.owed = [] := by
  obtain ⟨d, hs⟩ := h.driving hover
  have hmove := ((next?_eq_none_of_driving hs).mp hnext).1
  have hfree := h.free hs hmove
  have hslot : b.control.slot = none := by
    refine Option.eq_none_iff_forall_ne_some.mpr fun p hp => ?_
    cases (mailboxMove?_of_free hfree hp).symm.trans hmove
  have hline : b.control.line = [] := by simpa [Link.granted?, hslot] using hgranted
  refine ⟨by rw [Link.parcels, hslot, hline]; rfl, ?_⟩
  rw [hs]
  exact Mailbox.unresolved_of_not_holding hfree

/-! ## Statuses are reported as before -/

theorem prefix_relayed {l₁ l₂ : List Happening} (h : l₁ <+: l₂) : relayed l₁ <+: relayed l₂ := h.filterMap _

/-- The bridge reports the status in the slot. -/
theorem reports_next [StatusHost σ] {p : Placed Status} (hnext : b.next? = some (.relay p))
    (late : List Step) :
    (relayed b.log).map (·.1) ++ [p.toParcel] <+:
      (relayed (b.after (.move :: late)).log).map (·.1) := by
  have hstep : b.step .move = b.perform (.relay p) := by simp only [step, hnext]
  have hreported : relayed (b.step .move).log =
      relayed b.log ++ [(p.toParcel, Record.ofStatus p.item .success)] :=
    hstep ▸ (makes_perform hnext).relayed
  rw [after_cons]
  refine .trans ?_ ((prefix_relayed (log_after _ late)).map _)
  rw [hreported, List.map_append]
  exact List.prefix_rfl

/-- With a status in the slot there is something at the second arm. -/
theorem Attended.statusMove {p : Placed Status} (h : Attended b) (hs : b.stage = .driving d)
    (hp : b.updates.slot = some p) : b.statusMove? d = some (.relay p) := by
  have hopen : d.statusesOpen = true := by
    refine Bool.of_not_eq_false fun hended => ?_
    rw [(h.driving hs).2 hended] at hp
    cases hp
  simp [statusMove?, hopen, Link.poll, hp]

/-- So the bridge does not go past that arm. -/
theorem Attended.arm {a : Action} {p : Placed Status} (h : Attended b) (ha : b.Happens a b')
    (hp : b.updates.slot = some p) (harm : b.arm ≠ .completion) : b'.arm ≠ .completion := by
  obtain hsame | ⟨-, hnext, d, hs, hnone⟩ := ha.arm
  · rwa [hsame]
  · rw [hnext]
    cases hbefore : b.arm with
    | mailbox => nofun
    | status =>
      rw [hbefore] at hnone
      cases (h.statusMove hs hp).symm.trans hnone
    | completion => exact absurd hbefore harm

/-- With nothing to do for the mailbox the bridge reports the status in the slot, unless it is past that. -/
theorem next?_of_status {p : Placed Status} (h : Attended b) (hs : b.stage = .driving d)
    (harm : b.arm ≠ .completion) (hm : b.mailboxMove? d = none) (hp : b.updates.slot = some p) :
    b.next? = some (.relay p) := by
  have hstatus := h.statusMove hs hp
  cases hwhere : b.arm with
  | mailbox => simp [next?, hs, drivingMove?, hwhere, Arm.next, armMove?, hm, hstatus]
  | status => simp [next?, hs, drivingMove?, hwhere, armMove?, hstatus]
  | completion => exact absurd hwhere harm

/-- From one state to another no status was reported, and then this one is in the slot. -/
structure Keeps (b : Bridge σ) (q : Parcel Status) (b' : Bridge σ) : Prop where
  slot : b'.updates.slot.map (·.toParcel) = some q
  same : relayed b'.log = relayed b.log

theorem Keeps.happens {a : Action} {q : Parcel Status} (h : b.Keeps q b') (ha : b'.Happens a b'') :
    b.Keeps q b'' := ⟨ha.undergoes_updates.slot_parcel h.slot, ha.relayed.trans h.same⟩

theorem Keeps.carries {q : Parcel Status} (h : b.Keeps q b') (hcarries : b'.Carries b'') : b.Keeps q b'' where
  slot := hcarries.updates ▸ h.slot
  same := by rw [← relayed_deeds, hcarries.deeds, relayed_deeds, h.same]

/-- A status in the slot is reported soon if the bridge is at its first arm, as long as no control event comes
before it. -/
theorem Deserted.reports_from_top [StatusHost σ] {q : Parcel Status} (h : b.Deserted) (hattended : Attended b)
    (hs : b.stage = .driving d) (harm : b.arm = .mailbox) (hq : b.updates.slot.map (·.toParcel) = some q)
    {more : List Step} (hquiet : ∀ early, early <+: more → (b.after early).control.slot = none)
    (hmore : d.mailbox.toGo < moveCount more) :
    (relayed b.log).map (·.1) ++ [q] <+: (relayed (b.after more).log).map (·.1) := by
  obtain ⟨early, late, d', rfl, hspent, hs', harm', hfree, hkeeps⟩ := h.free_soon (P := b.Keeps q)
    (fun hkeeps ha => hkeeps.happens ha) (fun hkeeps hcarries => hkeeps.carries hcarries)
    hs harm ⟨hq, rfl⟩ (Nat.le_of_lt hmore)
  have hcount := moveCount_append early late
  obtain ⟨as, rest, rfl, -⟩ := exists_first_move (show 1 ≤ moveCount late by omega)
  have hstage := ((h.after early).stage_until_move as).trans hs'
  -- until the bridge gets to run it may look at the mailbox in vain, but not at the status link
  obtain ⟨hattended', hkeeps', harm''⟩ := holds_until_move
    (P := fun b' => Attended b' ∧ b.Keeps q b' ∧ b'.arm ≠ .completion)
    (fun ⟨hattended, hkeeps, harm⟩ ha => by
      obtain ⟨p, hp, -⟩ := Option.map_eq_some_iff.mp hkeeps.slot
      exact ⟨hattended.happens ha, hkeeps.happens ha, hattended.arm ha hp harm⟩)
    ⟨hattended.after early, hkeeps, by rw [harm']; nofun⟩ as
  obtain ⟨p, hp, rfl⟩ := Option.map_eq_some_iff.mp hkeeps'.slot
  have hnone : ((b.after early).after (as.map .act)).mailboxMove? d' = none := by
    have hslot := hquiet (early ++ as.map .act) ⟨.move :: rest, by simp⟩
    rw [after_append] at hslot
    cases hmail : d'.mailbox with
    | holding => simp [hmail, Mailbox.isHolding] at hfree
    | awaiting | detached => simp [mailboxMove?, hmail, hslot]
  have hnext := next?_of_status hattended' hstage harm'' hnone hp
  rw [after_append, after_append, ← hkeeps'.same]
  exact reports_next hnext rest

/-- **A status in the slot is reported soon**, as long as no control event comes before it. -/
theorem Deserted.reports_soon [StatusHost σ] {q : Parcel Status} (h : b.Deserted) (hfaces : b.Faces)
    (hattended : Attended b) (hover : b.stage.isOver = false)
    (hq : b.updates.slot.map (·.toParcel) = some q) {more : List Step} (hround : b.ComesRound more)
    (hquiet : ∀ early, early <+: more → (b.after early).control.slot = none) (hmore : 3 ≤ moveCount more) :
    (relayed b.log).map (·.1) ++ [q] <+: (relayed (b.after more).log).map (·.1) := by
  obtain ⟨d, hs⟩ := h.driving hover
  have htogo := d.mailbox.toGo_le
  obtain ⟨early, late, rfl, hsame, hkept, hwhere⟩ := h.comes_round hfaces hround
  have h₀ := h.after early
  have hs₀ := hsame.trans hs
  have hattended₀ := hattended.after early
  have hkeeps : b.Keeps q (b.after early) := hkept (P := b.Keeps q) (fun h ha => h.happens ha) ⟨hq, rfl⟩
  obtain ⟨p, hp, hpq⟩ := Option.map_eq_some_iff.mp hkeeps.slot
  rw [after_append, ← hkeeps.same]
  obtain ⟨harm, hcount⟩ | ⟨rest, rfl, hcount, hturns⟩ := hwhere
  · refine h₀.reports_from_top hattended₀ hs₀ harm hkeeps.slot (fun more hmore => ?_) (by omega)
    rw [← after_append]
    exact hquiet _ ((List.prefix_append_right_inj _).mpr hmore)
  · cases hturns with
    | rests hnext =>
      have hnone := ((next?_eq_none_of_driving hs₀).mp hnext).2.1
      cases (hattended₀.statusMove hs₀ hp).symm.trans hnone
    | reads _ _ _ hread => cases hread.symm.trans (hquiet early (List.prefix_append _ _))
    | goesBack hs₁ harm htogo₁ _ what =>
      obtain ⟨p', hnext, hp'⟩ | hcarries := what
      · obtain rfl := Option.some.inj (hp'.symm.trans hp)
        exact hpq ▸ reports_next hnext rest
      · have hkeeps₁ := hkeeps.carries hcarries
        rw [hkeeps.same, ← hkeeps₁.same, after_cons]
        refine (h₀.after [.move]).reports_from_top (hattended₀.after [.move]) hs₁ harm hkeeps₁.slot
          (fun more hmore => ?_) (by omega)
        have hprefix : early ++ .move :: more <+: early ++ .move :: rest :=
          (List.prefix_append_right_inj _).mpr ((List.prefix_cons_inj _).mpr hmore)
        have hslot := hquiet _ hprefix
        rwa [after_append] at hslot

/-! ## Nobody is blocked -/

/-- Nobody at the control link waits for the handler: whoever is there is served, in order, and is told so;
a flagged event ends the run with its error; and each answer that is owed comes. -/
structure Unblocked [StatusHost σ] (b : Bridge σ) : Prop where
  /-- What is in the slot is read within three moves. -/
  soon : ∀ p more, b.control.slot = some p → b.ComesRound more → 3 ≤ moveCount more →
    controlsRead b.log ++ [p.item] <+: controlsRead (b.after more).log ∧
      controlsSent b.log ++ [(p.ticket, .taken)] <+: controlsSent (b.after more).log
  flagged : ∀ p more code, b.control.slot = some p → b.ComesRound more → 3 ≤ moveCount more →
    p.item.error = some code → (b.after more).verdict? = some (.ofService code, true) ∧
      ∃ n, ((b.after more).after (List.replicate n .move)).ending? =
        some (.stopped (.ofService code) true)
  /-- Those on the link are served in as many rounds, or the run is over. -/
  rounds : ∀ rounds : List (List Step), (∀ r ∈ rounds, IsRound r) →
    b.control.parcels.length ≤ rounds.length → (b.after rounds.flatten).stage.isOver = false →
    ∃ served, b.Serves (b.callers rounds.flatten) served (b.after rounds.flatten) ∧
      b.control.parcels <+: served
  /-- The answer that is owed comes within two moves. -/
  told : ∀ more, b.ComesRound more → 2 ≤ moveCount more →
    Event.commandsOf .requestDropped (events b.log) ++ b.stage.owed <+:
      Event.commandsOf .requestDropped (events (b.after more).log)
  rest : b.next? = none → b.control.granted? = none → b.control.parcels = [] ∧ b.stage.owed = []

/-- **A deserted bridge blocks nobody.** -/
theorem Deserted.unblocked [StatusHost σ] (h : b.Deserted) (hfaces : b.Faces) (hl : b.Listens)
    (hover : b.stage.isOver = false) : b.Unblocked where
  soon p more hp hround hmore := by
    obtain ⟨hread, hsent, -⟩ := h.serves_soon hfaces hl hover hp hround hmore
    exact ⟨hread, hsent⟩
  flagged p more code hp hround hmore he := by
    obtain ⟨-, -, hends⟩ := h.serves_soon hfaces hl hover hp hround hmore
    exact ⟨hends code he, ends_of_verdict (hends code he)⟩
  rounds rounds hrounds henough hover' := by
    obtain ⟨served, hserves, hcount⟩ := h.serves_rounds hfaces hl hrounds hover'
    rw [min_eq_right henough] at hcount
    have hserved : served <+: b.control.parcels ++ b.callers rounds.flatten :=
      ⟨_, hserves.order⟩
    exact ⟨served, hserves,
      List.prefix_of_prefix_length_le (List.prefix_append _ _) hserved hcount⟩
  told more hround hmore := h.told_soon hfaces hover hround hmore
  rest hnext hgranted := h.rest hover hnext hgranted

/-- Statuses are reported and acknowledged: a sender that was not withdrawn is told that its status was taken
exactly if it was reported, nobody is refused, and nobody is kept waiting. -/
structure Acknowledges [StatusHost σ] (k : Daybook Status) (b : Bridge σ) : Prop where
  taken : ∀ p ∈ k.came, p.ticket ∉ k.withdrawn →
    ((p.ticket, .taken) ∈ statusesSent b.log ↔ p.ticket ∈ (relayed b.log).map (·.1.ticket))
  unrefused : ∀ t, (t, .closed) ∉ statusesSent b.log
  once : ((relayed b.log).map (·.1.ticket)).Nodup
  order : (relayed b.log).map (·.1) <+: k.sent
  record : ∀ call ∈ relayed b.log, call.2 = Record.ofStatus call.1.item .success
  /-- What is in the slot is reported within three moves, as long as no control event comes before it. -/
  soon : ∀ q more, b.updates.slot.map (·.toParcel) = some q →
    b.ComesRound more → (∀ early, early <+: more → (b.after early).control.slot = none) →
    3 ≤ moveCount more → (relayed b.log).map (·.1) ++ [q] <+: (relayed (b.after more).log).map (·.1)
  rest : b.next? = none → b.updates.granted? = none → ∀ p ∈ k.came, p.ticket ∉ k.withdrawn →
    (p.ticket, .taken) ∈ statusesSent b.log

/-- **A deserted bridge goes on to report statuses and to acknowledge them.** -/
theorem Deserted.acknowledges [StatusHost σ] {k : Daybook Status} (h : b.Deserted) (hfaces : b.Faces)
    (hbooked : Booked k b) (hattended : Attended b) (hover : b.stage.isOver = false)
    (hrecord : ∀ call ∈ relayed b.log, call.2 = Record.ofStatus call.1.item .success) :
    b.Acknowledges k := by
  have htallies : (b.daybook k).Tallies b.updates := hbooked
  obtain ⟨d, hs⟩ := h.driving hover
  have hopen : b.updates.closed = false := (hattended.driving hs).1.isOpen
  have hcalls : (b.daybook k).taken.map (·.ticket) = (relayed b.log).map (·.1.ticket) := List.map_map
  constructor
  · exact fun p _ hw => hcalls ▸ htallies.taken_iff hw
  · intro t hclosed
    cases (htallies.taken_of_open hopen hclosed).1
  · exact hcalls ▸ htallies.sent_nodup.sublist (htallies.begins.sublist.map _)
  · exact htallies.begins
  · exact hrecord
  · exact fun q more hq hround hquiet hmore =>
      h.reports_soon hfaces hattended hover hq hround hquiet hmore
  · intro hnext hgranted p hp hw
    have hdone := (htallies.done_or_unfinished (List.mem_map_of_mem hp) hw).resolve_right
      (by rw [hattended.nobody (.inl ⟨hnext, hgranted⟩)]; exact List.not_mem_nil)
    obtain ⟨⟨t, r⟩, hmem, rfl⟩ := List.mem_map.mp hdone
    obtain ⟨rfl, -⟩ := htallies.taken_of_open hopen hmem
    exact hmem

/-- A run in which the handler is there has begun. -/
theorem begun_of_running [StatusHost σ] (name handlerName : String) (context : Context) (host : σ)
    (history : List Step) (hr : ((fresh name handlerName context host).after history).handler = .running) :
    ((fresh name handlerName context host).after history).stage ≠ .waiting := by
  intro hw
  have haccount := accounted_after name handlerName context host history
  unfold Accounted at haccount
  rw [hw] at haccount
  cases haccount with
  | waiting _ untold => cases untold.absent.symm.trans hr

/-- As long as the handler is driven no flagged event was read. -/
theorem unflagged_of_driving [StatusHost σ] {ms : List Move} (h : Judged ms b)
    (hs : b.stage = .driving d) :
    ∀ e ∈ controlsRead b.log, e.error = none := by
  intro e he
  obtain ⟨hnone, -⟩ := h.undecided (verdict?_driving hs)
  obtain ⟨x, hx, hread⟩ := List.mem_filterMap.mp he
  have hcause := List.filterMap_eq_nil_iff.mp (List.append_eq_nil_iff.mp hnone).1 x hx
  cases x with
  | read e' =>
    obtain rfl := Option.some.inj hread
    exact Option.map_eq_none_iff.mp hcause
  | _ => cases hread

/-- **A handler that gives up its requests while it runs blocks nobody**, whatever was under way then, and
whatever happens later: each event read since is answered, in order, and none is delivered.  Only the end of
the run may come before the last answer, in a pass that had looked at the delivery in vain.  As long as the
run goes on those who come to the control link are served in order, and nobody waits for the handler, neither
there nor for the report of a status. -/
theorem desertion_blocks_nobody [StatusHost σ] (name handlerName : String) (context : Context) (host : σ)
    (before later : List Step)
    (hruns : ((fresh name handlerName context host).after before).handler = .running) :
    let start := fresh name handlerName context host
    let atDrop := start.after before
    let b := start.after (before ++ .act .dropRequests :: later)
    let k := start.bookings (before ++ .act .dropRequests :: later)
    (∃ es left, atDrop.Answers es left b ∧
      (left.isHolding = true → b.stage.isOver = true ∧ (atDrop.arm = .mailbox → .pass ∈ acts later))) ∧
    (b.stage.isOver = false →
      (∃ served, atDrop.Serves (atDrop.callers (.act .dropRequests :: later)) served b) ∧
      (∀ e ∈ controlsRead b.log, e.error = none) ∧
      b.Unblocked ∧
      (k.tickets.Nodup → b.Acknowledges k)) := by
  intro start atDrop b k
  have hdrop : atDrop.act .dropRequests = atDrop.dropRequests := by
    rw [act, hasTaker_of_running hruns]
    rfl
  have hafter : b = atDrop.dropRequests.after later := by
    rw [← hdrop]
    exact after_append start before _
  have hdropped := deserted_of_drop (begun_of_running name handlerName context host before hruns)
  have hdeserted : b.Deserted := hafter ▸ hdropped.after later
  have hfaces : b.Faces := faces_after name handlerName context host _
  refine ⟨?_, fun hover => ?_⟩
  · obtain ⟨es, left, hanswers, hleft⟩ := hdropped.answers_after later
    rw [dropRequests_arm] at hleft
    rw [hafter]
    exact ⟨es, left, (answers_dropRequests atDrop).trans rfl hanswers, hleft⟩
  · have hlistens : atDrop.Listens := listens_after name handlerName context host before
    obtain ⟨d, hs⟩ := hdeserted.driving hover
    refine ⟨?_, unflagged_of_driving (judged_after name handlerName context host _) hs,
      hdeserted.unblocked hfaces (listens_after name handlerName context host _) hover, fun hsenders => ?_⟩
    · have hsame : b = atDrop.after (.act .dropRequests :: later) := after_append start before _
      rw [hsame] at hover ⊢
      exact hlistens.serves _ hover
    · obtain ⟨hbooked, hattended⟩ := booked_after name handlerName context host _ hsenders
      refine hdeserted.acknowledges hfaces hbooked hattended hover fun call hcall => ?_
      exact record_of_relayed (relayed_after name handlerName context host _ ▸ hcall)

/-- A request waits on the handler's link, one event is in the slot, one in line, and a status was sent. -/
def crowded : List Step :=
  [.act (.store (.ok ⟨1, ["svc"]⟩)), .act .announce, .move,
    .act (.offerControl 1 ⟨.interrogate, 0, 0, 0, none⟩), .move, .move,
    .act (.offerControl 2 ⟨.stop, 0, 0, 0, none⟩), .act (.offerControl 3 ⟨.pause, 0, 0, 0, none⟩),
    .act (.offerStatus 4 (.ofState .running))]

/-- Two rounds, and then a flagged event. -/
def twoRounds : List Step :=
  [.act .enterControl, .move, .move, .move, .act .enterControl, .move, .move, .move,
    .act (.offerControl 5 ⟨.other 0, 0, 0, 0, some ExitCode.crossThreadCall⟩)]

/-- The handler gives up its requests and does nothing more: all who were there are served, each command is
told of as dropped, the status is reported, and the flagged event ends the run. -/
theorem crowded_unblocked :
    ((fresh "svc" "handler" 0 (ScriptedHost.mk [] 0)).after crowded).handler = .running ∧
    let b := (fresh "svc" "handler" 0 (ScriptedHost.mk [] 0)).after
      (crowded ++ .act .dropRequests :: twoRounds)
    controlsSent b.log = [(1, .taken), (2, .taken), (3, .taken)] ∧
    Event.commandsOf .requestDropped (events b.log) = [.interrogate, .stop, .pause] ∧
    (4, .taken) ∈ statusesSent b.log ∧
    (b.after [.move, .move, .move]).verdict? = some (.ofService ExitCode.crossThreadCall, true) := by
  have hruns : ((fresh "svc" "handler" 0 (ScriptedHost.mk [] 0)).after crowded).handler = .running := by
    decide
  have hover : ((fresh "svc" "handler" 0 (ScriptedHost.mk [] 0)).after
      (crowded ++ .act .dropRequests :: twoRounds)).stage.isOver = false := by decide
  have hbookings : (fresh "svc" "handler" 0 (ScriptedHost.mk [] 0)).bookings
      (crowded ++ .act .dropRequests :: twoRounds) = { came := [⟨4, .ofState .running⟩] } := by rfl
  have hreported : (4 : Nat) ∈ (relayed ((fresh "svc" "handler" 0 (ScriptedHost.mk [] 0)).after
      (crowded ++ .act .dropRequests :: twoRounds)).log).map (·.1.ticket) := by decide
  have hslot : ((fresh "svc" "handler" 0 (ScriptedHost.mk [] 0)).after
      (crowded ++ .act .dropRequests :: twoRounds)).control.slot =
        some ⟨⟨5, ⟨.other 0, 0, 0, 0, some ExitCode.crossThreadCall⟩⟩, true⟩ := by decide
  obtain ⟨-, -, hunblocked, hacknowledges⟩ := (desertion_blocks_nobody "svc" "handler" 0
    (ScriptedHost.mk [] 0) crowded twoRounds hruns).2 hover
  rw [hbookings] at hacknowledges
  have htaken := (hacknowledges (List.nodup_singleton _)).taken ⟨4, .ofState .running⟩
    (List.mem_singleton_self _) List.not_mem_nil
  exact ⟨hruns, by decide, by decide, htaken.mpr hreported,
    (hunblocked.flagged _ [.move, .move, .move] _ hslot (.inl (by decide)) (by decide) rfl).1⟩

end Bridge

end Steward

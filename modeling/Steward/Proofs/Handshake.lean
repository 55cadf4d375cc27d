import Mathlib.Logic.Basic
import Steward.Handshake.Meeting

/-!
# Proofs/Handshake — an outcome counts once and is taken once

The slot of a handshake is empty before the first outcome and again after it was taken; it is the signal
that tells the two apart.  `Kept` is what a handshake and its callers have to do with the one who reached the
slot first, whatever all of them have done since.

* `step_act` — everything that an action can do.
* `kept_after` — what holds of the callers after every history.
* `first_counts_and_is_taken_once` — who is told what, and that no signal is taken back.
* `Session.exists_meeting` — the calls of a session are a history.
-/

namespace Steward

namespace Handshake

/-- To ask for the outcome is to look at the signal and to take what is there. -/
theorem poll_eq_take (h : Handshake) :
    h.poll = if h.ready then (h.take.1, match h.take.2 with | some o => .outcome o | none => .gone)
      else (h, .pending) := by
  obtain ⟨outcome, ready, stopped⟩ := h
  cases ready <;> cases outcome <;> rfl

/-! ## How far a caller may be -/

/-- What a publisher may be, given who reached the slot first. -/
def Publisher.Fits (first : Option Nat) (ready : Bool) (number : Nat) : Publisher → Prop
  | .coming _ => first ≠ some number
  | .stored => first = some number ∧ ready = false
  | .done true => first = some number ∧ ready = true
  | .done false => first.isSome = true ∧ first ≠ some number

/-- What an asker may be: none is past the signal before it is set, and none has an answer while the outcome
is there. -/
def Asker.Fits (h : Handshake) : Asker → Prop
  | .waiting => True
  | .admitted => h.ready = true
  | .done _ => h.ready = true ∧ h.outcome = none

/-- Before anybody reached the slot all publishers are on their way. -/
theorem Publisher.Fits.coming {p : Publisher} {ready : Bool} {n : Nat} (h : p.Fits none ready n) :
    ∃ o, p = .coming o := by
  cases p with
  | coming o => exact ⟨o, rfl⟩
  | stored => exact absurd h.1 nofun
  | done counted => cases counted <;> exact absurd h.1 nofun

/-- Before the signal is set all askers wait. -/
theorem Asker.Fits.waiting {a : Asker} {h : Handshake} (ha : a.Fits h) (hready : h.ready = false) :
    a = .waiting := by
  cases a with
  | waiting => rfl
  | admitted => exact absurd (hready.symm.trans ha) nofun
  | done => exact absurd (hready.symm.trans ha.1) nofun

namespace Meeting

variable {m m' : Meeting} {first : Option (Nat × Outcome)}

theorem after_append (m : Meeting) (earlier later : List Action) :
    m.after (earlier ++ later) = (m.after earlier).after later := List.foldl_append

theorem replies_append (m : Meeting) (earlier later : List Action) :
    m.replies (earlier ++ later) = m.replies earlier ++ (m.after earlier).replies later := by
  induction earlier generalizing m with
  | nil => rfl
  | cons a rest ih => simp only [List.cons_append, replies, ih, List.append_assoc, after, List.foldl_cons]

/-! ## What an action can do -/

/-- Everything that an action can do, with the publisher that it brings to the slot. -/
inductive Step (m : Meeting) : Meeting → Option (Nat × Outcome) → Prop where
  | nothing : Step m m none
  | publish (o : Outcome) : Step m { m with publishers := m.publishers ++ [.coming o] } none
  | store (n : Nat) (o : Outcome) : m.publishers[n]? = some (.coming o) →
      m.handshake.isSettled = false →
      Step m
        { m with
          handshake := { m.handshake with outcome := some o }
          publishers := m.publishers.set n .stored }
        (some (n, o))
  | refuse (n : Nat) (o : Outcome) : m.publishers[n]? = some (.coming o) →
      m.handshake.isSettled = true →
      Step m { m with publishers := m.publishers.set n (.done false) } (some (n, o))
  | announce (n : Nat) : m.publishers[n]? = some .stored →
      Step m
        { m with
          handshake := m.handshake.announce
          publishers := m.publishers.set n (.done true) }
        none
  | ask : Step m { m with askers := m.askers ++ [.waiting] } none
  | look (n : Nat) : m.askers[n]? = some .waiting → m.handshake.ready = true →
      Step m { m with askers := m.askers.set n .admitted } none
  | take (n : Nat) : m.askers[n]? = some .admitted →
      Step m
        { m with
          handshake := m.handshake.take.1
          askers := m.askers.set n (.done m.handshake.outcome) }
        none
  | stop : Step m { m with handshake := m.handshake.stop } none
  | wait : Step m { m with waiters := m.waiters ++ [false] } none
  | check (n : Nat) :
      Step m { m with waiters := m.waiters.modify n (· || m.handshake.stopped) } none

theorem step_act (m : Meeting) (a : Action) : Step m (m.act a) (m.reaches? a) := by
  cases a with
  | publish o => exact .publish o
  | reach n =>
    simp only [act, reaches?]
    split
    · rename_i o hn
      cases hs : m.handshake.isSettled with
      | true => simpa [store_of_settled hs] using Step.refuse n o hn hs
      | false => simpa [store_of_unsettled hs] using Step.store n o hn hs
    · exact .nothing
  | announce n =>
    simp only [act, reaches?]
    split
    · exact .announce n ‹_›
    · exact .nothing
  | ask => exact .ask
  | look n =>
    simp only [act, reaches?]
    split
    · split
      · exact .look n ‹_› ‹_›
      · exact .nothing
    · exact .nothing
  | take n =>
    simp only [act, reaches?]
    split
    · exact .take n ‹_›
    · exact .nothing
  | stop => exact .stop
  | wait => exact .wait
  | check n => exact .check n

/-! ## The signals stay set -/

/-- No action takes a signal back. -/
theorem Step.signals {r : Option (Nat × Outcome)} (h : Step m m' r) :
    (m.handshake.ready = true → m'.handshake.ready = true) ∧
      (m.handshake.stopped = true → m'.handshake.stopped = true) := by
  cases h with
  | announce => exact ⟨fun _ => rfl, id⟩
  | stop => exact ⟨id, fun _ => rfl⟩
  | _ => exact ⟨id, id⟩

theorem signals_after (m : Meeting) (history : List Action) :
    (m.handshake.ready = true → (m.after history).handshake.ready = true) ∧
      (m.handshake.stopped = true → (m.after history).handshake.stopped = true) := by
  induction history generalizing m with
  | nil => exact ⟨id, id⟩
  | cons a later ih =>
    obtain ⟨hready, hstopped⟩ := (m.step_act a).signals
    exact ⟨(ih (m.act a)).1 ∘ hready, (ih (m.act a)).2 ∘ hstopped⟩

/-- An asker is past the signal. -/
def IsPast (m : Meeting) (n : Nat) : Prop :=
  m.askers[n]? = some .admitted ∨ ∃ o, m.askers[n]? = some (.done o)

/-- Who is past the signal stays so. -/
theorem IsPast.step {n : Nat} {r : Option (Nat × Outcome)} (hn : m.IsPast n) (h : Step m m' r) :
    m'.IsPast n := by
  cases h with
  | ask =>
    have hlt : n < m.askers.length := by
      obtain hn | ⟨o, hn⟩ := hn <;> exact (List.getElem?_eq_some_iff.mp hn).1
    simpa only [IsPast, List.getElem?_append_left hlt] using hn
  | look k hk =>
    obtain rfl | hne := eq_or_ne k n
    · obtain hn | ⟨o, hn⟩ := hn <;> simp [hk] at hn
    · simpa only [IsPast, List.getElem?_set_ne hne] using hn
  | take k hk =>
    obtain rfl | hne := eq_or_ne k n
    · exact .inr ⟨_, List.getElem?_set_self (List.getElem?_eq_some_iff.mp hk).1⟩
    · simpa only [IsPast, List.getElem?_set_ne hne] using hn
  | _ => exact hn

theorem IsPast.after {n : Nat} (hn : m.IsPast n) (history : List Action) :
    (m.after history).IsPast n := by
  induction history generalizing m with
  | nil => exact hn
  | cons a later ih => exact ih (hn.step (m.step_act a))

/-- An asker that is past the signal has its answer as soon as it goes on. -/
theorem IsPast.take {n : Nat} (hn : m.IsPast n) :
    ∃ o, (m.act (.take n)).askers[n]? = some (.done o) := by
  obtain hn | ⟨o, hn⟩ := hn
  · refine ⟨m.handshake.outcome, ?_⟩
    simp only [act, hn]
    exact List.getElem?_set_self (List.getElem?_eq_some_iff.mp hn).1
  · exact ⟨o, by simp only [act, hn]⟩

/-- Who looks at the signal when it is set is past it. -/
theorem isPast_look (hready : m.handshake.ready = true) {n : Nat} (hn : n < m.askers.length) :
    (m.act (.look n)).IsPast n := by
  have hsome : m.askers[n]? = some m.askers[n] := List.getElem?_eq_getElem hn
  cases hk : m.askers[n] with
  | waiting =>
    left
    simp only [act, hsome, hk, hready, if_true]
    exact List.getElem?_set_self hn
  | admitted =>
    left
    simp only [act, hsome, hk]
  | done o =>
    right
    refine ⟨o, ?_⟩
    simp only [act, hsome, hk]

/-! ## What the callers have to do with the first one -/

section Lists

variable {α : Type} {l : List α} {P : Nat → α → Prop}

/-- What holds of all of a list holds after one was changed, if it holds of the new one. -/
theorem forall_set {n : Nat} {x : α} (hl : ∀ k y, k ≠ n → l[k]? = some y → P k y) (hx : P n x) :
    ∀ k y, (l.set n x)[k]? = some y → P k y := by
  intro k y hk
  obtain rfl | hne := eq_or_ne n k
  · obtain ⟨-, rfl⟩ : n < l.length ∧ x = y := by
      simpa [List.getElem?_set, and_comm, eq_comm] using hk
    exact hx
  · exact hl k y hne.symm (by rwa [List.getElem?_set_ne hne] at hk)

/-- What holds of all of a list holds with one more, if it holds of that one. -/
theorem forall_concat {x : α} (hl : ∀ k y, l[k]? = some y → P k y) (hx : P l.length x) :
    ∀ k y, (l ++ [x])[k]? = some y → P k y := by
  intro k y hk
  obtain hlt | hge := Nat.lt_or_ge k l.length
  · exact hl k y (by rwa [List.getElem?_append_left hlt] at hk)
  · rw [List.getElem?_append_right hge] at hk
    obtain ⟨hzero, rfl⟩ : k - l.length = 0 ∧ x = y := by
      simpa [List.getElem?_singleton] using hk
    obtain rfl : k = l.length := by omega
    exact hx

end Lists

/-- One asker has got the outcome of the first publisher, and whoever else has an answer got nothing. -/
def IsTaken (first : Option (Nat × Outcome)) (askers : List Asker) : Prop :=
  ∃ (taker : Nat) (o : Outcome), first.map (·.2) = some o ∧ askers[taker]? = some (.done (some o)) ∧
    ∀ (n : Nat) (o' : Outcome), n ≠ taker → askers[n]? ≠ some (.done (some o'))

/-- **What holds of a handshake and its callers**, `first` being the first publisher at the slot. -/
structure Kept (first : Option (Nat × Outcome)) (m : Meeting) : Prop where
  settled : m.handshake.isSettled = first.isSome
  slot : ∀ o, m.handshake.outcome = some o → first.map (·.2) = some o
  known : ∀ k, first.map (·.1) = some k → k < m.publishers.length
  publisher : ∀ (n : Nat) (p : Publisher), m.publishers[n]? = some p →
    p.Fits (first.map (·.1)) m.handshake.ready n
  asker : ∀ (n : Nat) (a : Asker), m.askers[n]? = some a → a.Fits m.handshake
  taken : m.handshake.ready = true → m.handshake.outcome = none → IsTaken first m.askers

theorem kept_fresh : Kept none fresh where
  settled := rfl
  slot := nofun
  known := nofun
  publisher := nofun
  asker := nofun
  taken := nofun

/-- Others may come and go on, as long as nobody else gets the outcome. -/
theorem IsTaken.mono {askers later : List Asker} (h : IsTaken first askers)
    (hkeep : ∀ (n : Nat) (o : Outcome), askers[n]? = some (.done (some o)) →
      later[n]? = some (.done (some o)))
    (hnew : ∀ (n : Nat) (a : Asker), later[n]? = some a →
      askers[n]? = some a ∨ ∀ o, a ≠ .done (some o)) :
    IsTaken first later := by
  obtain ⟨taker, o, hfirst, htaker, hothers⟩ := h
  refine ⟨taker, o, hfirst, hkeep _ _ htaker, fun n o' hne hn => ?_⟩
  obtain hold | hnot := hnew n _ hn
  · exact hothers n o' hne hold
  · exact hnot o' rfl

/-- An asker without an answer goes on, and does not get the outcome. -/
theorem IsTaken.set {askers : List Asker} (h : IsTaken first askers) {n : Nat} {a a' : Asker}
    (hn : askers[n]? = some a) (hbefore : ∀ o, a ≠ .done (some o)) (hafter : ∀ o, a' ≠ .done (some o)) :
    IsTaken first (askers.set n a') := by
  refine h.mono (fun k o hk => ?_) (forall_set (fun _ _ _ hk => .inl hk) (.inr hafter))
  have hne : n ≠ k := by
    rintro rfl
    exact hbefore o (Option.some.inj (hn.symm.trans hk))
  rwa [List.getElem?_set_ne hne]

namespace Kept

theorem ready_of_settled (h : Kept first m) (hready : m.handshake.ready = true) :
    first.isSome = true := by
  rw [← h.settled, isSettled, hready, Bool.or_true]

/-- The first publisher puts its outcome down. -/
theorem store {n : Nat} {o : Outcome} (h : Kept first m) (hs : m.handshake.isSettled = false)
    (hn : n < m.publishers.length) :
    Kept (some (n, o))
      { m with
        handshake := { m.handshake with outcome := some o }
        publishers := m.publishers.set n .stored } := by
  obtain ⟨-, hready⟩ : m.handshake.outcome.isSome = false ∧ m.handshake.ready = false := by
    simpa only [isSettled, Bool.or_eq_false_iff] using hs
  obtain rfl : first = none := by
    rw [← Option.not_isSome_iff_eq_none, ← h.settled, hs]
    exact Bool.false_ne_true
  refine ⟨rfl, fun _ ho => ho, fun k hk => ?_, forall_set (fun k p hne hk => ?_) ⟨rfl, hready⟩,
    fun k a hk => ?_, fun hset => absurd (hready.symm.trans hset) nofun⟩
  · obtain rfl : n = k := by simpa using hk
    simpa using hn
  · obtain ⟨o', rfl⟩ := (h.publisher k p hk).coming
    simpa [Publisher.Fits] using hne.symm
  · obtain rfl := (h.asker k a hk).waiting hready
    trivial

/-- A later publisher is refused. -/
theorem refuse {n : Nat} {o : Outcome} (h : Kept first m) (hn : m.publishers[n]? = some (.coming o))
    (hs : m.handshake.isSettled = true) :
    Kept first { m with publishers := m.publishers.set n (.done false) } where
  settled := h.settled
  slot := h.slot
  known k hk := by simpa using h.known k hk
  publisher := by
    refine forall_set (fun k p _ hk => h.publisher k p hk) ⟨?_, h.publisher n _ hn⟩
    rw [Option.isSome_map, ← h.settled, hs]
  asker := h.asker
  taken := h.taken

/-- The first publisher sets the signal. -/
theorem announce {n : Nat} (h : Kept first m) (hn : m.publishers[n]? = some .stored) :
    Kept first
      { m with
        handshake := m.handshake.announce
        publishers := m.publishers.set n (.done true) } := by
  obtain ⟨hfirst, hready⟩ := h.publisher n _ hn
  obtain ⟨_, rfl, rfl⟩ := Option.map_eq_some_iff.mp hfirst
  have hstored : m.handshake.outcome.isSome = true := by
    simpa [isSettled, hready] using h.settled
  refine ⟨by simp [Handshake.announce, isSettled], h.slot, by simpa using h.known,
    forall_set (fun k p hne hk => ?_) ⟨rfl, rfl⟩, fun k a hk => ?_, fun _ hnone => ?_⟩
  · have hp := h.publisher k p hk
    cases p with
    | coming => exact hp
    | stored => exact absurd (Option.some.inj hp.1).symm hne
    | done counted =>
      cases counted with
      | true => exact ⟨hp.1, rfl⟩
      | false => exact hp
  · obtain rfl := (h.asker k a hk).waiting hready
    trivial
  · rw [show m.handshake.outcome = none from hnone] at hstored
    exact absurd hstored nofun

/-- An asker that is past the signal takes what is there. -/
theorem take {n : Nat} (h : Kept first m) (hn : m.askers[n]? = some .admitted) :
    Kept first
      { m with
        handshake := m.handshake.take.1
        askers := m.askers.set n (.done m.handshake.outcome) } := by
  have hready : m.handshake.ready = true := h.asker n _ hn
  have hlt : n < m.askers.length := (List.getElem?_eq_some_iff.mp hn).1
  refine ⟨?_, nofun, h.known, h.publisher, forall_set (fun k a _ hk => ?_) ⟨hready, rfl⟩, fun _ _ => ?_⟩
  · rw [h.ready_of_settled hready]
    exact hready
  · have ha := h.asker k a hk
    cases a with
    | waiting => trivial
    | admitted => exact ha
    | done => exact ⟨ha.1, rfl⟩
  · cases ho : m.handshake.outcome with
    | some o =>
      -- nobody had an answer as long as the outcome was there
      refine ⟨n, o, h.slot o ho, List.getElem?_set_self hlt, fun k r hne hk => ?_⟩
      rw [List.getElem?_set_ne hne.symm] at hk
      exact absurd (ho.symm.trans (h.asker k _ hk).2) nofun
    | none =>
      exact (h.taken hready ho).set hn nofun nofun

/-- Another asker comes. -/
theorem ask (h : Kept first m) : Kept first { m with askers := m.askers ++ [.waiting] } where
  settled := h.settled
  slot := h.slot
  known := h.known
  publisher := h.publisher
  asker := forall_concat h.asker trivial
  taken hready hnone := by
    refine (h.taken hready hnone).mono (fun n o hn => ?_)
      (forall_concat (fun _ _ hk => .inl hk) (.inr nofun))
    rwa [List.getElem?_append_left (List.getElem?_eq_some_iff.mp hn).1]

/-- An asker sees the signal. -/
theorem look {n : Nat} (h : Kept first m) (hn : m.askers[n]? = some .waiting)
    (hready : m.handshake.ready = true) :
    Kept first { m with askers := m.askers.set n .admitted } where
  settled := h.settled
  slot := h.slot
  known := h.known
  publisher := h.publisher
  asker := forall_set (fun k a _ hk => h.asker k a hk) hready
  taken _ hnone := (h.taken hready hnone).set hn nofun nofun

/-- Another publisher comes. -/
theorem publish (h : Kept first m) (o : Outcome) :
    Kept first { m with publishers := m.publishers ++ [.coming o] } where
  settled := h.settled
  slot := h.slot
  known k hk := by simpa using Nat.lt_succ_of_lt (h.known k hk)
  publisher := forall_concat h.publisher fun hk => Nat.lt_irrefl _ (h.known _ hk)
  asker := h.asker
  taken := h.taken

theorem step {r : Option (Nat × Outcome)} (h : Kept first m) (hstep : Step m m' r) :
    Kept (first.or r) m' := by
  have hnone : first.or none = first := Option.or_none
  cases hstep with
  | nothing | stop | wait | check => exact hnone.symm ▸ ⟨h.1, h.2, h.3, h.4, h.5, h.6⟩
  | publish o => exact hnone.symm ▸ h.publish o
  | store n o hn hs =>
    have hfirst : first = none := by
      rw [← Option.not_isSome_iff_eq_none, ← h.settled, hs]
      exact Bool.false_ne_true
    rw [hfirst]
    exact h.store hs (List.getElem?_eq_some_iff.mp hn).1
  | refuse n o hn hs =>
    obtain ⟨f, rfl⟩ := Option.isSome_iff_exists.mp (h.settled.symm.trans hs)
    exact h.refuse hn hs
  | announce n hn => exact hnone.symm ▸ h.announce hn
  | ask => exact hnone.symm ▸ h.ask
  | look n hn hready => exact hnone.symm ▸ h.look hn hready
  | take n hn => exact hnone.symm ▸ h.take hn

/-- **The first publisher at the slot stays the first one.** -/
theorem after (h : Kept first m) (history : List Action) :
    Kept (first.or (m.reached history).head?) (m.after history) := by
  induction history generalizing m first with
  | nil => exact Option.or_none.symm ▸ h
  | cons a later ih =>
    have hlater := ih (h.step (m.step_act a))
    rw [Option.or_assoc] at hlater
    change Kept _ ((m.act a).after later)
    cases hr : m.reaches? a <;> simpa [reached, hr] using hlater

end Kept

/-! ## Once only -/

/-- **The first outcome counts, and is taken once.**  Whatever publishers, askers and waiters have done at a
handshake, in any order:

* only who reached the slot first is told that its outcome counted, and is told so as soon as it goes on;
  who comes to the slot later is refused, which changes nothing else, also after the outcome was taken;
* no asker has its answer before dispatcher-ready is set, and if one has, a single one has got the outcome of
  the first publisher and all others with an answer got nothing;
* a signal that is set stays set, and everybody who waits for it then, or comes later, has done with waiting
  when next looked after. -/
theorem first_counts_and_is_taken_once (history : List Action) :
    let m := fresh.after history
    let first := (fresh.reached history).head?
    (∀ n : Nat, m.publishers[n]? = some .stored ∨ m.publishers[n]? = some (.done true) →
      first.map (·.1) = some n) ∧
    (∀ n : Nat, m.publishers[n]? = some (.done false) →
      first.isSome = true ∧ first.map (·.1) ≠ some n) ∧
    (∀ (n : Nat) (o : Outcome), first = some (n, o) →
      (m.act (.announce n)).publishers[n]? = some (.done true)) ∧
    (∀ (n : Nat) (o : Outcome), first.isSome = true → m.publishers[n]? = some (.coming o) →
      m.act (.reach n) = { m with publishers := m.publishers.set n (.done false) }) ∧
    ((∃ (n : Nat) (r : Option Outcome), m.askers[n]? = some (.done r)) →
      m.handshake.ready = true ∧
        ∃ (taker : Nat) (o : Outcome), first.map (·.2) = some o ∧
          m.askers[taker]? = some (.done (some o)) ∧
          ∀ (n : Nat) (r : Option Outcome), n ≠ taker → m.askers[n]? = some (.done r) → r = none) ∧
    (m.handshake.ready = true → ∀ later,
      (m.after later).handshake.ready = true ∧
        ∀ n < (m.after later).askers.length, ∀ between,
          ∃ r, (((m.after later).act (.look n)).after between |>.act (.take n)).askers[n]? =
            some (.done r)) ∧
    (m.handshake.stopped = true → ∀ later,
      (m.after later).handshake.stopped = true ∧
        ∀ n < (m.after later).waiters.length,
          ((m.after later).act (.check n)).waiters[n]? = some true) := by
  intro m first
  have h : Kept first m := kept_fresh.after history
  refine ⟨fun n hn => ?_, fun n hn => ?_, fun n o hfirst => ?_, fun n o hfirst hn => ?_,
    fun ⟨n, r, hn⟩ => ?_, fun hready later => ?_, fun hstopped later => ?_⟩
  · obtain hn | hn := hn <;> exact (h.publisher n _ hn).1
  · obtain ⟨hsome, hne⟩ := h.publisher n _ hn
    exact ⟨by simpa using hsome, hne⟩
  · have hlt : n < m.publishers.length := h.known n (by rw [hfirst]; rfl)
    have hget : m.publishers[n]? = some m.publishers[n] := List.getElem?_eq_getElem hlt
    have hp := h.publisher n _ hget
    rw [hfirst] at hp
    cases hk : m.publishers[n] with
    | coming => exact absurd rfl (hk ▸ hp)
    | stored =>
      simp only [act, hget, hk]
      exact List.getElem?_set_self hlt
    | done counted =>
      cases counted with
      | true => simp only [act, hget, hk]
      | false => exact absurd rfl (hk ▸ hp).2
  · have hs : m.handshake.isSettled = true := h.settled.trans hfirst
    simp only [act, hn, store_of_settled hs]
    rfl
  · obtain ⟨hready, hnone⟩ := h.asker n _ hn
    obtain ⟨taker, o, hfirst, htaker, hothers⟩ := h.taken hready hnone
    refine ⟨hready, taker, o, hfirst, htaker, fun k r hne hk => ?_⟩
    cases r with
    | none => rfl
    | some o' => exact absurd hk (hothers k o' hne)
  · have hset := (m.signals_after later).1 hready
    exact ⟨hset, fun n hn between => ((isPast_look hset hn).after between).take⟩
  · have hset := (m.signals_after later).2 hstopped
    refine ⟨hset, fun n hn => ?_⟩
    simp [act, hset, hn]

/-- The second to come reaches the slot first; an asker that looks before the signal is set has to look
again. -/
example :
    fresh.replies
        [.publish (.error (.numbered 1)), .publish (.error (.numbered 2)), .ask, .reach 1, .reach 0,
          .look 0, .take 0, .announce 1, .look 0, .take 0] =
      [.published false, .published true, .outcome (some (.error (.numbered 2)))] := rfl

end Meeting

/-! ## A session is a history

A `Session` publishes in one step and lets its askers look and take without a break, in the order in which
they came. -/

/-- What somebody is told who asks and is not left waiting. -/
def Poll.replies : Poll → List Reply
  | .pending => []
  | .outcome o => [.outcome (some o)]
  | .gone => [.outcome none]

/-- What a waiter of a session is told of the outcome. -/
def Waited.replies : Waited → List Reply
  | .outcome p => p.replies
  | .signal => []

namespace Session

/-- What the callers are told of the outcome with an operation. -/
def told : Op → Answer × List (Nat × Waited) → List Reply
  | .publish _, (.flag counted, served) => .published counted :: served.flatMap (·.2.replies)
  | _, (.outcome p, served) => p.replies ++ served.flatMap (·.2.replies)
  | _, (_, served) => served.flatMap (·.2.replies)

/-- The state after a list of operations. -/
def after (s : Session) (ops : List Op) : Session := ops.foldl (fun s op => (s.step op).1) s

end Session

namespace Meeting

variable {m : Meeting} {s : Session}

/-- Who publishes without a break has published. -/
theorem publish_at_once (m : Meeting) (o : Outcome) :
    ∃ history, (m.after history).handshake = (m.handshake.publish o).1 ∧
      (m.after history).askers = m.askers ∧
      m.replies history = [.published (m.handshake.publish o).2] := by
  refine ⟨[.publish o, .reach m.publishers.length, .announce m.publishers.length], ?_⟩
  cases hs : m.handshake.isSettled with
  | true => simp [after, act, replies, reply?, Handshake.publish, store_of_settled hs]
  | false => simp [after, act, replies, reply?, Handshake.publish, store_of_unsettled hs]

/-- Who asks without a break has asked. -/
theorem ask_at_once {n : Nat} (hn : m.askers[n]? = some .waiting) :
    ∃ history, (m.after history).handshake = m.handshake.poll.1 ∧
      (∀ k, k ≠ n → (m.after history).askers[k]? = m.askers[k]?) ∧
      m.replies history = m.handshake.poll.2.replies := by
  have hlt : n < m.askers.length := (List.getElem?_eq_some_iff.mp hn).1
  have hsilent : m.reply? (.look n) = none := rfl
  refine ⟨[.look n, .take n], ?_⟩
  rw [poll_eq_take, replies, replies, replies, hsilent,
    show m.after [.look n, .take n] = (m.act (.look n)).act (.take n) from rfl]
  cases hready : m.handshake.ready with
  | false =>
    have hlook : m.act (.look n) = m := by simp only [act, hn, hready, Bool.false_eq_true, if_false]
    rw [hlook]
    simp [act, reply?, hn, Poll.replies]
  | true =>
    have hlook : m.act (.look n) = { m with askers := m.askers.set n .admitted } := by
      simp only [act, hn, hready, if_true]
    have hadmitted : (m.askers.set n .admitted)[n]? = some .admitted := List.getElem?_set_self hlt
    rw [hlook]
    simp only [act, reply?, hadmitted, if_true]
    refine ⟨trivial, fun k hk => ?_, ?_⟩
    · rw [List.getElem?_set_ne hk.symm, List.getElem?_set_ne hk.symm]
    · simp only [take]
      cases m.handshake.outcome <;> rfl

/-- Askers that wait are served in order. -/
theorem exists_serve (m : Meeting) {ns waiting : List Nat} (hlength : waiting.length = ns.length)
    (hnodup : waiting.Nodup) (hwaiting : ∀ k ∈ waiting, m.askers[k]? = some .waiting) :
    ∃ history, (m.after history).handshake = (Session.serve m.handshake ns).1 ∧
      m.replies history = (Session.serve m.handshake ns).2.flatMap (·.2.replies) := by
  induction ns generalizing m waiting with
  | nil => exact ⟨[], rfl, rfl⟩
  | cons n ns ih =>
    cases waiting with
    | nil => exact absurd hlength nofun
    | cons k waiting =>
      obtain ⟨hk, hnodup⟩ := List.nodup_cons.mp hnodup
      obtain ⟨first, hfirst, hothers, hreply⟩ := m.ask_at_once (hwaiting k List.mem_cons_self)
      obtain ⟨rest, hrest, hreplies⟩ := ih (m.after first) (Nat.succ.inj hlength) hnodup fun j hj => by
        rw [hothers j (ne_of_mem_of_not_mem hj hk)]
        exact hwaiting j (List.mem_cons_of_mem k hj)
      rw [hfirst] at hrest hreplies
      refine ⟨first ++ rest, by rw [after_append, hrest]; rfl, ?_⟩
      rw [replies_append, hreply, hreplies]
      rfl

/-- The callers of a session, as far as they wait, are among those of a meeting at the same handshake. -/
structure Hosts (m : Meeting) (s : Session) : Prop where
  handshake : m.handshake = s.handshake
  waiting : ∃ waiting : List Nat, waiting.length = s.forOutcome.length ∧ waiting.Nodup ∧
    ∀ k ∈ waiting, m.askers[k]? = some .waiting

/-- Once the operation is done, the waiters are served. -/
theorem Hosts.settle (h : m.Hosts s) :
    ∃ history, (m.after history).Hosts s.settle.1 ∧
      m.replies history = s.settle.2.flatMap (·.2.replies) := by
  have hsignal : ∀ ns : List Nat, (ns.map (·, Waited.signal)).flatMap (·.2.replies) = [] := by
    intro ns
    simp [Waited.replies, List.flatMap_map]
  obtain ⟨waiting, hlength, hnodup, hwaiting⟩ := h.waiting
  cases hready : s.handshake.ready with
  | false =>
    refine ⟨[], ⟨?_, waiting, ?_, hnodup, hwaiting⟩, ?_⟩
    · simp [Session.settle, hready, after, h.handshake]
    · simpa [Session.settle, hready] using hlength
    · cases hset : s.signal <;> simp [Session.settle, hready, hset, replies, hsignal]
  | true =>
    obtain ⟨history, hhandshake, hreplies⟩ := m.exists_serve hlength hnodup hwaiting
    rw [h.handshake] at hhandshake hreplies
    refine ⟨history, ⟨?_, [], ?_, List.nodup_nil, nofun⟩, ?_⟩
    · simp [Session.settle, hready, hhandshake]
    · simp [Session.settle, hready]
    · cases hset : s.signal <;> simp [Session.settle, hready, hset, hreplies, hsignal]

/-- An operation is a few actions. -/
theorem Hosts.apply (h : m.Hosts s) (op : Op) :
    ∃ history, (m.after history).Hosts (s.apply op).1 ∧
      m.replies history = Session.told op ((s.apply op).2, []) := by
  obtain ⟨waiting, hlength, hnodup, hwaiting⟩ := h.waiting
  have hlt : ∀ k ∈ waiting, k < m.askers.length := fun k hk =>
    (List.getElem?_eq_some_iff.mp (hwaiting k hk)).1
  have hfresh : m.askers.length ∉ waiting := fun hk => Nat.lt_irrefl _ (hlt _ hk)
  have hkeep : ∀ k ∈ waiting, (m.act .ask).askers[k]? = some .waiting := fun k hk =>
    (List.getElem?_append_left (hlt k hk)).trans (hwaiting k hk)
  have hnew : (m.act .ask).askers[m.askers.length]? = some .waiting := List.getElem?_concat_length
  cases op with
  | publish o =>
    obtain ⟨history, hhandshake, haskers, hreplies⟩ := m.publish_at_once o
    refine ⟨history, ⟨?_, waiting, hlength, hnodup, haskers.symm ▸ hwaiting⟩, ?_⟩
    · rw [hhandshake, h.handshake]
      rfl
    · rw [hreplies, h.handshake]
      rfl
  | poll =>
    obtain ⟨history, hhandshake, hothers, hreplies⟩ := ask_at_once hnew
    refine ⟨.ask :: history, ⟨?_, waiting, hlength, hnodup, fun k hk => ?_⟩, ?_⟩
    · exact hhandshake.trans (congrArg (·.poll.1) h.handshake)
    · exact (hothers k (ne_of_mem_of_not_mem hk hfresh)).trans (hkeep k hk)
    · refine hreplies.trans ((congrArg (·.poll.2.replies) h.handshake).trans ?_)
      exact (List.append_nil _).symm
  | await =>
    refine ⟨[.ask], ⟨h.handshake, waiting ++ [m.askers.length], ?_, ?_, fun k hk => ?_⟩, rfl⟩
    · simp [Session.apply, hlength]
    · simpa [List.nodup_append, hnodup] using fun k hk => ne_of_mem_of_not_mem hk hfresh
    · obtain hk | hk := List.mem_append.mp hk
      · exact hkeep k hk
      · obtain rfl := List.mem_singleton.mp hk
        exact hnew
  | stop => exact ⟨[.stop], ⟨congrArg stop h.handshake, waiting, hlength, hnodup, hwaiting⟩, rfl⟩
  | setSignal | signalIsSet | awaitSignal =>
    exact ⟨[], ⟨h.handshake, waiting, hlength, hnodup, hwaiting⟩, rfl⟩

end Meeting

namespace Session

/-- The answer comes before what the waiters are told. -/
theorem told_step (s : Session) (op : Op) :
    told op (s.step op).2 =
      told op ((s.apply op).2, []) ++ (s.apply op).1.settle.2.flatMap (·.2.replies) := by
  cases op <;> simp [told, step, apply]

/-- **The calls of a session are a history** of all its callers, with the same answers in the same order. -/
theorem exists_meeting (ops : List Op) :
    ∃ history, (Meeting.fresh.after history).handshake = (fresh.after ops).handshake ∧
      Meeting.fresh.replies history =
        (ops.zip (fresh.run ops)).flatMap fun (op, answer) => told op answer := by
  suffices h : ∀ (m : Meeting) (s : Session), m.Hosts s → ∃ history,
      (m.after history).handshake = (s.after ops).handshake ∧
        m.replies history = (ops.zip (s.run ops)).flatMap fun (op, answer) => told op answer from
    h .fresh .fresh ⟨rfl, [], rfl, List.nodup_nil, nofun⟩
  induction ops with
  | nil => exact fun m s h => ⟨[], h.handshake, rfl⟩
  | cons op later ih =>
    intro m s h
    obtain ⟨first, hfirst, hanswer⟩ := h.apply op
    obtain ⟨served, hserved, htold⟩ := hfirst.settle
    obtain ⟨rest, hrest, hreplies⟩ := ih _ _ hserved
    refine ⟨first ++ (served ++ rest), ?_, ?_⟩
    · rw [Meeting.after_append, Meeting.after_append, hrest]
      rfl
    · rw [Meeting.replies_append, Meeting.replies_append, hanswer, htold, hreplies, ← List.append_assoc,
        ← told_step]
      rfl

end Session

end Handshake

end Steward

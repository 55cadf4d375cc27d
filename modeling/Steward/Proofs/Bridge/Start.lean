import Steward.Proofs.Bridge.Run

/-!
# Proofs/Bridge/Start — what the bridge takes from the handshake

The bridge asks the handshake for the outcome of the start.  If it gets one, it is the first that
was published (`published_of_taken`); if somebody else took it before, it gets nothing.

* `unstolen_after` — where nobody else asks, the bridge is never told that there is no outcome.
* `isSettled_after`, `ready_announce` — there is an outcome with the first one that was put down, and the
  signal is set as soon as that is announced.
* `ready_of_begun` — a bridge that has got on has seen the signal.
-/

namespace Steward

namespace Handshake

variable {h : Handshake}

/-- An outcome counts if there was none before. -/
theorem store_counts (h : Handshake) (o : Outcome) : (h.store o).2 = !h.isSettled := by
  cases hs : h.isSettled with
  | true => rw [store_of_settled hs]; rfl
  | false => rw [store_of_unsettled hs]; rfl

/-- Before there is an outcome the signal is not set. -/
theorem unset_of_unsettled (hs : h.isSettled = false) : h.outcome = none ∧ h.ready = false := by
  simpa [isSettled] using hs

/-- Once there is one, the signal is set or about to be set. -/
theorem ready_or_stored (hs : h.isSettled = true) : h.ready = true ∨ h.isStored = true := by
  cases hready : h.ready <;> simp_all [isSettled, isStored]

theorem ready_store (h : Handshake) (o : Outcome) : (h.store o).1.ready = h.ready := by
  unfold store
  split <;> rfl

/-- To take the outcome leaves the signal alone. -/
theorem ready_poll (h : Handshake) : h.poll.1.ready = h.ready := by
  unfold poll
  split
  · split <;> rfl
  · rfl

/-- Who finds no outcome though the signal is set comes too late. -/
theorem of_poll_gone (hp : h.poll.2 = .gone) : h.ready = true ∧ h.outcome = none := by
  unfold poll at hp
  split at hp
  · rename_i hready
    split at hp
    · cases hp
    · rename_i hnone
      exact ⟨hready, hnone⟩
  · cases hp

end Handshake

namespace Bridge

variable {σ : Type}

/-- What a move takes from the handshake: an outcome, or the news that none is left. -/
def Move.outcome? : Move → Option (Option Outcome)
  | .start s => some (some (.ok s))
  | .refuse e => some (e.map .error)
  | _ => none

/-- What the bridge took from the handshake, in order. -/
def outcomesTaken (ms : List Move) : List (Option Outcome) := ms.filterMap Move.outcome?

theorem outcomesTaken_concat (ms : List Move) (m : Move) :
    outcomesTaken (ms ++ [m]) = outcomesTaken ms ++ m.outcome?.toList := by
  rw [outcomesTaken, List.filterMap_append]
  cases h : m.outcome? <;> simp [outcomesTaken, h]

/-- A move that takes nothing from the handshake. -/
theorem outcomesTaken_concat_of_none (ms : List Move) {m : Move} (h : m.outcome? = none) :
    outcomesTaken (ms ++ [m]) = outcomesTaken ms := by
  rw [outcomesTaken_concat, h, Option.toList_none, List.append_nil]

/-- The outcome an action publishes. -/
def Action.published? : Action → Option Outcome
  | .store o => some o
  | _ => none

/-- The first outcome published. -/
def published? (as : List Action) : Option Outcome := as.findSome? Action.published?

theorem published?_append (as as' : List Action) :
    published? (as ++ as') = (published? as).or (published? as') := List.findSome?_append

theorem published?_concat (as : List Action) (a : Action) :
    published? (as ++ [a]) = (published? as).or a.published? := by
  rw [published?, List.findSome?_append]
  cases h : a.published? <;> simp [published?, h]

/-- What is left of the actions so far in the handshake: nothing before the first outcome is
published, then that outcome until it is taken. -/
structure Heard (as : List Action) (h : Handshake) : Prop where
  settled : h.isSettled = (published? as).isSome
  kept : ∀ o, h.outcome = some o → published? as = some o

theorem heard_fresh : Heard [] .fresh where
  settled := rfl
  kept _ h := nomatch h

variable {as : List Action} {h : Handshake}

/-- Who finds an outcome finds the first one published. -/
theorem Heard.outcome {o : Outcome} (hh : Heard as h) (ho : h.poll.2 = .outcome o) :
    published? as = some o := by
  refine hh.kept o ?_
  unfold Handshake.poll at ho
  split at ho
  · split at ho
    · obtain rfl := Handshake.Poll.outcome.inj ho
      assumption
    · cases ho
  · cases ho

theorem Heard.poll (hh : Heard as h) : Heard as h.poll.1 := by
  unfold Handshake.poll
  split
  · rename_i hready
    split
    · refine ⟨?_, fun _ ho => nomatch ho⟩
      rw [← hh.settled, Handshake.isSettled, Handshake.isSettled, hready, Bool.or_true, Bool.or_true]
    · exact hh
  · exact hh

/-- Only the first outcome published goes into the handshake. -/
theorem Heard.store (hh : Heard as h) (o : Outcome) : Heard (as ++ [.store o]) (h.store o).1 := by
  cases hsettled : h.isSettled with
  | true =>
    rw [Handshake.store_of_settled hsettled]
    refine ⟨?_, fun o' ho => ?_⟩
    · rw [published?_concat, Option.isSome_or, ← hh.settled, hsettled]
      exact (Bool.true_or _).symm
    · rw [published?_concat, hh.kept o' ho]
      rfl
  | false =>
    have hnone : published? as = none := by
      rw [← Option.not_isSome_iff_eq_none, ← hh.settled, hsettled]
      exact Bool.false_ne_true
    rw [Handshake.store_of_unsettled hsettled]
    refine ⟨?_, fun o' ho => ?_⟩ <;> rw [published?_concat, hnone]
    · rfl
    · exact ho

/-- To set the signal changes nothing of that, if there is an outcome. -/
theorem Heard.announce (hh : Heard as h) (hs : h.isStored = true) :
    Heard as h.announce where
  settled := by
    have houtcome : h.outcome.isSome = true := (Bool.and_eq_true_iff.mp hs).1
    rw [← hh.settled, Handshake.isSettled, Handshake.isSettled, houtcome]
    exact congrArg (· || true) houtcome
  kept := hh.kept

/-- What publishes nothing and leaves the handshake alone. -/
theorem Heard.other {a : Action} (hh : Heard as h) (ha : a.published? = none) :
    Heard (as ++ [a]) h := by
  have hpublished : published? (as ++ [a]) = published? as := by
    rw [published?_concat, ha, Option.or_none]
  exact ⟨hpublished ▸ hh.settled, hpublished ▸ hh.kept⟩

theorem dropUpdates_handshake (b : Bridge σ) : b.dropUpdates.handshake = b.handshake := by
  obtain ⟨updates, holds, h⟩ := b.dropUpdates_eq
  rw [h]

/-- **Only to publish and to take an outcome concerns the handshake.** -/
theorem Happens.handshake {b b' : Bridge σ} {a : Action} (ha : b.Happens a b') :
    a.published? = none ∧ b'.handshake = b.handshake ∨
    (∃ o, a = .store o ∧ b'.handshake = (b.handshake.store o).1) ∨
    (a = .announce ∧ b.handshake.isStored = true ∧ b'.handshake = b.handshake.announce) ∨
    a = .steal ∧ b'.handshake = b.handshake.poll.1 := by
  cases ha with
  | idle ha =>
    refine .inl ⟨?_, rfl⟩
    unfold Action.published?
    split
    · exact absurd rfl (ha _)
    · rfl
  | store o => exact .inr (.inl ⟨o, rfl, rfl⟩)
  | announce hs => exact .inr (.inr (.inl ⟨rfl, hs, rfl⟩))
  | steal => exact .inr (.inr (.inr ⟨rfl, rfl⟩))
  | pass | offerControl | enterControl | cloneControl | dropControl | offerStatus | lineUpStatus |
    enterStatus | cancelStatus | cloneUpdates | dropClone | lendRequests => exact .inl ⟨rfl, rfl⟩
  | takeRequest => exact .inl ⟨rfl, takeRequest_handshake b⟩
  | dropRequests => exact .inl ⟨rfl, dropRequests_handshake b⟩
  | dropUpdates => exact .inl ⟨rfl, dropUpdates_handshake b⟩
  | finish c => exact .inl ⟨rfl, finishHandler_handshake b c⟩

/-- What happens from outside keeps what was heard. -/
theorem Heard.happens {b b' : Bridge σ} {a : Action} (hh : Heard as b.handshake)
    (ha : b.Happens a b') : Heard (as ++ [a]) b'.handshake := by
  obtain ⟨hnone, hsame⟩ | ⟨o, rfl, hstore⟩ | ⟨rfl, hs, hset⟩ | ⟨rfl, hpoll⟩ := ha.handshake
  · rw [hsame]
    exact hh.other hnone
  · rw [hstore]
    exact hh.store o
  · rw [hset]
    exact (hh.announce hs).other rfl
  · rw [hpoll]
    exact hh.poll.other rfl

theorem read_handshake (b : Bridge σ) (d : Driving) (p : Placed ControlEvent) :
    (b.read d p).handshake = b.handshake := by
  obtain ⟨requests, updates, stage, log, h⟩ := b.read_eq d p
  rw [h]

theorem relay_handshake [StatusHost σ] (b : Bridge σ) (d : Driving) (p : Placed Status) :
    (b.relay d p).handshake = b.handshake := by
  obtain ⟨host, requests, updates, stage, log, h⟩ := b.relay_eq d p
  rw [h]

/-- What the bridge does leaves what was heard in the handshake, unless it takes it. -/
theorem Heard.makes [StatusHost σ] {b b' : Bridge σ} {m : Move} (hh : Heard as b.handshake)
    (hm : b.Makes m b') : Heard as b'.handshake := by
  cases hm with
  | start | refuse | abandon => exact hh.poll
  | read => rwa [read_handshake]
  | relay => rwa [relay_handshake]
  | @settle d c r => cases r <;> exact hh
  | place | endStatuses | complete | report => exact hh
  | @release ending next =>
    cases next with
    | signal => exact ⟨hh.settled, hh.kept⟩
    | closeControl | deregister | announce => exact hh

/-- The outcome a move takes is the first one published. -/
theorem Heard.taken [StatusHost σ] {b b' : Bridge σ} {m : Move} {o : Outcome}
    (hh : Heard as b.handshake) (hm : b.Makes m b') (ho : m.outcome? = some (some o)) :
    published? as = some o := by
  cases hm with
  | start hs hpoll =>
    obtain rfl := Option.some.inj (Option.some.inj ho)
    exact hh.outcome hpoll
  | refuse hs hpoll =>
    obtain rfl := Option.some.inj (Option.some.inj ho)
    exact hh.outcome hpoll
  | abandon | read | place | settle | relay | endStatuses | complete | report | release => cases ho

/-- What is in the handshake is what was heard. -/
theorem heard_after [StatusHost σ] (name handlerName : String) (context : Context) (host : σ)
    (history : List Step) :
    Heard (acts history) ((fresh name handlerName context host).after history).handshake :=
  invariant_after (P := fun as _ b => Heard as b.handshake) (fun h hm => h.makes hm)
    (fun h ha => h.happens ha) heard_fresh history

/-- **The outcome the bridge takes is the first one published.** -/
theorem published_of_taken [StatusHost σ] (name handlerName : String) (context : Context) (host : σ)
    (history : List Step) {o : Outcome}
    (ho : some o ∈ outcomesTaken ((fresh name handlerName context host).moves history)) :
    published? (acts history) = some o := by
  refine (invariant_after (P := fun as ms (b : Bridge σ) => Heard as b.handshake ∧
    ∀ o, some o ∈ outcomesTaken ms → published? as = some o) ?_ ?_
    ⟨heard_fresh, fun _ ho => nomatch ho⟩ history).2 o ho
  · rintro as ms m b b' ⟨hh, htaken⟩ hm
    refine ⟨hh.makes hm, ?_⟩
    intro o ho
    rw [outcomesTaken_concat, List.mem_append, Option.mem_toList] at ho
    obtain ho | ho := ho
    · exact htaken o ho
    · exact hh.taken hm ho
  · rintro as ms a b b' ⟨hh, htaken⟩ ha
    refine ⟨hh.happens ha, ?_⟩
    intro o ho
    rw [published?_concat, htaken o ho]
    rfl

/-! ## When nobody else takes the outcome -/

/-- A bridge that made a move does not wait for the outcome any more. -/
theorem Makes.not_waiting [StatusHost σ] {b b' : Bridge σ} {m : Move} (hm : b.Makes m b') :
    b'.stage ≠ .waiting := by
  by_cases hd : ∃ d, b.stage = .driving d
  · obtain ⟨d, hs⟩ := hd
    obtain ⟨d', hs', -⟩ | ⟨exit, left, hcut⟩ := hm.leads hs
    · simp [hs']
    · simp [hcut.stage]
  · cases hm with
    | start | refuse | abandon | report => exact Stage.noConfusion
    | @release ending next => cases next <;> exact Stage.noConfusion
    | read hs | place hs | settle hs | relay hs | endStatuses hs | complete hs =>
      exact absurd ⟨_, hs⟩ hd

/-- The outcome waits for the bridge, which was never told that there is none. -/
structure Unstolen (ms : List Move) (b : Bridge σ) : Prop where
  kept : b.stage = .waiting → b.handshake.ready = true → b.handshake.outcome.isSome = true
  found : none ∉ outcomesTaken ms

theorem Unstolen.makes [StatusHost σ] {ms : List Move} {m : Move} {b b' : Bridge σ}
    (h : Unstolen ms b) (hm : b.Makes m b') : Unstolen (ms ++ [m]) b' where
  kept hs := absurd hs hm.not_waiting
  found := by
    rw [outcomesTaken_concat, List.mem_append, Option.mem_toList]
    rintro (hmem | hgone)
    · exact h.found hmem
    · cases hm with
      | abandon hs ho =>
        obtain ⟨hready, hnone⟩ := Handshake.of_poll_gone ho
        have hkept := h.kept hs hready
        rw [hnone] at hkept
        cases hkept
      | start | refuse | read | place | settle | relay | endStatuses | complete | report |
        release => cases hgone

theorem Unstolen.happens {ms : List Move} {a : Action} {b b' : Bridge σ} (h : Unstolen ms b)
    (ha : b.Happens a b') (hsteal : a ≠ .steal) : Unstolen ms b' := by
  refine ⟨fun hs => ?_, h.found⟩
  have hwaits : b.stage = .waiting := by
    by_cases hd : ∃ d, b.stage = .driving d
    · obtain ⟨d, hd⟩ := hd
      obtain ⟨mailbox, hd'⟩ := ha.meets.driving hd
      cases hd'.symm.trans hs
    · exact (ha.meets.stage fun d hs => hd ⟨d, hs⟩).symm.trans hs
  obtain ⟨-, hsame⟩ | ⟨o, rfl, hstore⟩ | ⟨rfl, hs, hset⟩ | ⟨rfl, -⟩ := ha.handshake
  · rw [hsame]
    exact h.kept hwaits
  · rw [hstore]
    cases hsettled : b.handshake.isSettled with
    | true =>
      rw [Handshake.store_of_settled hsettled]
      exact h.kept hwaits
    | false =>
      rw [Handshake.store_of_unsettled hsettled]
      exact fun _ => rfl
  · rw [hset]
    exact fun _ => (Bool.and_eq_true_iff.mp hs).1
  · exact absurd rfl hsteal

/-- **Where only the bridge asks for the outcome, it is never told that there is none.** -/
theorem unstolen_after [StatusHost σ] (name handlerName : String) (context : Context) (host : σ)
    {history : List Step} (h : .steal ∉ acts history) :
    Unstolen ((fresh name handlerName context host).moves history)
      ((fresh name handlerName context host).after history) := by
  have hfresh : Unstolen [] (fresh name handlerName context host) :=
    ⟨fun _ hready => (nomatch hready), List.not_mem_nil⟩
  refine invariant_after (P := fun as ms (b : Bridge σ) => .steal ∉ as → Unstolen ms b) ?_ ?_
    (fun _ => hfresh) history h
  · exact fun h hm hsteal => (h hsteal).makes hm
  · intro as ms a b b' h ha hsteal
    rw [List.mem_append, List.mem_singleton, not_or] at hsteal
    exact (h hsteal.1).happens ha fun heq => hsteal.2 heq.symm

/-! ## When the signal is set -/

/-- The bridge neither sets the signal nor takes it back. -/
theorem Makes.ready [StatusHost σ] {b b' : Bridge σ} {m : Move} (hm : b.Makes m b') :
    b'.handshake.ready = b.handshake.ready := by
  cases hm with
  | start | refuse | abandon => exact Handshake.ready_poll b.handshake
  | read => rw [read_handshake]
  | relay => rw [relay_handshake]
  | @settle d c r => cases r <;> rfl
  | place | endStatuses | complete | report => rfl
  | @release ending next => cases next <;> rfl

/-- What a bridge does that waits for the signal, it does with the signal set. -/
theorem Makes.ready_of_waiting [StatusHost σ] {b b' : Bridge σ} {m : Move} (hm : b.Makes m b')
    (hs : b.stage = .waiting) : b.handshake.ready = true := by
  have hpoll : b.handshake.poll.2 ≠ .pending → b.handshake.ready = true := by
    unfold Handshake.poll
    split
    · exact fun _ => ‹_›
    · exact fun hne => absurd rfl hne
  cases hm with
  | start _ ho | refuse _ ho | abandon _ ho => exact hpoll (by rw [ho]; exact Handshake.Poll.noConfusion)
  | read hd | place hd | settle hd | relay hd | endStatuses hd | complete hd | report hd | release hd =>
    cases hd.symm.trans hs

/-- What happens may set it, and never takes it back. -/
theorem Happens.ready {b b' : Bridge σ} {a : Action} (ha : b.Happens a b')
    (hready : b.handshake.ready = true) : b'.handshake.ready = true := by
  obtain ⟨-, hsame⟩ | ⟨o, -, hstore⟩ | ⟨-, -, hset⟩ | ⟨-, hpoll⟩ := ha.handshake
  · rw [hsame]
    exact hready
  · rw [hstore, Handshake.ready_store]
    exact hready
  · rw [hset]
    rfl
  · rw [hpoll, Handshake.ready_poll]
    exact hready

/-- **A bridge that does not wait any more has seen the signal.** -/
theorem ready_of_begun [StatusHost σ] (name handlerName : String) (context : Context) (host : σ)
    (history : List Step)
    (hs : ((fresh name handlerName context host).after history).stage ≠ .waiting) :
    ((fresh name handlerName context host).after history).handshake.ready = true := by
  refine invariant_after (P := fun _ _ (b : Bridge σ) => b.stage ≠ .waiting → b.handshake.ready = true) ?_ ?_
    (absurd rfl) history hs
  · intro as ms m b b' hready hm _
    rw [hm.ready]
    by_cases hwaits : b.stage = .waiting
    · exact hm.ready_of_waiting hwaits
    · exact hready hwaits
  · intro as ms a b b' hready ha hbegun
    refine ha.ready (hready fun hwaits => hbegun ?_)
    exact ((ha.meets.stage fun d hd => by rw [hwaits] at hd; cases hd).trans hwaits)

/-- **There is an outcome from the first one published on**, and no other one is put down then. -/
theorem isSettled_after [StatusHost σ] (name handlerName : String) (context : Context) (host : σ)
    (history : List Step) :
    ((fresh name handlerName context host).after history).handshake.isSettled =
      (published? (acts history)).isSome :=
  (heard_after name handlerName context host history).settled

/-- **The signal is set with it**, at the latest when the next thing that happens is that it is announced. -/
theorem ready_announce (b : Bridge σ) (hs : b.handshake.isSettled = true) :
    (b.act .announce).handshake.ready = true := by
  obtain hready | hstored := Handshake.ready_or_stored hs
  · exact (happens_act b .announce).ready hready
  · rw [act, if_pos hstored]
    rfl

end Bridge

end Steward

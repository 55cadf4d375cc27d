import Steward.Proofs.Subscriber.Queue

/-!
# Proofs/Subscriber/Readiness — no worker that can go on is forgotten

A worker is `AtRest` when it can only wait: it has ended, it waits for a permit, or it has nothing left
and listens for the next event.  An audience is `Ready` when all others are on the rota.

* `Audience.Ready.emit`, `.permit`, `.advance` — whoever can go on again is called.
* `Audience.Ready.run` — so when the workers have run, all are at rest.
-/

namespace Steward

/-! ## One worker -/

namespace Worker

variable {s : Subscriber} {w : Worker}

/-- No event makes the worker go on: it has ended, or waits for a permit. -/
def Stuck (s : Subscriber) (w : Worker) : Prop := w.ended = true ∨ w.isHeldUp s = true

/-- A worker that can only wait. -/
def AtRest (s : Subscriber) (w : Worker) : Prop :=
  w.Stuck s ∨ w.held = none ∧ w.queue = [] ∧ w.listens = true

/-- Who is at rest can be given nothing. -/
theorem AtRest.next? (h : w.AtRest s) : w.next? s = none := by
  rcases h with (hended | hheldUp) | ⟨hheld, hqueue, -⟩
  · simp [Worker.next?, hended]
  · simp [Worker.next?, hheldUp]
  · simp [Worker.next?, hheld, hqueue]

/-- Who can be given nothing is at rest as soon as it waits. -/
theorem atRest_await (h : w.next? s = none) : w.await.AtRest s := by
  unfold Worker.next? at h
  split at h
  · rename_i hcannot
    have hstuck : w.Stuck s := (Bool.or_eq_true _ _).mp hcannot
    exact .inl hstuck
  · rename_i hfree
    split at h
    · cases h
    · rename_i hheld hqueue
      have hgoing : w.ended = false := by simp_all
      exact .inr ⟨hheld, hqueue, by simp [await, hheld, hgoing]⟩
    · cases h

/-- After its turn a worker is at rest, or steps aside. -/
theorem atRest_turn {n : Nat} (h : (turn s w n).aside = false) : (turn s w n).worker.AtRest s := by
  induction n generalizing w with
  | zero =>
    have hstuck : w.ended = true ∨ w.isHeldUp s = true := by
      cases hended : w.ended <;> simp_all [turn]
    exact .inl hstuck
  | succ n ih =>
    unfold turn at h ⊢
    split at h
    · exact atRest_await ‹_›
    · exact ih h

/-- An event that does not find the worker listening does not matter to it. -/
theorem AtRest.offer (h : w.AtRest s) (hdeaf : w.listens = false) (e : Event) :
    (w.offer s e).1.AtRest s := by
  have hstuck : w.Stuck s := h.resolve_right fun hidle => nomatch hdeaf.symm.trans hidle.2.2
  unfold Worker.offer
  split
  · exact h
  · split
    · exact h
    · exact .inl hstuck

/-- Nor does a permit, unless the worker waits for one. -/
theorem AtRest.permit (h : w.AtRest s) {n : Nat} (hn : n = 0 ∨ w.isHeldUp s = false) :
    (w.permit n).AtRest s := by
  rcases hn with rfl | hfree
  · exact h
  · refine h.imp_left fun hstuck => ?_
    exact .inl (hstuck.resolve_right (Bool.eq_false_iff.mp hfree))

end Worker

/-! ## All members -/

namespace Audience

variable {a : Audience}

/-- A member's worker can only wait. -/
def Waits (a : Audience) (number : Nat) : Prop :=
  ∀ m, a.members[number]? = some m → m.worker.AtRest m.subscriber

/-- Whoever can go on is on the rota. -/
def Ready (a : Audience) : Prop := ∀ number, number ∈ a.rota ∨ a.Waits number

/-- At the start all are on the rota. -/
theorem ready_ofList (subs : List Subscriber) : (ofList subs).Ready := by
  intro number
  by_cases hlt : number < subs.length
  · exact .inl (.inl (List.mem_range.mpr hlt))
  · refine .inr fun m hm => ?_
    have hnone : (ofList subs).members[number]? = none :=
      List.getElem?_eq_none (by simpa [ofList] using Nat.le_of_not_lt hlt)
    exact absurd (hnone.symm.trans hm) (Option.some_ne_none m).symm

theorem mem_calledBy {e : Event} {number : Nat} {m : Member} (hm : a.members[number]? = some m)
    (hcalled : m.isCalledBy e = true) : number ∈ a.calledBy e :=
  List.mem_map.mpr ⟨(m, number), List.mem_filter.mpr
    ⟨List.mem_zipIdx_iff_getElem?.mpr hm, hcalled⟩, rfl⟩

/-- An event calls those that listen. -/
theorem Ready.emit (h : a.Ready) (e : Event) : (a.emit e).1.Ready := by
  intro number
  rcases h number with hrota | hwaits
  · exact .inl (Rota.mem_wakeAll.mpr (.inr hrota))
  · by_cases hcalled : number ∈ a.calledBy e
    · exact .inl (Rota.mem_wakeAll.mpr (.inl hcalled))
    · refine .inr fun m' hm' => ?_
      obtain ⟨m, hm, rfl⟩ : ∃ m, a.members[number]? = some m ∧ (m.offer e).1 = m' := by
        simpa [Audience.emit] using hm'
      have hrest := hwaits m hm
      rw [m.subscriber_offer]
      unfold Member.offer
      split
      · rename_i hwants
        have hdeaf : m.worker.listens = false := by
          have hnot : ¬ m.isCalledBy e = true := fun hc => hcalled (mem_calledBy hm hc)
          simpa [Member.isCalledBy, hwants] using hnot
        exact hrest.offer hdeaf e
      · exact hrest

/-- A permit calls the member that waits for one. -/
theorem Ready.permit (h : a.Ready) (member n : Nat) : (a.permit member n).Ready := by
  intro number
  by_cases hcalled : number = member ∧
      (n != 0 && (a.members[member]?).any Member.isHeldUp) = true
  · rw [Audience.permit, if_pos hcalled.2]
    exact .inl (Rota.mem_wake.mpr (.inl hcalled.1))
  · have hstays : number ∈ a.rota → number ∈ (a.permit member n).rota := fun hrota => by
      unfold Audience.permit
      dsimp only
      split
      · exact Rota.mem_wake.mpr (.inr hrota)
      · exact hrota
    refine (h number).imp hstays fun hwaits m' hm' => ?_
    obtain ⟨m, hm, rfl⟩ : ∃ m, a.members[number]? = some m ∧
        (if member = number then m.permit n else m) = m' := by
      simpa [Audience.permit, List.getElem?_modify] using hm'
    have hrest := hwaits m hm
    split
    · subst_vars
      refine hrest.permit ?_
      by_cases hn : n = 0
      · exact .inl hn
      · exact .inr (by simpa [hn, hm, Member.isHeldUp] using hcalled)
    · exact hrest

/-- To put one worker ahead does not matter to the others. -/
theorem Waits.set {number member : Nat} (h : a.Waits number) (hother : number ≠ member)
    (m : Member) (rota : Rota Nat) : Waits ⟨a.members.set member m, rota⟩ number := fun m' hm' =>
  h m' ((List.getElem?_set_ne hother.symm).symm.trans hm')

/-- Who gets ahead is on the rota, and stays there. -/
theorem Ready.advance (h : a.Ready) (member : Nat) : (a.advance member).1.Ready := by
  unfold Audience.advance
  split
  · exact h
  · rename_i m hm
    split
    · exact h
    · rename_i hnext
      intro number
      by_cases hother : number = member
      · subst hother
        refine .inl ((h number).resolve_right fun hwaits => ?_)
        exact nomatch hnext.symm.trans (hwaits m hm).next?
      · exact (h number).imp_right fun hwaits => hwaits.set hother _ _

/-- Who has had its turn has stepped aside or is at rest. -/
theorem ready_turn (member : Nat)
    (h : ∀ number, number ≠ member → number ∈ a.rota ∨ a.Waits number) :
    (a.turn member).1.Ready := by
  intro number
  unfold Audience.turn
  split
  · rename_i hm
    by_cases hother : number = member
    · subst hother
      exact .inr fun m' hm' => nomatch hm.symm.trans hm'
    · exact h number hother
  · rename_i m hm
    dsimp only
    by_cases hother : number = member
    · subst hother
      split
      · exact .inl (Rota.mem_stepAside.mpr (.inl rfl))
      · rename_i haside
        refine .inr fun m' hm' => ?_
        obtain ⟨-, rfl⟩ : _ ∧ _ = m' := by simpa [List.getElem?_set] using hm'
        exact Worker.atRest_turn (Bool.eq_false_iff.mpr haside)
    · refine (h number hother).imp (fun hrota => ?_) fun hwaits => hwaits.set hother _ _
      split
      · exact Rota.mem_stepAside.mpr (.inr hrota)
      · exact hrota

/-- **When the workers have run, all are at rest.** -/
theorem Ready.run (h : a.Ready) (number : Nat) : a.run.1.Waits number := by
  induction a using Audience.run.induct with
  | case1 a hnext =>
    rw [run_idle hnext]
    exact (h number).resolve_left (Rota.notMem_of_next? hnext number)
  | case2 a member rota hnext now ih =>
    -- who is taken off the rota has its turn at once, so the others are all that matter
    rw [run_turn hnext]
    refine ih (ready_turn member fun other hother => ?_)
    exact (h other).imp_left fun hrota => (Rota.mem_next? hnext hrota).resolve_left hother

end Audience

end Steward

import Steward.Proofs.Bridge.Run
import Steward.Proofs.Link.Basic

/-!
# Proofs/Bridge/Ending — from the end of a run to the end of its bridge

A run is over when the handler is cut off.  What remains is the same whatever ended it: one last
report, then everything is given back.

* `verdict?` is the exit code of a run that is over; it never changes (`verdict?_after`).
* `ends_of_verdict` — left to itself, the bridge of such a run makes the last report and stops.
* `isCut_after` — from then on the handler's link has no sending handle, and the status link is
  shut.
-/

namespace Steward

namespace Bridge

variable {σ : Type} {b b' : Bridge σ}

/-! ## The verdict -/

/-- The exit code of a run that is over, and whether its handler was left running. -/
def verdict? (b : Bridge σ) : Option (ExitCode × Bool) :=
  match b.stage with
  | .finishing _ exit left => some (exit, left)
  | .releasing (.stopped exit left) _ => some (exit, left)
  | .ended (.stopped exit left) => some (exit, left)
  | .waiting | .driving _ | .releasing (.notStarted _) _ | .ended (.notStarted _) => none

/-- A run that is over is making its last report, or it is releasing what it held or has ended. -/
theorem stage_of_verdict {v : ExitCode × Bool} (h : b.verdict? = some v) :
    (∃ handle, b.stage = .finishing handle v.1 v.2) ∨
    (∃ next, b.stage = .releasing (.stopped v.1 v.2) next) ∨ b.stage = .ended (.stopped v.1 v.2) := by
  unfold verdict? at h
  split at h
  · rename_i hs
    obtain rfl := Option.some.inj h
    exact .inl ⟨_, hs⟩
  · rename_i hs
    obtain rfl := Option.some.inj h
    exact .inr (.inl ⟨_, hs⟩)
  · rename_i hs
    obtain rfl := Option.some.inj h
    exact .inr (.inr hs)
  all_goals cases h

/-- A run that is over drives no handler. -/
theorem not_driving_of_verdict (h : b.verdict?.isSome) (d : Driving) : b.stage ≠ .driving d := by
  intro hs
  simp [verdict?, hs] at h

/-- What a bridge does once its run is over: it keeps the verdict, and leaves the links of the
handler alone. -/
structure Closes (b b' : Bridge σ) : Prop where
  verdict : b'.verdict? = b.verdict?
  requests : b'.requests = b.requests
  handler : b'.handler = b.handler
  lent : b'.lent = b.lent
  updates : b'.updates = b.updates
  taken : requestsDelivered (deeds b'.log) = requestsDelivered (deeds b.log)

theorem closes_finish [StatusHost σ] {handle : Handle} {exit : ExitCode} {left : Bool}
    (hs : b.stage = .finishing handle exit left) : b.Closes (b.finish handle exit left) where
  verdict := by
    rw [verdict?, verdict?, hs]
    rfl
  requests := rfl
  handler := rfl
  lent := rfl
  updates := rfl
  taken := by
    rw [deeds_finish, requestsDelivered, List.filterMap_append]
    exact List.append_nil _

theorem closes_release {ending : Ending} {next : Release} (hs : b.stage = .releasing ending next) :
    b.Closes (b.release ending next) := by
  have htaken : requestsDelivered (deeds (b.release ending next).log) =
      requestsDelivered (deeds b.log) := by rw [deeds_release]
  have hverdict : (b.release ending next).verdict? = b.verdict? := by
    rw [verdict?, verdict?, hs]
    cases next <;> cases ending <;> rfl
  cases next <;> exact ⟨hverdict, rfl, rfl, rfl, rfl, htaken⟩

/-- **Once the run is over, the bridge closes it and does nothing else.** -/
theorem Makes.closes [StatusHost σ] {m : Move} (h : b.verdict?.isSome) (hm : b.Makes m b') :
    b.Closes b' := by
  cases hm with
  | start hs | refuse hs | abandon hs => simp [verdict?, hs] at h
  | read hs | place hs | settle hs | relay hs | endStatuses hs | complete hs =>
    exact absurd hs (not_driving_of_verdict h _)
  | report hs => exact closes_finish hs
  | release hs => exact closes_release hs

/-- Nothing from outside changes a verdict, or ends a run. -/
theorem Meets.verdict (hm : b.Meets b') : b'.verdict? = b.verdict? :=
  hm.stage_view (fun stage => ({ b with stage := stage } : Bridge σ).verdict?) fun _ _ => rfl

/-- **Induction after the end of a run**: the verdict stands, and what the closing moves and the
actions keep goes on to hold. -/
theorem invariant_after_verdict [StatusHost σ] {P : Bridge σ → Prop} {v : ExitCode × Bool}
    (closes : ∀ {b b' : Bridge σ}, P b → b.Closes b' → P b')
    (meets : ∀ {b b' : Bridge σ}, P b → b.Meets b' → P b')
    (hv : b.verdict? = some v) (h : P b) (later : List Step) :
    (b.after later).verdict? = some v ∧ P (b.after later) := by
  refine state_invariant_after (P := fun b => b.verdict? = some v ∧ P b) ?_ ?_ ⟨hv, h⟩ later
  · rintro m b b' ⟨hv, h⟩ hm
    have hc := hm.closes (hv ▸ rfl)
    exact ⟨hc.verdict.trans hv, closes h hc⟩
  · rintro b b' ⟨hv, h⟩ hm
    exact ⟨hm.verdict.trans hv, meets h hm⟩

/-- **A verdict stands.** -/
theorem verdict?_after [StatusHost σ] {v : ExitCode × Bool} (h : b.verdict? = some v)
    (later : List Step) : (b.after later).verdict? = some v :=
  (invariant_after_verdict (P := fun _ => True) (fun h _ => h) (fun h _ => h) h trivial later).1

/-! ## Left to itself, the bridge stops -/

/-- A bridge that is releasing gives back one thing in a step. -/
theorem step_release [StatusHost σ] {ending : Ending} {next : Release}
    (hs : b.stage = .releasing ending next) : b.step .move = b.release ending next := by
  simp [step, next?, perform, hs]

/-- The last report is one step. -/
theorem step_finish [StatusHost σ] {handle : Handle} {exit : ExitCode} {left : Bool}
    (hs : b.stage = .finishing handle exit left) : b.step .move = b.finish handle exit left := by
  simp [step, next?, perform, hs]

/-- What is still to be given back is given back in as many moves. -/
theorem ends_of_releasing [StatusHost σ] {ending : Ending} {next : Release} {n : Nat}
    (hs : b.stage = .releasing ending next) (hn : Release.weight next = n) :
    (b.after (List.replicate n .move)).ending? = some ending := by
  induction n generalizing b next with
  | zero => cases next <;> cases hn
  | succ n ih =>
    rw [List.replicate_succ, after_cons, step_release hs]
    cases next with
    | closeControl | deregister | announce => exact ih rfl (Nat.succ.inj hn)
    | signal =>
      obtain rfl := Nat.succ.inj hn
      rfl

/-- **A run that is over comes to its end by itself**, with the exit code it was over with. -/
theorem ends_of_verdict [StatusHost σ] {v : ExitCode × Bool} (h : b.verdict? = some v) :
    ∃ n, (b.after (List.replicate n .move)).ending? = some (.stopped v.1 v.2) := by
  rcases stage_of_verdict h with ⟨handle, hs⟩ | ⟨next, hs⟩ | hs
  · refine ⟨5, ?_⟩
    rw [List.replicate_succ, after_cons, step_finish hs]
    have hreleasing : (b.finish handle v.1 v.2).stage =
        .releasing (.stopped v.1 v.2) .closeControl := rfl
    exact ends_of_releasing hreleasing rfl
  · exact ⟨Release.weight next, ends_of_releasing hs rfl⟩
  · exact ⟨0, by simp [ending?, hs]⟩

/-- A run has ended in the stage `ended` only. -/
theorem stage_of_ending {ending : Ending} (h : b.ending? = some ending) :
    b.stage = .ended ending := by
  unfold ending? at h
  split at h
  · rename_i hs
    rw [hs, Option.some.inj h]
  · cases h

/-- The moves of a bridge whose run is over leave the links of the handler alone. -/
theorem closes_after_moves [StatusHost σ] {v : ExitCode × Bool} (h : b.verdict? = some v) (n : Nat) :
    b.Closes (b.after (List.replicate n .move)) := by
  induction n generalizing b with
  | zero => exact ⟨rfl, rfl, rfl, rfl, rfl, rfl⟩
  | succ n ih =>
    have hstep : b.Closes (b.step .move) := by
      cases hm : b.next? with
      | none =>
        simp only [step, hm]
        exact ⟨rfl, rfl, rfl, rfl, rfl, rfl⟩
      | some m =>
        simp only [step, hm]
        exact (makes_perform hm).closes (h ▸ rfl)
    have hlater := ih (hstep.verdict.trans h)
    rw [List.replicate_succ, after_cons]
    exact ⟨hlater.verdict.trans hstep.verdict, hlater.requests.trans hstep.requests,
      hlater.handler.trans hstep.handler, hlater.lent.trans hstep.lent,
      hlater.updates.trans hstep.updates, hlater.taken.trans hstep.taken⟩

/-! ## The handler is cut off -/

/-- Nobody can send a request to the handler any more, and nobody takes its statuses. -/
structure IsCut (b : Bridge σ) : Prop where
  offers : b.requests.offers = 0
  updates : b.updates.Shut

/-- No action gives the bridge's end of the handler's link a new handle. -/
theorem Meets.offers (hm : b.Meets b') : b'.requests.offers = b.requests.offers := by
  cases hm with
  | aside _ requests | outlived _ _ _ _ requests => rw [requests]
  | take ht hp =>
    rw [takeRequest_requests hp]
    rfl
  | dropRequests =>
    rw [dropRequests_requests]
    rfl
  | finish c hr hl =>
    rw [finishHandler_requests hl]
    rfl

theorem IsCut.of_cutsOff {d : Driving} {exit : ExitCode} {left : Bool}
    (h : b.CutsOff d exit left b') : b'.IsCut := by
  obtain ⟨l, hl⟩ := h.updates
  refine ⟨by rw [h.requests], ?_⟩
  rw [hl]
  exact l.shut_close

/-- The step that ends a run that drives a handler cuts it off. -/
theorem cutsOff_of_ends [StatusHost σ] {d : Driving} (hs : b.stage = .driving d)
    (he : (b.step .move).verdict?.isSome) : ∃ exit left, b.CutsOff d exit left (b.step .move) := by
  cases hm : b.next? with
  | none => simp [step, hm, verdict?, hs] at he
  | some m =>
    simp only [step, hm] at he ⊢
    obtain ⟨d', hs', -⟩ | hcut := (makes_perform hm).leads hs
    · simp [verdict?, hs'] at he
    · exact hcut

/-- The move that ends a run cuts the handler off, and the moves after it leave it cut off. -/
theorem IsCut.makes [StatusHost σ] {m : Move} (ih : b.verdict?.isSome → b.IsCut)
    (hm : b.Makes m b') (hv : b'.verdict?.isSome) : b'.IsCut := by
  by_cases hb : b.verdict?.isSome
  · have hc := hm.closes hb
    exact ⟨by rw [hc.requests, (ih hb).offers], by rw [hc.updates]; exact (ih hb).updates⟩
  · have hmove := hm
    cases hm with
    | start hs | refuse hs | abandon hs => cases hv
    | read hs | place hs | settle hs | relay hs | endStatuses hs | complete hs =>
      obtain ⟨d', hs', -⟩ | ⟨exit, left, hcut⟩ := hmove.leads hs
      · simp [verdict?, hs'] at hv
      · exact .of_cutsOff hcut
    | report hs => simp [verdict?, hs] at hb
    | release hs =>
      rw [(closes_release hs).verdict] at hv
      exact absurd hv hb

/-- **From its end on, the handler of a run is cut off.** -/
theorem isCut_after [StatusHost σ] (name handlerName : String) (context : Context) (host : σ)
    (history : List Step)
    (h : ((fresh name handlerName context host).after history).verdict?.isSome) :
    ((fresh name handlerName context host).after history).IsCut := by
  refine invariant_after (P := fun _ _ b => b.verdict?.isSome → b.IsCut) ?_ ?_ ?_ history h
  · intro as ms m b b' ih hm hv
    exact .makes ih hm hv
  · intro as ms a b b' ih ha hv
    cases hb : b.verdict? with
    | none => simp [ha.meets.verdict, hb] at hv
    | some v =>
      have hcut := ih (hb ▸ rfl)
      exact ⟨ha.meets.offers.trans hcut.offers, ha.undergoes_updates.shut hcut.updates⟩
  · intro hv
    cases hv

end Bridge

end Steward

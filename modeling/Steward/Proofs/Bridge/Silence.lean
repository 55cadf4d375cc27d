import Steward.Proofs.Bridge.Delivery
import Steward.Proofs.Bridge.Ending

/-!
# Proofs/Bridge/Silence — what a handler still gets after the end of its run

A run may end before its handler does, or before the task the handler gave its requests to.  Who is
left is cut off: statuses are refused, and no request comes after the end.  Only what lay on the
handler's link at that moment stays there (`leave` cancels the send, the item stays in the slot), and
can be taken when the bridge has long stopped.

* `begins_later` — after the end at most the request that was on the link is taken.
* `silence_iff_not_placed` — nothing at all is got exactly when no request was on the link.  One is
  there only when the run ended with a refused status, or with a handler that had lent its requests.
-/

namespace Steward.Bridge

variable {σ : Type} {b b' : Bridge σ}

/-- Every sender of a status is refused: who comes to the status link, and nobody is still at it. -/
structure Refusing (b : Bridge σ) : Prop where
  comes : b.updates.start = .refused
  waits : b.updates.unfinished = []

/-- The handler of this run gets nothing any more: it finds the end of its requests, and every
sender of a status is refused. -/
structure Silent (b : Bridge σ) : Prop extends b.Refusing where
  requests : b.requests.poll = .ended

/-- Who is cut off sends no status. -/
theorem IsCut.refusing (h : b.IsCut) : b.Refusing where
  comes := h.updates.start
  waits := h.updates.unfinished

/-- An empty link that nobody can send on has come to its end. -/
theorem IsCut.silent (h : b.IsCut) (empty : b.requests.slot = none) : b.Silent where
  toRefusing := h.refusing
  requests := by simp [Link.poll, empty, h.offers]

/-! ## The handler's link after the end -/

/-- No action puts a request onto the handler's link. -/
theorem Meets.empty (h : b.requests.slot = none) (hm : b.Meets b') : b'.requests.slot = none := by
  cases hm with
  | aside _ requests | outlived _ _ _ _ requests => rw [requests, h]
  | take ht hp => exact absurd (h.symm.trans hp) (by simp)
  | dropRequests =>
    rw [dropRequests_requests]
    rfl
  | finish c hr hl =>
    rw [finishHandler_requests hl]
    rfl

/-- No action sets a handler going. -/
theorem Meets.not_running (h : b.handler ≠ .running) (hm : b.Meets b') : b'.handler ≠ .running := by
  cases hm with
  | aside _ _ handler => exact handler ▸ h
  | take => exact b.takeRequest_handler.symm ▸ h
  | dropRequests => exact b.dropRequests_handler.symm ▸ h
  | finish c hr | outlived c hr => exact absurd hr h

/-- An action takes a request from the link, or loses it. -/
theorem Meets.begins (hm : b.Meets b') :
    requestsDelivered (deeds b'.log) ++ onLink b'.requests <+:
      requestsDelivered (deeds b.log) ++ onLink b.requests := by
  have hlost : requestsDelivered (deeds b.log) ++ onLink b.requests.close <+:
      requestsDelivered (deeds b.log) ++ onLink b.requests :=
    (List.append_nil _).symm ▸ List.prefix_append _ _
  cases hm with
  | aside _ requests _ _ deeds | outlived _ _ _ _ requests _ deeds =>
    exact requests ▸ deeds ▸ List.prefix_rfl
  | take ht hp =>
    have heq : requestsDelivered (deeds b.takeRequest.log) ++ onLink b.takeRequest.requests =
        requestsDelivered (deeds b.log) ++ onLink b.requests := by
      rw [deeds_takeRequest hp, requestsDelivered_append, takeRequest_requests hp,
        onLink_of_none rfl, onLink_of_some hp, List.append_nil]
      rfl
    exact heq ▸ List.prefix_rfl
  | dropRequests => rwa [dropRequests_log, dropRequests_requests]
  | finish c hr hl => rwa [finishHandler_log, finishHandler_requests hl]

/-- **After the end of a run at most the request that was on the handler's link is taken.** -/
theorem begins_later [StatusHost σ] {v : ExitCode × Bool} (h : b.verdict? = some v)
    (later : List Step) :
    requestsDelivered (b.after later).log <+: requestsDelivered b.log ++ onLink b.requests := by
  have hlater := (invariant_after_verdict (P := fun b' =>
      requestsDelivered (deeds b'.log) ++ onLink b'.requests <+:
        requestsDelivered (deeds b.log) ++ onLink b.requests)
    (fun hl hc => by rwa [hc.taken, hc.requests]) (fun hl hm => hm.begins.trans hl) h
    List.prefix_rfl later).2
  rw [requestsDelivered_deeds, requestsDelivered_deeds] at hlater
  exact (List.prefix_append _ _).trans hlater

/-- A handler that runs after the end of its run was running at the end. -/
theorem running_before [StatusHost σ] {v : ExitCode × Bool} (h : b.verdict? = some v)
    (later : List Step) (hr : (b.after later).handler = .running) : b.handler = .running := by
  refine Classical.byContradiction fun hnot => ?_
  refine (invariant_after_verdict (P := fun b' => b'.handler ≠ .running)
    (fun hl hc => hc.handler ▸ hl) (fun hl hm => hm.not_running hl) h hnot later).2 hr

/-- A link that is empty when the run is over stays empty. -/
theorem empty_later [StatusHost σ] {v : ExitCode × Bool} (h : b.verdict? = some v)
    (empty : b.requests.slot = none) (later : List Step) :
    (b.after later).requests.slot = none :=
  (invariant_after_verdict (P := fun b' => b'.requests.slot = none)
    (fun hl hc => hc.requests ▸ hl) (fun hl hm => hm.empty hl) h empty later).2

/-! ## The run that ends while a request is on the link -/

/-- Somebody is there to take a request as long as one lies on the handler's link. -/
theorem Balanced.taker_of_placed {d : Driving} {c : Command} (h : Balanced b)
    (hs : b.stage = .driving d) (hm : d.mailbox = .holding c .placed) :
    b.hasTaker = true ∧ ∃ p, b.requests.slot = some p := by
  have hbalance := (h.driving hs).2.2
  rw [hm] at hbalance
  obtain _ | _ | ⟨slot, -⟩ := hbalance
  refine ⟨h.taker ?_, _, slot⟩
  intro hnone
  exact absurd (hnone.symm.trans slot) (by simp)

/-- A request that lies on the link when the run ends is still there when the bridge has stopped,
and so is who can take it. -/
theorem late_of_placed [StatusHost σ] {d : Driving} {c : Command} {exit : ExitCode} {left : Bool}
    (h : Balanced b) (hs : b.stage = .driving d) (hm : d.mailbox = .holding c .placed)
    (hcut : b.CutsOff d exit left b') :
    ∃ later p, (b'.after later).ending? = some (.stopped exit left) ∧
      (b'.after later).handler = b.handler ∧ (b'.after later).hasTaker = true ∧
      (b'.after later).requests.poll = .item p := by
  have hverdict : b'.verdict? = some (exit, left) := by
    rw [verdict?, hcut.stage]
  obtain ⟨htaker, p, slot⟩ := h.taker_of_placed hs hm
  obtain ⟨n, hn⟩ := ends_of_verdict hverdict
  have hcloses := closes_after_moves hverdict n
  obtain ⟨p', hslot⟩ : ∃ p', b'.requests.slot = some p' := by
    rw [hcut.requests]
    simp [Link.cancel, slot]
  refine ⟨_, p', hn, hcloses.handler.trans hcut.handler, ?_, ?_⟩
  · rw [hasTaker_congr hcloses.handler hcloses.lent, hcut.hasTaker, htaker]
  · rw [hcloses.requests, Link.poll, hslot]

/-- **With a request under way only a refused status or the end of the handler ends a run.** -/
theorem relay_or_complete_of_holding [StatusHost σ] {d : Driving} (hs : b.stage = .driving d)
    (hm : d.mailbox.isHolding = true) (he : (b.step .move).verdict?.isSome) :
    (∃ p, b.next? = some (.relay p)) ∨
      ∃ completion, b.next? = some (.complete completion) ∧ b.handler = .ended completion := by
  cases hnext : b.next? with
  | none => simp [step, hnext, verdict?, hs] at he
  | some m =>
    have hmove := makes_perform hnext
    simp only [step, hnext] at he
    generalize b.perform m = b' at hmove he
    cases hmove with
    | start hs' | refuse hs' | abandon hs' => exact absurd (hs'.symm.trans hs) (by simp)
    | report hs' => exact absurd (hs'.symm.trans hs) (by simp)
    | release hs' => exact absurd (hs'.symm.trans hs) (by simp)
    | read hs' hm' =>
      obtain rfl := Stage.driving.inj (hs'.symm.trans hs)
      cases hm'.symm.trans hm
    | place | endStatuses => cases he
    | @settle d' c r => cases r <;> cases he
    | relay => exact .inl ⟨_, rfl⟩
    | complete _ _ _ hended => exact .inr ⟨_, rfl, hended⟩

/-- A handler that ends and leaves a request on its link has given its requests away. -/
theorem Balanced.lent_of_placed {d : Driving} {c : Command} {completion : Completion} (h : Balanced b)
    (hs : b.stage = .driving d) (hm : d.mailbox = .holding c .placed)
    (hended : b.handler = .ended completion) : b.lent = true := by
  refine (hasTaker_iff.mp (h.taker_of_placed hs hm).1).resolve_left fun hr => ?_
  cases hended.symm.trans hr

/-- **When a handler is left alone.**  Let a run end with the next move of the bridge.  From then on
every status is refused, and at most the request that is on the handler's link is taken.  Once the
bridge has stopped a handler that still runs gets nothing at all exactly if no request is on the link
at the end, and the same holds of whoever has its requests.  A request can be there only if the run
ends with a refused status, or with a handler that gave its requests to another task. -/
theorem silence_iff_not_placed [StatusHost σ] (name handlerName : String) (context : Context)
    (host : σ) (history : List Step) {d : Driving}
    (hd : ((fresh name handlerName context host).after history).stage = .driving d)
    (he : (((fresh name handlerName context host).after history).step .move).verdict?.isSome) :
    let b := (fresh name handlerName context host).after history
    let e := b.step .move
    (∀ later, (e.after later).Refusing) ∧
    (∀ later, requestsDelivered (e.after later).log <+:
      requestsDelivered e.log ++ onLink b.requests) ∧
    ((∀ later, (e.after later).ending?.isSome → (e.after later).handler = .running →
      (e.after later).Silent) ↔ (b.handler = .running → ∀ c, d.mailbox ≠ .holding c .placed)) ∧
    ((∀ later, (e.after later).ending?.isSome → (e.after later).hasTaker = true →
      (e.after later).Silent) ↔ ∀ c, d.mailbox ≠ .holding c .placed) ∧
    (∀ c, d.mailbox = .holding c .placed → (∃ p, b.next? = some (.relay p)) ∨
      b.lent = true ∧ ∃ completion, b.next? = some (.complete completion)) := by
  intro b e
  have hbalanced : Balanced b := balanced_after name handlerName context host history
  obtain ⟨v, hv⟩ := Option.isSome_iff_exists.mp he
  obtain ⟨exit, left, hcut⟩ : ∃ exit left, b.CutsOff d exit left e := cutsOff_of_ends hd he
  have hcutLater : ∀ later, (e.after later).IsCut := by
    intro later
    have hafter : e.after later =
        (fresh name handlerName context host).after (history ++ .move :: later) :=
      (after_append _ history (.move :: later)).symm
    rw [hafter]
    apply isCut_after
    rw [← hafter, verdict?_after hv later]
    rfl
  have hsilent : (∀ c, d.mailbox ≠ .holding c .placed) → ∀ later, (e.after later).Silent := by
    intro hm later
    have hempty : e.requests.slot = none := by
      rw [hcut.requests]
      simp [Link.cancel, (hbalanced.driving hd).2.2.empty hm]
    exact (hcutLater later).silent (empty_later hv hempty later)
  refine ⟨fun later => (hcutLater later).refusing, ?_, ⟨?_, ?_⟩, ⟨?_, ?_⟩, ?_⟩
  · intro later
    have hlink : onLink e.requests = onLink b.requests := by
      rw [hcut.requests]
      exact onLink_cancel b.requests 0
    rw [← hlink]
    exact begins_later hv later
  · intro hnothing hrunning c hm
    obtain ⟨later, p, hend, hhandler, -, hpoll⟩ := late_of_placed hbalanced hd hm hcut
    have hended := (hnothing later (hend ▸ rfl) (hhandler.trans hrunning)).requests
    exact absurd (hpoll.symm.trans hended) (by simp)
  · intro hm later _ hrunning
    refine hsilent (hm ?_) later
    exact hcut.handler.symm.trans (running_before hv later hrunning)
  · intro hnothing c hm
    obtain ⟨later, p, hend, -, htaker, hpoll⟩ := late_of_placed hbalanced hd hm hcut
    have hended := (hnothing later (hend ▸ rfl) htaker).requests
    exact absurd (hpoll.symm.trans hended) (by simp)
  · exact fun hm later _ _ => hsilent hm later
  · intro c hm
    refine (relay_or_complete_of_holding hd (by rw [hm]; rfl) he).imp_right ?_
    rintro ⟨completion, hnext, hended⟩
    exact ⟨hbalanced.lent_of_placed hd hm hended, completion, hnext⟩

/-- A host that refuses the first status. -/
def refusesFirst : ScriptedHost := ⟨[(0, .numbered 6)], 0⟩

/-- The handler has a request on its link and a status waiting to be reported. -/
def requestAndStatus : List Step :=
  [.act (.store (.ok ⟨1, ["svc"]⟩)), .act .announce, .move,
    .act (.offerControl 1 ⟨.interrogate, 0, 0, 0, none⟩), .move, .move,
    .act (.offerStatus 2 (.ofState .running))]

/-- The handler takes its request after the last report, when the bridge has stopped. -/
theorem late_request :
    let b := (fresh "svc" "handler" 0 refusesFirst).after requestAndStatus
    let ended := (b.step .move).after (List.replicate 5 .move)
    b.stage = .driving ⟨1, .holding .interrogate .placed, .stopped, true⟩ ∧
    (b.step .move).verdict? = some (.ofService 6, true) ∧
    ended.ending? = some (.stopped (.ofService 6) true) ∧
    ended.handler = .running ∧
    requestsDelivered ended.log = [] ∧
    requestsDelivered (ended.act .takeRequest).log = [⟨.interrogate, 0, 0, 0, .stopped⟩] ∧
    ¬ ∀ later, ((b.step .move).after later).ending?.isSome →
      ((b.step .move).after later).handler = .running → ((b.step .move).after later).Silent := by
  refine ⟨rfl, rfl, rfl, rfl, rfl, rfl, fun hsilent => ?_⟩
  have hiff := (silence_iff_not_placed "svc" "handler" 0 refusesFirst requestAndStatus
    (d := ⟨1, .holding .interrogate .placed, .stopped, true⟩) rfl rfl).2.2.1
  exact hiff.mp hsilent rfl .interrogate rfl

end Steward.Bridge

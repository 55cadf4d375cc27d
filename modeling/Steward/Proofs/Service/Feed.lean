import Steward.Proofs.Service.Broadcast
import Steward.Proofs.Service.Simulated

/-!
# Proofs/Service/Feed — what a whole run brings to its subscribers

Whatever is done to a run on a scheduler, its feed has absorbed the events of the run so far, one after
the other (`Shows`).  To absorb events is a history of a relay in which just these events are told, so what
is known of all histories is known of the runs that are carried out.

* `Scripted.feed_of_play`, `Simulated.feed_of_play` — at the end of a whole run the feed has absorbed all its
  events.
* `Scripted.seen_of_play` — what a subscriber was handed of the events of a whole run is a part of them, in
  their order.
-/

namespace Steward

/-! ## What is absorbed is told -/

theorem Feed.absorb_append (f : Feed) (es es' : List Event) :
    f.absorb (es ++ es') = (f.absorb es).absorb es' := List.foldl_append

namespace Relay

variable {r : Relay}

/-- Nothing is told in turns. -/
theorem told_turns (r : Relay) (f : Feed) (n : Nat) : (r.after (turns f n)).told = r.told := by
  induction n generalizing r f with
  | zero => rfl
  | succ n ih =>
    unfold turns
    split
    · have hlisten : (r.act .listen).told = r.told := (told_act rfl).1
      have hwork : ((r.act .listen).act .work).told = (r.act .listen).told := (told_act rfl).1
      exact (ih _ _).trans (hwork.trans hlisten)
    · rfl

/-- **What is absorbed is told**, and nothing else. -/
theorem told_absorbing (h : r.stage = .attending) (es : List Event) :
    (r.after (absorbing r.toFeed es)).told = r.told ++ es := by
  induction es generalizing r with
  | nil => exact (List.append_nil _).symm
  | cons e es ih =>
    obtain ⟨hfeed, hattending⟩ : (r.act (.tell e)).toFeed = r.publish e ∧
        (r.act (.tell e)).stage = .attending := by
      simp [act, tell, h]
    have htold : (r.act (.tell e)).told = r.told ++ [e] := by simp [act, tell, h, told]
    obtain ⟨hturn, hstays⟩ := turn_eq_after hattending 1
    have hlater := ih hstays
    rw [hturn, told_turns, hfeed, htold, ← List.append_cons] at hlater
    exact (congrArg told (after_append (r.act (.tell e)) _ _)).trans hlater

/-- **A member is handed the events absorbed in order**, if these are not about observers. -/
theorem seen_of_absorb (subs : List Subscriber) (capacity : Nat) {es : List Event}
    (hes : ∀ e ∈ es, e.isAboutObserver = false) {number : Nat} {m : Member}
    (hm : ((Feed.ofList subs capacity).absorb es).audience.members[number]? = some m) :
    subs[number]? = some m.subscriber ∧ (m.worker.seen.filter (!·.isAboutObserver)).Sublist es := by
  have hstart : (ofList subs capacity).stage = .attending := rfl
  obtain ⟨pos, hheard⟩ := heard_after subs capacity (absorbing (Feed.ofList subs capacity) es)
  have htold : ((ofList subs capacity).after (absorbing (Feed.ofList subs capacity) es)).told = es :=
    told_absorbing hstart es
  have hfeed := (absorb_eq_after hstart es).1
  replace hm := (congrArg (·.audience.members[number]?) hfeed).trans hm
  refine ⟨hheard.subscriber hm, ?_⟩
  have hseen := (hheard.seen hm).filter (!·.isAboutObserver)
  have hall : es.filter (!·.isAboutObserver) = es :=
    List.filter_eq_self.mpr fun e he => by simp [hes e he]
  rwa [hheard.told_events, htold, hall] at hseen

end Relay

/-! ## What is done to a run -/

namespace Bridge.Session

variable {σ : Type} [StatusHost σ]

/-- **A round adds to the log.** -/
theorem log_round (s : Session σ) (ops : List Op) : s.bridge.log <+: (s.round ops).1.bridge.log := by
  obtain ⟨history, hround⟩ := s.exists_history_round ops
  rw [hround]
  exact log_after _ _

end Bridge.Session

namespace Service

variable {σ : Type} {f : Feed} {s s' : Service σ}

/-- The feed has absorbed the events of the bridge, starting from this one, and nothing was told of a
handler that was left. -/
structure Shows (f : Feed) (s : Service σ) : Prop where
  feed : s.feed = f.absorb (Bridge.events s.bridge.log)
  overstay : s.overstay = none

/-- What is done beside the feed and the log does not matter. -/
theorem Shows.congr (h : s.Shows f) (feed : s'.feed = s.feed)
    (log : s'.bridge.log = s.bridge.log) (overstay : s'.overstay = s.overstay) : s'.Shows f where
  feed := by rw [feed, log, h.feed]
  overstay := overstay.trans h.overstay

/-- **When the handler was waited for, the feed has absorbed all events of the run.** -/
theorem Shows.awaitHandler (h : s.Shows f) : s.awaitHandler.feed = f.absorb s.awaitHandler.events := by
  have hnothing : s.feed = f.absorb s.events := by
    rw [events, h.overstay, Option.toList_none, List.append_nil, h.feed]
  unfold Service.awaitHandler
  split
  · split
    · exact hnothing
    · exact (congrArg (Feed.absorb · _) h.feed).trans (f.absorb_append _ _).symm
  · exact hnothing

section Rounds

variable [StatusHost σ]

/-- **A round shows the events that it adds.** -/
theorem Shows.round (h : s.Shows f) (ops : List Bridge.Session.Op) : (s.round ops).1.Shows f where
  feed := by
    obtain ⟨news, hlog⟩ := s.session.log_round ops
    have hview : (s.session.round ops).2.log = news := by
      change (s.session.round ops).1.bridge.log.drop s.session.bridge.log.length = news
      rw [← hlog, List.drop_left]
    have hfeed : (s.round ops).1.feed = s.feed.absorb (Bridge.events news) :=
      congrArg (fun l => s.feed.absorb (Bridge.events l)) hview
    have hnow : (s.round ops).1.bridge.log = s.bridge.log ++ news := hlog.symm
    rw [hfeed, hnow, Bridge.events_append, Feed.absorb_append, h.feed]
  overstay := h.overstay

theorem Shows.step (h : s.Shows f) (op : Op) : (s.step op).1.Shows f := by
  obtain ⟨op', -, hround⟩ := s.exists_round_step op
  exact hround ▸ h.round [op']

theorem Shows.main (h : s.Shows f) (id : Context) (answer : RegisterAnswer)
    (raw : List (List UInt16)) : (s.main id answer raw).Shows f := by
  unfold Service.main
  split
  · exact h.round _
  · exact h

theorem Shows.control (h : s.Shows f) (caller : ThreadId) (call : ControlCall) :
    (s.control caller call).1.Shows f := by
  unfold Service.control
  split
  · exact h.round [.control caller call]
  · exact h

theorem Shows.dispatchReturns (h : s.Shows f) (r : Except HostError Unit) :
    (s.dispatchReturns r).Shows f := by
  cases r <;> exact (h.round [.publish (.error _)]).congr rfl rfl rfl

theorem Shows.endHandler (h : s.Shows f) : s.endHandler.Shows f := by
  unfold Service.endHandler
  split
  · exact h
  · exact h.round [.endSteps]

/-- Before the outcome of the start is known, there is nothing to show. -/
theorem shows_launch (name handlerName : String) (host : σ) (config : Config) (subs : List Subscriber)
    (keepsAux : Bool) : (launch name handlerName host config subs keepsAux).Shows
      (.ofList subs config.busSlots) where
  feed := by
    have hstart : ∀ op ∈ [Bridge.Session.Op.start], op.concernsStart = false :=
      fun _ hop => List.mem_singleton.mp hop ▸ rfl
    obtain ⟨history, hbridge, haside⟩ :=
      (Bridge.Session.ofBridge (.fresh name handlerName runId host) keepsAux).follows_round hstart
    have hnothing : Bridge.events (launch name handlerName host config subs keepsAux).bridge.log = [] :=
      (congrArg (fun b : Bridge σ => Bridge.events b.log) hbridge).trans
        (Bridge.events_of_unpublished name handlerName runId host (Bridge.published?_of_aside haside))
    rw [hnothing]
    rfl
  overstay := rfl

end Rounds

/-! ## A run on a host that does as it is told -/

namespace Scripted

theorem shows_step {s : Scripted} (h : s.service.Shows f) (op : Op) :
    (s.step op).1.service.Shows f := by
  cases op with
  | handler op => exact h.step op
  | main id raw =>
    change (s.main id raw).service.Shows f
    unfold main
    split
    · exact h.main id s.onRegister raw
    · exact h
  | control caller call =>
    unfold step
    dsimp only
    split
    · exact h.control caller call
    · exact h
  | returns r =>
    unfold step
    dsimp only
    split
    · exact h.dispatchReturns r
    · exact h

theorem shows_steps {s : Scripted} (h : s.service.Shows f) (ops : List Op) :
    (s.steps ops).1.service.Shows f := by
  induction ops generalizing s with
  | nil => exact h
  | cons op ops ih => exact ih (shows_step h op)

theorem feed_finish {s : Scripted} (h : s.service.Shows f) :
    s.finish.feed = f.absorb s.finish.events := by
  unfold finish
  dsimp only
  split
  · exact (h.endHandler.dispatchReturns _).awaitHandler
  · exact h.endHandler.awaitHandler

/-- **A whole run has shown all its events.** -/
theorem feed_of_play (name handlerName : String) (host : ScriptedHost) (config : Config)
    (subs : List Subscriber) (keepsAux : Bool) (onRegister : RegisterAnswer) (ops : List Op) :
    let s := (play (Service.launch name handlerName host config subs keepsAux) onRegister ops).2.1
    s.feed = (Feed.ofList subs config.busSlots).absorb s.events :=
  feed_finish (shows_steps (s := launch _ onRegister)
    (shows_launch name handlerName host config subs keepsAux) ops)

/-- **What a subscriber was handed of the events of a whole run** is a part of them, in their order. -/
theorem seen_of_play (name handlerName : String) (host : ScriptedHost) (config : Config)
    (subs : List Subscriber) (keepsAux : Bool) (onRegister : RegisterAnswer) (ops : List Op)
    {number : Nat} {m : Member} :
    let s := (play (Service.launch name handlerName host config subs keepsAux) onRegister ops).2.1
    s.feed.audience.members[number]? = some m →
      subs[number]? = some m.subscriber ∧
        (m.worker.seen.filter (!·.isAboutObserver)).Sublist s.events := by
  intro s hm
  obtain ⟨⟨rest, hchronicle⟩, -⟩ :=
    chronicle_of_play name handlerName host config subs keepsAux onRegister ops
  have habout : ∀ e ∈ s.events, e.isAboutObserver = false :=
    fun e he => hchronicle.not_about e (List.mem_append_left _ he)
  have hfeed : s.feed = (Feed.ofList subs config.busSlots).absorb s.events :=
    feed_of_play name handlerName host config subs keepsAux onRegister ops
  exact Relay.seen_of_absorb subs config.busSlots habout (hfeed ▸ hm)

end Scripted

/-! ## A run on a simulated host -/

namespace Simulated

/-- Nothing that is done to a run hides an event. -/
theorem lasting_shows (f : Feed) : Lasting (Shows f) where
  round h ops := h.round ops
  host h _ := h.congr rfl rfl rfl
  dispatch h _ := h.congr rfl rfl rfl

/-- **A whole run has shown all its events.** -/
theorem feed_of_play {s : Service SimulatedHost} (h : s.Shows f) (ops : List Op) :
    (play s ops).1.feed = f.absorb (play s ops).1.events := by
  obtain ⟨last, hlast, hplay⟩ := (lasting_shows f).beforeEnd h ops
  exact hplay ▸ hlast.awaitHandler

/-- So has a run of a handler that knows from the start what it will do. -/
theorem feed_of_playAlone {s : Service SimulatedHost} (h : s.Shows f)
    (steps : List Bridge.HandlerStep) :
    (playAlone s steps).feed = f.absorb (playAlone s steps).events :=
  feed_of_play (h.round _) []

end Simulated

end Service

end Steward

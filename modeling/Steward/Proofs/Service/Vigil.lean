import Steward.Proofs.Bridge.Chronicle
import Steward.Proofs.Service.Course
import Steward.Service.Vigil

/-!
# Proofs/Service/Vigil — the story of a run, to the end of the grace period

The host's calls, and the wait for the handler, are steps of a course or nothing to it
(`course_step`), so what is known of all courses is known of all vigils.  The thread that runs the
service tells of a handler that was left, once, when the bridge has nothing more to tell (`Left`).

* `chronicle_after` — the events of the bridge and of that thread are always the beginning of a
  story, and a complete one when the bridge has stopped.
* `chronicle_of_play` — so are those of a run on a host that does as it is told.
-/

namespace Steward

namespace Bridge

open Event (Chronicle)

variable {σ : Type} {b : Bridge σ} {grace? : Option Duration}

/-- The thread that runs the service tells of a handler only if that was left by the end. -/
theorem of_overstay {e : Event} (h : b.overstay? grace? = some e) :
    (∃ exit, b.stage = .ended (.stopped exit true)) ∧ e = Event.outlived b.name grace? := by
  unfold overstay? at h
  split at h
  · cases h
  · rename_i hending _
    exact ⟨⟨_, stage_of_ending hending⟩, (Option.some.inj h).symm⟩
  · cases h

section Overstay

variable {name : String} {es : List Event} {stage : Stage} {stay : Option Event}
  (h : Written name es stage)
  (left : ∀ e, stay = some e →
    (∃ exit, stage = .ended (.stopped exit true)) ∧ e = Event.outlived name grace?)
include h left

/-- When the bridge has stopped the story is complete, with or without the grace period. -/
theorem Written.complete {ending : Ending} (hs : stage = .ended ending) :
    Chronicle name (es ++ stay.toList) := by
  cases hstay : stay with
  | none =>
    rw [hs] at h
    rw [Option.toList_none, List.append_nil]
    exact h.complete_of_ended
  | some e =>
    obtain ⟨⟨exit, hleft⟩, rfl⟩ := left e hstay
    rw [hleft] at h
    exact h.outlived grace?

/-- Before it can come to that. -/
theorem Written.completable : ∃ rest, Chronicle name (es ++ stay.toList ++ rest) := by
  cases hstay : stay with
  | none =>
    rw [Option.toList_none, List.append_nil]
    exact h.begins
  | some e =>
    obtain ⟨⟨exit, hleft⟩, -⟩ := left e hstay
    exact ⟨[], (List.append_nil _).symm ▸ hstay ▸ h.complete left hleft⟩

end Overstay

end Bridge

namespace Vigil

open Event (Chronicle)

variable {σ : Type} [StatusHost σ]

/-! ## A vigil is a course -/

/-- A step of a vigil is a history of its course. -/
theorem course_step (v : Vigil σ) (s : Step) :
    ∃ steps, (v.step s).toCourse = v.toCourse.after steps := by
  cases s with
  | course s => exact ⟨[s], rfl⟩
  | call ticket caller call =>
    change ∃ steps, (v.call ticket caller call).toCourse = _
    unfold Vigil.call
    split
    · exact ⟨[.act .cloneControl rfl], rfl⟩
    · exact ⟨[], rfl⟩
  | send ticket =>
    change ∃ steps, (v.send ticket).toCourse = _
    unfold send
    split
    · exact ⟨[.act (.offerControl _ _) rfl], rfl⟩
    · exact ⟨[], rfl⟩
  | leave =>
    change ∃ steps, v.leave.toCourse = _
    unfold leave
    split <;> exact ⟨[], rfl⟩

/-- **A vigil is a course.** -/
theorem course_after (v : Vigil σ) (history : List Step) :
    ∃ steps, (v.after history).toCourse = v.toCourse.after steps := by
  induction history generalizing v with
  | nil => exact ⟨[], rfl⟩
  | cons s later ih =>
    obtain ⟨now, hnow⟩ := v.course_step s
    obtain ⟨rest, hrest⟩ := ih (v.step s)
    refine ⟨now ++ rest, ?_⟩
    rw [Course.after_append, ← hnow]
    exact hrest

/-- The bridge of a vigil goes through a history of its own. -/
theorem bridge_after (v : Vigil σ) (history : List Step) :
    ∃ steps, (v.after history).bridge = v.bridge.after steps := by
  obtain ⟨steps, hsteps⟩ := v.course_after history
  exact ⟨v.toCourse.onBridge steps, (congrArg Course.bridge hsteps).trans (Course.after_bridge _ _)⟩

/-! ## The handler is left alone -/

/-- What is known of the thread that runs the service: it leaves the handler alone when the bridge
has stopped, and tells of it only if it was left by the end. -/
structure Left (v : Vigil σ) : Prop where
  ended : v.departed = true → ∃ ending, v.bridge.stage = .ended ending
  told : ∀ e, v.overstay = some e → v.departed = true ∧
    (∃ exit, v.bridge.stage = .ended (.stopped exit true)) ∧ e = Event.outlived v.bridge.name v.grace?

omit [StatusHost σ] in
/-- Before it was left alone nothing is known of the handler. -/
theorem left_fresh (name handlerName : String) (context : Context) (host : σ) (guard : Guard)
    (grace? : Option Duration) : Left (fresh name handlerName context host guard grace?) where
  ended h := nomatch h
  told _ h := nomatch h

/-- Nobody but the thread that runs the service leaves the handler alone. -/
theorem rest_step (v : Vigil σ) {s : Step} (hs : s ≠ .leave) :
    (v.step s).departed = v.departed ∧ (v.step s).overstay = v.overstay ∧
      (v.step s).grace? = v.grace? := by
  cases s with
  | course s => exact ⟨rfl, rfl, rfl⟩
  | call ticket caller call =>
    simp only [step, Vigil.call]
    split <;> exact ⟨rfl, rfl, rfl⟩
  | send ticket =>
    simp only [step, send]
    split <;> exact ⟨rfl, rfl, rfl⟩
  | leave => exact absurd rfl hs

/-- What the bridge does leaves what is known of the thread. -/
theorem Left.congr {v v' : Vigil σ} {steps : List Bridge.Step} (h : Left v)
    (bridge : v'.bridge = v.bridge.after steps) (departed : v'.departed = v.departed)
    (overstay : v'.overstay = v.overstay) (grace : v'.grace? = v.grace?) : Left v' where
  ended hgone := by
    obtain ⟨ending, hs⟩ := h.ended (departed ▸ hgone)
    exact ⟨ending, bridge ▸ (Bridge.after_ended hs steps).1⟩
  told e he := by
    obtain ⟨hgone, ⟨exit, hs⟩, htold⟩ := h.told e (overstay ▸ he)
    refine ⟨departed.trans hgone, ⟨exit, bridge ▸ (Bridge.after_ended hs steps).1⟩, ?_⟩
    rw [bridge, Bridge.name_after, grace]
    exact htold

omit [StatusHost σ] in
theorem Left.leave {v : Vigil σ} (h : Left v) : Left v.leave := by
  unfold Vigil.leave
  split
  · rename_i hready
    obtain ⟨⟨-, hended⟩, -⟩ : (_ ∧ v.bridge.ending?.isSome = true) ∧ _ := by
      simpa only [Bool.and_eq_true] using hready
    obtain ⟨ending, hending⟩ := Option.isSome_iff_exists.mp hended
    refine ⟨fun _ => ⟨ending, Bridge.stage_of_ending hending⟩, fun e he => ?_⟩
    exact ⟨rfl, Bridge.of_overstay he⟩
  · exact h

theorem Left.step {v : Vigil σ} (h : Left v) (s : Step) : Left (v.step s) := by
  by_cases hs : s = .leave
  · subst hs
    exact h.leave
  · obtain ⟨steps, hbridge⟩ := v.bridge_after [s]
    obtain ⟨departed, overstay, grace⟩ := v.rest_step hs
    exact h.congr hbridge departed overstay grace

/-- **The handler is left alone when the bridge has stopped**, in every state of every run. -/
theorem left_after {v : Vigil σ} (h : Left v) (history : List Step) : Left (v.after history) := by
  induction history generalizing v with
  | nil => exact h
  | cons s later ih => exact ih (h.step s)

/-- A handler is left alone once. -/
theorem departed_after {v : Vigil σ} (hgone : v.departed = true) (later : List Step) :
    (v.after later).departed = true ∧ (v.after later).overstay = v.overstay := by
  induction later generalizing v with
  | nil => exact ⟨hgone, rfl⟩
  | cons s later ih =>
    have hstep : (v.step s).departed = true ∧ (v.step s).overstay = v.overstay := by
      by_cases hs : s = .leave
      · subst hs
        have hstays : v.leave = v := by simp [Vigil.leave, hgone]
        change v.leave.departed = true ∧ v.leave.overstay = _
        rw [hstays]
        exact ⟨hgone, rfl⟩
      · obtain ⟨departed, overstay, -⟩ := v.rest_step hs
        exact ⟨departed.trans hgone, overstay⟩
    obtain ⟨hlater, hsame⟩ := ih hstep.1
    exact ⟨hlater, hsame.trans hstep.2⟩

/-! ## The story -/

/-- Once the handler was left alone nothing is told any more. -/
theorem Left.events_after {v : Vigil σ} (h : Left v) (hgone : v.departed = true) (later : List Step) :
    (v.after later).events = v.events := by
  obtain ⟨ending, hs⟩ := h.ended hgone
  obtain ⟨steps, hbridge⟩ := v.bridge_after later
  rw [events, events, (departed_after hgone later).2, hbridge, (Bridge.after_ended hs steps).2]

/-- Whatever comes later is told after what was told before. -/
theorem Left.events_prefix {v : Vigil σ} (h : Left v) (later : List Step) :
    v.events <+: (v.after later).events := by
  cases hstay : v.overstay with
  | some e =>
    have hsame := h.events_after (h.told e hstay).1 later
    exact hsame.symm ▸ List.prefix_rfl
  | none =>
    obtain ⟨steps, hbridge⟩ := v.bridge_after later
    rw [events, hstay, Option.toList_none, List.append_nil]
    refine List.IsPrefix.trans ?_ (List.prefix_append _ _)
    rw [hbridge]
    exact (v.bridge.log_after steps).filterMap _

/-- **One story for every run.**  Whatever the order of the steps, the events of the bridge and of the
thread that runs the service are the beginning of a story, to which later events are added at the
end.  When the bridge has stopped the story is complete, with one terminal event; and when the
handler was left alone nothing is added any more. -/
theorem chronicle_after (name handlerName : String) (context : Context) (host : σ) (guard : Guard)
    (grace? : Option Duration) (history : List Step) :
    let v := (fresh name handlerName context host guard grace?).after history
    (∃ rest, Chronicle name (v.events ++ rest)) ∧
    (∀ later, v.events <+: (v.after later).events) ∧
    (v.bridge.ending?.isSome = true →
      Chronicle name v.events ∧ ∃ e, Event.terminals v.events = [e]) ∧
    (v.departed = true → v.bridge.ending?.isSome = true ∧
      ∀ later, (v.after later).events = v.events) := by
  intro v
  obtain ⟨steps, hbridge⟩ := (fresh name handlerName context host guard grace?).bridge_after history
  have hname : v.bridge.name = name := by
    rw [hbridge, Bridge.name_after]
    rfl
  have hwritten : Bridge.Written name (Bridge.events v.bridge.log) v.bridge.stage := by
    rw [hbridge]
    exact Bridge.written_after name handlerName context host steps
  have hleft : Left v := left_after (left_fresh name handlerName context host guard grace?) history
  have htold : ∀ e, v.overstay = some e →
      (∃ exit, v.bridge.stage = .ended (.stopped exit true)) ∧ e = Event.outlived name v.grace? :=
    fun e he => hname ▸ (hleft.told e he).2
  refine ⟨hwritten.completable htold, hleft.events_prefix, fun hended => ?_,
    fun hgone => ⟨?_, hleft.events_after hgone⟩⟩
  · obtain ⟨ending, hending⟩ := Option.isSome_iff_exists.mp hended
    have hchronicle := hwritten.complete htold (Bridge.stage_of_ending hending)
    exact ⟨hchronicle, hchronicle.terminals⟩
  · obtain ⟨ending, hs⟩ := hleft.ended hgone
    rw [Bridge.ending?, hs]
    rfl

/-- A handler takes one request, gives up the others and sends a status; a call on another thread ends
the run, and the handler stays. -/
def violatedRun : List Step :=
  [.course (.entry (.ok 1) [[115, 118, 99]]), .course .announce, .course .move,
    .call 1 .home ⟨4, 0, 0, 0⟩, .send 1, .course .move, .course .move,
    .course (.act .takeRequest rfl), .course .move, .course (.act .dropRequests rfl),
    .call 2 .home ⟨1, 0, 0, 0⟩, .send 2, .course .move, .course .move, .course .move,
    .course (.act (.offerStatus 3 (.ofState .running)) rfl), .course .move,
    .call 4 (.other 0) ⟨1, 0, 0, 0⟩, .send 4, .course .move, .course .move,
    .course .move, .course .move, .course .move, .course .move,
    .course (.returns (.ok ())), .course .settle, .leave]

/-- The story of that run, with every part a story can have. -/
theorem violated_story :
    let v := (fresh "svc" "handler" 0 (ScriptedHost.mk [] 0) (.capture .home) none).after violatedRun
    v.events.map (·.kind) = [.dispatcherReady, .handlerStarted, .controlReceived, .requestDelivered,
      .controlReceived, .requestDropped, .statusReported, .affinityViolation, .finalStatusReported,
      .bridgeStopped, .graceExceeded] ∧
    Chronicle "svc" v.events ∧ (∃ e, Event.terminals v.events = [e]) ∧
    ∀ later, (v.after later).events = v.events := by
  intro v
  have hgone : v.departed = true := rfl
  obtain ⟨-, -, hcomplete, hgone'⟩ :=
    chronicle_after "svc" "handler" 0 (ScriptedHost.mk [] 0) (.capture .home) none violatedRun
  obtain ⟨hended, hnothing⟩ := hgone' hgone
  obtain ⟨hchronicle, hterminal⟩ := hcomplete hended
  exact ⟨rfl, hchronicle, hterminal, hnothing⟩

end Vigil

/-! ## A run on a host that does as it is told -/

namespace Service

variable {σ : Type} [StatusHost σ]

/-- What is done to a run tells of no handler that was left. -/
theorem overstay_step (s : Service σ) (op : Op) : (s.step op).1.overstay = s.overstay := by
  obtain ⟨op', -, hround⟩ := s.exists_round_step op
  rw [hround]
  rfl

theorem overstay_main (s : Service σ) (id : Context) (answer : RegisterAnswer)
    (raw : List (List UInt16)) : (s.main id answer raw).overstay = s.overstay := by
  unfold main
  split <;> rfl

theorem overstay_control (s : Service σ) (caller : ThreadId) (call : ControlCall) :
    (s.control caller call).1.overstay = s.overstay := by
  unfold control
  split <;> rfl

namespace Scripted

open Event (Chronicle)

theorem overstay_step (s : Scripted) (op : Op) :
    (s.step op).1.service.overstay = s.service.overstay := by
  cases op with
  | handler op => exact s.service.overstay_step op
  | main id raw =>
    change (s.main id raw).service.overstay = _
    unfold main
    split
    · exact s.service.overstay_main id s.onRegister raw
    · rfl
  | control caller call =>
    unfold step
    dsimp only
    split
    · exact s.service.overstay_control caller call
    · rfl
  | returns r =>
    unfold step
    dsimp only
    split <;> rfl

theorem overstay_steps (s : Scripted) (ops : List Op) :
    (s.steps ops).1.service.overstay = s.service.overstay := by
  induction ops generalizing s with
  | nil => rfl
  | cons op ops ih => exact (ih (s.step op).1).trans (s.overstay_step op)

/-- At the end a handler that was left is waited for, and nothing else is told of. -/
theorem overstay_finish (s : Scripted) (h : s.service.overstay = none) :
    s.finish.overstay = s.finish.bridge.overstay? s.finish.config.grace? := by
  obtain ⟨ended, hfinish, hnone⟩ :
      ∃ ended : Service ScriptedHost, s.finish = ended.awaitHandler ∧ ended.overstay = none := by
    refine ⟨_, rfl, ?_⟩
    have hend : s.service.endHandler.overstay = none := by
      unfold endHandler
      split <;> exact h
    split <;> exact hend
  have hconfig : ended.awaitHandler.config = ended.config := by
    unfold awaitHandler
    split
    · split <;> rfl
    · rfl
  have hbridge : ended.awaitHandler.bridge = ended.bridge :=
    congrArg Course.bridge ended.course_awaitHandler
  rw [hfinish, hbridge, hconfig, overstay_awaitHandler, hnone, Option.or_none]

/-- **The events of a whole run are the beginning of a story**, and a complete one, with one terminal
event, if the bridge has stopped. -/
theorem chronicle_of_play (name handlerName : String) (host : ScriptedHost) (config : Config)
    (subs : List Subscriber) (keepsAux : Bool) (onRegister : RegisterAnswer) (ops : List Op) :
    let s := (play (Service.launch name handlerName host config subs keepsAux) onRegister ops).2.1
    (∃ rest, Chronicle name (s.events ++ rest)) ∧
    (s.bridge.ending?.isSome = true →
      Chronicle name s.events ∧ ∃ e, Event.terminals s.events = [e]) := by
  intro s
  obtain ⟨history, hcourse, -⟩ :=
    course_of_play name handlerName host config subs keepsAux onRegister ops
  have hbridge : s.bridge = (Bridge.fresh name handlerName runId host).after
      ((Course.fresh name handlerName runId host).onBridge history) :=
    (congrArg Course.bridge hcourse).trans (Course.after_bridge _ history)
  have hname : s.bridge.name = name := by
    rw [hbridge, Bridge.name_after]
    rfl
  have hwritten : Bridge.Written name (Bridge.events s.bridge.log) s.bridge.stage := by
    rw [hbridge]
    exact Bridge.written_after name handlerName runId host _
  have hstay : s.overstay = s.bridge.overstay? s.config.grace? :=
    overstay_finish _ (overstay_steps _ ops)
  have hleft : ∀ e, s.overstay = some e → (∃ exit, s.bridge.stage = .ended (.stopped exit true)) ∧
      e = Event.outlived name s.config.grace? := by
    intro e he
    rw [hstay] at he
    exact hname ▸ Bridge.of_overstay he
  refine ⟨hwritten.completable hleft, fun hended => ?_⟩
  obtain ⟨ending, hending⟩ := Option.isSome_iff_exists.mp hended
  have hchronicle := hwritten.complete hleft (Bridge.stage_of_ending hending)
  exact ⟨hchronicle, hchronicle.terminals⟩

end Scripted

end Service

end Steward

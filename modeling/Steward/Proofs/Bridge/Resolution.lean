import Steward.Proofs.Bridge.Chronicle
import Steward.Proofs.Bridge.Desertion
import Steward.Proofs.Bridge.Silence

/-!
# Proofs/Bridge/Resolution — what is told of the commands received

Each command received is told of once more: as delivered if the handler took its request, as dropped
otherwise.  The one command for which this can fail is that of a request that is under way when the
run ends.  The bridge then waits for it no longer, and says neither.  Such a request lies on the
handler's link, and may be taken afterwards; or it was taken, or given up, after the bridge had looked
at it for the last time.

* `taken_eq_delivered` — the commands of the requests taken are those delivered, and one that is not
  told of yet.
* `commandless_later` — after the end of a run no command is told of.
* `resolved_iff_not_held` — every command received is accounted for exactly if no request was under
  way at the end.
-/

namespace Steward

/-- **Every command received was resolved once**: delivered or dropped. -/
def Event.Resolved (es : List Event) : Prop :=
  (commandsOf .controlReceived es).Perm
    (commandsOf .requestDelivered es ++ commandsOf .requestDropped es)

/-- The commands of a story are accounted for exactly if none is open. -/
theorem Event.Story.resolved_iff {service : String} {delivered dropped : List Command}
    {open? : Option Command} {es : List Event} (h : Story service delivered dropped open? es) :
    Resolved es ↔ open? = none := by
  rw [Resolved, h.received_commands, h.delivered_commands, h.dropped_commands]
  constructor
  · intro hperm
    have hlength := hperm.length_eq
    rw [List.length_append, Nat.add_eq_left, List.length_eq_zero_iff] at hlength
    exact Option.toList_eq_nil_iff.mp hlength
  · rintro rfl
    rw [Option.toList_none, List.append_nil]

/-- The command under way is unresolved, or was taken and is not told of yet. -/
theorem Mailbox.unresolved_append_untold (m : Mailbox) : m.unresolved ++ m.untold = m.open?.toList := by
  cases m with
  | awaiting | detached => rfl
  | holding c delivery =>
    cases delivery with
    | fresh | placed => rfl
    | resolved r => cases r <;> rfl

/-- With none under way nothing is open. -/
theorem Mailbox.open?_eq_none {m : Mailbox} : m.open? = none ↔ m.isHolding = false := by
  cases m <;> simp [open?, isHolding]

namespace Bridge

open Event (Story Resolved)

variable {σ : Type} {b b' : Bridge σ} {d : Driving}

/-- The commands received are those of the requests made. -/
theorem received_eq_made [StatusHost σ] (name handlerName : String) (context : Context) (host : σ)
    (history : List Step) :
    Event.commandsOf .controlReceived
        (events ((fresh name handlerName context host).after history).log) =
      (requestsMade .stopped ((fresh name handlerName context host).after history).log).map
        (·.command) := by
  rw [received_after, ← requestsMade_map_event .stopped, List.map_map]
  rfl

/-- **The commands of the requests taken are those delivered**, and one whose taking the bridge has not
told of yet. -/
theorem taken_eq_delivered {name : String} {delivered dropped : List Command}
    (hsettles : Settles b) (hs : b.stage = .driving d)
    (hmade : Event.commandsOf .controlReceived (events b.log) =
      (requestsMade .stopped b.log).map (·.command))
    (story : Story name delivered dropped d.mailbox.open? (events b.log))
    (kept : d.mailbox ≠ .detached → dropped = []) :
    (requestsDelivered b.log).map (·.command) = delivered ++ d.mailbox.untold := by
  obtain ⟨lost, rest, ⟨all, hdropped, -⟩, -, hrest, -⟩ := hsettles.driving hs
  have hlost : dropped = lost.map (·.command) := story.dropped_commands.symm.trans hdropped
  have hall : delivered ++ dropped ++ (d.mailbox.unresolved ++ d.mailbox.untold) =
      (requestsDelivered b.log).map (·.command) ++ dropped ++ d.mailbox.unresolved := by
    rw [Mailbox.unresolved_append_untold, ← story.received_commands, hmade, hlost, ← hrest,
      ← List.map_append, ← List.map_append]
    exact congrArg _ all
  cases hm : d.mailbox with
  | awaiting | detached =>
    rw [hm] at hall
    exact (List.append_cancel_right (List.append_cancel_right hall)).symm.trans (List.append_nil _).symm
  | holding c delivery =>
    -- nothing was dropped yet, and of what is unresolved and what is untold one is empty
    rw [kept (by rw [hm]; nofun), List.append_nil, List.append_nil, hm] at hall
    cases delivery with
    | fresh | placed => simpa [Mailbox.unresolved, Mailbox.untold] using hall.symm
    | resolved r => cases r <;> simpa [Mailbox.unresolved, Mailbox.untold] using hall.symm

/-! ## After the end -/

/-- Past the end of a run a move tells of no command. -/
theorem Makes.commandless [StatusHost σ] {m : Move} (hm : b.Makes m b') (hv : b.verdict?.isSome) :
    ∃ news, events b'.log = events b.log ++ news ∧ ∀ e ∈ news, e.command = none := by
  cases hm with
  | start hs | refuse hs | abandon hs => simp [verdict?, hs] at hv
  | read hs | place hs | settle hs | relay hs | endStatuses hs | complete hs =>
    exact absurd hs (not_driving_of_verdict hv _)
  | @report handle exit left =>
    obtain ⟨e, -, hcommand, hevents⟩ := events_finish b handle exit left
    exact ⟨_, hevents, List.forall_mem_singleton.mpr hcommand⟩
  | @release ending next =>
    by_cases hn : next = .announce
    · subst hn
      exact ⟨_, events_release_announce b ending, List.forall_mem_singleton.mpr rfl⟩
    · exact ⟨[], (events_release_quiet b ending hn).trans (List.append_nil _).symm,
        List.forall_mem_nil _⟩

/-- **After the end of a run no command is told of.** -/
theorem commandless_later [StatusHost σ] {v : ExitCode × Bool} (hv : b.verdict? = some v)
    (later : List Step) :
    ∃ news, events (b.after later).log = events b.log ++ news ∧ ∀ e ∈ news, e.command = none := by
  refine (invariant_after (P := fun _ _ (b' : Bridge σ) => b'.verdict? = some v ∧
    ∃ news, events b'.log = events b.log ++ news ∧ ∀ e ∈ news, e.command = none) ?_ ?_
    ⟨hv, [], (List.append_nil _).symm, List.forall_mem_nil _⟩ later).2
  · rintro as ms m b₁ b₂ ⟨hv₁, news, hnews, hnone⟩ hm
    obtain ⟨more, hmore, hnone'⟩ := hm.commandless (hv₁ ▸ rfl)
    refine ⟨(hm.closes (hv₁ ▸ rfl)).verdict.trans hv₁, news ++ more, ?_, ?_⟩
    · rw [hmore, hnews, List.append_assoc]
    · exact List.forall_mem_append.mpr ⟨hnone, hnone'⟩
  · rintro as ms a b₁ b₂ ⟨hv₁, hnews⟩ ha
    exact ⟨ha.meets.verdict.trans hv₁, by rwa [ha.events]⟩

/-- Nor is one told of by the step that ends the run. -/
theorem commandless_of_end [StatusHost σ] (hs : b.stage = .driving d)
    (he : (b.step .move).verdict?.isSome) (later : List Step) :
    ∃ news, events (b.after (.move :: later)).log = events b.log ++ news ∧
      ∀ e ∈ news, e.command = none := by
  obtain ⟨c, hends⟩ := ends_of_over hs he
  obtain ⟨v, hv⟩ := Option.isSome_iff_exists.mp he
  obtain ⟨news, hnews, hnone⟩ := commandless_later hv later
  have hcause : (c.event b.name).command = none := by cases c <;> rfl
  refine ⟨c.event b.name :: news, ?_, List.forall_mem_cons.mpr ⟨hcause, hnone⟩⟩
  rw [after_cons, hnews, hends.told, List.append_assoc]
  rfl

/-- Events without a command change nothing of what is told of commands. -/
theorem filter_command_append {es news : List Event} (h : ∀ e ∈ news, e.command = none) :
    (es ++ news).filter (·.command.isSome) = es.filter (·.command.isSome) := by
  have hnone : news.filter (·.command.isSome) = [] :=
    List.filter_eq_nil_iff.mpr fun e he => by simp [h e he]
  rw [List.filter_append, hnone, List.append_nil]

theorem resolved_append {es news : List Event} (h : ∀ e ∈ news, e.command = none) :
    Resolved (es ++ news) ↔ Resolved es := by
  simp only [Resolved, Event.commandsOf_append_of_none _ es h]

/-! ## The end -/

/-- Only a bridge that drives the handler ends the run. -/
theorem driving_of_over [StatusHost σ] (hb : b.verdict? = none)
    (he : (b.step .move).verdict?.isSome) : ∃ d, b.stage = .driving d := by
  cases hnext : b.next? with
  | none => simp [step, hnext, hb] at he
  | some m =>
    have hmove := makes_perform hnext
    simp only [step, hnext] at he
    generalize b.perform m = b' at hmove he
    cases hmove with
    | start | refuse | abandon => cases he
    | read hs | place hs | settle hs | relay hs | endStatuses hs | complete hs => exact ⟨_, hs⟩
    | report hs => simp [verdict?, hs] at hb
    | release hs =>
      rw [(closes_release hs).verdict, hb] at he
      cases he

/-- When a run ends, a request under way is on the handler's link, or it has left that since the bridge
looked at it. -/
theorem held_of_ends [StatusHost σ] (hfaces : b.Faces) (hs : b.stage = .driving d)
    (he : (b.step .move).verdict?.isSome) {c : Command} {delivery : Delivery}
    (hm : d.mailbox = .holding c delivery) :
    delivery = .placed ∨ b.arm ≠ .mailbox ∧ ∃ r, delivery = .resolved r := by
  cases delivery with
  | placed => exact .inl rfl
  | fresh r =>
    have hnext := (comesNext_place hs (hfaces d c r hs hm) hm).next
    simp [step, hnext, perform, hs, hm, place, verdict?] at he
  | resolved r =>
    refine .inr ⟨fun harm => ?_, r, rfl⟩
    have hnext := (comesNext_settle hs harm hm).next
    simp only [step, hnext] at he
    cases r <;> simp [perform, hs, hm, settle, publishCommand, publish, note, verdict?] at he

/-- A run that is over ended with a move of the bridge, which drove the handler until then. -/
theorem exists_end [StatusHost σ] (hb : b.verdict? = none) {history : List Step}
    (hv : (b.after history).verdict?.isSome) :
    ∃ before later d, history = before ++ .move :: later ∧ (b.after before).stage = .driving d ∧
      ((b.after before).step .move).verdict?.isSome := by
  induction history generalizing b with
  | nil => simp [hb] at hv
  | cons s later ih =>
    cases hs : (b.step s).verdict? with
    | none =>
      obtain ⟨before, later, d, rfl, hd, he⟩ := ih hs hv
      exact ⟨s :: before, later, d, rfl, hd, he⟩
    | some v =>
      refine ⟨[], later, ?_⟩
      cases s with
      | act a =>
        have hnone := (happens_act b a).meets.verdict.trans hb
        exact absurd (hnone.symm.trans hs) (by simp)
      | move =>
        obtain ⟨d, hd⟩ := driving_of_over hb (hs ▸ rfl)
        exact ⟨d, rfl, hd, hs ▸ rfl⟩

/-- **What is told of the commands received.**  When a run is over, it ended with a move of the bridge,
and its events with a command say: the commands of the requests taken before the end were received
and delivered, the others received and dropped, one after the other, and at most one was received at
last and is told of no more.  Every command received is resolved exactly if no request was under way
at the end.  One can be under way only if the run ended with a refused status, or with the handler: it
lay on the handler's link, which outlives the handler in another task's hands only; or it was taken,
or given up, behind the back of a bridge that had looked at it in that pass already. -/
theorem resolved_iff_not_held [StatusHost σ] (name handlerName : String) (context : Context)
    (host : σ) (history : List Step)
    (hover : ((fresh name handlerName context host).after history).verdict?.isSome) :
    let es := events ((fresh name handlerName context host).after history).log
    ∃ before later d, history = before ++ .move :: later ∧
      let b := (fresh name handlerName context host).after before
      b.stage = .driving d ∧ (b.step .move).verdict?.isSome ∧
      (∃ delivered dropped,
        es.filter (·.command.isSome) = Event.dialogue name delivered dropped d.mailbox.open? ∧
        (requestsDelivered b.log).map (·.command) = delivered ++ d.mailbox.untold) ∧
      (Resolved es ↔ d.mailbox.isHolding = false) ∧
      ∀ c delivery, d.mailbox = .holding c delivery →
        (delivery = .placed ∨ b.arm ≠ .mailbox ∧ ∃ r, delivery = .resolved r) ∧
        ((∃ p, b.next? = some (.relay p)) ∨
          (∃ completion, b.next? = some (.complete completion)) ∧ (delivery = .placed → b.lent = true)) := by
  intro es
  obtain ⟨before, later, d, rfl, hd, he⟩ := exists_end rfl hover
  refine ⟨before, later, d, rfl, hd, he, ?_⟩
  have hbalanced := balanced_after name handlerName context host before
  have hfaces := faces_after name handlerName context host before
  obtain ⟨delivered, dropped, story, kept⟩ :=
    (written_after name handlerName context host before).story hd
  have htaken := taken_eq_delivered (settles_after name handlerName context host before) hd
    (received_eq_made name handlerName context host before) story kept
  obtain ⟨news, hnews, hnone⟩ : ∃ news,
      es = events ((fresh name handlerName context host).after before).log ++ news ∧
        ∀ e ∈ news, e.command = none := by
    change ∃ news, events (after _ (before ++ .move :: later)).log = _ ∧ _
    rw [after_append]
    exact commandless_of_end hd he later
  refine ⟨⟨delivered, dropped, ?_, htaken⟩, ?_, fun c delivery hm => ⟨held_of_ends hfaces hd he hm, ?_⟩⟩
  · rw [hnews, filter_command_append hnone, story.dialogue]
  · rw [hnews, resolved_append hnone, story.resolved_iff, Mailbox.open?_eq_none]
  · refine (relay_or_complete_of_holding hd (by rw [hm]; rfl) he).imp_right ?_
    rintro ⟨completion, hnext, hended⟩
    refine ⟨⟨completion, hnext⟩, ?_⟩
    rintro rfl
    exact hbalanced.lent_of_placed hd hm hended

/-- The host refuses a status while a request waits for the handler: its command is received, and
nothing more is said of it. -/
theorem unresolved_request :
    let history := requestAndStatus ++ List.replicate 6 .move
    let b := (fresh "svc" "handler" 0 refusesFirst).after history
    b.ending? = some (.stopped (.ofService 6) true) ∧
    (events b.log).map (·.kind) = [.dispatcherReady, .handlerStarted, .controlReceived,
      .statusReportFailed, .finalStatusReported, .bridgeStopped] ∧
    ¬ Resolved (events b.log) ∧
    ∃ before later d, history = before ++ .move :: later ∧
      ((fresh "svc" "handler" 0 refusesFirst).after before).stage = .driving d ∧
      d.mailbox.isHolding = true := by
  intro history b
  obtain ⟨before, later, d, hsplit, hd, -, -, hiff, -⟩ :=
    resolved_iff_not_held "svc" "handler" 0 refusesFirst history rfl
  have hunresolved : ¬ Resolved (events b.log) := by
    intro hperm
    exact absurd hperm.length_eq (by decide)
  exact ⟨rfl, rfl, hunresolved, before, later, d, hsplit, hd,
    Bool.of_not_eq_false (mt hiff.mpr hunresolved)⟩

/-- So it is when a handler returns that gave its requests to another task. -/
example :
    let b := (fresh "svc" "handler" 0 (ScriptedHost.mk [] 0)).after
      ([.act (.store (.ok ⟨1, ["svc"]⟩)), .act .announce, .move,
        .act (.offerControl 1 ⟨.interrogate, 0, 0, 0, none⟩), .move, .move, .act .lendRequests,
        .act (.finish (.exited .success))] ++ List.replicate 7 .move)
    b.ending? = some (.stopped .success false) ∧
    (events b.log).map (·.kind) = [.dispatcherReady, .handlerStarted, .controlReceived,
      .handlerExited, .finalStatusReported, .bridgeStopped] := by
  decide

end Bridge

end Steward

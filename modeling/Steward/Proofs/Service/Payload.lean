import Steward.Proofs.Service.Hosted

/-!
# Proofs/Service/Payload — what a control call holds, from the host's queue to the handler

A command in the host's queue becomes a call, the call an event, and the event the request that the
handler takes.  `Sound` says that they go on in order; here it is seen what they hold.

* `Sound.requests` — the requests the handler takes have what the calls had.
* `Sound.queued` — the calls have what was queued at the host.
* `payload_preserved` — so the requests have what was queued, code by code.
-/

namespace Steward

namespace Command

/-- **A number is read as another command only if it has no meaning of its own**, and then as itself. -/
theorem ofRaw_eq_other_iff {n m : UInt32} : ofRaw n = .other m ↔ m = n ∧ ∀ c ∈ known, c.raw ≠ n := by
  unfold ofRaw
  cases h : known.find? (·.raw == n) with
  | none =>
    have hno : ∀ c ∈ known, c.raw ≠ n := by simpa using h
    refine ⟨fun heq => ⟨(Command.other.inj heq).symm, hno⟩, ?_⟩
    rintro ⟨rfl, -⟩
    rfl
  | some c =>
    have hc : c ∈ known := List.mem_of_find?_eq_some h
    have hraw : c.raw = n := by simpa using List.find?_some h
    refine iff_of_false (fun heq => ?_) fun ⟨_, hno⟩ => hno c hc hraw
    obtain rfl : c = .other m := heq
    simp [known] at hc

end Command

namespace Hosted

open Dispatcher (callsIn)
open SimulatedHost (Callback)

variable {context : Context} {h : SimulatedHost} {r : Hosted}

/-! ## What the handler hears -/

/-- The call that a request comes from. -/
def callOf (q : Request) : ControlCall := ⟨q.command.raw, q.eventType, q.eventData, q.context⟩

/-- The event of a call on the thread that registered the run. -/
def eventOf (c : ControlCall) : ControlEvent := ⟨.ofRaw c.code, c.eventType, c.eventData, c.context, none⟩

/-- What an event tells of its call. -/
def tells (e : ControlEvent) : ControlCall := ⟨e.command.raw, e.eventType, e.eventData, e.context⟩

/-- An event on the thread that registered the run tells all of its call. -/
theorem tells_eventOf (c : ControlCall) : tells (eventOf c) = c := by
  simp [tells, eventOf]

/-- The command that asks for a call on the thread that dispatches. -/
def commandOf (c : ControlCall) : QueuedCommand := .control c.code c.eventType c.eventData

/-- The call asks for the run with this context, on the thread that dispatches. -/
def isHome (context : Context) (k : Callback) : Bool := !k.foreign && k.call.context == context

/-- The calls that ask for the run with this context on the thread that dispatches, in order. -/
def heard (context : Context) (calls : List Callback) : List ControlCall :=
  (calls.filter (isHome context)).map (·.call)

theorem stamp_home {k : Callback} (hk : k.foreign = false) : stamp k = eventOf k.call := by
  simp [stamp, eventOf, Guard.stamp, Guard.capture, Callback.thread, hk]

theorem stamp_foreign {k : Callback} (hk : k.foreign = true) :
    stamp k = ⟨.other 0, 0, 0, k.call.context, some ExitCode.crossThreadCall⟩ := by
  simp [stamp, Guard.stamp, Guard.capture, Callback.thread, hk, ThreadId.home, ThreadId.other]

/-- The unflagged events are those of the calls on the thread that dispatches, and each has the whole
content of its call. -/
theorem stamps_unflagged (context : Context) (calls : List Callback) :
    (stamps context calls).filter (·.error.isNone) = (heard context calls).map eventOf := by
  induction calls with
  | nil => rfl
  | cons k calls ih =>
    have hsplit : stamps context (k :: calls) = stamps context [k] ++ stamps context calls :=
      stamps_append context [k] calls
    rw [hsplit, List.filter_append, ih]
    cases hk : k.foreign with
    | true => cases hc : k.call.context == context <;> simp [stamps, heard, isHome, stamp_foreign, hk, hc]
    | false =>
      cases hc : k.call.context == context <;> simp [stamps, heard, isHome, stamp_home, eventOf, hk, hc]

/-- **The requests the handler has taken are those of the calls on the thread that dispatches**, in
order. -/
theorem Sound.requests (hr : Sound context h r) :
    (Bridge.requestsDelivered r.run.bridge.log).map Request.event <+:
      (heard context (callsIn r.host.log)).map eventOf := by
  obtain ⟨calls, hcalls, hstamped, -⟩ := hr.stamped
  have hmade := hr.conveys.balanced.begins
  rw [Bridge.requestsDelivered_deeds, Bridge.requestsMade_deeds] at hmade
  have hread := ((List.prefix_append _ _).trans hmade).map Request.event
  rw [Bridge.requestsMade_map_event] at hread
  have hstamps := hr.conveys.begins.filter (·.error.isNone)
  rw [hstamped, stamps_unflagged] at hstamps
  exact hread.trans (hstamps.trans (((hcalls.filter _).map _).map _))

/-- A command that asks for a call on the thread that dispatches is the one for that call. -/
theorem asks_home {c : QueuedCommand} {k : Callback} (hc : c.asks context = some k)
    (hk : k.foreign = false) : c = commandOf k.call := by
  cases c with
  | control => obtain rfl := Option.some.inj hc; rfl
  | foreign => obtain rfl := Option.some.inj hc; cases hk
  | exit => cases hc

/-- Each call was asked for by the command the dispatcher looked for it with. -/
theorem heard_sublist (context : Context) {looks : List (QueuedCommand × Option Callback)}
    (hasks : ∀ c k, (c, some k) ∈ looks → ∃ slot, c.asks slot = some k) :
    ((heard context (looks.filterMap (·.2))).map commandOf).Sublist (looks.map (·.1)) := by
  induction looks with
  | nil => exact .slnil
  | cons p looks ih =>
    have ih := ih fun c k hmem => hasks c k (List.mem_cons_of_mem _ hmem)
    obtain ⟨c, k?⟩ := p
    cases k? with
    | none => exact .cons c ih
    | some k =>
      obtain ⟨slot, hc⟩ := hasks c k List.mem_cons_self
      cases hk : isHome context k with
      | false => simpa [heard, hk] using ih.cons c
      | true =>
        have hhome : k.foreign = false := by
          simpa using (Bool.and_eq_true_iff.mp hk).1
        simpa [heard, hk, asks_home hc hhome] using ih

/-- **The calls on the thread that dispatches are from commands in the queue**, in order. -/
theorem Sound.queued (hr : Sound context h r) :
    ((heard context (callsIn r.host.log)).map commandOf).Sublist
      (h.queue ++ Dispatcher.queuedIn r.host.log) := by
  have hcalled : callsIn r.host.log <+: Dispatcher.foundIn r.host.log :=
    hr.answered.called ▸ List.prefix_append _ _
  have hlooks : ((heard context (Dispatcher.foundIn r.host.log)).map commandOf).Sublist
      ((Dispatcher.looksIn r.host.log).map (·.1)) := by
    refine heard_sublist context fun c k hmem => ?_
    obtain ⟨before, later, heq⟩ := List.append_of_mem (Dispatcher.mem_looksIn.mp hmem)
    have hfound := hr.answered.found before c (some k) later heq
    obtain ⟨slot, -, hc⟩ := Option.bind_eq_some_iff.mp hfound.symm
    exact ⟨slot, hc⟩
  have htook : ((Dispatcher.looksIn r.host.log).map (·.1)).Sublist (Dispatcher.tookIn r.host.log) := by
    refine (List.sublist_append_left _ r.host.duty.held).trans ?_
    rw [hr.answered.looks]
    exact List.filter_sublist
  have hcame := (List.prefix_append _ r.host.host.queue).trans hr.conserved.some
  have hheard := (((hcalled.filter (isHome context)).map (·.call)).map commandOf).sublist
  exact hheard.trans (hlooks.trans (htook.trans hcame.sublist))

/-- **What a control call holds reaches the handler unchanged.**  Whatever is queued at the host and
whatever happens, the requests the handler takes are, one by one from the first, those of the calls made
on the thread that registered the run: each has the code, the type and the data that were queued, and the
run's own context.

Its command is what the code says: two codes are never one command, a code with a meaning of its own is
read as that command, also if it was sent as a bare number, and any other is read as itself. -/
theorem payload_preserved (name handlerName : String) (context : Context) (h : SimulatedHost)
    (grace? : Option Duration) (history : List Step) :
    let r := (fresh name handlerName context h grace?).after history
    let requests := Bridge.requestsDelivered r.run.bridge.log
    let calls := heard context (callsIn r.host.log)
    (requests.map callOf <+: calls ∧
      (calls.map commandOf).Sublist (h.queue ++ Dispatcher.queuedIn r.host.log)) ∧
    (∀ q ∈ requests, q.context = context ∧ q.command = .ofRaw q.command.raw) ∧
    (∀ m n, Command.ofRaw m = Command.ofRaw n → m = n) ∧
    (∀ n m, Command.ofRaw n = .other m ↔ m = n ∧ ∀ c ∈ Command.known, c.raw ≠ n) ∧
    ∀ (g : SimulatedHost) (n : UInt32), g.send (.other n) = g.send (.ofRaw n) := by
  intro r requests calls
  have hr : Sound context h r := (sound_fresh name handlerName context h grace?).after history
  have hrequests := hr.requests
  refine ⟨⟨?_, hr.queued⟩, fun q hq => ?_, fun m n heq => ?_, fun n m => Command.ofRaw_eq_other_iff,
    fun g n => ?_⟩
  · have htold := hrequests.map tells
    rw [List.map_map, List.map_map, show tells ∘ eventOf = id from funext tells_eventOf, List.map_id] at htold
    exact htold
  · have hmem := hrequests.subset (List.mem_map_of_mem (f := Request.event) hq)
    obtain ⟨c, hc, hevent⟩ := List.mem_map.mp hmem
    obtain ⟨k, hk, rfl⟩ := List.mem_map.mp hc
    have hhome : k.call.context = context := by
      simpa using (Bool.and_eq_true_iff.mp (List.mem_filter.mp hk).2).2
    have hcommand : Command.ofRaw k.call.code = q.command := congrArg ControlEvent.command hevent
    have hcontext : k.call.context = q.context := congrArg ControlEvent.context hevent
    exact ⟨hcontext.symm.trans hhome, by rw [← hcommand, Command.raw_ofRaw]⟩
  · rw [← Command.raw_ofRaw m, heq, Command.raw_ofRaw]
  · rw [SimulatedHost.send, SimulatedHost.send, Command.raw_ofRaw]
    rfl

/-- To take a request has nothing to do with the start. -/
theorem takeRequest_aside : Bridge.Action.concernsStart .takeRequest = false := rfl

/-- A run that is started, called back with a code that has no meaning of its own, and has its handler take
the request. -/
def errand : List Step :=
  [.host (.dispatch "demo" 7) rfl, .host (.register 7) rfl,
    .run (.course (.entry (.ok SimulatedHost.handle) [])) rfl, .run (.course .announce) rfl,
    .host (.leave false) rfl,
    .run (.course .move) rfl, .host .take rfl, .host .look rfl, .host .call rfl, .enter,
    .run (.send 0) rfl, .run (.course .move) rfl, .run (.course .move) rfl,
    .run (.course (.act .takeRequest takeRequest_aside)) rfl, .answer]

/-- The code, its type and its data, all the way to the handler. -/
theorem payload_preserved_errand :
    let r := (fresh "demo" "demo" 7 { queue := [.control 200 3 9] } none).after errand
    (Bridge.requestsDelivered r.run.bridge.log = [⟨.other 200, 3, 9, 7, .stopped⟩] ∧
      heard 7 (callsIn r.host.log) = [⟨200, 3, 9, 7⟩] ∧ r.host.host.results = [noError]) ∧
    (Bridge.requestsDelivered r.run.bridge.log).map callOf <+: heard 7 (callsIn r.host.log) :=
  ⟨by decide, (payload_preserved "demo" "demo" 7 { queue := [.control 200 3 9] } none errand).1.1⟩

end Hosted

end Steward

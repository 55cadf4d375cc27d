import Steward.Proofs.Bridge.Callers
import Steward.Proofs.Bridge.Delivery
import Steward.Proofs.Host.Dispatcher
import Steward.Service.Hosted

/-!
# Proofs/Service/Hosted — what is kept of a run on a simulated host

The dispatcher takes a command and calls back; the callback looks for the run and gets an event; the
event waits on the control link until the bridge reads it and makes a request of it.  At each of these
places the calls go on in order.

* `Bridge.Conveys` — the events of the calls, those read and those still to be read, are all in order.
* `Bridge.Aside` — what leaves the calls alone: each move, and each action but a caller's own.
* `Sound` — the events are those of the calls that asked for the run, and there is one call at a time.
* `Sound.step`, `Sound.after` — each step keeps this, and so does every history.
-/

namespace Steward

/-- What is in the slot is the first item. -/
theorem Link.items_of_slot {α : Type} {l : Link α} {p : Placed α} (hp : l.slot = some p) :
    l.items = p.item :: l.take.items := by
  simp [items, take, hp]

namespace Bridge

variable {σ : Type} {b b' : Bridge σ} {stamped pending : List ControlEvent}

/-! ## From the callers to the handler -/

/-- **The events of the calls are on their way, in order**: those the bridge has read, those on the
control link, and those pending.  Once the link is closed no more are read. -/
structure Conveys (stamped pending : List ControlEvent) (b : Bridge σ) : Prop where
  balanced : b.Balanced
  listens : b.Listens
  order : b.control.closed = false → controlsRead b.log ++ b.control.items ++ pending = stamped
  begins : controlsRead b.log <+: stamped

theorem Conveys.makes [StatusHost σ] {m : Move} (h : b.Conveys stamped pending) (hm : b.Makes m b') :
    b'.Conveys stamped pending := by
  have hread := hm.controlsRead
  refine ⟨h.balanced.makes hm, h.listens.makes hm, ?_, ?_⟩
  all_goals obtain ⟨hsame, hevent⟩ | ⟨d, p, hs, -, hp, hevent, htake⟩ | ⟨-, hevent, hclose⟩ := hm.control
  · rw [hread, hsame, hevent, Option.toList_none, List.append_nil]
    exact h.order
  · intro hopen
    rw [htake] at hopen
    rw [hread, htake, hevent, ← h.order hopen, Link.items_of_slot hp]
    simp
  · rw [hclose]
    exact fun hopen => nomatch hopen
  · rw [hread, hevent, Option.toList_none, List.append_nil]
    exact h.begins
  · -- the bridge reads only as long as the link is open
    have hopen : b.control.closed = false := h.listens.isOpen (by rw [hs]; rfl)
    rw [hread, hevent, ← h.order hopen, Link.items_of_slot hp]
    exact ⟨b.control.take.items ++ pending, by simp⟩
  · rw [hread, hevent, Option.toList_none, List.append_nil]
    exact h.begins

/-- What happens to the bridge leaves the events where they are, unless a call sends its own. -/
theorem Conveys.happens {a : Action} (h : b.Conveys stamped pending) (ha : b.Happens a b')
    (hsends : ∀ ticket e, a ≠ .offerControl ticket e) : b'.Conveys stamped pending where
  balanced := h.balanced.meets ha.meets
  listens := h.listens.happens ha
  order := by
    obtain ⟨ticket, e, rfl, -⟩ | ⟨hstirs, -⟩ := ha.control
    · exact absurd rfl (hsends ticket e)
    · rw [ha.controlsRead, hstirs.items, hstirs.closed]
      exact h.order
  begins := by
    rw [ha.controlsRead]
    exact h.begins

/-- A call that has an event sends it. -/
theorem Conveys.sends {p : Parcel ControlEvent} (h : b.Conveys stamped (p.item :: pending))
    (hoffers : b.control.offers ≠ 0) :
    (b.act (.offerControl p.ticket p.item)).Conveys stamped pending where
  balanced := h.balanced.meets (happens_act b _).meets
  listens := h.listens.happens (happens_act b _)
  order := by
    have hact : (b.act (.offerControl p.ticket p.item)).control = b.control.send p :=
      congrArg Bridge.control (if_pos (by simpa [canControl] using hoffers))
    rw [(happens_act b _).controlsRead, hact, Link.closed_send, Link.items_send]
    intro hopen
    rw [hopen, ← h.order hopen]
    simp
  begins := by
    rw [(happens_act b _).controlsRead]
    exact h.begins

/-- A call gets its event. -/
theorem Conveys.pends (h : b.Conveys stamped pending) (e : ControlEvent) :
    b.Conveys (stamped ++ [e]) (pending ++ [e]) where
  balanced := h.balanced
  listens := h.listens
  order hopen := by rw [← h.order hopen, List.append_assoc, List.append_assoc, List.append_assoc]
  begins := h.begins.trans (List.prefix_append _ _)

/-- The host of the bridge is another one. -/
theorem Conveys.withHost {b : Bridge Dispatcher} (h : b.Conveys stamped pending) (d : Dispatcher) :
    ({ b with host := d } : Bridge Dispatcher).Conveys stamped pending where
  balanced := h.balanced.same rfl rfl rfl (.inl id)
  listens := ⟨h.listens.isOpen, h.listens.waits⟩
  order := h.order
  begins := h.begins

/-- Who has a sending handle can give one to another. -/
theorem offers_cloneControl (h : 1 ≤ b.control.offers) :
    (b.act .cloneControl).control.offers = b.control.offers + 1 := by
  have hcan : b.canControl = true := by
    simpa [canControl] using Nat.ne_of_gt h
  rw [act, if_pos hcan]
  rfl

/-- A sending handle is given back when nothing that was sent is under way. -/
theorem offers_dropControl (h : b.control.unfinished = []) :
    (b.act .dropControl).control.offers = b.control.offers - 1 := by
  rw [act, if_pos (by simp [Link.canDropOffer, h])]
  rfl

/-! ## What leaves the calls alone -/

/-- **Nothing that has to do with a call**: the run keeps its id and its callers their sending handles,
nobody registers it again, and at the host there is no more than what anybody does there. -/
structure Aside (b b' : Bridge Dispatcher) : Prop where
  context : b'.context = b.context
  registered : b'.registered = true → b.registered = true
  offers : b'.control.offers = b.control.offers
  host : ∃ s : Dispatcher.Step, b.host.Does s b'.host ∧ s ≠ .call ∧ s.isAnswer = false

theorem Aside.of_same {b b' : Bridge Dispatcher} (context : b'.context = b.context)
    (registered : b'.registered = true → b.registered = true)
    (offers : b'.control.offers = b.control.offers) (host : b'.host = b.host) : b.Aside b' :=
  ⟨context, registered, offers, .leave false, host ▸ .idle rfl, nofun, rfl⟩

/-- A report is all that the bridge asks of its host. -/
theorem Aside.relay (b : Bridge Dispatcher) (d : Driving) (p : Placed Status) :
    b.Aside (b.relay d p) := by
  have hreport := Dispatcher.does_step b.host (.report d.handle (Record.ofStatus p.item .success))
  unfold Bridge.relay
  dsimp only
  split <;> exact ⟨rfl, id, rfl, _, hreport, nofun, rfl⟩

/-- **A move of the bridge leaves the calls alone.** -/
theorem Makes.aside {b b' : Bridge Dispatcher} {m : Move} (hm : b.Makes m b') : b.Aside b' := by
  cases hm with
  | start | refuse | abandon | place | endStatuses | complete => exact .of_same rfl id rfl rfl
  | @read d p =>
    obtain ⟨requests, updates, stage, log, h⟩ := b.read_eq d p
    rw [h]
    exact .of_same rfl id rfl rfl
  | relay => exact .relay b _ _
  | @settle d c r => cases r <;> exact .of_same rfl id rfl rfl
  | @report handle exit left =>
    have hreport := Dispatcher.does_step b.host (.report handle (Record.ofStatus .stopped exit))
    exact ⟨rfl, id, rfl, _, hreport, nofun, rfl⟩
  | @release ending next =>
    cases next with
    | deregister => exact .of_same rfl (fun h => nomatch h) rfl rfl
    | closeControl | announce | signal => exact .of_same rfl id rfl rfl

/-- **So does what happens to it**, but for the callers' sending handles. -/
theorem Happens.aside {b b' : Bridge Dispatcher} {a : Action} (ha : b.Happens a b')
    (hclone : a ≠ .cloneControl) (hdrop : a ≠ .dropControl) : b.Aside b' := by
  obtain ⟨-, hcontext, -, hhost, hregistered⟩ := ha.keeps
  refine .of_same hcontext (hregistered ▸ id) ?_ hhost
  cases ha with
  | cloneControl => exact absurd rfl hclone
  | dropControl => exact absurd rfl hdrop
  | offerControl => exact Link.offers_send _ _
  | idle | pass | store | announce | steal | offerStatus | lineUpStatus | enterStatus | cancelStatus |
    cloneUpdates | dropClone | lendRequests => rfl
  | enterControl => exact b.control.offers_enter
  | takeRequest ht hp => rw [takeRequest_eq hp, resolve_control]; rfl
  | dropRequests => exact congrArg Link.offers (resolve_control _ _)
  | dropUpdates => exact congrArg Link.offers (dropUpdates_control b)
  | finish c => exact congrArg Link.offers (b.finishHandler_control c)

end Bridge

/-- The calls that have not returned are seen by the duty. -/
theorem Duty.unanswered_congr {duty duty' : Duty}
    (h : ∀ k, duty = .calling k ↔ duty' = .calling k) : duty.unanswered = duty'.unanswered := by
  cases duty with
  | calling k => rw [(h k).mp rfl]
  | _ =>
    cases duty' with
    | calling k => cases (h k).mpr rfl
    | _ => rfl

namespace Dispatcher

/-- But for a call, nothing calls anybody, and but for an answer, no call is over. -/
theorem Does.quiet {d d' : Dispatcher} {s : Step} (hd : Does d s d') (hcall : s ≠ .call)
    (hanswer : s.isAnswer = false) (hidle : d.host.stage = .fresh → d.duty = .off) :
    callsIn d'.log = callsIn d.log ∧ returnedIn d'.log = returnedIn d.log ∧
      ∀ k, d'.duty = .calling k ↔ d.duty = .calling k := by
  cases hd with
  | outside _ hr =>
    exact ⟨by rw [callsIn_append, hr.calls, List.append_nil],
      by rw [returnedIn_append, hr.returned, List.append_nil], fun _ => .rfl⟩
  | idle => exact ⟨rfl, rfl, fun _ => .rfl⟩
  | call => exact absurd rfl hcall
  | answer => cases hanswer
  | @look c hduty =>
    refine ⟨(callsIn_append ..).trans (List.append_nil _), (returnedIn_append ..).trans (List.append_nil _),
      fun k => ?_⟩
    rw [hduty, Dispatcher.look]
    cases d.host.callback? c <;> simp
  | enter _ _ hfresh =>
    have hoff := hidle hfresh
    exact ⟨(callsIn_append ..).trans (List.append_nil _), (returnedIn_append ..).trans (List.append_nil _),
      fun k => by rw [hoff]; simp⟩
  | refuse =>
    exact ⟨(callsIn_append ..).trans (List.append_nil _), (returnedIn_append ..).trans (List.append_nil _),
      fun _ => .rfl⟩
  | leave hduty => exact ⟨rfl, rfl, fun k => by rw [hduty]; simp⟩
  | panic hduty | take hduty | takeExit hduty =>
    exact ⟨(callsIn_append ..).trans (List.append_nil _), (returnedIn_append ..).trans (List.append_nil _),
      fun k => by rw [hduty]; simp [finish]⟩

end Dispatcher

namespace Hosted

open Dispatcher (Answered Conserved Does callsIn returnedIn)
open SimulatedHost (Callback)

/-! ## The calls of a run -/

/-- The event of a call on the thread it is made on. -/
def stamp (k : Callback) : ControlEvent := (Guard.capture .home).stamp k.thread k.call

/-- The events of the calls that ask for a run. -/
def stamps (context : Context) (calls : List Callback) : List ControlEvent :=
  (calls.filter (·.call.context == context)).map stamp

/-- The call that has not looked for its run yet. -/
def unentered (r : Hosted) : List Callback := if r.inside then [] else r.host.duty.unanswered

/-- **What is kept of a run on a simulated host.**  Its events are those of the calls that asked for it
until it was deregistered, and there is at most one call at a time. -/
structure Sound (context : Context) (h : SimulatedHost) (r : Hosted) : Prop where
  guard : r.run.guard = .capture .home
  own : r.run.bridge.context = context
  answered : Answered h r.host
  conserved : Conserved h r.host
  conveys : r.run.bridge.Conveys r.run.stamped (r.run.calling.map (·.item))
  inside : r.inside = true → ∃ k, r.host.duty = .calling k
  single : r.run.calling ≠ [] → r.inside = true ∧ ∃ p, r.run.calling = [p]
  offers : 1 ≤ r.run.bridge.control.offers
  handle : r.inside = true → r.ticket ∉ r.run.missed → 2 ≤ r.run.bridge.control.offers
  stamped : ∃ calls, calls <+: callsIn r.host.log ∧ r.run.stamped = stamps context calls ∧
    (r.run.bridge.registered = true → calls ++ r.unentered = callsIn r.host.log)

variable {context : Context} {h : SimulatedHost} {r : Hosted}

theorem unentered_inside (hin : r.inside = true) : r.unentered = [] := if_pos hin

theorem unentered_outside (hout : r.inside = false) : r.unentered = r.host.duty.unanswered :=
  if_neg (Bool.eq_false_iff.mp hout)

/-- Outside no event is under way. -/
theorem Sound.calling_outside (hr : Sound context h r) (hout : r.inside = false) : r.run.calling = [] := by
  by_contra hne
  exact Bool.false_ne_true (hout.symm.trans (hr.single hne).1)

/-- What leaves the calls alone keeps all this, also if a call sends its event. -/
theorem Sound.aside (hr : Sound context h r) {v : Vigil Dispatcher} (guard : v.guard = r.run.guard)
    (stamped : v.stamped = r.run.stamped) (missed : v.missed = r.run.missed)
    (calling : v.calling = r.run.calling ∨ v.calling = []) (aside : r.run.bridge.Aside v.bridge)
    (conveys : v.bridge.Conveys v.stamped (v.calling.map (·.item))) : Sound context h ⟨v, r.inside⟩ := by
  obtain ⟨hcontext, hregistered, hoffers, s, hd, hcall, hanswer⟩ := aside
  obtain ⟨hcalls, hreturned, hduty⟩ := hd.quiet hcall hanswer hr.answered.idle
  have hticket : ticket ⟨v, r.inside⟩ = r.ticket := congrArg List.length hreturned
  have hunentered : unentered ⟨v, r.inside⟩ = r.unentered :=
    congrArg (if r.inside then [] else ·) (Duty.unanswered_congr hduty)
  exact {
    guard := guard.trans hr.guard
    own := hcontext.trans hr.own
    answered := hr.answered.does hd
    conserved := hr.conserved.does hd
    conveys := conveys
    inside := fun hin => (hr.inside hin).imp fun k => (hduty k).mpr
    single := fun hne => by
      have hsame := calling.resolve_right hne
      rw [hsame] at hne ⊢
      exact hr.single hne
    offers := hoffers ▸ hr.offers
    handle := fun hin => by
      rw [hticket, missed, hoffers]
      exact hr.handle hin
    stamped := by
      obtain ⟨calls, hprefix, hstamped, hall⟩ := hr.stamped
      refine ⟨calls, ?_, stamped.trans hstamped, fun hreg => ?_⟩
      · exact hcalls.symm ▸ hprefix
      · rw [hunentered]
        exact (hall (hregistered hreg)).trans hcalls.symm }

/-- The bridge moves. -/
theorem Sound.move (hr : Sound context h r) :
    Sound context h ⟨{ r.run with bridge := r.run.bridge.step .move }, r.inside⟩ := by
  cases hnext : r.run.bridge.next? with
  | none =>
    have hstep : r.run.bridge.step .move = r.run.bridge := by rw [Bridge.step, hnext]
    rwa [hstep]
  | some m =>
    have hm := Bridge.makes_perform hnext
    have hstep : r.run.bridge.step .move = r.run.bridge.perform m := by
      simp only [Bridge.step, hnext]
    rw [hstep]
    exact hr.aside rfl rfl rfl (.inl rfl) hm.aside (hr.conveys.makes hm)

/-- Something happens to the bridge, but nothing that has to do with its callers. -/
theorem Sound.act (hr : Sound context h r) {a : Bridge.Action} (haside : a.concernsCallers = false) :
    Sound context h ⟨{ r.run with bridge := r.run.bridge.act a }, r.inside⟩ := by
  have ha := Bridge.happens_act r.run.bridge a
  refine hr.aside rfl rfl rfl (.inl rfl) (ha.aside ?_ ?_) (hr.conveys.happens ha fun _ _ => ?_)
  all_goals
    rintro rfl
    cases haside

/-- A call sends its event. -/
theorem Sound.send (hr : Sound context h r) (ticket : Nat) :
    Sound context h ⟨r.run.send ticket, r.inside⟩ := by
  unfold Vigil.send
  split
  case h_2 => exact hr
  case h_1 p hp =>
    have hmem := List.mem_of_find?_eq_some hp
    obtain ⟨-, q, hq⟩ := hr.single (List.ne_nil_of_mem hmem)
    obtain rfl : p = q := by simpa [hq] using hmem
    have hnone : r.run.calling.erase p = [] := by simp [hq]
    have hconveys := hr.conveys
    rw [hq] at hconveys
    have ha := Bridge.happens_act r.run.bridge (.offerControl p.ticket p.item)
    refine hr.aside rfl rfl rfl (.inr hnone) (ha.aside (by simp) (by simp)) ?_
    dsimp only
    rw [hnone]
    exact hconveys.sends (by have := hr.offers; omega)

/-- **The run goes on by itself**, with its handler or with the send of an event. -/
theorem Sound.run (hr : Sound context h r) {s : Vigil.Step} (haside : s.concernsCallers = false) :
    Sound context h ⟨r.run.step s, r.inside⟩ := by
  cases s with
  | call => cases haside
  | send ticket => exact hr.send ticket
  | leave =>
    rw [Vigil.step, Vigil.leave]
    split
    · exact { hr with }
    · exact hr
  | course s =>
    cases s with
    | move => exact hr.move
    | act a => exact hr.act haside
    | entry answer raw => exact hr.act (a := .store _) rfl
    | announce => exact { hr.act (a := .announce) rfl with }
    | returns result =>
      rw [Vigil.step, Course.step]
      split <;> exact { hr with }
    | settle =>
      rw [Vigil.step, Course.step, Course.settle]
      split
      · rename_i result _
        exact { hr.act (a := .store (Word.returned result).outcome) rfl with }
      · exact { hr with }

/-- **The thread that dispatches goes on**, and no call is under way: it calls somebody, or a call is
over. -/
theorem Sound.goesOn (hr : Sound context h r) {r' : Hosted} {s : Dispatcher.Step}
    (hd : Does r.host s r'.host) (before : r.unentered = [])
    (calls : callsIn r'.host.log = callsIn r.host.log ++ r'.host.duty.unanswered)
    (inside : r'.inside = false) (guard : r'.run.guard = r.run.guard)
    (stamped : r'.run.stamped = r.run.stamped) (calling : r'.run.calling = [])
    (own : r'.run.bridge.context = r.run.bridge.context)
    (registered : r'.run.bridge.registered = r.run.bridge.registered)
    (offers : 1 ≤ r'.run.bridge.control.offers)
    (conveys : r'.run.bridge.Conveys r'.run.stamped (r'.run.calling.map (·.item))) :
    Sound context h r' where
  guard := guard.trans hr.guard
  own := own.trans hr.own
  answered := hr.answered.does hd
  conserved := hr.conserved.does hd
  conveys := conveys
  inside hin := absurd (inside.symm.trans hin) Bool.false_ne_true
  single hne := absurd calling hne
  offers := offers
  handle hin := absurd (inside.symm.trans hin) Bool.false_ne_true
  stamped := by
    obtain ⟨made, hprefix, hstamped, hall⟩ := hr.stamped
    refine ⟨made, hprefix.trans (calls ▸ List.prefix_append _ _), stamped.trans hstamped, fun hreg => ?_⟩
    have hmade := hall (registered.symm.trans hreg)
    rw [before, List.append_nil] at hmade
    rw [unentered_outside inside, hmade, calls]

/-- The dispatcher calls the callback it found. -/
theorem Sound.call (hr : Sound context h r) {k : Callback} (hd : r.host.duty = .bound k) :
    Sound context h ⟨withHost r.run (r.host.call k), r.inside⟩ := by
  have hout : r.inside = false := by
    refine Bool.eq_false_iff.mpr fun hin => ?_
    obtain ⟨k', hk⟩ := hr.inside hin
    exact Duty.noConfusion (hd.symm.trans hk)
  have hbefore : r.unentered = [] := by
    rw [unentered_outside hout, hd]
    rfl
  have hcalls : callsIn (r.host.call k).log = callsIn r.host.log ++ (r.host.call k).duty.unanswered :=
    Dispatcher.callsIn_append ..
  have hnone := hr.calling_outside hout
  exact hr.goesOn (.call hd) hbefore hcalls hout rfl rfl hnone rfl rfl hr.offers
    (hr.conveys.withHost _)

/-- **The host is used**, by anybody or by the thread that dispatches. -/
theorem Sound.host (hr : Sound context h r) {s : Dispatcher.Step} (haside : s.isAnswer = false) :
    Sound context h ⟨withHost r.run (r.host.step s), r.inside⟩ := by
  by_cases hcall : s = .call
  · subst hcall
    rw [Dispatcher.step]
    split
    case h_1 k hd => exact hr.call hd
    case h_2 => exact hr
  · exact hr.aside rfl rfl rfl (.inl rfl)
      ⟨rfl, id, rfl, s, Dispatcher.does_step r.host s, hcall, haside⟩ (hr.conveys.withHost _)

theorem stamps_append (context : Context) (calls calls' : List Callback) :
    stamps context (calls ++ calls') = stamps context calls ++ stamps context calls' := by
  rw [stamps, List.filter_append, List.map_append]
  rfl

/-- The call finds its run, and gets its event. -/
theorem Sound.called (hr : Sound context h r) (hout : r.inside = false) {k : Callback}
    (hd : r.host.duty = .calling k)
    (hfound : r.run.bridge.registered = true ∧ k.call.context = context) :
    Sound context h ⟨{ r.run with
      bridge := r.run.bridge.act .cloneControl
      stamped := r.run.stamped ++ [stamp k]
      calling := r.run.calling ++ [⟨r.ticket, stamp k⟩] }, true⟩ := by
  have ha := Bridge.happens_act r.run.bridge .cloneControl
  obtain ⟨-, hcontext, -, hhost, hregistered⟩ := ha.keeps
  have hnone := hr.calling_outside hout
  have hoffers := Bridge.offers_cloneControl hr.offers
  have hlog : callsIn (r.run.bridge.act .cloneControl).host.log = callsIn r.host.log := by
    rw [hhost]
    rfl
  exact {
    guard := hr.guard
    own := hcontext.trans hr.own
    answered := by
      rw [Hosted.host, hhost]
      exact hr.answered
    conserved := by
      rw [Hosted.host, hhost]
      exact hr.conserved
    conveys := by
      rw [List.map_append]
      exact (hr.conveys.happens ha (by simp)).pends (stamp k)
    inside := fun _ => ⟨k, (congrArg Dispatcher.duty hhost).trans hd⟩
    single := fun _ => ⟨rfl, ⟨r.ticket, stamp k⟩, by rw [hnone]; rfl⟩
    offers := by
      rw [hoffers]
      omega
    handle := fun _ _ => by
      have := hr.offers
      rw [hoffers]
      omega
    stamped := by
      obtain ⟨calls, -, hstamped, hall⟩ := hr.stamped
      have hmade := hall hfound.1
      rw [unentered_outside hout, hd] at hmade
      refine ⟨callsIn r.host.log, hlog ▸ List.prefix_rfl, ?_, fun _ => ?_⟩
      · rw [← hmade, stamps_append, hstamped]
        simp [stamps, hfound.2]
      · exact (List.append_nil _).trans hlog.symm }

/-- The call finds no run. -/
theorem Sound.missed (hr : Sound context h r) (hout : r.inside = false) {k : Callback}
    (hd : r.host.duty = .calling k)
    (hmissed : ¬ (r.run.bridge.registered = true ∧ k.call.context = context)) :
    Sound context h ⟨{ r.run with missed := r.run.missed ++ [r.ticket] }, true⟩ where
  guard := hr.guard
  own := hr.own
  answered := hr.answered
  conserved := hr.conserved
  conveys := hr.conveys
  inside _ := ⟨k, hd⟩
  single hne := ⟨rfl, (hr.single hne).2⟩
  offers := hr.offers
  handle _ hnew := absurd (List.mem_append_right _ (List.mem_singleton.mpr rfl)) hnew
  stamped := by
    obtain ⟨calls, hprefix, hstamped, hall⟩ := hr.stamped
    by_cases hreg : r.run.bridge.registered = true
    · have hmade := hall hreg
      rw [unentered_outside hout, hd] at hmade
      have hother : (k.call.context == context) = false :=
        beq_eq_false_iff_ne.mpr fun heq => hmissed ⟨hreg, heq⟩
      refine ⟨callsIn r.host.log, List.prefix_rfl, ?_, fun _ => List.append_nil _⟩
      show r.run.stamped = _
      rw [← hmade, stamps_append, hstamped]
      simp [stamps, hother]
    · exact ⟨calls, hprefix, hstamped, fun h => absurd h hreg⟩

/-- **The callback looks for its run.** -/
theorem Sound.enter (hr : Sound context h r) : Sound context h r.enter := by
  unfold Hosted.enter
  split
  case h_2 => exact hr
  case h_1 k hd =>
    split
    case isTrue => exact hr
    case isFalse hout =>
      have hout : r.inside = false := Bool.eq_false_iff.mpr hout
      have hfind : (r.run.bridge.registered && k.call.context == r.run.bridge.context) = true ↔
          r.run.bridge.registered = true ∧ k.call.context = context := by
        rw [Bool.and_eq_true, beq_iff_eq, hr.own]
      have hstamp : r.run.guard.stamp k.thread k.call = stamp k :=
        congrArg (·.stamp k.thread k.call) hr.guard
      rw [Vigil.call]
      split
      case isTrue hfound =>
        rw [hstamp]
        exact hr.called hout hd (hfind.mp hfound)
      case isFalse hmissed => exact hr.missed hout hd (mt hfind.mpr hmissed)

/-- A call that found its run gives back its sending handle. -/
theorem Sound.returns (hr : Sound context h r) (hin : r.inside = true) {k : Callback}
    (hd : r.host.duty = .calling k) (hnone : r.run.calling = [])
    (hdone : r.run.bridge.control.unfinished = []) (hfound : r.ticket ∉ r.run.missed) :
    Sound context h ⟨withHost { r.run with bridge := r.run.bridge.act .dropControl }
      (r.host.answer noError), false⟩ := by
  have ha := Bridge.happens_act r.run.bridge .dropControl
  obtain ⟨-, hcontext, -, -, hregistered⟩ := ha.keeps
  have htwo := hr.handle hin hfound
  have hone : 1 ≤ (r.run.bridge.act .dropControl).control.offers := by
    rw [Bridge.offers_dropControl hdone]
    omega
  exact hr.goesOn (.answer hd) (unentered_inside hin) (Dispatcher.callsIn_append ..) rfl rfl rfl
    hnone hcontext hregistered hone ((hr.conveys.happens ha (by simp)).withHost _)

/-- **The callback returns**, if it can. -/
theorem Sound.answer (hr : Sound context h r) : Sound context h r.answer := by
  unfold Hosted.answer
  split
  case isFalse => exact hr
  case isTrue hcan =>
    obtain ⟨⟨hin, hnone⟩, hdone⟩ : (r.inside = true ∧ r.run.calling = []) ∧
        r.run.bridge.control.unfinished = [] := by
      simpa using hcan
    obtain ⟨k, hd⟩ := hr.inside hin
    split
    case isTrue =>
      exact hr.goesOn (.answer hd) (unentered_inside hin) (Dispatcher.callsIn_append ..) rfl rfl
        rfl hnone rfl rfl hr.offers (hr.conveys.withHost _)
    case isFalse hfound => exact hr.returns hin hd hnone hdone (by simpa using hfound)

/-- **Every step keeps what is kept of a run.** -/
theorem Sound.step (hr : Sound context h r) (s : Step) : Sound context h (r.step s) := by
  cases s with
  | run s haside => exact hr.run haside
  | host s haside => exact hr.host haside
  | enter => exact hr.enter
  | answer => exact hr.answer

theorem sound_fresh (name handlerName : String) (context : Context) (h : SimulatedHost)
    (grace? : Option Duration) : Sound context h (fresh name handlerName context h grace?) where
  guard := rfl
  own := rfl
  answered := Dispatcher.answered_idle h
  conserved := Dispatcher.conserved_idle h
  conveys := {
    balanced := Bridge.balanced_fresh name handlerName context _
    listens := Bridge.listens_after name handlerName context (Dispatcher.idle h) []
    order := fun _ => rfl
    begins := List.prefix_rfl }
  inside := nofun
  single := absurd rfl
  offers := Nat.le_refl 1
  handle := nofun
  stamped := ⟨[], List.nil_prefix, rfl, fun _ => rfl⟩

theorem Sound.after (hr : Sound context h r) (history : List Step) :
    Sound context h (r.after history) := by
  induction history generalizing r with
  | nil => exact hr
  | cons s history ih => exact ih (hr.step s)

end Hosted

end Steward

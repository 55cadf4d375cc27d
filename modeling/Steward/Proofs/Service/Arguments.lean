import Steward.Proofs.Bridge.Events
import Steward.Proofs.Service.Result
import Steward.Proofs.Service.Simulated
import Steward.Proofs.Text.Wide

/-!
# Proofs/Service/Arguments — the startup arguments on their way to the handler

The host encodes the name of the service and the arguments, the entry point decodes them, the handshake
keeps them for the bridge, and the bridge gives them to the handler that it starts.  Once a run has begun
(`Began`) nothing changes what the handler was given, and nothing more is told of it.

* `Makes.unready` — only the start of a run tells that the dispatcher is ready.
* `began_after` — a run that was started has begun with the arguments that were published.
* `arguments_end_to_end` — so a run on a simulated host has begun with the arguments of that host.
-/

namespace Steward

/-- The dispatcher is ready, and the service was started with these arguments. -/
def Event.readyWith (service : String) (args : List String) : Event :=
  ((ofKind .dispatcherReady).withArgs args.length).withService service

/-- The news of a dispatcher that is ready. -/
def Event.readiness (es : List Event) : List Event := es.filter (·.kind = .dispatcherReady)

theorem Event.readiness_append (es es' : List Event) :
    readiness (es ++ es') = readiness es ++ readiness es' := List.filter_append es es'

namespace Bridge

variable {σ : Type} {b b' : Bridge σ} {service : String} {given : List String}

/-- **A run has begun**: the handler was given these arguments, and that the dispatcher is ready was told
once, with their number. -/
structure Began (service : String) (given : List String) (b : Bridge σ) : Prop where
  begun : b.stage ≠ .waiting
  name : b.name = service
  args : b.args = some given
  told : Event.readiness (events b.log) = [Event.readyWith service given]

/-- Nothing has begun yet. -/
structure Unbegun (b : Bridge σ) : Prop where
  args : b.args = none
  told : Event.readiness (events b.log) = []

/-! ## What a move keeps -/

section Moves

variable [StatusHost σ]

/-- No move but the start gives the handler arguments. -/
theorem Makes.args {m : Move} (hm : b.Makes m b') (hs : b.stage ≠ .waiting) : b'.args = b.args := by
  cases hm with
  | start hw | refuse hw | abandon hw => exact absurd hw hs
  | @read d p =>
    obtain ⟨requests, updates, stage, log, h⟩ := b.read_eq d p
    rw [h]
  | @relay d p =>
    obtain ⟨host, requests, updates, stage, log, h⟩ := b.relay_eq d p
    rw [h]
  | @settle d c r => cases r <;> rfl
  | place | endStatuses | complete | report => rfl
  | @release ending next => cases next <;> rfl

/-- **Only the start of a run tells that the dispatcher is ready.** -/
theorem Makes.unready {m : Move} (hm : b.Makes m b') (hs : b.stage ≠ .waiting) :
    Event.readiness (events b'.log) = Event.readiness (events b.log) := by
  have hnews {es news : List Event} (h : Event.readiness news = []) :
      Event.readiness (es ++ news) = Event.readiness es := by
    rw [Event.readiness_append, h, List.append_nil]
  cases hm with
  | start hw | refuse hw | abandon hw => exact absurd hw hs
  | @read d p _ hmail =>
    cases he : p.item.error with
    | some code =>
      rw [events_read_flagged b he]
      exact hnews rfl
    | none =>
      cases hd : d.mailbox with
      | holding => simp [hd, Mailbox.isHolding] at hmail
      | awaiting =>
        rw [events_read_awaiting b hd he]
        exact hnews rfl
      | detached =>
        rw [events_read_detached b hd he]
        exact hnews rfl
  | place | endStatuses => rfl
  | @settle d c r =>
    cases r with
    | taken =>
      rw [events_settle_taken]
      exact hnews rfl
    | closed =>
      rw [events_settle_closed]
      exact hnews rfl
  | @relay d p =>
    cases hr : (StatusHost.report b.host d.handle (Record.ofStatus p.item .success)).2 with
    | ok =>
      rw [events_relay_agreed b hr]
      exact hnews rfl
    | error e =>
      rw [events_relay_refused b hr]
      exact hnews rfl
  | @complete d c =>
    cases c with
    | exited exit =>
      rw [events_complete_exited]
      exact hnews rfl
    | panicked info =>
      rw [events_complete_panicked]
      exact hnews rfl
  | @report handle exit left =>
    obtain ⟨e, hkind, -, he⟩ := b.events_finish handle exit left
    rw [he]
    refine hnews (List.filter_eq_nil_iff.mpr (List.forall_mem_singleton.mpr ?_))
    simp [Event.withService, hkind]
  | @release ending next =>
    by_cases hn : next = .announce
    · rw [hn, events_release_announce]
      exact hnews rfl
    · rw [events_release_quiet b ending hn]

theorem Began.makes {m : Move} (h : b.Began service given) (hm : b.Makes m b') :
    b'.Began service given where
  begun := hm.not_waiting
  name := hm.name.trans h.name
  args := (hm.args h.begun).trans h.args
  told := (hm.unready h.begun).trans h.told

end Moves

/-! ## What happens from outside -/

theorem Began.happens {a : Action} (h : b.Began service given) (ha : b.Happens a b') :
    b'.Began service given where
  begun hs := h.begun (ha.meets.waiting_iff.mp hs)
  name := ha.name.trans h.name
  args := ha.keeps.2.2.1.trans h.args
  told := by rw [ha.events, h.told]

theorem Unbegun.happens {a : Action} (h : b.Unbegun) (ha : b.Happens a b') : b'.Unbegun where
  args := ha.keeps.2.2.1.trans h.args
  told := by rw [ha.events, h.told]

/-- A run that has begun goes on so. -/
theorem Began.after [StatusHost σ] (h : b.Began service given) (history : List Step) :
    (b.after history).Began service given :=
  invariant_after (P := fun _ _ (b : Bridge σ) => b.Began service given) (fun h hm => h.makes hm)
    (fun h ha => h.happens ha) h history

/-- It begins with the start. -/
theorem began_start (h : b.Unbegun) (s : Dispatched) : (b.start s).Began b.name s.args where
  begun := Stage.noConfusion
  name := rfl
  args := rfl
  told := by
    rw [events_start, Event.readiness_append, h.told]
    rfl

/-- When the bridge comes to it, the run begins. -/
theorem began_perform [StatusHost σ] {s : Dispatched} (h : b.Unbegun)
    (hnext : b.next? = some (.start s)) :
    (b.perform (.start s)).Began b.name s.args := by
  have hm := makes_perform hnext
  generalize b.perform (.start s) = b' at hm
  cases hm with
  | start => exact began_start h s

/-! ## Who takes the outcome -/

/-- How far a run has begun, given what the bridge took from the handshake. -/
structure Opening (service : String) (ms : List Move) (b : Bridge σ) : Prop where
  account : Accounted ms b
  name : b.name = service
  unbegun : b.stage = .waiting → b.Unbegun
  began : ∀ s, outcomesTaken ms = [some (.ok s)] → b.Began service s.args

/-- A bridge that waits has taken nothing. -/
theorem Accounted.waiting {ms : List Move} (h : Accounted ms b) (hs : b.stage = .waiting) :
    outcomesTaken ms = [] := by
  unfold Accounted at h
  rw [hs] at h
  cases h with
  | waiting start => exact start

/-- Any other has taken one thing. -/
theorem Accounted.taken {ms : List Move} (h : Accounted ms b) (hs : b.stage ≠ .waiting) :
    ∃ o, outcomesTaken ms = [o] := by
  unfold Accounted at h
  generalize b.stage = stage at h hs
  cases h with
  | waiting => exact absurd rfl hs
  | driving start | finishing start | releasing start | ended start | refusing start | refused start =>
    exact ⟨_, start⟩

theorem Opening.makes [StatusHost σ] {ms : List Move} {m : Move} (h : Opening service ms b)
    (hm : b.Makes m b') : Opening service (ms ++ [m]) b' where
  account := h.account.makes hm
  name := hm.name.trans h.name
  unbegun hs := absurd hs hm.not_waiting
  began s htaken := by
    by_cases hs : b.stage = .waiting
    · rw [outcomesTaken_concat, h.account.waiting hs, List.nil_append] at htaken
      cases hm with
      | start =>
        obtain rfl : _ = s := by simpa [Move.outcome?] using htaken
        exact h.name ▸ began_start (h.unbegun hs) _
      | _ => simp [Move.outcome?] at htaken
    · have hnothing : m.outcome? = none := by
        cases hm with
        | start hw | refuse hw | abandon hw => exact absurd hw hs
        | _ => rfl
      rw [outcomesTaken_concat_of_none ms hnothing] at htaken
      exact (h.began s htaken).makes hm

theorem Opening.happens {ms : List Move} {a : Action} (h : Opening service ms b)
    (ha : b.Happens a b') : Opening service ms b' where
  account := h.account.meets ha.meets
  name := ha.name.trans h.name
  unbegun hs := (h.unbegun (ha.meets.waiting_iff.mp hs)).happens ha
  began s htaken := (h.began s htaken).happens ha

section Fresh

variable [StatusHost σ] (name handlerName : String) (context : Context) (host : σ)
  (history : List Step)

theorem opening_after : Opening name ((fresh name handlerName context host).moves history)
    ((fresh name handlerName context host).after history) :=
  invariant_after (P := fun _ ms b => Opening name ms b) (fun h hm => h.makes hm)
    (fun h ha => h.happens ha)
    ⟨accounted_fresh name handlerName context host, rfl, fun _ => ⟨rfl, rfl⟩, fun _ h => nomatch h⟩ history

/-- A bridge that waits for the start that was published starts the handler with it, as soon as the signal is
set. -/
theorem begins_of_ready (hsteal : .steal ∉ acts history) {s : Dispatched}
    (hpublished : published? (acts history) = some (.ok s)) :
    let b := (fresh name handlerName context host).after history
    b.stage = .waiting → b.handshake.ready = true →
      b.next? = some (.start s) ∧ (b.step .move).Began name s.args := by
  intro b hs hready
  have hopening : Opening name ((fresh name handlerName context host).moves history) b :=
    opening_after name handlerName context host history
  have hkept := (unstolen_after name handlerName context host hsteal).kept hs hready
  obtain ⟨o, ho⟩ := Option.isSome_iff_exists.mp hkept
  have hheard := (heard_after name handlerName context host history).kept o ho
  obtain rfl : o = .ok s := Option.some.inj (hheard.symm.trans hpublished)
  have hpoll : b.handshake.poll.2 = .outcome (.ok s) := by
    simp only [Handshake.poll, hready, if_true]
    rw [show b.handshake.outcome = some (.ok s) from ho]
  have hnext : b.next? = some (.start s) := by simp only [next?, hs, hpoll]
  refine ⟨hnext, ?_⟩
  rw [step, hnext]
  exact hopening.name ▸ began_perform (hopening.unbegun hs) hnext

/-- **A run for which a start was published begins with its arguments**: it has begun, or the next thing the
bridge does, with the signal set, is to start the handler with them. -/
theorem began_after (hsteal : .steal ∉ acts history) {s : Dispatched}
    (hpublished : published? (acts history) = some (.ok s)) :
    let b := (fresh name handlerName context host).after history
    b.Began name s.args ∨
      b.Unbegun ∧ (b.act .announce).next? = some (.start s) ∧
        ((b.act .announce).step .move).Began name s.args := by
  intro b
  have hopening : Opening name ((fresh name handlerName context host).moves history) b :=
    opening_after name handlerName context host history
  by_cases hs : b.stage = .waiting
  · right
    have hannounced : b.act .announce =
        (fresh name handlerName context host).after (history ++ [.act .announce]) := by
      rw [after_append]
      rfl
    have hsettled : b.handshake.isSettled = true := by
      rw [isSettled_after, hpublished]
      rfl
    have hbegins := begins_of_ready name handlerName context host (history ++ [.act .announce])
      (s := s) (by simpa [acts] using hsteal) (by rw [acts_append, published?_append, hpublished]; rfl)
    rw [← hannounced] at hbegins
    refine ⟨hopening.unbegun hs, hbegins ?_ (ready_announce b hsettled)⟩
    exact (happens_act b .announce).meets.waiting_iff.mpr hs
  · left
    obtain ⟨o, htaken⟩ := hopening.account.taken hs
    obtain ⟨o, rfl⟩ : ∃ o', o = some o' := by
      cases o with
      | some o => exact ⟨o, rfl⟩
      | none =>
        have hfound := (unstolen_after name handlerName context host hsteal).found
        exact absurd (htaken ▸ List.mem_singleton_self none) hfound
    have hfirst := published_of_taken name handlerName context host history
      (htaken ▸ List.mem_singleton_self (some o))
    obtain rfl : o = .ok s := Option.some.inj (hfirst.symm.trans hpublished)
    exact hopening.began s htaken

end Fresh

/-! ## On a scheduler -/

/-- Before the outcome of the start is there, the bridge waits. -/
theorem next?_of_pending (hs : b.stage = .waiting) (hr : b.handshake.ready = false) :
    b.next? = none := by
  simp [next?, hs, Handshake.poll, hr]

/-- **A bridge that waits for the outcome starts the handler in the round in which it is published.** -/
theorem Session.began_round [StatusHost σ] {s : Session σ} {d : Dispatched}
    (hspawned : s.spawned = true) (hrota : s.rota = .empty) (hs : s.bridge.stage = .waiting)
    (hfresh : s.bridge.handshake = .fresh) (hu : s.bridge.Unbegun) :
    ((s.round [.publish (.ok d)]).1.bridge).Began s.bridge.name d.args := by
  let stored : Session σ := s.act (.store (.ok d))
  let opened : Session σ := stored.act .announce
  have hput : s.bridge.act (.store (.ok d)) =
      { s.bridge with handshake := { Handshake.fresh with outcome := some (.ok d) } } := by
    rw [Bridge.act, hfresh]
    rfl
  -- nobody is woken before the signal is set
  have hstored : stored = { s with bridge := s.bridge.act (.store (.ok d)) } := by
    simp [stored, Session.act, wakeBridge, startCame, controlCame, updateCame, deliveryCame, endCame,
      hearsControl, hearsUpdates, hearsDelivery, hearsHandler, hs, hput, hfresh, Handshake.fresh]
  have hopened : opened.bridge = (s.bridge.act (.store (.ok d))).act .announce := by
    rw [bridge_act, hstored]
  have hset : opened.bridge =
      { s.bridge with handshake := { Handshake.fresh with outcome := some (.ok d), ready := true } } := by
    rw [hopened, hput]
    rfl
  have hwoken : opened.rota = Rota.empty.wake .bridge := by
    simp only [opened, hstored, Session.act, wakeBridge, startCame, hput, hs, hspawned]
    rw [← hrota]
    rfl
  have hnext : opened.bridge.next? = some (.start d) := by
    rw [hset]
    simp only [next?, hs]
    rfl
  -- the one turn that counts is the bridge's, and of that its first move
  let first : Session σ := { opened with rota := { Rota.empty with given := 1 } }
  let started : Session σ :=
    { first with bridge := first.bridge.perform (.start d) }.wakeAll (first.woken (.start d))
  have hbegan : started.bridge.Began s.bridge.name d.args := by
    have hunbegun : opened.bridge.Unbegun :=
      hopened ▸ (hu.happens (happens_act _ _)).happens (happens_act _ _)
    have hname : opened.bridge.name = s.bridge.name := hset ▸ rfl
    exact hname ▸ began_perform hunbegun hnext
  obtain ⟨turns, hsettle⟩ := settle_of_woken hwoken
  obtain ⟨history, hhistory, -⟩ :=
    (follows_runBridge started).trans (follows_runQueue _ (turns + 1))
  have hround : (s.round [.publish (.ok d)]).1 = started.runBridge.runQueue (turns + 1) := by
    change opened.settle = _
    rw [hsettle, runBridge_of_move (s := first) hnext]
  rw [hround, hhistory]
  exact hbegan.after history

end Bridge

namespace Service

/-- A run is launched with a bridge that waits, and nobody else to run. -/
theorem session_launch {σ : Type} [StatusHost σ] (name handlerName : String) (host : σ)
    (config : Config) (subs : List Subscriber) (keepsAux : Bool) :
    (launch name handlerName host config subs keepsAux).session =
      { Bridge.Session.ofBridge (.fresh name handlerName runId host) keepsAux with
        spawned := true } := by
  let s : Bridge.Session σ :=
    { Bridge.Session.ofBridge (.fresh name handlerName runId host) keepsAux with
      spawned := true, rota := Rota.empty.wake .bridge }
  change s.settle = _
  obtain ⟨turns, hsettle⟩ := Bridge.Session.settle_of_woken (s := s) rfl
  rw [hsettle, Bridge.Session.runBridge_of_waits (Bridge.next?_of_pending rfl rfl),
    Bridge.Session.runQueue_of_rest rfl]
  rfl

/-- To wait for the handler is not to tell that the dispatcher is ready. -/
theorem readiness_awaitHandler {σ : Type} {s : Service σ} (h : s.overstay = none) :
    Event.readiness s.awaitHandler.events = Event.readiness (Bridge.events s.bridge.log) := by
  have hon : Event.readiness s.events = Event.readiness (Bridge.events s.bridge.log) := by
    rw [events, h, Event.readiness_append]
    exact List.append_nil _
  unfold awaitHandler
  split
  · split
    · exact hon
    · exact (Event.readiness_append _ _).trans (List.append_nil _)
  · exact hon

namespace Simulated

/-- A run that has begun goes on so, whatever the scheduler and the host do. -/
theorem lasting_began (name : String) (given : List String) :
    Lasting fun s => s.bridge.Began name given where
  round {s} h ops := by
    obtain ⟨history, hhistory⟩ := s.session.exists_history_round ops
    change (s.session.round ops).1.bridge.Began name given
    exact hhistory ▸ Bridge.Began.after h history
  host h _ := ⟨h.begun, h.name, h.args, h.told⟩
  dispatch h _ := h

/-- Until it waits for the handler, a run has waited for nobody. -/
theorem lasting_overstay : Lasting fun s => s.overstay = none where
  round h _ := h
  host h _ := h
  dispatch h _ := h

/-- To enter the service with a registration that succeeds is to publish a start. -/
theorem bridge_enter {s : Service SimulatedHost} {h : SimulatedHost} {handle : Handle}
    (hregister : s.bridge.host.register s.bridge.context = (h, .ok handle))
    (hregistered : s.bridge.registered = true) (raw : List (List UInt16)) :
    (enter s raw).bridge = ((withHost s h).session.round
      [.publish (.ok ⟨handle, Wide.decodeArgs raw⟩)]).1.bridge := by
  let opened := withHost s h
  have hid : (opened.bridge.registered && s.bridge.context == opened.bridge.context) = true := by
    change (s.bridge.registered && s.bridge.context == s.bridge.context) = true
    rw [hregistered, beq_self_eq_true]
    rfl
  unfold enter
  rw [hregister]
  dsimp only
  rw [Service.main, if_pos hid]
  rfl

/-- **A host that enters the service and takes the registration has the handler started.** -/
theorem began_launch (name handlerName : String) (host serving : SimulatedHost) (config : Config)
    (subs : List Subscriber) (keepsAux : Bool) {raw : List (List UInt16)} {handle : Handle}
    (hdispatch : host.beginDispatch name = (serving, .enters raw))
    (hregister : (serving.register runId).2 = .ok handle) :
    (launch (Service.launch name handlerName host config subs keepsAux)).service.bridge.Began name
      (Wide.decodeArgs raw) := by
  have hsession := session_launch name handlerName host config subs keepsAux
  generalize Service.launch name handlerName host config subs keepsAux = s at hsession
  have hbridge : s.bridge = .fresh name handlerName runId host := congrArg (·.bridge) hsession
  have hlaunch : (launch s).service = enter (withHost s serving) raw := by
    unfold launch
    rw [hbridge, Bridge.fresh, hdispatch]
  have hserving : (withHost s serving).bridge = .fresh name handlerName runId serving := by
    change { s.bridge with host := serving } = _
    rw [hbridge]
    rfl
  have hanswer : (withHost s serving).bridge.host.register (withHost s serving).bridge.context =
      ((serving.register runId).1, .ok handle) := by
    rw [hserving, ← hregister]
    rfl
  let ready : Bridge.Session SimulatedHost :=
    { Bridge.Session.ofBridge (.fresh name handlerName runId (serving.register runId).1) keepsAux with
      spawned := true }
  have hready : (withHost (withHost s serving) (serving.register runId).1).session = ready := by
    change { s.session with
      bridge := { s.session.bridge with host := (serving.register runId).1 } } = _
    rw [hsession]
    rfl
  rw [hlaunch, bridge_enter hanswer (hserving ▸ rfl), hready]
  exact Bridge.Session.began_round (s := ready) (d := ⟨handle, Wide.decodeArgs raw⟩)
    rfl rfl rfl rfl ⟨rfl, rfl⟩

/-- Dispatching enters the service with its name and the arguments of the host, encoded. -/
theorem raw_of_enters {name : String} {host serving : SimulatedHost} {raw : List (List UInt16)}
    (h : host.beginDispatch name = (serving, .enters raw)) :
    raw = (name :: host.args).map Wide.encode := by
  unfold SimulatedHost.beginDispatch at h
  split at h
  · exact (SimulatedHost.Entry.enters.inj (Prod.mk.inj h).2).symm
  · cases (Prod.mk.inj h).2

/-- **The startup arguments end to end**, on a host that enters the service and takes its registration.
The handler is given the name of the service and the arguments of the host, as many and in the same order,
each up to its first U+0000 and otherwise as it was; and that the dispatcher is ready is told once, with
their number, as far as 32 bits hold it.

However the steps of a run follow each other, once the entry is the first word the run has begun so, or the
next thing the bridge does, with dispatcher-ready set, is to begin it so.  And a run that is carried out has
begun so when it is over, whatever is done to it. -/
theorem arguments_end_to_end (name handlerName : String) (host serving : SimulatedHost)
    {raw : List (List UInt16)} {handle : Handle}
    (hdispatch : host.beginDispatch name = (serving, .enters raw))
    (hregister : (serving.register runId).2 = .ok handle) :
    let given := (name :: host.args).map Wide.beforeNul
    (Event.readyWith name given).args =
      some (UInt32.ofNat (min (host.args.length + 1) 0xFFFFFFFF)) ∧
    (∀ history,
      (Course.fresh name handlerName runId serving).firstWord? history = some (.ofEntry (.ok handle) raw) →
      let b := ((Course.fresh name handlerName runId serving).after history).bridge
      b.Began name given ∨
        b.Unbegun ∧ (b.act .announce).next? = some (.start ⟨handle, given⟩) ∧
          ((b.act .announce).step .move).Began name given) ∧
    ∀ config subs keepsAux ops,
      let s := (play (Service.launch name handlerName host config subs keepsAux) ops).1
      s.bridge.args = some given ∧ Event.readiness s.events = [Event.readyWith name given] := by
  intro given
  have hgiven : Wide.decodeArgs raw = given := by
    rw [raw_of_enters hdispatch, Wide.decodeArgs_encode]
  refine ⟨?_, fun history hfirst => ?_, fun config subs keepsAux ops => ?_⟩
  · simp [Event.readyWith, Event.withArgs, Event.withService, given, UInt32.size]
  · intro b
    let start : Course SimulatedHost := .fresh name handlerName runId serving
    have hpublished : Bridge.published? (Bridge.acts (start.onBridge history)) =
        some (.ok ⟨handle, given⟩) := by
      rw [Course.published?_onBridge, hfirst, ← hgiven]
      rfl
    have hb : b = (Bridge.fresh name handlerName runId serving).after (start.onBridge history) :=
      Course.bridge_after_fresh ..
    have hbegan := Bridge.began_after name handlerName runId serving (start.onBridge history)
      (start.steal_notMem_onBridge history) hpublished
    rw [hb]
    exact hbegan
  · have hbegan := began_launch name handlerName host serving config subs keepsAux hdispatch hregister
    rw [hgiven] at hbegan
    obtain ⟨last, ⟨hlast, htime⟩, hplay⟩ :=
      ((lasting_began name given).and lasting_overstay).fromLaunch
        ⟨hbegan, lasting_overstay.launch rfl⟩ ops
    intro s
    have hs : s = last.awaitHandler := hplay
    have hargs : s.bridge.args = last.bridge.args :=
      hs ▸ congrArg (·.bridge.args) last.course_awaitHandler
    exact ⟨hargs.trans hlast.args, hs ▸ (readiness_awaitHandler htime).trans hlast.told⟩

/-- A host with an argument that holds a U+0000, and one beyond the first plane. -/
def spoken : SimulatedHost where
  args := ["left\x00right", "", "😀"]

/-- What the handler is given on it. -/
def spokenTo : List String := ["svc", "left", "", "😀"]

/-- Only what stands behind the U+0000 is lost. -/
theorem arguments_cut_at_nul :
    let b := ((Course.fresh "svc" "handler" runId { spoken with stage := .serving }).after
      [.entry (.ok SimulatedHost.handle) (("svc" :: spoken.args).map Wide.encode), .announce, .move]).bridge
    let s := (play (Service.launch "svc" "handler" spoken .default [] false) []).1
    b.Began "svc" spokenTo ∧ s.bridge.args = some spokenTo ∧
      Event.readiness s.events = [Event.readyWith "svc" spokenTo] ∧
      (Event.readyWith "svc" spokenTo).args = some 4 := by
  intro b s
  have hregister : ({ spoken with stage := .serving }.register runId).2 = .ok SimulatedHost.handle := rfl
  obtain ⟨hcount, hcourse, hplayed⟩ := arguments_end_to_end "svc" "handler" spoken _ rfl hregister
  have hgiven : ("svc" :: spoken.args).map Wide.beforeNul = spokenTo := by decide
  rw [hgiven] at hcount hcourse hplayed
  obtain ⟨hargs, htold⟩ := hplayed .default [] false []
  refine ⟨?_, hargs, htold, hcount⟩
  obtain hbegan | ⟨hunbegun, -, -⟩ := hcourse
    [.entry (.ok SimulatedHost.handle) (("svc" :: spoken.args).map Wide.encode), .announce, .move] rfl
  · exact hbegan
  · cases hunbegun.args

end Simulated

end Service

end Steward

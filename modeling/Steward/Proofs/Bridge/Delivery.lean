import Steward.Proofs.Bridge.Run

/-!
# Proofs/Bridge/Delivery — the requests a handler takes

Each unflagged control event the bridge reads makes one request, which carries the status the host
had last agreed to when the event was read; `requestsMade` reads these requests off the log alone.
The handler takes them in order, one after the other, and misses none before the last it takes.

What is between the requests taken and the requests made is at most one request, and where it is
depends on the mailbox: `Balance` says so mailbox by mailbox, `Balanced` for a whole run, and each
move and each action keeps it.
-/

namespace Steward

/-- The last status the host agreed to, given the one it agreed to before. -/
def Happening.agreed (current : Status) : Happening → Status
  | .reported (.relayed _ s) _ _ (.ok ()) => s
  | _ => current

/-- The unflagged control event with the content of a request. -/
def Request.event (r : Request) : ControlEvent :=
  ⟨r.command, r.eventType, r.eventData, r.context, none⟩

/-- The request that is made of a control event when it is read, unless the event is flagged. -/
def Happening.made? (current : Status) : Happening → Option Request
  | .read e => if e.error.isNone then some (e.request current) else none
  | _ => none

namespace Bridge

variable {σ : Type}

/-! ## The requests made along a log -/

/-- The last status the host agreed to along a log. -/
def lastAgreed (current : Status) (log : List Happening) : Status :=
  log.foldl Happening.agreed current

/-- The requests made of the control events read along a log, each with the status the host had
last agreed to when its event was read. -/
def requestsMade (current : Status) : List Happening → List Request
  | [] => []
  | h :: log => (h.made? current).toList ++ requestsMade (h.agreed current) log

theorem lastAgreed_append (current : Status) (l₁ l₂ : List Happening) :
    lastAgreed current (l₁ ++ l₂) = lastAgreed (lastAgreed current l₁) l₂ :=
  List.foldl_append

theorem requestsMade_append (current : Status) (l₁ l₂ : List Happening) :
    requestsMade current (l₁ ++ l₂) =
      requestsMade current l₁ ++ requestsMade (lastAgreed current l₁) l₂ := by
  induction l₁ generalizing current with
  | nil => rfl
  | cons h l₁ ih =>
    simp only [List.cons_append, requestsMade, ih, List.append_assoc]
    rfl

/-- News for others makes no request and changes no status. -/
theorem requestsMade_deeds (current : Status) (log : List Happening) :
    requestsMade current (deeds log) = requestsMade current log := by
  induction log generalizing current with
  | nil => rfl
  | cons h log ih =>
    cases h with
    | read | reported | delivered =>
      rw [deeds_cons_deed rfl, requestsMade, requestsMade, ih]
    | published | controlSent | statusSent =>
      rw [deeds_cons_news rfl, ih]
      rfl

/-- An unflagged event makes one request. -/
theorem requestsMade_read (current : Status) {e : ControlEvent} (he : e.error = none) :
    requestsMade current [.read e] = [e.request current] := by
  simp [requestsMade, Happening.made?, he]

/-- A flagged event makes none. -/
theorem requestsMade_read_flagged (current : Status) {e : ControlEvent} {code : UInt32}
    (he : e.error = some code) : requestsMade current [.read e] = [] := by
  simp [requestsMade, Happening.made?, he]

/-- The requests made have, one by one, the contents of the unflagged events read. -/
theorem requestsMade_map_event (current : Status) (log : List Happening) :
    (requestsMade current log).map Request.event =
      (controlsRead log).filter (·.error.isNone) := by
  induction log generalizing current with
  | nil => rfl
  | cons h log ih =>
    have ih := ih (h.agreed current)
    rw [requestsMade, List.map_append, ih]
    cases h with
    | read e =>
      have hread : controlsRead (.read e :: log) = e :: controlsRead log := rfl
      obtain ⟨command, eventType, eventData, context, error⟩ := e
      rw [hread]
      cases error <;> rfl
    | published | controlSent | statusSent | reported | delivered => rfl

theorem requestsDelivered_append (l₁ l₂ : List Happening) :
    requestsDelivered (l₁ ++ l₂) = requestsDelivered l₁ ++ requestsDelivered l₂ :=
  List.filterMap_append

/-! ## What is between the requests taken and the requests made -/

/-- The request on a link, if there is one. -/
def onLink (l : Link Request) : List Request := (l.slot.map (·.item)).toList

theorem onLink_of_none {l : Link Request} (h : l.slot = none) : onLink l = [] := by
  rw [onLink, h]
  rfl

theorem onLink_of_some {l : Link Request} {p : Placed Request} (h : l.slot = some p) :
    onLink l = [p.item] := by
  rw [onLink, h]
  rfl

/-- Who gives up waiting leaves the request where it is. -/
theorem onLink_cancel (l : Link Request) (ticket : Nat) : onLink (l.cancel ticket) = onLink l := by
  cases h : l.slot with
  | none => rw [onLink_of_none h, onLink_of_none (by simp [Link.cancel, h])]
  | some p =>
    simp only [onLink, Link.cancel, h, Option.map_some]
    split <;> rfl

/-- What is between the requests taken and those made, by mailbox: at most the one request under
way, and it is on the handler's link or yet to be put there.  Once the handler has given up its
requests, those made are lost. -/
inductive Balance (l : Link Request) (taken made : List Request) : Mailbox → Prop where
  | awaiting (empty : l.slot = none) (all : made = taken) : Balance l taken made .awaiting
  | fresh {c : Command} {r : Request} (empty : l.slot = none) (all : made = taken ++ [r]) :
      Balance l taken made (.holding c (.fresh r))
  | placed {c : Command} {p : Placed Request} (slot : l.slot = some p)
      (all : made = taken ++ [p.item]) : Balance l taken made (.holding c .placed)
  | taken {c : Command} (empty : l.slot = none) (all : made = taken) :
      Balance l taken made (.holding c (.resolved .taken))
  | lost {c : Command} (closed : l.closed = true) (empty : l.slot = none)
      (some : taken <+: made) : Balance l taken made (.holding c (.resolved .closed))
  | detached (closed : l.closed = true) (empty : l.slot = none) (some : taken <+: made) :
      Balance l taken made .detached

/-- In whatever mailbox, the requests taken and the one on the link begin those made. -/
theorem Balance.begins {l : Link Request} {taken made : List Request} {m : Mailbox}
    (h : Balance l taken made m) : taken ++ onLink l <+: made := by
  cases h with
  | awaiting empty all | taken empty all =>
    have heq : taken ++ onLink l = made := by rw [all, onLink_of_none empty, List.append_nil]
    exact heq ▸ List.prefix_rfl
  | fresh empty all =>
    rw [all, onLink_of_none empty, List.append_nil]
    exact List.prefix_append _ _
  | placed slot all =>
    have heq : taken ++ onLink l = made := by rw [all, onLink_of_some slot]
    exact heq ▸ List.prefix_rfl
  | lost closed empty some | detached closed empty some =>
    rw [onLink_of_none empty, List.append_nil]
    exact some

/-- What lies on the handler's link is the request under way, the only one made and not taken. -/
theorem Balance.placed_of_some {l : Link Request} {taken made : List Request} {m : Mailbox}
    {p : Placed Request} (h : Balance l taken made m) (hp : l.slot = some p) :
    (∃ c, m = .holding c .placed) ∧ made = taken ++ [p.item] := by
  cases h with
  | awaiting empty | fresh empty | taken empty | lost _ empty | detached _ empty =>
    exact absurd (empty.symm.trans hp) (by simp)
  | placed slot all =>
    obtain rfl := Option.some.inj (slot.symm.trans hp)
    exact ⟨⟨_, rfl⟩, all⟩

/-- Without a request placed the handler's link is empty. -/
theorem Balance.empty {l : Link Request} {taken made : List Request} {m : Mailbox}
    (h : Balance l taken made m) (hm : ∀ c, m ≠ .holding c .placed) : l.slot = none := by
  cases h with
  | awaiting empty | fresh empty | taken empty | lost _ empty | detached _ empty => exact empty
  | placed => exact absurd rfl (hm _)

/-- **The balance of a run**: nobody stands in line for the handler's link, somebody is there to take
what lies on it, and the deeds so far are in balance with the stage. -/
structure Balanced (b : Bridge σ) : Prop where
  noLine : b.requests.line = []
  taker : b.requests.slot ≠ none → b.hasTaker = true
  balance : match b.stage with
    | .waiting => b.requests.slot = none ∧ deeds b.log = []
    | .driving d => (b.requests.closed = false → b.hasTaker = true) ∧
        d.current = lastAgreed .stopped (deeds b.log) ∧
        Balance b.requests (requestsDelivered (deeds b.log)) (requestsMade .stopped (deeds b.log))
          d.mailbox
    | _ => requestsDelivered (deeds b.log) ++ onLink b.requests <+:
        requestsMade .stopped (deeds b.log)

/-- A run before its start is in balance. -/
theorem balanced_fresh (name handlerName : String) (context : Context) (host : σ) :
    Balanced (fresh name handlerName context host) where
  noLine := rfl
  taker h := absurd rfl h
  balance := ⟨rfl, rfl⟩

variable {b : Bridge σ} {d : Driving}

theorem Balanced.waiting (h : Balanced b) (hs : b.stage = .waiting) :
    b.requests.slot = none ∧ deeds b.log = [] := by
  have := h.balance
  rwa [hs] at this

theorem Balanced.driving (h : Balanced b) (hs : b.stage = .driving d) :
    (b.requests.closed = false → b.hasTaker = true) ∧
      d.current = lastAgreed .stopped (deeds b.log) ∧
      Balance b.requests (requestsDelivered (deeds b.log)) (requestsMade .stopped (deeds b.log))
        d.mailbox := by
  have := h.balance
  rwa [hs] at this

/-- In whatever stage, the requests taken and the one on the link begin those made. -/
theorem Balanced.begins (h : Balanced b) :
    requestsDelivered (deeds b.log) ++ onLink b.requests <+:
      requestsMade .stopped (deeds b.log) := by
  cases hs : b.stage with
  | waiting =>
    obtain ⟨hslot, hdeeds⟩ := h.waiting hs
    rw [hdeeds, onLink_of_none hslot]
    exact List.prefix_rfl
  | driving d => exact (h.driving hs).2.2.begins
  | finishing | releasing | ended =>
    have := h.balance
    rwa [hs] at this

/-! ## What the moves of the bridge keep -/

/-- The same handler, with its requests lent or not as before, is the same taker. -/
theorem hasTaker_congr {b' : Bridge σ} (handler : b'.handler = b.handler) (lent : b'.lent = b.lent) :
    b'.hasTaker = b.hasTaker := by
  rw [hasTaker, handlerRuns, handler, lent]
  rfl

theorem GoesOn.hasTaker {b' : Bridge σ} (h : b.GoesOn d b') : b'.hasTaker = b.hasTaker :=
  hasTaker_congr h.handler h.lent

theorem CutsOff.hasTaker {b' : Bridge σ} {exit : ExitCode} {left : Bool} (h : b.CutsOff d exit left b') :
    b'.hasTaker = b.hasTaker := hasTaker_congr h.handler h.lent

/-- A bridge that goes on driving keeps the balance if the new deeds fit the new mailbox. -/
theorem Balanced.goesOn {b' : Bridge σ} {d' : Driving} (h : Balanced b) (hs : b.stage = .driving d)
    (hb : b.GoesOn d' b') (current : d'.current = lastAgreed .stopped (deeds b'.log))
    (balance : Balance b.requests (requestsDelivered (deeds b'.log))
      (requestsMade .stopped (deeds b'.log)) d'.mailbox) : Balanced b' where
  noLine := by rw [hb.requests, h.noLine]
  taker := by
    rw [hb.requests, hb.hasTaker]
    exact h.taker
  balance := by
    rw [hb.stage, hb.requests, hb.hasTaker]
    exact ⟨(h.driving hs).1, current, balance⟩

/-- A bridge that cuts the handler off keeps the balance if the new deeds take no request and make
none. -/
theorem Balanced.cutsOff {b' : Bridge σ} {exit : ExitCode} {left : Bool} (h : Balanced b)
    (hb : b.CutsOff d exit left b')
    (taken : requestsDelivered (deeds b'.log) = requestsDelivered (deeds b.log))
    (made : requestsMade .stopped (deeds b'.log) = requestsMade .stopped (deeds b.log)) :
    Balanced b' where
  noLine := by simp [hb.requests, Link.cancel, h.noLine]
  taker hslot := by
    rw [hb.hasTaker]
    exact h.taker fun hnone => hslot (by simp [hb.requests, Link.cancel, hnone])
  balance := by
    have hlink : onLink b'.requests = onLink b.requests := by
      rw [hb.requests]
      exact onLink_cancel b.requests 0
    rw [hb.stage, taken, made, hlink]
    exact h.begins

/-- A bridge that gives back what it held keeps the balance if the new deeds take no request and make none. -/
theorem Balanced.past {b' : Bridge σ} (h : Balanced b) (requests : b'.requests = b.requests)
    (handler : b'.handler = b.handler) (lent : b'.lent = b.lent)
    (hs : (∃ ending next, b'.stage = .releasing ending next) ∨
      ∃ ending, b'.stage = .ended ending)
    (taken : requestsDelivered (deeds b'.log) = requestsDelivered (deeds b.log))
    (made : requestsMade .stopped (deeds b'.log) = requestsMade .stopped (deeds b.log)) :
    Balanced b' where
  noLine := by rw [requests, h.noLine]
  taker := by
    rw [requests, hasTaker_congr handler lent]
    exact h.taker
  balance := by
    rcases hs with ⟨ending, next, hs⟩ | ⟨ending, hs⟩
    all_goals
      rw [hs, taken, made, requests]
      exact h.begins

theorem Balanced.start {s : Dispatched} (h : Balanced b) (hs : b.stage = .waiting) :
    Balanced (b.start s) where
  noLine := rfl
  taker := absurd rfl
  balance := by
    have hdeeds : deeds (b.start s).log = [] := (deeds_start b s).trans (h.waiting hs).2
    change _ ∧ Status.stopped = _ ∧ Balance Link.fresh _ _ .awaiting
    rw [hdeeds]
    exact ⟨fun _ => rfl, rfl, .awaiting rfl rfl⟩

/-- To read an event takes no request. -/
theorem requestsDelivered_read (b : Bridge σ) (d : Driving) (p : Placed ControlEvent) :
    requestsDelivered (deeds (b.read d p).log) = requestsDelivered (deeds b.log) := by
  rw [deeds_read, requestsDelivered_append]
  exact List.append_nil _

/-- A flagged event makes no request, and the run ends. -/
theorem Balanced.read_flagged {p : Placed ControlEvent} {code : UInt32} (h : Balanced b)
    (he : p.item.error = some code) : Balanced (b.read d p) := by
  refine h.cutsOff (cutsOff_read he) (requestsDelivered_read b d p) ?_
  rw [deeds_read, requestsMade_append, requestsMade_read_flagged _ he, List.append_nil]

/-- An unflagged event makes a request, which is the one under way from then on, or is dropped. -/
theorem Balanced.read_unflagged {p : Placed ControlEvent} (h : Balanced b)
    (hs : b.stage = .driving d) (hm : d.mailbox.isHolding = false) (he : p.item.error = none) :
    Balanced (b.read d p) := by
  obtain ⟨-, hcurrent, hbalance⟩ := h.driving hs
  have htaken := requestsDelivered_read b d p
  have hagreed : d.current = lastAgreed .stopped (deeds (b.read d p).log) := by
    rw [deeds_read, lastAgreed_append]
    exact hcurrent
  have hmade : requestsMade .stopped (deeds (b.read d p).log) =
      requestsMade .stopped (deeds b.log) ++ [p.item.request d.current] := by
    rw [deeds_read, requestsMade_append, requestsMade_read _ he, ← hcurrent]
  cases hmail : d.mailbox with
  | holding =>
    rw [hmail] at hm
    cases hm
  | detached =>
    refine h.goesOn hs (goesOn_read_detached hs hmail he) hagreed ?_
    rw [hmail] at hbalance ⊢
    obtain _ | _ | _ | _ | _ | ⟨closed, empty, some⟩ := hbalance
    rw [htaken, hmade]
    exact .detached closed empty (some.trans (List.prefix_append _ _))
  | awaiting =>
    refine h.goesOn hs (goesOn_read_awaiting hmail he) hagreed ?_
    rw [hmail] at hbalance
    obtain ⟨empty, all⟩ := hbalance
    rw [htaken, hmade, all]
    exact .fresh empty rfl

theorem Balanced.read {p : Placed ControlEvent} (h : Balanced b) (hs : b.stage = .driving d)
    (hm : d.mailbox.isHolding = false) : Balanced (b.read d p) := by
  cases he : p.item.error with
  | some code => exact h.read_flagged he
  | none => exact h.read_unflagged hs hm he

theorem Balanced.place {c : Command} {r : Request} (h : Balanced b) (hs : b.stage = .driving d)
    (hm : d.mailbox = .holding c (.fresh r)) : Balanced (b.place d c r) := by
  obtain ⟨htaker, hcurrent, hbalance⟩ := h.driving hs
  rw [hm] at hbalance
  obtain _ | ⟨empty, all⟩ := hbalance
  cases hclosed : b.requests.closed with
  | true =>
    -- The link takes nothing any more: the request is lost, and the link stays as it is.
    have hb : b.GoesOn { d with mailbox := .holding c (.resolved .closed) } (b.place d c r) :=
      ⟨by simp [Bridge.place, hclosed], by simp [Bridge.place, Link.send, Link.start, hclosed], rfl, rfl⟩
    refine h.goesOn hs hb hcurrent ?_
    exact .lost hclosed empty (all ▸ List.prefix_append _ _)
  | false =>
    have hstart : b.requests.start = .placed := by
      simp [Link.start, hclosed, empty, h.noLine]
    have hlink : (b.place d c r).requests = { b.requests with slot := some ⟨⟨0, r⟩, true⟩ } := by
      simp [Bridge.place, Link.send, hstart]
    have hstage : (b.place d c r).stage = .driving { d with mailbox := .holding c .placed } := by
      simp [Bridge.place, hclosed]
    refine ⟨by rw [hlink]; exact h.noLine, fun _ => htaker hclosed, ?_⟩
    rw [hstage, hlink]
    exact ⟨htaker, hcurrent, .placed rfl all⟩

theorem Balanced.settle {c : Command} {r : SendResult} (h : Balanced b) (hs : b.stage = .driving d)
    (hm : d.mailbox = .holding c (.resolved r)) : Balanced (b.settle d c r) := by
  obtain ⟨-, hcurrent, hbalance⟩ := h.driving hs
  have hdeeds : deeds (b.settle d c r).log = deeds b.log := deeds_settle b d c r
  rw [hm] at hbalance
  cases r with
  | taken =>
    obtain _ | _ | _ | ⟨empty, all⟩ := hbalance
    refine h.goesOn hs (goesOn_settle_taken c) ?_ ?_ <;> rw [hdeeds]
    · exact hcurrent
    · exact .awaiting empty all
  | closed =>
    obtain _ | _ | _ | _ | ⟨closed, empty, some⟩ := hbalance
    refine h.goesOn hs (goesOn_settle_closed c) ?_ ?_ <;> rw [hdeeds]
    · exact hcurrent
    · exact .detached closed empty some

theorem Balanced.relay [StatusHost σ] {p : Placed Status} (h : Balanced b)
    (hs : b.stage = .driving d) : Balanced (b.relay d p) := by
  obtain ⟨-, hcurrent, hbalance⟩ := h.driving hs
  have hdeeds := deeds_relay b d p
  have htaken : requestsDelivered (deeds (b.relay d p).log) = requestsDelivered (deeds b.log) := by
    rw [hdeeds, requestsDelivered_append]
    exact List.append_nil _
  have hmade : requestsMade .stopped (deeds (b.relay d p).log) =
      requestsMade .stopped (deeds b.log) := by
    rw [hdeeds, requestsMade_append]
    exact List.append_nil _
  cases hr : (StatusHost.report b.host d.handle (Record.ofStatus p.item .success)).2 with
  | ok =>
    refine h.goesOn hs (goesOn_relay hr) ?_ (by rwa [htaken, hmade])
    rw [hdeeds, lastAgreed_append, hr]
    rfl
  | error e => exact h.cutsOff (cutsOff_relay hr) htaken hmade

theorem Balanced.finish [StatusHost σ] (h : Balanced b) (handle : Handle) (exit : ExitCode)
    (left : Bool) : Balanced (b.finish handle exit left) := by
  refine h.past rfl rfl rfl (.inl ⟨_, _, rfl⟩) ?_ ?_
  · rw [deeds_finish, requestsDelivered_append]
    exact List.append_nil _
  · rw [deeds_finish, requestsMade_append]
    exact List.append_nil _

theorem Balanced.release {ending : Ending} (h : Balanced b) (next : Release) :
    Balanced (b.release ending next) := by
  have hdeeds := deeds_release b ending next
  cases next with
  | closeControl | deregister | announce =>
    exact h.past rfl rfl rfl (.inl ⟨_, _, rfl⟩) (by rw [hdeeds]) (by rw [hdeeds])
  | signal => exact h.past rfl rfl rfl (.inr ⟨_, rfl⟩) (by rw [hdeeds]) (by rw [hdeeds])

/-- **A move of the bridge keeps the balance.** -/
theorem Balanced.makes [StatusHost σ] {m : Move} {b' : Bridge σ} (h : Balanced b)
    (hm : b.Makes m b') : Balanced b' := by
  cases hm with
  | start hs => exact h.start hs
  | refuse hs | abandon hs =>
    refine h.past rfl rfl rfl (.inl ⟨_, _, rfl⟩) ?_ ?_ <;> rw [deeds_refuse]
  | read hs hm => exact h.read hs hm
  | place hs hm => exact h.place hs hm
  | settle hs hm => exact h.settle hs hm
  | relay hs => exact h.relay hs
  | endStatuses hs =>
    obtain ⟨-, hcurrent, hbalance⟩ := h.driving hs
    exact h.goesOn hs ⟨rfl, rfl, rfl, rfl⟩ hcurrent hbalance
  | complete hs =>
    refine h.cutsOff (cutsOff_complete _) ?_ ?_ <;> rw [deeds_complete]
  | report hs => exact h.finish _ _ _
  | release hs => exact h.release _

/-! ## What the actions keep -/

/-- The balance looks at the stage, the link and the deeds, and at who has the requests only as long as
something can be taken. -/
theorem Balanced.same {b' : Bridge σ} (h : Balanced b) (stage : b'.stage = b.stage)
    (requests : b'.requests = b.requests) (deeds : deeds b'.log = deeds b.log)
    (taker : (b.hasTaker = true → b'.hasTaker = true) ∨
      b.requests.closed = true ∧ b.requests.slot = none) :
    Balanced b' where
  noLine := by rw [requests, h.noLine]
  taker := by
    rw [requests]
    obtain taker | ⟨-, empty⟩ := taker
    · exact fun hslot => taker (h.taker hslot)
    · exact fun hslot => absurd empty hslot
  balance := by
    have hb := h.balance
    rw [stage, requests, deeds]
    cases hs : b.stage with
    | driving d =>
      rw [hs] at hb
      refine ⟨fun hopen => ?_, hb.2⟩
      obtain taker | ⟨closed, -⟩ := taker
      · exact taker (hb.1 hopen)
      · exact absurd (closed.symm.trans hopen) (by simp)
    | waiting | finishing | releasing | ended => rwa [hs] at hb

theorem Balanced.takeRequest {p : Placed Request} (h : Balanced b) (ht : b.hasTaker = true)
    (hp : b.requests.slot = some p) : Balanced b.takeRequest := by
  have hdeeds : deeds b.takeRequest.log = deeds b.log ++ [.delivered p.item] :=
    deeds_takeRequest hp
  have htaken : requestsDelivered (deeds b.takeRequest.log) =
      requestsDelivered (deeds b.log) ++ [p.item] := by
    rw [hdeeds, requestsDelivered_append]
    rfl
  have hmade : requestsMade .stopped (deeds b.takeRequest.log) =
      requestsMade .stopped (deeds b.log) := by
    rw [hdeeds, requestsMade_append]
    exact List.append_nil _
  have hlink : b.takeRequest.requests = b.requests.take := takeRequest_requests hp
  have htaker : b.takeRequest.hasTaker = true :=
    (hasTaker_congr (takeRequest_handler b) (takeRequest_lent b)).trans ht
  refine ⟨by rw [hlink]; exact h.noLine, fun _ => htaker, ?_⟩
  rw [takeRequest_stage hp, htaken, hmade, hlink, htaker]
  cases hs : b.stage with
  | waiting => exact absurd ((h.waiting hs).1.symm.trans hp) (by simp)
  | driving d =>
    obtain ⟨-, hcurrent, hbalance⟩ := h.driving hs
    obtain ⟨⟨c, hm⟩, all⟩ := hbalance.placed_of_some hp
    rw [Stage.resolved_placed hm, hdeeds, lastAgreed_append, all]
    exact ⟨fun _ => rfl, hcurrent, .taken rfl rfl⟩
  | finishing | releasing | ended =>
    have hbegins := h.begins
    rw [onLink_of_some hp] at hbegins
    exact (List.append_nil _).symm ▸ hbegins

theorem Balance.close {l : Link Request} {taken made : List Request} {m : Mailbox}
    (h : Balance l taken made m) (hm : ∀ c, m ≠ .holding c .placed) :
    Balance l.close taken made m := by
  cases h with
  | awaiting _ all => exact .awaiting rfl all
  | fresh _ all => exact .fresh rfl all
  | placed => exact absurd rfl (hm _)
  | taken _ all => exact .taken rfl all
  | lost _ _ some => exact .lost rfl rfl some
  | detached _ _ some => exact .detached rfl rfl some

theorem Balanced.dropRequests (h : Balanced b) (ht : b.hasTaker = true) :
    Balanced b.dropRequests := by
  have htaker : b.dropRequests.hasTaker = true :=
    (hasTaker_congr (dropRequests_handler b) (dropRequests_lent b)).trans ht
  refine ⟨by rw [dropRequests_requests]; rfl, fun _ => htaker, ?_⟩
  rw [dropRequests_stage, dropRequests_requests, dropRequests_log, htaker]
  cases hs : b.stage with
  | waiting => exact ⟨rfl, (h.waiting hs).2⟩
  | driving d =>
    obtain ⟨-, hcurrent, hbalance⟩ := h.driving hs
    by_cases hplaced : ∃ c, d.mailbox = .holding c .placed
    · -- The request on the link is lost.
      obtain ⟨c, hm⟩ := hplaced
      rw [hm] at hbalance
      obtain _ | _ | ⟨slot, all⟩ := hbalance
      rw [Stage.resolved_placed hm, all]
      exact ⟨fun _ => rfl, hcurrent, .lost rfl rfl (List.prefix_append _ _)⟩
    · have hm : ∀ c, d.mailbox ≠ .holding c .placed := fun c hm => hplaced ⟨c, hm⟩
      rw [Stage.resolved_unplaced fun d' c hd => Stage.driving.inj hd ▸ hm c]
      exact ⟨fun _ => rfl, hcurrent, hbalance.close hm⟩
  | finishing | releasing | ended =>
    have hempty : onLink b.requests.close = [] := rfl
    change _ ++ onLink b.requests.close <+: _
    rw [hempty, List.append_nil]
    exact (List.prefix_append _ _).trans h.begins

/-- **An action keeps the balance.** -/
theorem Balanced.meets {b' : Bridge σ} (h : Balanced b) (hm : b.Meets b') : Balanced b' := by
  cases hm with
  | aside stage requests handler lent deeds =>
    refine h.same stage requests deeds (.inl fun ht => ?_)
    rw [hasTaker_iff, handler]
    exact (hasTaker_iff.mp ht).imp_right lent
  | take ht hp => exact h.takeRequest ht hp
  | dropRequests ht => exact h.dropRequests ht
  | finish c hr hl =>
    have hlink : b.dropRequests.requests = b.requests.close := dropRequests_requests b
    refine (h.dropRequests (hasTaker_of_running hr)).same ?_ ?_ ?_
      (.inr ⟨by rw [hlink]; rfl, by rw [hlink]; rfl⟩)
    · rw [finishHandler_stage hl, dropRequests_stage]
    · rw [finishHandler_requests hl, dropRequests_requests]
    · rw [finishHandler_log, dropRequests_log]
  | outlived c hr hl stage requests handler deeds =>
    exact h.same stage requests deeds (.inl fun _ => hasTaker_of_lent hl)

/-- **A run is always in balance.** -/
theorem balanced_after [StatusHost σ] (name handlerName : String) (context : Context) (host : σ)
    (history : List Step) : Balanced ((fresh name handlerName context host).after history) :=
  state_invariant_after (fun h hm => h.makes hm) (fun h hm => h.meets hm)
    (balanced_fresh name handlerName context host) history

/-- **Requests are taken in order.**  Whatever happens, the requests the handler has taken are,
one by one from the first, those made of the unflagged control events read: each has the content of
its event and the status the host had last agreed to when the event was read. -/
theorem requestsDelivered_begin_requestsMade [StatusHost σ] (name handlerName : String)
    (context : Context) (host : σ) (history : List Step) :
    let b := (fresh name handlerName context host).after history
    requestsDelivered b.log <+: requestsMade .stopped b.log ∧
      (requestsMade .stopped b.log).map Request.event =
        (controlsRead b.log).filter (·.error.isNone) := by
  intro b
  have hbegins := (balanced_after name handlerName context host history).begins
  rw [requestsDelivered_deeds, requestsMade_deeds] at hbegins
  exact ⟨(List.prefix_append _ _).trans hbegins, requestsMade_map_event .stopped b.log⟩

end Bridge

end Steward

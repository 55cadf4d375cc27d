import Steward.Bridge.Action

/-!
# Proofs/Bridge/Moves — what one move of the bridge does

A move the bridge makes by itself is one of ten, each with the stage it is made in and what it finds
there (`makes_perform`).  Most of a log is news for others; what passes between host, bridge and
handler are its `deeds`: control events read, reports made, requests taken.  For each move the
lemmas below say which deed it does, and whether the bridge goes on driving the handler
(`GoesOn`) or cuts it off (`CutsOff`).
-/

namespace Steward

/-- Something passed between the host, the bridge and the handler. -/
def Happening.isDeed : Happening → Bool
  | .read _ | .reported _ _ _ _ | .delivered _ => true
  | .published _ | .controlSent _ _ | .statusSent _ _ => false

namespace Bridge

variable {σ : Type}

/-! ## Deeds -/

/-- What passed between the host, the bridge and the handler, in order. -/
def deeds (log : List Happening) : List Happening := log.filter Happening.isDeed

@[simp] theorem deeds_append (l₁ l₂ : List Happening) : deeds (l₁ ++ l₂) = deeds l₁ ++ deeds l₂ :=
  List.filter_append l₁ l₂

/-- The refusal of senders is no deed. -/
@[simp] theorem deeds_map_statusSent (tickets : List Nat) (r : SendResult) :
    deeds (tickets.map (.statusSent · r)) = [] := by
  simp [deeds, Happening.isDeed]

@[simp] theorem deeds_map_controlSent (tickets : List Nat) (r : SendResult) :
    deeds (tickets.map (.controlSent · r)) = [] := by
  simp [deeds, Happening.isDeed]

theorem deeds_cons_deed {h : Happening} {log : List Happening} (hd : h.isDeed = true) :
    deeds (h :: log) = h :: deeds log := List.filter_cons_of_pos hd

theorem deeds_cons_news {h : Happening} {log : List Happening} (hd : h.isDeed = false) :
    deeds (h :: log) = deeds log := List.filter_cons_of_neg (by simp [hd])

/-- A view of the log that looks at deeds only is a view of the deeds. -/
theorem filterMap_deeds {α : Type} (view : Happening → Option α)
    (hview : ∀ h, h.isDeed = false → view h = none) (log : List Happening) :
    (deeds log).filterMap view = log.filterMap view := by
  induction log with
  | nil => rfl
  | cons h log ih =>
    cases hd : h.isDeed with
    | true => rw [deeds_cons_deed hd, List.filterMap_cons, List.filterMap_cons, ih]
    | false => rw [deeds_cons_news hd, List.filterMap_cons_none (hview h hd), ih]

theorem requestsDelivered_deeds (log : List Happening) :
    requestsDelivered (deeds log) = requestsDelivered log :=
  filterMap_deeds _ (fun h hd => by cases h <;> simp_all [Happening.isDeed]) log

theorem reports_deeds (log : List Happening) : reports (deeds log) = reports log :=
  filterMap_deeds _ (fun h hd => by cases h <;> simp_all [Happening.isDeed]) log

/-! ## The moves of the bridge -/

/-- The bridge makes a move and comes into a new state: the stage of each move, what it finds
there, and which arms have nothing for it, unless they were looked at before. -/
inductive Makes [StatusHost σ] (b : Bridge σ) : Move → Bridge σ → Prop where
  | start {s : Dispatched} (hs : b.stage = .waiting)
      (ho : b.handshake.poll.2 = .outcome (.ok s)) : Makes b (.start s) (b.start s)
  | refuse {e : HostError} (hs : b.stage = .waiting)
      (ho : b.handshake.poll.2 = .outcome (.error e)) :
      Makes b (.refuse (some e)) (b.refuse (some e))
  | abandon (hs : b.stage = .waiting) (ho : b.handshake.poll.2 = .gone) :
      Makes b (.refuse none) (b.refuse none)
  | read {d : Driving} {p : Placed ControlEvent} (hs : b.stage = .driving d)
      (hm : d.mailbox.isHolding = false) (hp : b.control.slot = some p) :
      Makes b (.read p) (b.read d p)
  | place {d : Driving} {c : Command} {r : Request} (hs : b.stage = .driving d)
      (hm : d.mailbox = .holding c (.fresh r)) : Makes b (.place r) (b.place d c r)
  | settle {d : Driving} {c : Command} {r : SendResult} (hs : b.stage = .driving d)
      (hm : d.mailbox = .holding c (.resolved r)) : Makes b (.settle r) (b.settle d c r)
  | relay {d : Driving} {p : Placed Status} (hs : b.stage = .driving d)
      (hm : b.arm ≠ .status → b.mailboxMove? d = none) (ho : d.statusesOpen = true)
      (hp : b.updates.slot = some p) : Makes b (.relay p) (b.relay d p)
  | endStatuses {d : Driving} (hs : b.stage = .driving d)
      (hm : b.arm ≠ .status → b.mailboxMove? d = none)
      (ho : d.statusesOpen = true) (hp : b.updates.poll = .ended) :
      Makes b .endStatuses
        { b with arm := .mailbox, stage := .driving { d with statusesOpen := false } }
  | complete {d : Driving} {c : Completion} (hs : b.stage = .driving d)
      (hm : b.arm = .mailbox → b.mailboxMove? d = none)
      (hu : b.arm ≠ .completion → b.statusMove? d = none)
      (hh : b.handler = .ended c) : Makes b (.complete c) (b.complete d c)
  | report {handle : Handle} {exit : ExitCode} {left : Bool}
      (hs : b.stage = .finishing handle exit left) : Makes b .report (b.finish handle exit left)
  | release {ending : Ending} {next : Release} (hs : b.stage = .releasing ending next) :
      Makes b .release (b.release ending next)

/-- A bridge that drives a handler waits when nothing is there for it. -/
theorem next?_eq_none_of_driving {b : Bridge σ} {d : Driving} (hs : b.stage = .driving d) :
    b.next? = none ↔
      b.mailboxMove? d = none ∧ b.statusMove? d = none ∧ b.completionMove? = none := by
  simp only [next?, hs]
  exact drivingMove?_eq_none

/-- What a bridge that drives a handler can do. -/
theorem makes_perform_driving [StatusHost σ] {b : Bridge σ} {d : Driving} {m : Move}
    (hs : b.stage = .driving d) (h : b.next? = some m) : b.Makes m (b.perform m) := by
  simp only [next?, hs] at h
  rcases drivingMove?_cases h with h | ⟨hm, h⟩ | ⟨hm, hu, h⟩
  · rcases mailboxMove?_cases h with ⟨c, r, hm, rfl⟩ | ⟨c, r, hm, rfl⟩ | ⟨p, hm, hp, rfl⟩
    · simp only [perform, hs, hm]
      exact .place hs hm
    · simp only [perform, hs, hm]
      exact .settle hs hm
    · simp only [perform, hs]
      exact .read hs hm hp
  · obtain ⟨ho, ⟨p, hp, rfl⟩ | ⟨hp, rfl⟩⟩ := statusMove?_cases h
    · simp only [perform, hs]
      exact .relay hs hm ho hp
    · simp only [perform, hs]
      exact .endStatuses hs hm ho hp
  · unfold completionMove? at h
    split at h
    · obtain rfl := Option.some.inj h
      simp only [perform, hs]
      exact .complete hs hm hu ‹_›
    · cases h

/-- **A move the bridge makes by itself is one of the moves above.** -/
theorem makes_perform [StatusHost σ] {b : Bridge σ} {m : Move} (h : b.next? = some m) :
    b.Makes m (b.perform m) := by
  cases hs : b.stage with
  | waiting =>
    simp only [next?, hs] at h
    split at h <;> simp only [Option.some.injEq, reduceCtorEq] at h <;> subst h <;>
      simp only [perform, hs]
    · exact .start hs ‹_›
    · exact .refuse hs ‹_›
    · exact .abandon hs ‹_›
  | driving d => exact makes_perform_driving hs h
  | finishing handle exit left =>
    simp only [next?, hs, Option.some.injEq] at h
    subst h
    simp only [perform, hs]
    exact .report hs
  | releasing ending next =>
    simp only [next?, hs, Option.some.injEq] at h
    subst h
    simp only [perform, hs]
    exact .release hs
  | ended ending => simp [next?, hs] at h

/-! ## What a move does -/

/-- What a bridge that reads changes: the control link and, if it cuts the handler off, what is
between them; the rest stays. -/
theorem read_eq (b : Bridge σ) (d : Driving) (p : Placed ControlEvent) :
    ∃ requests updates stage log, b.read d p = { b with
      arm := .mailbox, control := b.control.take, requests := requests, updates := updates, stage := stage,
      log := log } := by
  unfold read
  dsimp only
  split
  · exact ⟨_, _, _, _, rfl⟩
  · split <;> exact ⟨_, _, _, _, rfl⟩

/-- What a bridge that relays changes: the host and what is between it and the handler. -/
theorem relay_eq [StatusHost σ] (b : Bridge σ) (d : Driving) (p : Placed Status) :
    ∃ host requests updates stage log, b.relay d p = { b with
      arm := .mailbox, host := host, requests := requests, updates := updates, stage := stage,
      log := log } := by
  unfold relay
  dsimp only
  split <;> exact ⟨_, _, _, _, _, rfl⟩

/-- What a move adds to the log beside its deed: what is told of it, and the senders of statuses it
refuses. -/
def news (told : List Event) (refused : List Nat) : List Happening :=
  told.map .published ++ refused.map (.statusSent · .closed)

/-- A view of the log that sees neither what is told nor the senders of statuses sees no news. -/
theorem filterMap_news {α : Type} {view : Happening → Option α} (hp : ∀ e, view (.published e) = none)
    (hs : ∀ ticket r, view (.statusSent ticket r) = none) (told : List Event) (refused : List Nat) :
    (news told refused).filterMap view = [] := by
  refine List.filterMap_eq_nil_iff.mpr fun h hmem => ?_
  obtain hmem | hmem := List.mem_append.mp hmem
  · obtain ⟨e, -, rfl⟩ := List.mem_map.mp hmem
    exact hp e
  · obtain ⟨ticket, -, rfl⟩ := List.mem_map.mp hmem
    exact hs ticket .closed

@[simp] theorem deeds_news (told : List Event) (refused : List Nat) :
    deeds (news told refused) = [] := by
  simp [news, deeds, Happening.isDeed]

/-- To read an event adds the event to the log, that its sender is done, and news. -/
theorem read_log (b : Bridge σ) (d : Driving) (p : Placed ControlEvent) :
    ∃ told refused, (b.read d p).log = b.log ++ (Happening.read p.item ::
      if p.awaited then [Happening.controlSent p.ticket .taken] else []) ++ news told refused := by
  unfold read
  dsimp only
  split
  · exact ⟨[_], b.updates.unfinished, List.append_assoc _ _ _⟩
  · split
    · exact ⟨[_, _], [], List.append_assoc _ _ _⟩
    · exact ⟨[_], [], rfl⟩

/-- To relay a status adds to the log that its sender is done, the report, and news. -/
theorem relay_log [StatusHost σ] (b : Bridge σ) (d : Driving) (p : Placed Status) :
    ∃ told refused, (b.relay d p).log = b.log ++
      (if p.awaited then [Happening.statusSent p.ticket .taken] else []) ++
      [.reported (.relayed p.ticket p.item) d.handle (Record.ofStatus p.item .success)
        (StatusHost.report b.host d.handle (Record.ofStatus p.item .success)).2] ++
      news told refused := by
  unfold relay
  dsimp only
  split
  · exact ⟨[_], [], rfl⟩
  · exact ⟨[_], b.updates.take.unfinished, List.append_assoc _ _ _⟩

/-- Publishing is no deed. -/
@[simp] theorem deeds_publish (b : Bridge σ) (e : Event) :
    deeds (b.publish e).log = deeds b.log := by
  simp [publish, note, deeds, Happening.isDeed]

@[simp] theorem deeds_publishCommand (b : Bridge σ) (kind : EventKind) (c : Command) :
    deeds (b.publishCommand kind c).log = deeds b.log := deeds_publish b _

/-- Cutting the handler off is no deed. -/
@[simp] theorem deeds_leave (b : Bridge σ) (d : Driving) (exit : ExitCode) (left : Bool) :
    deeds (b.leave d exit left).log = deeds b.log := by
  simp [leave]

@[simp] theorem deeds_start (b : Bridge σ) (s : Dispatched) :
    deeds (b.start s).log = deeds b.log := by
  simp only [start, deeds_publish]

@[simp] theorem deeds_refuse (b : Bridge σ) (e : Option HostError) :
    deeds (b.refuse e).log = deeds b.log := by
  simp only [refuse, deeds_publish]

/-- To read an event is one deed, whatever becomes of it. -/
@[simp] theorem deeds_read (b : Bridge σ) (d : Driving) (p : Placed ControlEvent) :
    deeds (b.read d p).log = deeds b.log ++ [.read p.item] := by
  have hsent : deeds (if p.awaited then [Happening.controlSent p.ticket .taken] else []) = [] := by
    cases p.awaited <;> rfl
  obtain ⟨told, refused, hlog⟩ := b.read_log d p
  rw [hlog, deeds_append, deeds_append, deeds_news, deeds_cons_deed rfl, hsent, List.append_nil]

@[simp] theorem deeds_settle (b : Bridge σ) (d : Driving) (c : Command) (r : SendResult) :
    deeds (b.settle d c r).log = deeds b.log := by
  cases r <;> exact deeds_publishCommand _ _ _

/-- To relay a status is one deed, a call of the report function. -/
@[simp] theorem deeds_relay [StatusHost σ] (b : Bridge σ) (d : Driving) (p : Placed Status) :
    deeds (b.relay d p).log = deeds b.log ++
      [.reported (.relayed p.ticket p.item) d.handle (Record.ofStatus p.item .success)
        (StatusHost.report b.host d.handle (Record.ofStatus p.item .success)).2] := by
  have hsent : deeds (if p.awaited then [Happening.statusSent p.ticket .taken] else []) = [] := by
    cases p.awaited <;> rfl
  obtain ⟨told, refused, hlog⟩ := b.relay_log d p
  rw [hlog, deeds_append, deeds_append, deeds_append, deeds_news, hsent, List.append_nil,
    List.append_nil]
  rfl

@[simp] theorem deeds_complete (b : Bridge σ) (d : Driving) (c : Completion) :
    deeds (b.complete d c).log = deeds b.log := by
  simp only [complete, deeds_leave, deeds_publish]

/-- The last report is one deed. -/
@[simp] theorem deeds_finish [StatusHost σ] (b : Bridge σ) (handle : Handle) (exit : ExitCode)
    (left : Bool) :
    deeds (b.finish handle exit left).log = deeds b.log ++
      [.reported (.final exit) handle (Record.ofStatus .stopped exit)
        (StatusHost.report b.host handle (Record.ofStatus .stopped exit)).2] := by
  simp only [finish, deeds_publish, deeds_append]
  rfl

@[simp] theorem deeds_release (b : Bridge σ) (ending : Ending) (next : Release) :
    deeds (b.release ending next).log = deeds b.log := by
  cases next <;> simp [release]

/-- From one state to another the bridge goes on driving, and leaves the handler and its requests
alone. -/
structure GoesOn (b : Bridge σ) (d : Driving) (b' : Bridge σ) : Prop where
  stage : b'.stage = .driving d
  requests : b'.requests = b.requests
  handler : b'.handler = b.handler
  lent : b'.lent = b.lent

/-- From one state to another the handler is cut off: it is left alone with what lies on its link,
and can send no status any more. -/
structure CutsOff (b : Bridge σ) (d : Driving) (exit : ExitCode) (left : Bool) (b' : Bridge σ) :
    Prop where
  stage : b'.stage = .finishing d.handle exit left
  requests : b'.requests = { b.requests.cancel 0 with offers := 0 }
  handler : b'.handler = b.handler
  lent : b'.lent = b.lent
  updates : ∃ l : Link Status, b'.updates = l.close

section Moves

variable {b : Bridge σ} {d : Driving}

/-- A flagged event ends the run. -/
theorem cutsOff_read {p : Placed ControlEvent} {code : UInt32} (he : p.item.error = some code) :
    b.CutsOff d (.ofService code) true (b.read d p) := by
  unfold read
  simp only [he]
  exact ⟨rfl, rfl, rfl, rfl, _, rfl⟩

/-- An unflagged event that nobody takes leaves things as they are. -/
theorem goesOn_read_detached {p : Placed ControlEvent} (hs : b.stage = .driving d)
    (hm : d.mailbox = .detached) (he : p.item.error = none) : b.GoesOn d (b.read d p) := by
  unfold read
  simp only [he, hm]
  exact ⟨hs, rfl, rfl, rfl⟩

/-- Any other unflagged event becomes the request under way. -/
theorem goesOn_read_awaiting {p : Placed ControlEvent} (hm : d.mailbox = .awaiting)
    (he : p.item.error = none) :
    b.GoesOn { d with mailbox := .holding p.item.command (.fresh (p.item.request d.current)) }
      (b.read d p) := by
  unfold read
  simp only [he, hm]
  exact ⟨rfl, rfl, rfl, rfl⟩

theorem goesOn_settle_taken (c : Command) :
    b.GoesOn { d with mailbox := .awaiting } (b.settle d c .taken) := ⟨rfl, rfl, rfl, rfl⟩

theorem goesOn_settle_closed (c : Command) :
    b.GoesOn { d with mailbox := .detached } (b.settle d c .closed) := ⟨rfl, rfl, rfl, rfl⟩

/-- A status the host agrees to is the current one from then on. -/
theorem goesOn_relay [StatusHost σ] {p : Placed Status}
    (hr : (StatusHost.report b.host d.handle (Record.ofStatus p.item .success)).2 = .ok ()) :
    b.GoesOn { d with current := p.item } (b.relay d p) := by
  unfold relay
  simp only [hr]
  exact ⟨rfl, rfl, rfl, rfl⟩

/-- A status the host refuses ends the run. -/
theorem cutsOff_relay [StatusHost σ] {p : Placed Status} {e : HostError}
    (hr : (StatusHost.report b.host d.handle (Record.ofStatus p.item .success)).2 = .error e) :
    b.CutsOff d (refusedExit e) true (b.relay d p) := by
  unfold relay
  simp only [hr]
  exact ⟨rfl, rfl, rfl, rfl, _, rfl⟩

/-- The end of the handler ends the run. -/
theorem cutsOff_complete (c : Completion) : b.CutsOff d c.exit false (b.complete d c) :=
  ⟨rfl, rfl, rfl, rfl, _, rfl⟩

/-- From one state to another the bridge goes on driving with the same handle, or it cuts the
handler off. -/
def Leads (b : Bridge σ) (d : Driving) (b' : Bridge σ) : Prop :=
  (∃ d', b'.stage = .driving d' ∧ d'.handle = d.handle) ∨ ∃ exit left, b.CutsOff d exit left b'

theorem leads_read {p : Placed ControlEvent} (hs : b.stage = .driving d)
    (hm : d.mailbox.isHolding = false) : b.Leads d (b.read d p) := by
  cases he : p.item.error with
  | some code => exact .inr ⟨_, _, cutsOff_read he⟩
  | none =>
    cases hmail : d.mailbox with
    | holding => simp [hmail, Mailbox.isHolding] at hm
    | detached => exact .inl ⟨_, (goesOn_read_detached hs hmail he).stage, rfl⟩
    | awaiting => exact .inl ⟨_, (goesOn_read_awaiting hmail he).stage, rfl⟩

theorem leads_settle (c : Command) (r : SendResult) : b.Leads d (b.settle d c r) := by
  cases r with
  | taken => exact .inl ⟨_, (goesOn_settle_taken c).stage, rfl⟩
  | closed => exact .inl ⟨_, (goesOn_settle_closed c).stage, rfl⟩

theorem leads_relay [StatusHost σ] (p : Placed Status) : b.Leads d (b.relay d p) := by
  cases hr : (StatusHost.report b.host d.handle (Record.ofStatus p.item .success)).2 with
  | ok => exact .inl ⟨_, (goesOn_relay hr).stage, rfl⟩
  | error e => exact .inr ⟨_, _, cutsOff_relay hr⟩

/-- **A move of a bridge that drives a handler goes on driving it or cuts it off.** -/
theorem Makes.leads [StatusHost σ] {m : Move} {b' : Bridge σ} (hs : b.stage = .driving d)
    (hm : b.Makes m b') : b.Leads d b' := by
  have hsame : ∀ {d'}, b.stage = .driving d' → d' = d := by
    intro d' hs'
    exact Stage.driving.inj (hs'.symm.trans hs)
  cases hm with
  | start hw | refuse hw | abandon hw => exact absurd (hw.symm.trans hs) (by simp)
  | report hf => exact absurd (hf.symm.trans hs) (by simp)
  | release hr => exact absurd (hr.symm.trans hs) (by simp)
  | read hs' hm =>
    obtain rfl := hsame hs'
    exact leads_read hs hm
  | place hs' =>
    obtain rfl := hsame hs'
    exact .inl ⟨_, rfl, rfl⟩
  | settle hs' =>
    obtain rfl := hsame hs'
    exact leads_settle _ _
  | relay hs' =>
    obtain rfl := hsame hs'
    exact leads_relay _
  | endStatuses hs' =>
    obtain rfl := hsame hs'
    exact .inl ⟨_, rfl, rfl⟩
  | complete hs' =>
    obtain rfl := hsame hs'
    exact .inr ⟨_, _, cutsOff_complete _⟩

end Moves

end Bridge

end Steward

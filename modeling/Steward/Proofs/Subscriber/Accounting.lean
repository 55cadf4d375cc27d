import Steward.Proofs.Subscriber.Readiness

/-!
# Proofs/Subscriber/Accounting — what became of every event

Along any history of an audience, where events come in, single workers get ahead, all run, permits are
given and the queues are closed in any order, the account is complete.

* `accounts_after`, `ready_after` — each action keeps the account, and leaves nobody out who can go on.
* `offered_wanting` — every event was offered to those who want it, in order.
* `announced_overflows` — what was dropped was announced, in order, and nothing else was.
* `every_event_accounted` — and what was queued was handed over, in order, or is still to come.
-/

namespace Steward

/-- What was published at once is what was published one after the other. -/
theorem Bus.publishAll_append {α : Type} (b : Bus α) (as bs : List α) :
    b.publishAll (as ++ bs) = (b.publishAll as).publishAll bs := List.foldl_append

/-- Who is at rest has nothing left, or waits for a permit. -/
theorem Worker.AtRest.isFinished {s : Subscriber} {w : Worker} (h : w.AtRest s) :
    w.isFinished = true ∨ w.isHeldUp s = true := by
  rcases h with (hended | hheldUp) | ⟨hheld, hqueue, -⟩
  · exact .inl (by simp [Worker.isFinished, hended])
  · exact .inr hheldUp
  · exact .inl (by simp [Worker.isFinished, hheld, hqueue])

/-- A worker with nothing left was handed all that was queued for it. -/
theorem Worker.Serves.seen {s : Subscriber} {w : Worker} {queued : List Event}
    (h : w.Serves s queued) (hfinished : w.isFinished = true) (hgoing : w.ended = false) :
    w.seen = queued := by
  obtain ⟨hheld, hqueue⟩ : w.held = none ∧ w.queue = [] := by
    simpa [Worker.isFinished, hgoing] using hfinished
  rw [h.going hgoing, hheld, hqueue, Option.toList_none, List.append_nil, List.append_nil]

/-- What is announced is that something was dropped. -/
theorem Offering.isOverflow_announced (os : List Offering) :
    (os.flatMap announced).filter Event.isOverflow = os.flatMap announced := by
  refine List.filter_eq_self.mpr fun e he => ?_
  obtain ⟨o, -, ho⟩ := List.mem_flatMap.mp he
  unfold announced at ho
  split at ho
  · split at ho
    · cases ho
    · obtain rfl := List.mem_singleton.mp ho
      rfl
  · cases ho

namespace Fanout

open Audience (wanting)

variable {f : Fanout} {subs : List Subscriber} {os : List Offering}

/-! ## One action -/

/-- The account after an action. -/
theorem accounts_act (h : f.audience.Accounts subs os) (a : Action) :
    (f.act a).audience.Accounts subs (os ++ (f.effect a).offered) ∧
      (f.effect a).offered.map (fun o => (o.member, o.name, o.event)) =
        (f.effect a).emitted.flatMap (wanting subs) ∧
      (f.effect a).published.filter Event.isOverflow =
        (f.effect a).offered.flatMap Offering.announced := by
  have hquiet {published : List Event} (htells : Worker.Tells published) :
      published.filter Event.isOverflow = [] :=
    List.filter_eq_nil_iff.mpr fun e he => by simp [Event.isOverflow_of_isPanicReport (htells e he)]
  cases a with
  | emit e =>
    simp only [act, effect, Fanout.emit]
    split
    · exact ⟨(List.append_nil os).symm ▸ h, rfl, rfl⟩
    · refine ⟨h.emit e, ?_, ?_⟩
      · rw [Audience.offerings_wanting, h.subscribers, List.flatMap_singleton]
      · rw [Audience.announced_emit, Offering.isOverflow_announced]
  | advance member =>
    obtain ⟨hnow, htells⟩ := h.advance member
    exact ⟨(List.append_nil os).symm ▸ hnow, rfl, hquiet htells⟩
  | run =>
    obtain ⟨hnow, htells⟩ := h.run
    exact ⟨(List.append_nil os).symm ▸ hnow, rfl, hquiet htells⟩
  | permit member n => exact ⟨(List.append_nil os).symm ▸ h.permit member n, rfl, rfl⟩
  | close => exact ⟨(List.append_nil os).symm ▸ h, rfl, rfl⟩

/-- Whoever can go on after an action is on the rota. -/
theorem ready_act (h : f.audience.Ready) (a : Action) : (f.act a).audience.Ready := by
  cases a with
  | emit e =>
    simp only [act, Fanout.emit]
    split
    · exact h
    · exact h.emit e
  | advance member => exact h.advance member
  | run => exact fun number => .inr (h.run number)
  | permit member n => exact h.permit member n
  | close => exact h

/-- What an action publishes goes to the bus. -/
theorem bus_act (f : Fanout) (a : Action) :
    (f.act a).bus = f.bus.publishAll (f.effect a).published := by
  cases a with
  | emit e =>
    simp only [act, effect, Fanout.emit]
    split <;> rfl
  | _ => rfl

/-- Why an event that comes in is dropped. -/
theorem dropped_effect (f : Fanout) (e : Event) {o : Offering}
    (ho : o ∈ (f.effect (.emit e)).offered) :
    ∃ m, f.audience.members[o.member]? = some m ∧
      (o.dropped = some .closed ↔ m.worker.ended = true) ∧
      (o.dropped = some .full ↔ m.worker.ended = false ∧
        m.subscriber.room ≤ m.worker.queue.length) := by
  simp only [effect] at ho
  split at ho
  · cases ho
  · obtain ⟨m, hm, hdropped⟩ := Audience.mem_offerings ho
    exact ⟨m, hm, hdropped ▸ Worker.offer_dropped _ _ e⟩

/-! ## A history -/

theorem offered_cons (f : Fanout) (a : Action) (later : List Action) :
    f.offered (a :: later) = (f.effect a).offered ++ (f.act a).offered later := List.flatMap_cons

theorem emitted_cons (f : Fanout) (a : Action) (later : List Action) :
    f.emitted (a :: later) = (f.effect a).emitted ++ (f.act a).emitted later := List.flatMap_cons

theorem published_cons (f : Fanout) (a : Action) (later : List Action) :
    f.published (a :: later) = (f.effect a).published ++ (f.act a).published later :=
  List.flatMap_cons

/-- **The account is complete after every history.** -/
theorem accounts_after (h : f.audience.Accounts subs os) (history : List Action) :
    (f.after history).audience.Accounts subs (os ++ f.offered history) := by
  induction history generalizing f os with
  | nil => exact (List.append_nil os).symm ▸ h
  | cons a later ih =>
    rw [offered_cons, ← List.append_assoc]
    exact ih (accounts_act h a).1

/-- **Every event was offered to those who want it**, in order. -/
theorem offered_wanting (h : f.audience.Accounts subs os) (history : List Action) :
    (f.offered history).map (fun o => (o.member, o.name, o.event)) =
      (f.emitted history).flatMap (wanting subs) := by
  induction history generalizing f os with
  | nil => rfl
  | cons a later ih =>
    obtain ⟨hnow, hoffered, -⟩ := accounts_act h a
    rw [offered_cons, emitted_cons, List.map_append, List.flatMap_append, hoffered, ih hnow]

/-- **What was dropped was announced**, in order, and nothing else was. -/
theorem announced_overflows (h : f.audience.Accounts subs os) (history : List Action) :
    (f.published history).filter Event.isOverflow =
      (f.offered history).flatMap Offering.announced := by
  induction history generalizing f os with
  | nil => rfl
  | cons a later ih =>
    obtain ⟨hnow, -, hpublished⟩ := accounts_act h a
    rw [published_cons, offered_cons, List.filter_append, List.flatMap_append, hpublished, ih hnow]

theorem ready_after (h : f.audience.Ready) (history : List Action) :
    (f.after history).audience.Ready := by
  induction history generalizing f with
  | nil => exact h
  | cons a later ih => exact ih (ready_act h a)

theorem bus_after (f : Fanout) (history : List Action) :
    (f.after history).bus = f.bus.publishAll (f.published history) := by
  induction history generalizing f with
  | nil => rfl
  | cons a later ih =>
    rw [published_cons, Bus.publishAll_append, ← bus_act]
    exact ih (f.act a)

/-- A shutdown comes to its end, unless somebody waits for a permit. -/
theorem isOver_shutdown (h : f.audience.Ready) :
    (f.apply .shutdown).isOver = true ∨
      ∃ m ∈ (f.apply .shutdown).audience.members, m.isHeldUp = true := by
  by_cases hheldUp : ∃ m ∈ f.audience.run.1.members, m.isHeldUp = true
  · exact .inr hheldUp
  · refine .inl (List.all_eq_true.mpr fun m hm => ?_)
    obtain ⟨number, hnumber⟩ := List.mem_iff_getElem?.mp hm
    have hrest := h.run number m hnumber
    exact hrest.isFinished.resolve_right fun hm' => hheldUp ⟨m, hm, hm'⟩

/-- **Every event is accounted for.**  After any history each event that came in was offered, once and in
order, to those who want it.  Of those, the next one is dropped by whose worker has ended and by whose
queue is full, and by nobody else.  For each that was dropped, announcements apart, one announcement was
published, in the order in which the events were offered.  What a member was handed, with what it has in
hand, is the beginning of what was queued for it; unless its worker broke on an event, the rest is in its
queue, and when a shutdown is over there is no rest.  A shutdown is over, unless somebody waits for a
permit, as soon as the workers have run. -/
theorem every_event_accounted (subs : List Subscriber) (capacity : Nat) (history : List Action) :
    let start := ofList subs capacity
    let f := start.after history
    (start.offered history).map (fun o => (o.member, o.name, o.event)) =
      (start.emitted history).flatMap (wanting subs) ∧
    (∀ e, ∀ o ∈ (f.effect (.emit e)).offered, ∃ m, f.audience.members[o.member]? = some m ∧
      (o.dropped = some .closed ↔ m.worker.ended = true) ∧
      (o.dropped = some .full ↔ m.worker.ended = false ∧
        m.subscriber.room ≤ m.worker.queue.length)) ∧
    (start.published history).filter Event.isOverflow =
      (start.offered history).flatMap Offering.announced ∧
    f.bus = start.bus.publishAll (start.published history) ∧
    (∀ (number : Nat) (m : Member), f.audience.members[number]? = some m →
      let queued := Offering.queuedFor number (start.offered history)
      subs[number]? = some m.subscriber ∧
      m.worker.seen ++ m.worker.held.toList <+: queued ∧
      (m.worker.ended = false →
        queued = m.worker.seen ++ m.worker.held.toList ++ m.worker.queue ∧
        (f.isOver = true → m.worker.seen = queued)) ∧
      (m.worker.ended = true →
        ∃ e lost, m.subscriber.reaction e m.worker.seen = .breaks ∧
          queued = m.worker.seen ++ e :: lost)) ∧
    ((f.apply .shutdown).isOver = true ∨
      ∃ m ∈ (f.apply .shutdown).audience.members, m.isHeldUp = true) := by
  intro start f
  have hstart : start.audience.Accounts subs [] := Audience.accounts_ofList subs
  have hready : f.audience.Ready := ready_after (Audience.ready_ofList subs) history
  have h : f.audience.Accounts subs (start.offered history) := accounts_after hstart history
  refine ⟨offered_wanting hstart history, fun e o ho => dropped_effect f e ho,
    announced_overflows hstart history, bus_after start history, fun number m hm => ?_,
    isOver_shutdown hready⟩
  have hserves := h.serves number m hm
  refine ⟨?_, hserves.handed_prefix, fun hgoing => ⟨hserves.going hgoing, fun hover => ?_⟩,
    fun hended => (hserves.ended hended).2.2⟩
  · rw [← h.subscribers, List.getElem?_map, hm]
    rfl
  · have hall := (Bool.and_eq_true _ _ ▸ hover).2
    exact hserves.seen (List.all_eq_true.mp hall m (List.mem_of_getElem? hm)) hgoing

/-- A slow subscriber, one that breaks on some event, and one that wants to see one kind only. -/
def threeSubscribers : List Subscriber :=
  [{ Subscriber.plain "slow" with capacity := 0, gated := true },
    { Subscriber.plain "frail" with
      reaction := fun e _ => if e.kind = .handlerExited then .breaks else .handles },
    { Subscriber.plain "picky" with interested := (· == .bridgeStopped) }]

/-- The slow one has an event in hand and one in its queue when the next two come, and the frail one
has ended when the last one comes.  Then the queues are closed and the slow one gets its permits. -/
def fourEvents : List Action :=
  [.emit (.ofKind .handlerStarted), .advance 0, .advance 1, .emit (.ofKind .handlerExited),
    .emit (.overflow "other" "full"), .advance 1, .emit (.ofKind .bridgeStopped), .close, .permit 0 2,
    .advance 0, .advance 0, .advance 0, .advance 2]

/-- The dropped announcement is not announced, and who goes on was handed what was queued. -/
theorem fourEvents_accounted :
    ((ofList threeSubscribers 8).offered fourEvents).map (·.dropped) =
      [none, none, none, none, some .full, none, some .full, some .closed, none] ∧
    ((ofList threeSubscribers 8).published fourEvents).filter Event.isOverflow =
      [.overflow "slow" "full", .overflow "frail" "closed"] ∧
    ((ofList threeSubscribers 8).after fourEvents).isOver = true ∧
    ∃ m, ((ofList threeSubscribers 8).after fourEvents).audience.members[0]? = some m ∧
      m.worker.seen = [.ofKind .handlerStarted, .ofKind .handlerExited] ∧
      m.worker.seen = Offering.queuedFor 0 ((ofList threeSubscribers 8).offered fourEvents) := by
  have hover : ((ofList threeSubscribers 8).after fourEvents).isOver = true := rfl
  obtain ⟨-, -, hannounced, -, hmembers, -⟩ := every_event_accounted threeSubscribers 8 fourEvents
  obtain ⟨-, -, hgoing, -⟩ := hmembers 0 _ rfl
  exact ⟨rfl, hannounced.trans rfl, hover, _, rfl, rfl, (hgoing rfl).2 hover⟩

end Fanout

end Steward

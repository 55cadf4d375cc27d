import Steward.Subscriber.Schedule

/-!
# Proofs/Subscriber/Queue — what became of the events queued for a worker

A worker `Serves` the events that were queued for it when nothing is missing: what it was handed, what it
holds and what is still in its queue are those events, in order.  A worker that has ended broke on one of
them, and lost it with all behind it.

* `Worker.Serves.offer`, `.next?`, `.turn`, … — each thing that happens to a worker keeps the account.
* `Audience.Serves.emit`, `.advance`, `.turn`, `.run`, … — and so does all that happens to an audience.
-/

namespace Steward

/-- The event reports the panic of an observer. -/
def Event.isPanicReport (e : Event) : Bool := e.kind == .subscriberPanicked

/-- No such event announces one that was dropped. -/
theorem Event.isOverflow_of_isPanicReport {e : Event} (h : e.isPanicReport = true) :
    e.isOverflow = false := by
  have hkind : e.kind = .subscriberPanicked := by simpa [isPanicReport] using h
  simp [isOverflow, hkind]

/-! ## One worker -/

namespace Worker

/-- The account of a worker for the events that were queued for it. -/
structure Serves (s : Subscriber) (w : Worker) (queued : List Event) : Prop where
  /-- A worker that goes on has lost nothing. -/
  going : w.ended = false → queued = w.seen ++ w.held.toList ++ w.queue
  /-- One that has ended has nothing left: it lost what it broke on, and what was behind it. -/
  ended : w.ended = true → w.held = none ∧ w.queue = [] ∧
    ∃ e lost, s.reaction e w.seen = .breaks ∧ queued = w.seen ++ e :: lost
  room : w.queue.length ≤ s.room

variable {s : Subscriber} {w : Worker} {queued : List Event}

/-- Of a worker that has not run yet. -/
theorem serves_fresh (s : Subscriber) : Serves s fresh [] where
  going _ := rfl
  ended h := nomatch h
  room := Nat.zero_le _

/-- What a worker is handed, with what it holds, was queued for it, in order. -/
theorem Serves.handed_prefix (h : Serves s w queued) : w.seen ++ w.held.toList <+: queued := by
  cases hended : w.ended with
  | false =>
    rw [h.going hended]
    exact List.prefix_append _ _
  | true =>
    obtain ⟨hheld, -, e, lost, -, hqueued⟩ := h.ended hended
    rw [hheld, hqueued, Option.toList_none, List.append_nil]
    exact List.prefix_append _ _

/-! ### An event comes in -/

/-- The event is queued: an event has come in, and was not dropped. -/
def accepted (s : Subscriber) (w : Worker) (e : Event) : List Event :=
  if (w.offer s e).2.isNone then [e] else []

theorem offer_ended (hended : w.ended = true) (e : Event) : w.offer s e = (w, some .closed) :=
  if_pos hended

theorem offer_full (hended : w.ended = false) (hfull : s.room ≤ w.queue.length) (e : Event) :
    w.offer s e = (w, some .full) := by
  rw [offer, if_neg (by simp [hended]), if_pos hfull]

theorem offer_room (hended : w.ended = false) (hroom : w.queue.length < s.room) (e : Event) :
    w.offer s e = ({ w with queue := w.queue ++ [e], listens := false }, none) := by
  rw [offer, if_neg (by simp [hended]), if_neg (Nat.not_le.mpr hroom)]

/-- **An event is dropped for two reasons**: the worker has ended, or its queue is full. -/
theorem offer_dropped (s : Subscriber) (w : Worker) (e : Event) :
    ((w.offer s e).2 = some .closed ↔ w.ended = true) ∧
      ((w.offer s e).2 = some .full ↔ w.ended = false ∧ s.room ≤ w.queue.length) := by
  cases hended : w.ended with
  | true => simp [offer_ended hended]
  | false =>
    by_cases hfull : s.room ≤ w.queue.length
    · simp [offer_full hended hfull, hfull]
    · simp [offer_room hended (Nat.lt_of_not_le hfull), hfull]

/-- A worker that drops an event is as it was. -/
theorem Serves.offer (h : Serves s w queued) (e : Event) :
    Serves s (w.offer s e).1 (queued ++ w.accepted s e) := by
  cases hended : w.ended with
  | true => simpa [accepted, offer_ended hended] using h
  | false =>
    by_cases hfull : s.room ≤ w.queue.length
    · simpa [accepted, offer_full hended hfull] using h
    · have hroom : w.queue.length < s.room := Nat.lt_of_not_le hfull
      have hqueued := h.going hended
      have haccepted : w.accepted s e = [e] := by rw [accepted, offer_room hended hroom]; rfl
      rw [haccepted, hqueued, offer_room hended hroom]
      refine ⟨fun _ => List.append_assoc _ _ _, fun hnow => (nomatch hended.symm.trans hnow), ?_⟩
      rw [List.length_append]
      exact hroom

/-! ### The worker gets ahead -/

/-- Who takes the next event goes on without it. -/
theorem Serves.fetch {e : Event} {rest : List Event} (h : Serves s w queued)
    (hgoing : w.ended = false) (hheld : w.held = none) (hqueue : w.queue = e :: rest) :
    Serves s (w.fetch s e rest).1 queued := by
  have hqueued : queued = w.seen ++ e :: rest := by
    rw [h.going hgoing, hheld, hqueue, Option.toList_none, List.append_nil]
  have hroom : rest.length ≤ s.room := by
    have := h.room
    rw [hqueue, List.length_cons] at this
    omega
  unfold Worker.fetch
  split
  · rename_i hbreaks
    exact ⟨fun hnow => (nomatch hnow), fun _ => ⟨hheld, rfl, e, rest, hbreaks, hqueued⟩,
      Nat.zero_le _⟩
  · dsimp only
    split
    · exact ⟨fun _ => by simpa using hqueued, fun hnow => (nomatch hgoing.symm.trans hnow),
        hroom⟩
    · exact ⟨fun _ => by simpa [handle] using hqueued, fun hnow =>
        (nomatch hgoing.symm.trans hnow), hroom⟩

/-- The event in hand goes from there to those that were handed over. -/
theorem Serves.handOver {e : Event} (h : Serves s w queued) (hgoing : w.ended = false)
    (hheld : w.held = some e) : Serves s (w.handOver s e).1 queued where
  going _ := by
    rw [h.going hgoing, hheld]
    simp [Worker.handOver, handle]
  ended hnow := nomatch hgoing.symm.trans hnow
  room := h.room

/-- What the worker can be given: the event in hand goes to the subscriber, or the next one is
taken. -/
theorem next?_cases {t : Worker × List Event} (h : w.next? s = some t) :
    w.ended = false ∧
      ((∃ e, w.held = some e ∧ t = w.handOver s e) ∨
        (∃ e rest, w.held = none ∧ w.queue = e :: rest ∧ t = w.fetch s e rest)) := by
  unfold next? at h
  split at h
  · cases h
  · rename_i hcan
    refine ⟨by simp_all, ?_⟩
    split at h
    · rename_i e hheld
      exact .inl ⟨e, hheld, (Option.some.inj h).symm⟩
    · cases h
    · rename_i e rest hheld hqueue
      exact .inr ⟨e, rest, hheld, hqueue, (Option.some.inj h).symm⟩

theorem Serves.next? {t : Worker × List Event} (h : Serves s w queued) (hnext : w.next? s = some t) :
    Serves s t.1 queued := by
  obtain ⟨hgoing, ⟨e, hheld, rfl⟩ | ⟨e, rest, hheld, hqueue, rfl⟩⟩ := next?_cases hnext
  · exact h.handOver hgoing hheld
  · exact h.fetch hgoing hheld hqueue

/-- To wait changes nothing. -/
theorem Serves.await (h : Serves s w queued) : Serves s w.await queued := ⟨h.going, h.ended, h.room⟩

theorem Serves.turn (h : Serves s w queued) (n : Nat) : Serves s (turn s w n).worker queued := by
  induction n generalizing w with
  | zero => exact h
  | succ n ih =>
    unfold Worker.turn
    split
    · exact h.await
    · rename_i hnext
      exact ih (h.next? hnext)

theorem Serves.permit (h : Serves s w queued) (n : Nat) : Serves s (w.permit n) queued :=
  ⟨h.going, h.ended, h.room⟩

/-! ### What a worker publishes -/

/-- A worker publishes reports of panics, and nothing else. -/
def Tells (published : List Event) : Prop := ∀ e ∈ published, e.isPanicReport = true

theorem tells_handle (s : Subscriber) (w : Worker) (e : Event) : Tells (w.handle s e).2 := by
  intro told htold
  unfold handle at htold
  dsimp only at htold
  split at htold
  · obtain rfl := List.mem_singleton.mp htold
    rfl
  · cases htold

theorem tells_next? {t : Worker × List Event} (hnext : w.next? s = some t) : Tells t.2 := by
  obtain ⟨-, ⟨e, -, rfl⟩ | ⟨e, rest, -, -, rfl⟩⟩ := next?_cases hnext
  · exact tells_handle s _ e
  · unfold fetch
    split
    · exact List.forall_mem_nil _
    · dsimp only
      split
      · exact List.forall_mem_nil _
      · exact tells_handle s _ e

theorem tells_turn (s : Subscriber) (w : Worker) (n : Nat) : Tells (turn s w n).published := by
  induction n generalizing w with
  | zero => exact List.forall_mem_nil _
  | succ n ih =>
    unfold turn
    split
    · exact List.forall_mem_nil _
    · rename_i hnext
      exact List.forall_mem_append.mpr ⟨tells_next? hnext, ih _⟩

end Worker

/-! ## One event for all members -/

namespace Offering

theorem queuedFor_append (member : Nat) (as bs : List Offering) :
    queuedFor member (as ++ bs) = queuedFor member as ++ queuedFor member bs := by
  simp [queuedFor]

end Offering

namespace Member

variable (m : Member) (number : Nat) (e : Event)

/-- What of an event is queued for the member. -/
def accepted : List Event :=
  if m.subscriber.interested e.kind then m.worker.accepted m.subscriber e else []

theorem subscriber_offer : (m.offer e).1.subscriber = m.subscriber := by
  unfold offer
  split <;> rfl

/-- The member announces what it was offered and dropped. -/
theorem announced_offer :
    (m.offer e).2 = (m.offering? number e).toList.flatMap Offering.announced := by
  unfold offer offering?
  split
  · exact (List.append_nil _).symm
  · rfl

theorem filter_offering (member : Nat) :
    (m.offering? number e).toList.filter (·.member = member) =
      if number = member then (m.offering? member e).toList else [] := by
  unfold offering?
  by_cases hwants : m.subscriber.interested e.kind
  · by_cases hnumber : number = member <;> simp [hwants, hnumber]
  · simp [hwants]

theorem queued_offering :
    ((m.offering? number e).toList.filter (·.dropped.isNone)).map (·.event) = m.accepted e := by
  unfold offering? accepted Worker.accepted
  by_cases hwants : m.subscriber.interested e.kind
  · cases (m.worker.offer m.subscriber e).2 <;> simp [hwants]
  · simp [hwants]

theorem serves_offer {queued : List Event} (h : m.worker.Serves m.subscriber queued) :
    (m.offer e).1.worker.Serves m.subscriber (queued ++ m.accepted e) := by
  unfold offer accepted
  split
  · exact h.offer e
  · rw [List.append_nil]
    exact h

end Member

namespace Audience

variable {a : Audience} {subs : List Subscriber} {os : List Offering}

/-- The subscribers that want an event, each with its number, in order. -/
def wanting (subs : List Subscriber) (e : Event) : List (Nat × String × Event) :=
  (subs.zipIdx.filter fun (s, _) => s.interested e.kind).map fun (s, number) => (number, s.name, e)

/-- An event is offered to those who want it. -/
theorem offerings_wanting (a : Audience) (e : Event) :
    (a.offerings e).map (fun o => (o.member, o.name, o.event)) =
      wanting (a.members.map (·.subscriber)) e := by
  rw [offerings, wanting, List.zipIdx_map]
  generalize a.members.zipIdx = ms
  induction ms with
  | nil => rfl
  | cons p ms ih =>
    obtain ⟨m, number⟩ := p
    by_cases hwants : m.subscriber.interested e.kind
    · simpa [Member.offering?, hwants] using ih
    · simpa [Member.offering?, hwants] using ih

/-- Who is offered an event is a member, and drops it or not by its worker. -/
theorem mem_offerings {e : Event} {o : Offering} (ho : o ∈ a.offerings e) :
    ∃ m, a.members[o.member]? = some m ∧ o.dropped = (m.worker.offer m.subscriber e).2 := by
  obtain ⟨⟨m, number⟩, hm, ho⟩ := List.mem_flatMap.mp ho
  simp only [Member.offering?] at ho
  split at ho
  · obtain rfl := List.mem_singleton.mp ho
    exact ⟨m, List.mem_zipIdx_iff_getElem?.mp hm, rfl⟩
  · cases ho

/-- What is announced for an event is what its offerings say. -/
theorem announced_emit (a : Audience) (e : Event) :
    (a.emit e).2 = (a.offerings e).flatMap Offering.announced := by
  have hms : ∀ (ms : List Member) (k : Nat), ms.flatMap (fun m => (m.offer e).2) =
      ((ms.zipIdx k).flatMap fun m => (m.1.offering? m.2 e).toList).flatMap Offering.announced := by
    intro ms
    induction ms with
    | nil => exact fun _ => rfl
    | cons m ms ih =>
      intro k
      rw [List.flatMap_cons, List.zipIdx_cons, List.flatMap_cons, List.flatMap_append, ih (k + 1),
        m.announced_offer k]
  exact hms a.members 0

/-- A member's part of the offerings, where members are numbered from `k`. -/
theorem offerings_from (e : Event) (ms : List Member) (k member : Nat) :
    ((ms.zipIdx k).flatMap fun (m, n) => (m.offering? n e).toList).filter (·.member = member) =
      if k ≤ member then (ms[member - k]?.bind (·.offering? member e)).toList else [] := by
  induction ms generalizing k with
  | nil => simp
  | cons m ms ih =>
    rw [List.zipIdx_cons, List.flatMap_cons, List.filter_append, m.filter_offering, ih]
    -- the member is further on, is the first one, or stands before all of them
    rcases Nat.lt_trichotomy k member with hlt | rfl | hgt
    · have hsub : member - k = member - (k + 1) + 1 := by omega
      rw [if_neg (Nat.ne_of_lt hlt), if_pos (Nat.succ_le_of_lt hlt), if_pos (Nat.le_of_lt hlt), hsub]
      rfl
    · rw [if_pos rfl, if_neg (Nat.not_succ_le_self k), if_pos (Nat.le_refl k), Nat.sub_self,
        List.append_nil]
      rfl
    · rw [if_neg (Nat.ne_of_gt hgt), if_neg (by omega), if_neg (by omega)]
      rfl

/-- What a member is offered when an event comes. -/
theorem filter_offerings {member : Nat} {m : Member} (hm : a.members[member]? = some m) (e : Event) :
    (a.offerings e).filter (·.member = member) = (m.offering? member e).toList := by
  rw [offerings, offerings_from, if_pos (Nat.zero_le _), Nat.sub_zero, hm]
  rfl

/-- What is queued for a member when an event comes. -/
theorem queuedFor_offerings {member : Nat} {m : Member} (hm : a.members[member]? = some m)
    (e : Event) : Offering.queuedFor member (a.offerings e) = m.accepted e := by
  have hfilter (os : List Offering) : Offering.queuedFor member os =
      ((os.filter (·.member = member)).filter (·.dropped.isNone)).map (·.event) := by
    simp [Offering.queuedFor, List.filter_filter, Bool.and_comm]
  rw [hfilter, filter_offerings hm, m.queued_offering]

/-! ## All members -/

/-- The account of an audience for what was offered to it. -/
structure Accounts (subs : List Subscriber) (os : List Offering) (a : Audience) : Prop where
  subscribers : a.members.map (·.subscriber) = subs
  serves : ∀ (number : Nat) (m : Member), a.members[number]? = some m →
    m.worker.Serves m.subscriber (Offering.queuedFor number os)

/-- Of an audience that has not run yet. -/
theorem accounts_ofList (subs : List Subscriber) : Accounts subs [] (ofList subs) where
  subscribers := by
    change (subs.map Member.fresh).map (·.subscriber) = subs
    rw [List.map_map]
    exact List.map_id _
  serves number m hm := by
    obtain ⟨s, -, rfl⟩ : ∃ s, subs[number]? = some s ∧ Member.fresh s = m := by
      simpa [ofList] using hm
    exact Worker.serves_fresh s

theorem Accounts.emit (h : a.Accounts subs os) (e : Event) :
    (a.emit e).1.Accounts subs (os ++ a.offerings e) where
  subscribers := by
    rw [← h.subscribers, Audience.emit, List.map_map]
    exact List.map_congr_left fun m _ => m.subscriber_offer e
  serves number m' hm' := by
    obtain ⟨m, hm, rfl⟩ : ∃ m, a.members[number]? = some m ∧ (m.offer e).1 = m' := by
      simpa [Audience.emit] using hm'
    rw [Offering.queuedFor_append, queuedFor_offerings hm, m.subscriber_offer]
    exact m.serves_offer e (h.serves number m hm)

/-- One worker goes on. -/
theorem Accounts.set (h : a.Accounts subs os) {member : Nat} {m : Member} {w : Worker}
    (hm : a.members[member]? = some m)
    (hw : w.Serves m.subscriber (Offering.queuedFor member os)) (rota : Rota Nat) :
    Accounts subs os ⟨a.members.set member { m with worker := w }, rota⟩ where
  subscribers := by
    obtain ⟨hlt, hget⟩ := List.getElem?_eq_some_iff.mp hm
    have hlt' : member < (a.members.map (·.subscriber)).length := by simpa using hlt
    have hsame : (a.members.map (·.subscriber))[member] = m.subscriber := by
      rw [List.getElem_map, hget]
    rw [List.map_set, ← hsame, List.set_getElem_self]
    exact h.subscribers
  serves number m' hm' := by
    rw [List.getElem?_set] at hm'
    split at hm'
    · rename_i hnumber
      subst hnumber
      split at hm'
      · obtain rfl := Option.some.inj hm'
        exact hw
      · cases hm'
    · exact h.serves number m' hm'

theorem Accounts.permit (h : a.Accounts subs os) (member n : Nat) :
    (a.permit member n).Accounts subs os where
  subscribers := by
    rw [← h.subscribers]
    exact List.ext_getElem? fun i => by
      simp [Audience.permit, List.getElem?_modify]
      split <;> cases a.members[i]? <;> rfl
  serves number m' hm' := by
    obtain ⟨m, hm, hm'⟩ : ∃ m, a.members[number]? = some m ∧
        (if member = number then m.permit n else m) = m' := by
      simpa [Audience.permit, List.getElem?_modify] using hm'
    have hserves := h.serves number m hm
    subst hm'
    split
    · exact hserves.permit n
    · exact hserves

theorem Accounts.advance (h : a.Accounts subs os) (member : Nat) :
    (a.advance member).1.Accounts subs os ∧ Worker.Tells (a.advance member).2 := by
  unfold Audience.advance
  split
  · exact ⟨h, List.forall_mem_nil _⟩
  · rename_i m hm
    split
    · exact ⟨h, List.forall_mem_nil _⟩
    · rename_i hnext
      exact ⟨h.set hm ((h.serves member m hm).next? hnext) a.rota, Worker.tells_next? hnext⟩

theorem Accounts.turn (h : a.Accounts subs os) (member : Nat) :
    (a.turn member).1.Accounts subs os ∧ Worker.Tells (a.turn member).2 := by
  unfold Audience.turn
  split
  · exact ⟨h, List.forall_mem_nil _⟩
  · rename_i m hm
    exact ⟨h.set hm ((h.serves member m hm).turn Rota.allowance) _,
      Worker.tells_turn m.subscriber m.worker Rota.allowance⟩

/-- Whose turn it is does not matter. -/
theorem Accounts.rota (h : a.Accounts subs os) (rota : Rota Nat) :
    Accounts subs os { a with rota := rota } := ⟨h.subscribers, h.serves⟩

theorem run_idle (h : a.rota.next? = none) : a.run = ({ a with rota := .empty }, []) := by
  rw [run]
  split <;> simp_all

theorem run_turn {member : Nat} {rota : Rota Nat} (h : a.rota.next? = some (member, rota)) :
    a.run = ((Audience.turn { a with rota := rota } member).1.run.1,
      (Audience.turn { a with rota := rota } member).2 ++
        (Audience.turn { a with rota := rota } member).1.run.2) := by
  rw [run]
  split <;> simp_all

theorem Accounts.run (h : a.Accounts subs os) :
    a.run.1.Accounts subs os ∧ Worker.Tells a.run.2 := by
  induction a using Audience.run.induct with
  | case1 a hnext =>
    rw [run_idle hnext]
    exact ⟨h.rota _, List.forall_mem_nil _⟩
  | case2 a member rota hnext now ih =>
    obtain ⟨hnow, htold⟩ := (h.rota rota).turn member
    obtain ⟨hlater, hlast⟩ := ih hnow
    rw [run_turn hnext]
    exact ⟨hlater, List.forall_mem_append.mpr ⟨htold, hlast⟩⟩

end Audience

end Steward

import Steward.Proofs.Link.Session

/-!
# Proofs/Link/Rendezvous — what senders and receiver can rely on

What the receiver of a link gets, and what its senders are told, read off the books of the session
(`daybook_taken`, `daybook_done`): those are in order, so both sides agree.

* `Order.closed_after`, `offering_after` — the link is closed, and its sending end dropped, by those
  operations that do so.
* `received_in_order` — the receiver gets what is sent, in order and each item once.
* `results_of_senders` — each sender is done once, and was told what became of its item.
-/

namespace Steward.Link.Session

variable {α : Type} {s : Session α} {k : Daybook α}

/-! ## The ends of the link -/

/-- Two sessions with the same ends. -/
structure SameEnds (s s' : Session α) : Prop where
  offering : s'.offering = s.offering
  taking : s'.taking = s.taking
  closed : s'.link.closed = s.link.closed

theorem sameEnds_sendOne (s : Session α) (item : α) : s.SameEnds (s.sendOne item).1 := by
  unfold sendOne
  split
  · rw [finish_eq]
    exact ⟨rfl, rfl, closed_send _ _⟩
  · exact ⟨rfl, rfl, closed_send _ _⟩

theorem sameEnds_sendAll (s : Session α) (items : List α) : s.SameEnds (s.sendAll items).1 := by
  induction items generalizing s with
  | nil => exact ⟨rfl, rfl, rfl⟩
  | cons a rest ih =>
    have hone := s.sameEnds_sendOne a
    have hall := ih { (s.sendOne a).1 with tasks := (s.sendOne a).1.tasks ++ [s.started] }
    exact ⟨hall.offering.trans hone.offering, hall.taking.trans hone.taking,
      hall.closed.trans hone.closed⟩

theorem sameEnds_takeOne (s : Session α) : s.SameEnds s.takeOne.1 := by
  cases hp : s.link.slot with
  | none =>
    rw [takeOne_none hp]
    exact ⟨rfl, rfl, rfl⟩
  | some p =>
    rw [takeOne_some hp]
    exact ⟨rfl, rfl, closed_enter _⟩

theorem sameEnds_cancel (s : Session α) (t : Nat) : s.SameEnds (s.cancel t) := by
  unfold cancel
  split
  · exact ⟨rfl, rfl, closed_enter _⟩
  · exact ⟨rfl, rfl, rfl⟩

/-- Every operation but those on the ends leaves them alone. -/
theorem sameEnds_step (s : Session α) {op : Op α} (hcloses : op.closes = false)
    (hdrops : op.dropsOffer = false) : s.SameEnds (s.step op).1 := by
  have hsame : s.SameEnds s := ⟨rfl, rfl, rfl⟩
  cases op with
  | close | dropTake => cases hcloses
  | dropOffer => cases hdrops
  | isClosed => exact hsame
  | send items =>
    rw [step]
    split
    · exact s.sameEnds_sendAll items
    · exact hsame
  | take =>
    by_cases htaking : s.taking
    · rw [(step_take htaking).1]
      exact s.sameEnds_takeOne
    · rw [step, if_neg htaking]
      exact hsame
  | cancel number =>
    cases hnumber : s.tasks[number]? with
    | some t =>
      simp only [step, hnumber]
      exact s.sameEnds_cancel t
    | none =>
      simp only [step, hnumber]
      exact hsame
  | sendBlocking item taking =>
    rw [step]
    split
    · have hone := s.sameEnds_sendOne item
      cases taking && s.taking with
      | false => exact hone
      | true =>
        have htake := (s.sendOne item).1.sameEnds_takeOne
        exact ⟨htake.offering.trans hone.offering, htake.taking.trans hone.taking,
          htake.closed.trans hone.closed⟩
    · exact hsame

/-- **The link is closed by those operations that close it.** -/
theorem Order.closed_step (h : Order k s) (op : Op α) :
    (s.step op).1.link.closed = (s.link.closed || op.closes) := by
  cases hcloses : op.closes with
  | false =>
    rw [Bool.or_false]
    cases op with
    | dropOffer =>
      rw [Session.step]
      split <;> rfl
    | _ => exact (s.sameEnds_step hcloses rfl).closed
  | true =>
    rw [Bool.or_true]
    have hdeaf : ¬ s.taking = true → s.link.closed = true := fun ht => h.deaf (by simpa using ht)
    cases op with
    | close | dropTake =>
      rw [Session.step]
      split
      · exact s.closed_close
      · exact hdeaf ‹_›
    | _ => cases hcloses

/-- **The sending end is dropped by those operations that drop it.** -/
theorem offering_step (s : Session α) (op : Op α) :
    (s.step op).1.offering = (s.offering && !op.dropsOffer) := by
  cases op with
  | dropOffer =>
    rw [step, Op.dropsOffer, Bool.not_true, Bool.and_false]
    split
    · rfl
    · simpa using ‹¬ s.offering = true›
  | close | dropTake =>
    refine .trans ?_ (Bool.and_true _).symm
    rw [step]
    split
    · rw [close_eq]
    · rfl
  | _ => exact (s.sameEnds_step rfl rfl).offering.trans (Bool.and_true _).symm

theorem Order.closed_after (h : Order k s) (ops : List (Op α)) :
    (s.after ops).link.closed = (s.link.closed || ops.any Op.closes) := by
  induction ops generalizing k s with
  | nil => exact (Bool.or_false _).symm
  | cons op ops ih =>
    rw [List.any_cons, ← Bool.or_assoc, ← h.closed_step op]
    exact ih (h.step op)

theorem offering_after (s : Session α) (ops : List (Op α)) :
    (s.after ops).offering = (s.offering && !ops.any Op.dropsOffer) := by
  induction ops generalizing s with
  | nil => exact (Bool.and_true _).symm
  | cons op ops ih =>
    rw [List.any_cons, Bool.not_or, ← Bool.and_assoc, ← offering_step]
    exact ih _

/-! ## What the books say -/

/-- The books say who is done by an operation. -/
theorem entry_done (s : Session α) (op : Op α) : (s.entry op).done = (s.step op).2.2 := by
  cases op with
  | dropOffer =>
    rw [step]
    split <;> rfl
  | isClosed => rfl
  | send items =>
    rw [entry, step]
    split <;> rfl
  | take =>
    by_cases htaking : s.taking
    · rw [entry, if_pos htaking, (step_take htaking).2.2, receiving]
    · rw [entry, step, if_neg htaking, if_neg htaking]
      rfl
  | cancel number => cases hnumber : s.tasks[number]? <;> simp only [entry, step, hnumber] <;> rfl
  | close | dropTake =>
    rw [entry, step]
    split
    · rw [close_eq]
    · rfl
  | sendBlocking item taking =>
    rw [entry, step]
    split
    · cases taking && s.taking <;> rfl
    · rfl

theorem receiving_taken (s : Session α) :
    s.receiving.taken.map (·.item) = s.takeOne.2.1.toList := by
  cases hp : s.link.slot with
  | none =>
    rw [receiving_none hp, takeOne_none hp]
    rfl
  | some p =>
    rw [receiving, takeOne_some hp, hp]
    rfl

/-- The books say what the receiver got in an operation. -/
theorem entry_taken (s : Session α) (op : Op α) :
    (s.entry op).taken.map (·.item) = (s.step op).2.1.item?.toList := by
  cases op with
  | isClosed =>
    rw [step]
    split <;> rfl
  | dropOffer =>
    rw [step]
    split <;> rfl
  | send items =>
    rw [entry, step]
    split <;> rfl
  | take =>
    by_cases htaking : s.taking
    · rw [entry, if_pos htaking, (step_take htaking).2.1, receiving_taken]
    · rw [entry, step, if_neg htaking, if_neg htaking]
      rfl
  | cancel number => cases hnumber : s.tasks[number]? <;> simp only [entry, step, hnumber] <;> rfl
  | close | dropTake =>
    rw [entry, step]
    split <;> rfl
  | sendBlocking item taking =>
    rw [entry, step]
    split
    · cases taking && s.taking with
      | true => exact receiving_taken _
      | false => rfl
    · rfl

/-- **The books say who is done.** -/
theorem daybook_done (s : Session α) (ops : List (Op α)) : (s.daybook ops).done = s.results ops := by
  induction ops generalizing s with
  | nil => rfl
  | cons op ops ih => rw [daybook, Daybook.done_append, entry_done, ih, results]

/-- **The books say what the receiver got.** -/
theorem daybook_taken (s : Session α) (ops : List (Op α)) :
    (s.daybook ops).taken.map (·.item) = s.received ops := by
  induction ops generalizing s with
  | nil => rfl
  | cons op ops ih =>
    rw [daybook, Daybook.taken_append, List.map_append, entry_taken, ih, received, received, run,
      List.filterMap_cons]
    dsimp only
    cases (s.step op).2.1.item? <;> rfl

/-! ## The receiver's side -/

/-- A receiver that looks for an item when the slot is full gets it. -/
theorem Order.got (h : Order k s) (hopen : s.link.closed = false) {p : Placed α}
    (hp : s.link.slot = some p) : (s.step .take).2.1 = .got p.item := by
  have htaking : s.taking = true := by
    by_contra htaking
    have hclosed := h.deaf (by simpa using htaking)
    exact absurd (hclosed.symm.trans hopen) (by decide)
  have hpoll : s.link.poll = .item p := by rw [poll, hp]
  rw [Session.step, if_pos htaking, hpoll]

/-- The receiver finds the end only if the link was closed, or if all senders are gone with nothing left
in the slot. -/
theorem Order.ended (h : Order k s) (hended : (s.step .take).2.1 = .ended) :
    s.link.closed = true ∨ (s.offering = false ∧ s.link.unfinished = [] ∧ s.link.slot = none) := by
  rw [Session.step] at hended
  split at hended
  · cases hslot : s.link.slot with
    | some p =>
      rw [poll, hslot] at hended
      cases hended
    | none =>
      cases hclosed : s.link.closed with
      | true => exact .inl rfl
      | false =>
        have hoffers : s.link.offers = 0 := by
          by_contra hoffers
          simp [poll, hslot, hclosed, hoffers] at hended
        have hhandles := h.handles
        have hnobody : s.link.unfinished.length = 0 := by omega
        refine .inr ⟨?_, List.eq_nil_of_length_eq_zero hnobody, rfl⟩
        cases hoff : s.offering with
        | false => rfl
        | true =>
          rw [hoff] at hhandles
          simp only [if_true] at hhandles
          omega
  · cases hended

/-- The next item that is taken is the next of those sent. -/
theorem Order.next (h : Order k s) (hopen : s.link.closed = false) {p : Placed α}
    (hp : s.link.slot = some p) : k.taken ++ [p.toParcel] <+: k.sent := by
  rw [← h.tallies.order hopen, parcels, hp]
  exact ⟨s.link.line, by simp⟩

/-- **The receiver gets what is sent, in order and each item once.**  After any operations: what it got
are the items of the first senders, in the order in which they started, but for those who were
withdrawn from the line.  As long as the link is neither closed nor dropped, what was sent was taken, is
in the slot or stands in line; at most one item is on the link and not in line, an item whose sender was
withdrawn from the slot is taken in its place, and a receiver that looks for an item when the slot is
full gets the next one.  Nobody stands in line before a free slot; and the receiver finds the end only
when the link was closed, or the sending end was dropped, nobody is under way and the slot is empty. -/
theorem received_in_order (ops : List (Op α)) :
    let k := (fresh : Session α).daybook ops
    let s := (fresh : Session α).after ops
    (fresh.received ops = k.taken.map (·.item) ∧ k.tickets = List.range s.started ∧
      k.taken <+: k.sent) ∧
    (ops.any Op.closes = false →
      k.taken ++ s.link.parcels = k.sent ∧
      k.sent.length ≤ k.taken.length + 1 + s.link.line.length ∧
      (∀ p ∈ k.came, p.ticket ∈ k.abandoned →
        p ∈ k.taken ∨ s.link.slot.map (·.toParcel) = some p) ∧
      ∀ p, s.link.slot = some p →
        (s.step .take).2.1 = .got p.item ∧ k.taken ++ [p.toParcel] <+: k.sent) ∧
    (s.link.slot = none → s.link.line = []) ∧
    ((s.step .take).2.1 = .ended → ops.any Op.closes = true ∨
      (ops.any Op.dropsOffer = true ∧ s.link.unfinished = [] ∧ s.link.slot = none)) := by
  intro k s
  have h : Order k s := order_after ops
  have hclosed : s.link.closed = ops.any Op.closes := order_fresh.closed_after ops
  have hoff : s.offering = !ops.any Op.dropsOffer := offering_after fresh ops
  refine ⟨⟨(daybook_taken _ _).symm, h.tickets, h.tallies.begins⟩, fun hnever => ?_, h.rest,
    fun hended => ?_⟩
  · have hopen : s.link.closed = false := hclosed.trans hnever
    refine ⟨h.tallies.order hopen, ?_, fun p hp hab => h.tallies.abandoned_stays hopen hp hab,
      fun p hp => ⟨h.got hopen hp, h.next hopen hp⟩⟩
    rw [← h.tallies.order hopen, parcels]
    cases s.link.slot with
    | none => simp
    | some p =>
      simp
      omega
  · rw [← hclosed]
    refine (h.ended hended).imp_right fun hgone => ⟨?_, hgone.2⟩
    rw [hoff] at hgone
    simpa using hgone.1

/-- Four tasks start; one is withdrawn from the line and one from the slot, and a thread sends while the
receiver takes one item more. -/
def fiveSenders : List (Op Nat) :=
  [.send [10, 11, 12, 13], .cancel 2, .take, .cancel 1, .take, .sendBlocking 14 true]

/-- The item of the one withdrawn from the slot was taken in its place, and the next one is there. -/
theorem fiveSenders_received :
    let k := (fresh : Session Nat).daybook fiveSenders
    let s := (fresh : Session Nat).after fiveSenders
    k.recalled = [2] ∧ k.abandoned = [1] ∧ fresh.received fiveSenders = [10, 11, 13] ∧
      (s.step .take).2.1 = .got 14 :=
  ⟨rfl, rfl, rfl, (((received_in_order fiveSenders).2.1 rfl).2.2.2 ⟨⟨4, 14⟩, true⟩ rfl).1⟩

/-! ## The senders' side -/

/-- Every sender that comes to a shut link is refused. -/
theorem sendAll_closed (h : s.link.Shut) (items : List α) :
    (s.sendAll items).2 = (items.zipIdx s.started).map fun (_, t) => (t, .closed) := by
  induction items generalizing s with
  | nil => rfl
  | cons a rest ih =>
    have hrest := ih (s := { s with started := s.started + 1, tasks := s.tasks ++ [s.started] }) h
    rw [sendAll, sendOne_closed h, List.zipIdx_cons, List.map_cons]
    exact congrArg ((s.started, SendResult.closed) :: ·) hrest

/-- A thread that comes to a shut link is refused at once. -/
theorem sendBlocking_shut (h : s.link.Shut) (hoff : s.offering = true) (item : α) (taking : Bool) :
    s.step (.sendBlocking item taking) = ({ s with started := s.started + 1 },
      .blocking none (some .closed), [(s.started, .closed)]) := by
  have hnone : ({ s with started := s.started + 1 } : Session α).takeOne =
      ({ s with started := s.started + 1 }, none, []) := takeOne_none h.slot
  rw [step, if_pos hoff, sendOne_closed h]
  cases taking && s.taking <;> simp [hnone]

/-- At a shut link the receiver gets nothing. -/
theorem item?_shut (h : s.link.Shut) (op : Op α) : (s.step op).2.1.item? = none := by
  cases op with
  | isClosed | dropOffer | send | close | dropTake =>
    rw [step]
    split <;> rfl
  | cancel number => cases hnumber : s.tasks[number]? <;> simp only [step, hnumber] <;> rfl
  | take =>
    by_cases htaking : s.taking
    · rw [(step_take htaking).2.1, takeOne_none h.slot]
    · rw [step, if_neg htaking]
      rfl
  | sendBlocking item taking =>
    by_cases hoff : s.offering
    · rw [sendBlocking_shut h hoff]
      rfl
    · rw [step, if_neg hoff]
      rfl

/-- Whoever comes to a shut link is refused at once. -/
theorem done_shut (h : s.link.Shut) (op : Op α) :
    (s.step op).2.2 = (s.entry op).came.map fun p => (p.ticket, .closed) := by
  cases op with
  | isClosed => rfl
  | dropOffer =>
    rw [step]
    split <;> rfl
  | send items =>
    rw [entry, step]
    split
    · rw [sendAll_closed h, List.map_map]
      rfl
    · rfl
  | close | dropTake =>
    rw [← entry_done, entry, closure, h.unfinished]
    split <;> rfl
  | cancel number => cases hnumber : s.tasks[number]? <;> simp only [entry, step, hnumber] <;> rfl
  | take =>
    rw [← entry_done, entry, receiving_none h.slot]
    split <;> rfl
  | sendBlocking item taking =>
    by_cases hoff : s.offering
    · rw [sendBlocking_shut h hoff, entry, if_pos hoff]
      cases taking && s.taking <;> rfl
    · rw [step, if_neg hoff, entry, if_neg hoff]
      rfl

/-- Whoever is under way when the link is closed is refused. -/
theorem Order.refused (h : Order k s) {op : Op α} (hop : op.closes = true) :
    (s.step op).2.2 = s.link.unfinished.map (·, .closed) := by
  have hnobody : ¬ s.taking = true → s.link.unfinished = [] := fun htaking =>
    (h.tallies.shut (h.deaf (by simpa using htaking))).unfinished
  rw [← entry_done]
  cases op with
  | close | dropTake =>
    rw [entry]
    split
    · rfl
    · rw [hnobody ‹_›]
      rfl
  | _ => cases hop

/-- **Each sender is done once, and was told what became of its item.**  After any operations, and for
every sender that started and was not withdrawn: it was told that its item was taken if and only if the
receiver got that item, and that the link is closed if and only if it was closed or dropped and the item
was not taken before.  To close or to drop the link refuses all who are under way.  From then on nobody
is under way, the receiver gets nothing, and whoever comes, a task or a thread, is refused at once. -/
theorem results_of_senders (ops : List (Op α)) :
    let k := (fresh : Session α).daybook ops
    let s := (fresh : Session α).after ops
    let results := fresh.results ops
    (fresh.received ops = k.taken.map (·.item) ∧ k.tickets = List.range s.started) ∧
    (results.map (·.1)).Nodup ∧ (∀ t ∈ k.withdrawn, t ∉ results.map (·.1)) ∧
    (∀ t < s.started, t ∉ k.withdrawn →
      ((t, .taken) ∈ results ↔ t ∈ k.taken.map (·.ticket)) ∧
      ((t, .closed) ∈ results ↔ ops.any Op.closes = true ∧ t ∉ k.taken.map (·.ticket))) ∧
    (∀ op : Op α, op.closes = true → (s.step op).2.2 = s.link.unfinished.map (·, .closed)) ∧
    (ops.any Op.closes = true → s.link.unfinished = [] ∧
      (∀ op, (s.step op).2.1.item? = none ∧
        (s.step op).2.2 = (s.entry op).came.map fun p => (p.ticket, .closed)) ∧
      (s.offering = true → ∀ item taking,
        (s.step (.sendBlocking item taking)).2.1 = .blocking none (some .closed))) := by
  intro k s results
  have h : Order k s := order_after ops
  have hclosed : s.link.closed = ops.any Op.closes := order_fresh.closed_after ops
  have hresults : k.done = results := daybook_done _ _
  rw [← hresults, ← hclosed]
  refine ⟨⟨(daybook_taken _ _).symm, h.tickets⟩, h.tallies.results_nodup,
    fun t ht => h.tallies.not_done_of_withdrawn ht, fun t ht hw => ?_, fun op hop => h.refused hop,
    fun hshut => ?_⟩
  · have hcame : t ∈ k.tickets := by
      rw [h.tickets]
      exact List.mem_range.mpr ht
    exact ⟨h.tallies.taken_iff hw, h.tallies.closed_iff hcame hw⟩
  · have hshut := h.tallies.shut hshut
    exact ⟨hshut.unfinished, fun op => ⟨item?_shut hshut op, done_shut hshut op⟩,
      fun hoff item taking => congrArg (·.2.1) (sendBlocking_shut hshut hoff item taking)⟩

/-- After that one task waits in line, the link is closed, and one more sender comes. -/
theorem fiveSenders_results :
    let ops := fiveSenders ++ [.send [15], .close, .send [16]]
    let s := (fresh : Session Nat).after ops
    fresh.results ops = [(0, .taken), (3, .taken), (5, .closed), (4, .closed), (6, .closed)] ∧
      (4, .closed) ∈ fresh.results ops ∧ s.link.unfinished = [] ∧
      (s.step (.sendBlocking 17 true)).2.1 = .blocking none (some .closed) := by
  intro ops s
  obtain ⟨-, -, -, htold, -, hclosed⟩ := results_of_senders ops
  obtain ⟨hnobody, -, hthread⟩ := hclosed rfl
  exact ⟨rfl, (htold 4 (by decide) (by decide)).2.mpr ⟨rfl, by decide⟩, hnobody, hthread rfl 17 true⟩

end Steward.Link.Session

import Steward.Link.Session
import Steward.Proofs.Link.Daybook

/-!
# Proofs/Link/Session — the books of a session

A session keeps books as its link does: `daybook` are the books that the operations fill, one `entry`
for each.  A session is in `Order` with its books when the books tally with the link, senders are
numbered as they come and each has a handle of its own, and nobody stands in line before a free slot.

* `Order.sendOne`, `.takeOne`, `.close`, `.cancel`, … — each part of an operation keeps the order.
* `Order.step`, `Order.after` — so does every operation, and every list of operations.
-/

namespace Steward.Link

variable {α : Type}

/-- Handles are given up one by one. -/
theorem foldl_dropOffer (l : Link α) (tickets : List Nat) :
    tickets.foldl (fun l _ => l.dropOffer) l = { l with offers := l.offers - tickets.length } := by
  induction tickets generalizing l with
  | nil => rfl
  | cons t rest ih =>
    rw [List.foldl_cons, ih, List.length_cons]
    simp [dropOffer, Nat.sub_sub, Nat.add_comm]

/-- A handle more does not matter to a sender that comes. -/
theorem send_cloneOffer (l : Link α) (p : Parcel α) :
    l.cloneOffer.send p = { l.send p with offers := l.offers + 1 } := by
  have hstart : l.cloneOffer.start = l.start := rfl
  unfold send
  rw [hstart]
  cases l.start <;> rfl

/-- Nobody is left before a slot that somebody could enter. -/
theorem line_of_enter {l : Link α} (h : l.enter.slot = none) : l.enter.line = [] := by
  cases hslot : l.slot with
  | some p => simp [enter, hslot] at h
  | none =>
    cases hline : l.line with
    | nil => simp [enter, hslot, hline]
    | cons p rest => simp [enter, hslot, hline] at h

/-- Nobody is left in line before a free slot by a sender that comes. -/
theorem line_of_send {l : Link α} (hrest : l.slot = none → l.line = []) (p : Parcel α)
    (h : (l.send p).slot = none) : (l.send p).line = [] := by
  unfold send start at h ⊢
  cases hclosed : l.closed with
  | true => simp_all
  | false =>
    cases hslot : l.slot <;> simp_all

namespace Session

variable {s : Session α} {k : Daybook α}

/-! ## What the answers say -/

/-- What the receiver got, by an answer. -/
def Answer.item? : Answer α → Option α
  | .got item => some item
  | .blocking item? _ => item?
  | _ => none

/-- What the receiver got along operations, in order. -/
def received (s : Session α) (ops : List (Op α)) : List α :=
  (s.run ops).filterMap (·.1.item?)

/-- The senders that are done along operations, with their results. -/
def results (s : Session α) : List (Op α) → Done
  | [] => []
  | op :: ops => (s.step op).2.2 ++ (s.step op).1.results ops

/-- The link is closed, or its receiving end dropped. -/
def Op.closes : Op α → Bool
  | .close | .dropTake => true
  | _ => false

/-- The sending end is dropped. -/
def Op.dropsOffer : Op α → Bool
  | .dropOffer => true
  | _ => false

/-! ## The books of a session -/

/-- The entry for a receiver that takes what is in the slot. -/
def receiving (s : Session α) : Daybook α where
  taken := (s.link.slot.map (·.toParcel)).toList
  done := s.takeOne.2.2

/-- The entry for a sender that starts. -/
def starting (s : Session α) (item : α) : Daybook α where
  came := [⟨s.started, item⟩]
  done := (s.sendOne item).2

/-- What is entered in the books for an operation: whom it starts, what the receiver takes, who is done
and who is withdrawn. -/
def entry (s : Session α) : Op α → Daybook α
  | .send items =>
    if s.offering then
      { came := (items.zipIdx s.started).map fun (a, t) => ⟨t, a⟩, done := (s.sendAll items).2 }
    else ∅
  | .take => if s.taking then s.receiving else ∅
  | .cancel number =>
    match s.tasks[number]? with
    | some ticket => s.link.withdrawal ticket
    | none => ∅
  | .close | .dropTake => if s.taking then s.link.closure else ∅
  | .sendBlocking item taking =>
    if s.offering then
      s.starting item ++ if taking && s.taking then (s.sendOne item).1.receiving else ∅
    else ∅
  | .dropOffer | .isClosed => ∅

/-- The books of a session along operations. -/
def daybook (s : Session α) : List (Op α) → Daybook α
  | [] => ∅
  | op :: ops => s.entry op ++ (s.step op).1.daybook ops

/-! ## The parts of an operation -/

/-- Who is finished gives up its handle and is told its result. -/
theorem finish_eq (s : Session α) (tickets : List Nat) (r : SendResult) :
    s.finish tickets r = ({ s with link := { s.link with
      offers := s.link.offers - tickets.length } }, tickets.map (·, r)) := by
  rw [finish, foldl_dropOffer]

theorem sendOne_open (h : s.link.closed = false) (item : α) :
    s.sendOne item = ({ s with
      link := s.link.cloneOffer.send ⟨s.started, item⟩, started := s.started + 1 }, []) := by
  simp [sendOne, h]

theorem sendOne_closed (h : s.link.Shut) (item : α) :
    s.sendOne item = ({ s with started := s.started + 1 }, [(s.started, .closed)]) := by
  rw [sendOne, if_pos h.closed, finish_eq, h.cloneOffer.send]
  rfl

theorem started_sendOne (s : Session α) (item : α) : (s.sendOne item).1.started = s.started + 1 := by
  unfold sendOne
  split <;> rfl

theorem takeOne_none (hp : s.link.slot = none) : s.takeOne = (s, none, []) := by
  simp only [takeOne, hp]

/-- Nothing is entered for a receiver that finds nothing. -/
theorem receiving_none (hp : s.link.slot = none) : s.receiving = ∅ := by
  rw [receiving, takeOne_none hp, hp]
  rfl

theorem takeOne_some {p : Placed α} (hp : s.link.slot = some p) :
    s.takeOne = ({ s with link := { s.link.take with
      offers := s.link.offers - s.link.waiting?.toList.length }.enter }, some p.item,
      p.receipt.done) := by
  have hdone : s.link.waiting?.toList.map (·, SendResult.taken) = p.receipt.done := by
    cases hawaited : p.awaited <;> simp [Placed.receipt, waiting?, hp, hawaited]
  simp only [takeOne, hp, finish_eq, hdone]
  rfl

theorem close_eq (s : Session α) : s.close = ({ s with link := { s.link.close with
    offers := s.link.offers - s.link.unfinished.length } }, s.link.closure.done) := by
  rw [close, finish_eq]
  rfl

/-- To look for an item once is to take it, if there is one. -/
theorem step_take (htaking : s.taking = true) :
    (s.step .take).1 = s.takeOne.1 ∧ (s.step .take).2.1.item? = s.takeOne.2.1 ∧
      (s.step .take).2.2 = s.takeOne.2.2 := by
  cases hp : s.link.slot with
  | some p =>
    have hpoll : s.link.poll = .item p := by rw [poll, hp]
    rw [step, if_pos htaking, hpoll, takeOne_some hp]
    exact ⟨rfl, rfl, rfl⟩
  | none =>
    rw [step, if_pos htaking, takeOne_none hp, poll, hp]
    cases s.link.closed || s.link.offers == 0 <;> exact ⟨rfl, rfl, rfl⟩

@[simp] theorem closed_close (s : Session α) : s.close.1.link.closed = true := by
  rw [close_eq]
  rfl

/-! ## Order -/

/-- **A session and its books are in order.** -/
structure Order (k : Daybook α) (s : Session α) : Prop where
  tallies : k.Tallies s.link
  /-- Senders are numbered as they come. -/
  tickets : k.tickets = List.range s.started
  /-- Nobody stands in line before a free slot. -/
  rest : s.link.slot = none → s.link.line = []
  /-- Each sender under way has a handle of its own. -/
  handles : s.link.offers = (if s.offering then 1 else 0) + s.link.unfinished.length
  /-- A link without a receiving end is closed. -/
  deaf : s.taking = false → s.link.closed = true

theorem order_fresh : Order ∅ (fresh : Session α) where
  tallies := Daybook.tallies_blank rfl rfl rfl
  tickets := rfl
  rest _ := rfl
  handles := rfl
  deaf := nofun

namespace Order

/-- The next sender is new. -/
theorem new (h : Order k s) : s.started ∉ k.tickets := by
  rw [h.tickets]
  exact List.not_mem_range_self

/-- Tasks are numbered beside the books. -/
theorem tasks (h : Order k s) (tickets : List Nat) : Order k { s with tasks := tickets } :=
  ⟨h.tallies, h.tickets, h.rest, h.handles, h.deaf⟩

/-- One sender starts. -/
theorem sendOne (h : Order k s) (item : α) :
    Order (k ++ s.starting item) (s.sendOne item).1 := by
  have htickets : k.tickets ++ [s.started] = List.range (s.started + 1) := by
    rw [h.tickets, List.range_succ]
  have hcomes := h.tallies.comes (p := ⟨s.started, item⟩) h.new
  rw [Link.arrival] at hcomes
  rw [starting]
  cases hclosed : s.link.closed with
  | true =>
    have hshut := h.tallies.shut hclosed
    rw [hshut.send, hclosed] at hcomes
    rw [sendOne_closed hshut]
    exact ⟨hcomes, (Daybook.tickets_append _ _).trans htickets, h.rest, h.handles, h.deaf⟩
  | false =>
    rw [hclosed] at hcomes
    rw [sendOne_open hclosed, send_cloneOffer]
    refine ⟨hcomes.congr rfl rfl rfl, (Daybook.tickets_append _ _).trans htickets,
      line_of_send h.rest _, ?_, fun hdeaf => ?_⟩
    · have hunder : (s.link.send ⟨s.started, item⟩).unfinished.length =
          s.link.unfinished.length + 1 := by
        have hperm := (s.link.unfinished_send ⟨s.started, item⟩).length_eq
        rwa [hclosed, List.length_append] at hperm
      change s.link.offers + 1 = _ + (s.link.send ⟨s.started, item⟩).unfinished.length
      rw [hunder, h.handles, Nat.add_assoc]
    · exact absurd ((h.deaf hdeaf).symm.trans hclosed) (by decide)

/-- Tasks start one after the other. -/
theorem sendAll (h : Order k s) (items : List α) :
    Order (k ++ { came := (items.zipIdx s.started).map fun (a, t) => ⟨t, a⟩,
                  done := (s.sendAll items).2 }) (s.sendAll items).1 := by
  induction items generalizing k s with
  | nil => exact (Daybook.append_blank k).symm ▸ h
  | cons a rest ih =>
    have hall := ih ((h.sendOne a).tasks ((s.sendOne a).1.tasks ++ [s.started]))
    rw [Daybook.append_assoc] at hall
    rw [List.zipIdx_cons, ← s.started_sendOne a]
    exact hall

/-- The item in the slot is taken, if there is one. -/
theorem takeOne (h : Order k s) : Order (k ++ s.receiving) s.takeOne.1 := by
  cases hp : s.link.slot with
  | none =>
    rw [receiving_none hp, takeOne_none hp]
    exact (Daybook.append_blank k).symm ▸ h
  | some p =>
    have htickets : (k ++ p.receipt).tickets = k.tickets := Daybook.tickets_append_of_nil rfl
    have htallies : (k ++ p.receipt).Tallies { s.link.take with
        offers := s.link.offers - s.link.waiting?.toList.length } :=
      (h.tallies.takes hp).congr rfl rfl rfl
    rw [receiving, takeOne_some hp, hp]
    refine ⟨htallies.enter, htickets.trans h.tickets, line_of_enter, ?_, fun hdeaf => ?_⟩
    · have hbefore : s.link.unfinished.length =
          s.link.line.length + s.link.waiting?.toList.length := by simp [unfinished]
      have hafter := (unfinished_enter { s.link.take with
        offers := s.link.offers - s.link.waiting?.toList.length }).length_eq
      have hline : ({ s.link.take with offers := s.link.offers -
          s.link.waiting?.toList.length } : Link α).unfinished.length = s.link.line.length := by
        simp [unfinished, waiting?, Link.take]
      have hhandles := h.handles
      dsimp only
      rw [offers_enter, hafter, hline]
      dsimp only
      omega
    · exact (closed_enter _).trans (h.deaf hdeaf)

/-- The link is closed. -/
theorem close (h : Order k s) : Order (k ++ s.link.closure) s.close.1 := by
  have htickets : (k ++ s.link.closure).tickets = k.tickets := Daybook.tickets_append_of_nil rfl
  rw [close_eq]
  refine ⟨h.tallies.closes.congr rfl rfl rfl, htickets.trans h.tickets, fun _ => rfl, ?_, fun _ => rfl⟩
  change s.link.offers - s.link.unfinished.length = _ + 0
  rw [h.handles, Nat.add_sub_cancel, Nat.add_zero]

/-- A sender is withdrawn, if it is under way. -/
theorem cancel (h : Order k s) (t : Nat) : Order (k ++ s.link.withdrawal t) (s.cancel t) := by
  have htickets : (k ++ s.link.withdrawal t).tickets = k.tickets :=
    Daybook.tickets_append_of_nil rfl
  have hcancel := h.tallies.cancel t
  unfold Session.cancel
  split
  · rename_i hunder
    have hdropped : (k ++ s.link.withdrawal t).Tallies (s.link.cancel t).dropOffer :=
      hcancel.congr rfl rfl rfl
    refine ⟨hdropped.enter, htickets.trans h.tickets, line_of_enter, ?_, fun hdeaf => ?_⟩
    · have hgone : (s.link.cancel t).unfinished.length = s.link.unfinished.length - 1 := by
        have hnodup : s.link.unfinished.Nodup :=
          h.tallies.roster_nodup.of_append_left.of_append_right
        rw [unfinished_cancel, ← List.length_erase_of_mem hunder, hnodup.erase_eq_filter]
        exact congrArg List.length (List.filter_congr fun _ _ => by simp [bne, beq_eq_decide])
      have hafter := (unfinished_enter (s.link.cancel t).dropOffer).length_eq
      have hsome := List.length_pos_of_mem hunder
      have hhandles := h.handles
      change (s.link.cancel t).dropOffer.enter.offers = (if s.offering then 1 else 0) +
        (s.link.cancel t).dropOffer.enter.unfinished.length
      rw [offers_enter, hafter]
      change s.link.offers - 1 = _ + (s.link.cancel t).unfinished.length
      rw [hgone]
      omega
    · exact (closed_enter _).trans (h.deaf hdeaf)
  · rename_i hunder
    rw [unfinished, List.mem_append, not_or, Option.mem_toList] at hunder
    rw [cancel_nobody hunder.1 hunder.2] at hcancel
    exact ⟨hcancel, htickets.trans h.tickets, h.rest, h.handles, h.deaf⟩

/-- The receiving end is dropped when the link was closed. -/
theorem dropTake (h : Order k s) (hclosed : s.link.closed = true) :
    Order k { s with taking := false } :=
  ⟨h.tallies, h.tickets, h.rest, h.handles, fun _ => hclosed⟩

/-- The sending end is dropped; senders under way have handles of their own. -/
theorem dropOffer (h : Order k s) (hoff : s.offering = true) :
    Order k { s with link := s.link.dropOffer, offering := false } := by
  refine ⟨h.tallies.congr rfl rfl rfl, h.tickets, h.rest, ?_, h.deaf⟩
  have hhandles := h.handles
  rw [hoff] at hhandles
  change s.link.offers - 1 = 0 + s.link.unfinished.length
  simp only [if_true] at hhandles
  omega

/-- **Every operation keeps a session and its books in order.** -/
theorem step (h : Order k s) (op : Op α) : Order (k ++ s.entry op) (s.step op).1 := by
  have hblank : Order (k ++ ∅) s := (Daybook.append_blank k).symm ▸ h
  cases op with
  | isClosed => exact hblank
  | send items =>
    by_cases hoff : s.offering
    · rw [entry, Session.step, if_pos hoff, if_pos hoff]
      exact h.sendAll items
    · rw [entry, Session.step, if_neg hoff, if_neg hoff]
      exact hblank
  | take =>
    by_cases htaking : s.taking
    · rw [entry, if_pos htaking, (step_take htaking).1]
      exact h.takeOne
    · rw [entry, Session.step, if_neg htaking, if_neg htaking]
      exact hblank
  | cancel number =>
    cases hnumber : s.tasks[number]? with
    | some t =>
      simp only [entry, Session.step, hnumber]
      exact h.cancel t
    | none =>
      simp only [entry, Session.step, hnumber]
      exact hblank
  | close =>
    by_cases htaking : s.taking
    · rw [entry, Session.step, if_pos htaking, if_pos htaking]
      exact h.close
    · rw [entry, Session.step, if_neg htaking, if_neg htaking]
      exact hblank
  | dropTake =>
    by_cases htaking : s.taking
    · rw [entry, Session.step, if_pos htaking, if_pos htaking]
      exact h.close.dropTake s.closed_close
    · rw [entry, Session.step, if_neg htaking, if_neg htaking]
      exact hblank
  | dropOffer =>
    by_cases hoff : s.offering
    · rw [Session.step, if_pos hoff]
      exact hblank.dropOffer hoff
    · rw [Session.step, if_neg hoff]
      exact hblank
  | sendBlocking item taking =>
    by_cases hoff : s.offering
    · rw [entry, Session.step, if_pos hoff, if_pos hoff, ← Daybook.append_assoc]
      cases taking && s.taking with
      | true => exact (h.sendOne item).takeOne
      | false => exact (Daybook.append_blank _).symm ▸ h.sendOne item
    · rw [entry, Session.step, if_neg hoff, if_neg hoff]
      exact hblank

/-- **A session and its books are in order after all operations.** -/
theorem after (h : Order k s) (ops : List (Op α)) : Order (k ++ s.daybook ops) (s.after ops) := by
  induction ops generalizing k s with
  | nil => exact (Daybook.append_blank k).symm ▸ h
  | cons op ops ih =>
    rw [daybook, ← Daybook.append_assoc]
    exact ih (h.step op)

end Order

theorem order_after (ops : List (Op α)) :
    Order ((fresh : Session α).daybook ops) ((fresh : Session α).after ops) := order_fresh.after ops

end Session

end Steward.Link

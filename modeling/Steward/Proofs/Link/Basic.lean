import Steward.Link.Basic

/-!
# Proofs/Link/Basic — what is on a link, and who is under way

* `items` are what is on a link, in the order in which it will be taken: a sender that comes adds one at
  the end (`items_send`), and nothing else but a take, a close or a withdrawal changes them
  (`Stirs.items`).
* `unfinished_send`, `Stirs.unfinished` — in the same way for the senders under way.
* `Manned` — an open link on which nobody under way has lost the last handle.
* `Undergoes` — what may happen to a link from outside; it keeps a link manned, shut or without a handle.
* `Shut` — a link that was closed has nothing on it, and nobody comes to it any more.
-/

namespace Steward

/-- Nobody can send on this link any more, and nobody is still at it. -/
structure Link.Shut {α : Type} (l : Link α) : Prop where
  closed : l.closed = true
  slot : l.slot = none
  line : l.line = []

namespace Link

variable {α : Type} {l : Link α}

/-! ## A shut link -/

theorem shut_close (l : Link α) : l.close.Shut := ⟨rfl, rfl, rfl⟩

/-- Who comes to a shut link is refused. -/
theorem Shut.start (h : l.Shut) : l.start = .refused := by
  rw [Link.start, h.closed]
  rfl

theorem Shut.send (h : l.Shut) (p : Parcel α) : l.send p = l := by
  rw [Link.send, h.start]

theorem Shut.lineUp (h : l.Shut) (p : Parcel α) : l.lineUp p = l := by
  rw [Link.lineUp, h.closed]
  rfl

theorem Shut.enter (h : l.Shut) : l.enter = l := by
  simp only [Link.enter, h.slot, h.line]

theorem Shut.cancel (h : l.Shut) (ticket : Nat) : (l.cancel ticket).Shut :=
  ⟨h.closed, by simp [Link.cancel, h.slot], by simp [Link.cancel, h.line]⟩

theorem Shut.cloneOffer (h : l.Shut) : l.cloneOffer.Shut := ⟨h.closed, h.slot, h.line⟩

theorem Shut.dropOffer (h : l.Shut) : l.dropOffer.Shut := ⟨h.closed, h.slot, h.line⟩

/-- Nobody waits at a shut link. -/
theorem Shut.unfinished (h : l.Shut) : l.unfinished = [] := by
  simp [Link.unfinished, waiting?, h.slot, h.line]

/-! ## What is on a link -/

/-- The items on a link: the one in the slot, then those in line. -/
def items (l : Link α) : List α := (l.slot.map (·.item)).toList ++ l.line.map (·.item)

/-- Who comes to a link that is open brings one more item. -/
theorem items_send (l : Link α) (p : Parcel α) :
    (l.send p).items = l.items ++ if l.closed then [] else [p.item] := by
  cases hclosed : l.closed with
  | true => simp [send, start, hclosed]
  | false =>
    cases hfree : l.slot.isNone && l.line.isEmpty with
    | true =>
      obtain ⟨hslot, hline⟩ : l.slot = none ∧ l.line = [] := by simpa using hfree
      simp [send, start, hclosed, items, hslot, hline]
    | false => simp [send, start, hclosed, hfree, items]

/-- An item that goes from the line into the slot stays on the link. -/
theorem items_enter (l : Link α) : l.enter.items = l.items := by
  unfold enter
  split
  · simp [items, *]
  · rfl

/-! ## Who is under way -/

/-- Who comes to an open link is under way. -/
theorem unfinished_send (l : Link α) (p : Parcel α) :
    (l.send p).unfinished.Perm (l.unfinished ++ if l.closed then [] else [p.ticket]) := by
  cases hclosed : l.closed with
  | true => simp [send, start, hclosed]
  | false =>
    cases hfree : l.slot.isNone && l.line.isEmpty with
    | true =>
      obtain ⟨hslot, hline⟩ : l.slot = none ∧ l.line = [] := by simpa using hfree
      simp [send, start, hclosed, unfinished, waiting?, hslot, hline]
    | false =>
      simp only [send, start, hclosed, hfree, unfinished, waiting?, Bool.false_eq_true, if_false,
        List.map_append, List.append_assoc]
      exact List.perm_append_comm.append_left _

/-- Who goes from the line into the slot is under way as before. -/
theorem unfinished_enter (l : Link α) : l.enter.unfinished.Perm l.unfinished := by
  unfold enter
  split
  · rename_i p rest hslot hline
    simp only [unfinished, waiting?, hslot, hline, if_true, Option.toList_some, Option.toList_none,
      List.map_cons, List.append_nil]
    exact List.perm_append_singleton _ _
  · exact .refl _

/-- Who is withdrawn is not under way any more. -/
theorem unfinished_cancel (l : Link α) (t : Nat) :
    (l.cancel t).unfinished = l.unfinished.filter (· ≠ t) := by
  have hline : (l.cancel t).line.map (·.ticket) = (l.line.map (·.ticket)).filter (· ≠ t) := by
    rw [cancel, List.filter_map]
    rfl
  have hwaiting : (l.cancel t).waiting?.toList = l.waiting?.toList.filter (· ≠ t) := by
    cases hslot : l.slot with
    | none => simp [waiting?, cancel, hslot]
    | some p =>
      by_cases ht : p.ticket = t
      · cases hawaited : p.awaited <;> simp [waiting?, cancel, hslot, ht, hawaited]
      · cases hawaited : p.awaited <;> simp [waiting?, cancel, hslot, ht, hawaited]
  rw [unfinished, hline, hwaiting, unfinished, List.filter_append]

/-! ## Handles -/

@[simp] theorem closed_send (l : Link α) (p : Parcel α) : (l.send p).closed = l.closed := by
  unfold send
  split <;> rfl

@[simp] theorem offers_enter (l : Link α) : l.enter.offers = l.offers := by
  unfold enter
  split <;> rfl

@[simp] theorem closed_enter (l : Link α) : l.enter.closed = l.closed := by
  unfold enter
  split <;> rfl

@[simp] theorem closed_lineUp (l : Link α) (p : Parcel α) : (l.lineUp p).closed = l.closed := by
  unfold lineUp
  split <;> rfl

@[simp] theorem offers_send (l : Link α) (p : Parcel α) : (l.send p).offers = l.offers := by
  unfold send
  split <;> rfl

@[simp] theorem offers_lineUp (l : Link α) (p : Parcel α) : (l.lineUp p).offers = l.offers := by
  unfold lineUp
  split <;> rfl

/-- The link is open, and nobody under way has lost the last handle. -/
structure Manned (l : Link α) : Prop where
  isOpen : l.closed = false
  handles : l.offers = 0 → l.unfinished = []

namespace Manned

/-- Who comes has a handle. -/
theorem send (h : l.Manned) (hoffers : l.offers ≠ 0) (p : Parcel α) : (l.send p).Manned :=
  ⟨(l.closed_send p).trans h.isOpen, fun hnone => absurd ((l.offers_send p).symm.trans hnone) hoffers⟩

theorem lineUp (h : l.Manned) (hoffers : l.offers ≠ 0) (p : Parcel α) : (l.lineUp p).Manned :=
  ⟨(l.closed_lineUp p).trans h.isOpen, fun hnone => absurd ((l.offers_lineUp p).symm.trans hnone) hoffers⟩

theorem enter (h : l.Manned) : l.enter.Manned where
  isOpen := l.closed_enter.trans h.isOpen
  handles hnone := by
    have hnobody := h.handles (l.offers_enter.symm.trans hnone)
    exact List.perm_nil.mp (hnobody ▸ l.unfinished_enter)

theorem cancel (h : l.Manned) (ticket : Nat) : (l.cancel ticket).Manned where
  isOpen := h.isOpen
  handles hnone := by
    rw [unfinished_cancel, h.handles hnone]
    rfl

theorem take (h : l.Manned) : l.take.Manned where
  isOpen := h.isOpen
  handles hnone := by
    have hnobody := h.handles hnone
    rw [unfinished, List.append_eq_nil_iff] at hnobody
    rw [unfinished, List.append_eq_nil_iff]
    exact ⟨hnobody.1, rfl⟩

theorem cloneOffer (h : l.Manned) : l.cloneOffer.Manned := ⟨h.isOpen, nofun⟩

/-- Who gives up a handle leaves one to those under way. -/
theorem dropOffer (h : l.Manned) (hc : l.canDropOffer = true) : l.dropOffer.Manned where
  isOpen := h.isOpen
  handles hnone := by
    have hfree : 2 ≤ l.offers ∨ l.unfinished = [] := by simpa [canDropOffer] using hc
    change l.offers - 1 = 0 at hnone
    exact hfree.resolve_left (by omega)

/-- When nothing can come any more the link is as if nobody had ever had a handle. -/
theorem unconnected (h : l.Manned) (hp : l.poll = .ended) : l = .unconnected := by
  obtain ⟨slot, line, closed, offers⟩ := l
  obtain rfl : closed = false := h.isOpen
  cases slot with
  | some p => cases hp
  | none =>
    cases offers with
    | succ n => simp [poll] at hp
    | zero =>
      obtain rfl : line = [] := by simpa [unfinished, waiting?] using h.handles rfl
      rfl

end Manned

/-! ## What happens to a link from outside -/

/-- What may happen to a link from outside, and what is needed for it: only who has a handle comes or hands
one on, and who gives up a handle leaves one to those under way.  Nobody comes unless `comes` says so. -/
inductive Undergoes (l : Link α) (comes : Bool) : Link α → Prop where
  | still : Undergoes l comes l
  | send (hcomes : comes = true) (hc : l.offers ≠ 0) (p : Parcel α) : Undergoes l comes (l.send p)
  | lineUp (hcomes : comes = true) (hc : l.offers ≠ 0) (p : Parcel α) : Undergoes l comes (l.lineUp p)
  | enter : Undergoes l comes l.enter
  | cancel (ticket : Nat) : Undergoes l comes (l.cancel ticket)
  | cloneOffer (hc : l.offers ≠ 0) : Undergoes l comes l.cloneOffer
  | dropOffer (hc : l.canDropOffer = true) : Undergoes l comes l.dropOffer

namespace Undergoes

variable {l' : Link α} {comes : Bool}

/-- Who has no handle gets none. -/
theorem offers (h : l.Undergoes comes l') (hnone : l.offers = 0) : l'.offers = 0 := by
  cases h with
  | still | cancel => exact hnone
  | send | lineUp | enter => simpa using hnone
  | cloneOffer hc => exact absurd hnone hc
  | dropOffer => exact Nat.sub_eq_zero_of_le (hnone ▸ Nat.zero_le 1)

/-- A link that is manned stays so. -/
theorem manned (h : l.Undergoes comes l') (hm : l.Manned) : l'.Manned := by
  cases h with
  | still => exact hm
  | send _ hc p => exact hm.send hc p
  | lineUp _ hc p => exact hm.lineUp hc p
  | enter => exact hm.enter
  | cancel ticket => exact hm.cancel ticket
  | cloneOffer => exact hm.cloneOffer
  | dropOffer hc => exact hm.dropOffer hc

/-- A shut link stays shut. -/
theorem shut (h : l.Undergoes comes l') (hs : l.Shut) : l'.Shut := by
  cases h with
  | still => exact hs
  | send => rwa [hs.send]
  | lineUp => rwa [hs.lineUp]
  | enter => rwa [hs.enter]
  | cancel ticket => exact hs.cancel ticket
  | cloneOffer => exact hs.cloneOffer
  | dropOffer => exact hs.dropOffer

/-- Without a handle nothing happens to an empty link. -/
theorem unconnected (h : l.Undergoes comes l') (hl : l = .unconnected) : l' = .unconnected := by
  cases h with
  | still => exact hl
  | send _ hc | lineUp _ hc | cloneOffer hc => exact absurd (congrArg Link.offers hl) hc
  | enter | cancel | dropOffer =>
    rw [hl]
    rfl

end Undergoes

/-! ## While nobody comes -/

/-- What happens to a link to which nobody comes: nothing, the head of its line goes into the slot, or
there is one sending handle more or less. -/
inductive Stirs (l : Link α) : Link α → Prop where
  | still : Stirs l l
  | enter : Stirs l l.enter
  | cloneOffer : Stirs l l.cloneOffer
  | dropOffer : Stirs l l.dropOffer

/-- By that the items stay as they are. -/
theorem Stirs.items {l l' : Link α} (h : l.Stirs l') : l'.items = l.items := by
  cases h with
  | still | cloneOffer | dropOffer => rfl
  | enter => exact items_enter l

theorem Stirs.unfinished {l l' : Link α} (h : l.Stirs l') : l'.unfinished.Perm l.unfinished := by
  cases h with
  | still | cloneOffer | dropOffer => exact .refl _
  | enter => exact unfinished_enter l

/-- A shut link stays shut. -/
theorem Stirs.shut {l l' : Link α} (h : l.Stirs l') (hs : l.Shut) : l'.Shut := by
  cases h with
  | still => exact hs
  | enter => rwa [hs.enter]
  | cloneOffer => exact hs.cloneOffer
  | dropOffer => exact hs.dropOffer

end Link

end Steward

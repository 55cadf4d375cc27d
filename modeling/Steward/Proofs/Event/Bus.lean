import Steward.Event.Bus

/-!
# Proofs/Event/Bus — what a receiver finds on the ring

A bus `Holds` the events published on it when it counts them and keeps as many of the last as it has slots
for.  Publishing keeps this as long as somebody listens (`Holds.publish`), and a receiver that looks at the
bus finds the event at its position, has fallen behind the ring, or has read everything (`Holds.receive`).
-/

namespace Steward.Bus

variable {α : Type} {b : Bus α} {as : List α} {rx pos : Nat}

/-! ## The size of the ring -/

theorem isPowerOfTwo_ringSize (capacity : Nat) : (ringSize capacity).isPowerOfTwo := by
  unfold ringSize
  split
  · exact ⟨0, rfl⟩
  · exact ⟨_, Nat.one_shiftLeft _⟩

/-- **The ring is no larger than it must be**: a power of two that is large enough is at least as
large. -/
theorem ringSize_le_iff {capacity n : Nat} (hn : n.isPowerOfTwo) :
    ringSize capacity ≤ n ↔ max 1 capacity ≤ n := by
  have hpos : 0 < n := Nat.pos_of_isPowerOfTwo hn
  obtain ⟨k, rfl⟩ := hn
  unfold ringSize
  split
  · omega
  · rename_i hlarge
    have hlog : (capacity - 1).log2 < k ↔ capacity - 1 < 2 ^ k := Nat.log2_lt (by omega)
    rw [Nat.one_shiftLeft, Nat.pow_le_pow_iff_right (by decide), Nat.succ_le_iff, hlog]
    omega

/-- A ring has a slot. -/
theorem slots_ofCapacity (capacity : Nat) : 0 < (ofCapacity capacity : Bus α).slots :=
  Nat.pos_of_isPowerOfTwo (isPowerOfTwo_ringSize capacity)

/-! ## What it holds -/

/-- The bus counts these events, and keeps the last of them. -/
structure Holds (b : Bus α) (as : List α) : Prop where
  stored : b.stored = as.length
  kept : b.kept = lastOf b.slots as

theorem holds_ofCapacity (capacity : Nat) : (ofCapacity capacity : Bus α).Holds [] :=
  ⟨rfl, List.drop_nil.symm⟩

theorem Holds.subscribe (h : b.Holds as) : b.subscribe.1.Holds as := ⟨h.stored, h.kept⟩

theorem Holds.moveTo (h : b.Holds as) (rx pos : Nat) : (b.moveTo rx pos).Holds as :=
  ⟨h.stored, h.kept⟩

/-- The oldest event kept is the first of those there are slots for. -/
theorem Holds.oldest (h : b.Holds as) : b.oldest = as.length - b.slots := by
  rw [Bus.oldest, h.stored, h.kept, lastOf, List.length_drop]
  omega

/-! ## Publishing -/

/-- Who has a position listens. -/
theorem hasReceivers_of_position (h : b.position? rx = some pos) : b.hasReceivers = true := by
  have hmem : some pos ∈ b.receivers := List.mem_of_getElem? (Option.join_eq_some_iff.mp h)
  exact List.any_eq_true.mpr ⟨some pos, hmem, rfl⟩

/-- To keep the last of those kept is to keep the last of all. -/
theorem lastOf_append (n : Nat) (as : List α) (a : α) :
    lastOf n (lastOf n as ++ [a]) = lastOf n (as ++ [a]) := by
  have hle : as.length - n ≤ as.length := Nat.sub_le _ _
  rw [lastOf, lastOf, lastOf, ← List.drop_append_of_le_length hle, List.drop_drop, List.length_drop]
  congr 1
  simp only [List.length_append, List.length_singleton]
  omega

theorem Holds.publish (h : b.Holds as) (hlistens : b.hasReceivers = true) (a : α) :
    (b.publish a).Holds (as ++ [a]) := by
  rw [Bus.publish, if_pos hlistens]
  refine ⟨?_, ?_⟩
  · rw [List.length_append, ← h.stored]
    rfl
  · dsimp only
    rw [h.kept, lastOf_append]

@[simp] theorem receivers_publish (b : Bus α) (a : α) : (b.publish a).receivers = b.receivers := by
  unfold publish
  split <;> rfl

@[simp] theorem receivers_publishAll (b : Bus α) (as : List α) :
    (b.publishAll as).receivers = b.receivers := by
  induction as generalizing b with
  | nil => rfl
  | cons a as ih => exact (ih (b.publish a)).trans (b.receivers_publish a)

@[simp] theorem slots_publish (b : Bus α) (a : α) : (b.publish a).slots = b.slots := by
  unfold publish
  split <;> rfl

@[simp] theorem slots_publishAll (b : Bus α) (as : List α) : (b.publishAll as).slots = b.slots := by
  induction as generalizing b with
  | nil => rfl
  | cons a as ih => exact (ih (b.publish a)).trans (b.slots_publish a)

theorem isOpen_publishAll (b : Bus α) (as : List α) : (b.publishAll as).isOpen = b.isOpen := by
  induction as generalizing b with
  | nil => rfl
  | cons a as ih =>
    refine (ih (b.publish a)).trans ?_
    unfold publish
    split <;> rfl

/-- To publish moves nobody. -/
theorem position?_publishAll (b : Bus α) (as : List α) (rx : Nat) :
    (b.publishAll as).position? rx = b.position? rx := by
  rw [position?, receivers_publishAll, position?]

theorem Holds.publishAll (h : b.Holds as) (hlistens : b.hasReceivers = true) (news : List α) :
    (b.publishAll news).Holds (as ++ news) := by
  induction news generalizing b as with
  | nil => exact (List.append_nil as).symm ▸ h
  | cons a news ih =>
    have hstill : (b.publish a).hasReceivers = true := by
      rw [hasReceivers, receivers_publish]
      exact hlistens
    rw [List.append_cons]
    exact ih (h.publish hlistens a) hstill

/-! ## Receiving -/

theorem position?_subscribe (b : Bus α) : b.subscribe.1.position? b.subscribe.2 = some b.stored := by
  simp [subscribe, position?]

theorem position?_moveTo (h : b.position? rx = some pos) (pos' : Nat) :
    (b.moveTo rx pos').position? rx = some pos' := by
  obtain ⟨hlt, -⟩ := List.getElem?_eq_some_iff.mp (Option.join_eq_some_iff.mp h)
  simp [moveTo, position?, hlt]

/-- The event at the position of a receiver, if it is still kept. -/
theorem Holds.receive_event (h : b.Holds as) (hposition : b.position? rx = some pos) {a : α}
    (hnext : as[pos]? = some a) (hkept : as.length ≤ pos + b.slots) :
    b.receive rx = (b.moveTo rx (pos + 1), some (.event a)) := by
  have hthere : ¬ pos < as.length - b.slots := by omega
  have hget : (lastOf b.slots as)[pos - (as.length - b.slots)]? = some a := by
    rw [lastOf, List.getElem?_drop, ← hnext]
    congr 1
    omega
  simp only [Bus.receive, hposition, next, h.oldest, h.kept, if_neg hthere, hget]

/-- **What a receiver finds**: the event at its position, the number of those it has missed, or nothing
when it has read everything. -/
theorem Holds.receive (h : b.Holds as) (hposition : b.position? rx = some pos)
    (hpos : pos ≤ as.length) :
    (∃ a, b.receive rx = (b.moveTo rx (pos + 1), some (.event a)) ∧ as[pos]? = some a ∧
      as.length ≤ pos + b.slots) ∨
    (∃ n, b.receive rx = (b.moveTo rx (pos + n), some (.lagged n)) ∧ pos + b.slots < as.length ∧
      pos + n = as.length - b.slots) ∨
    (b.receive rx = (b.moveTo rx pos, some (if b.isOpen then .empty else .closed)) ∧
      pos = as.length) := by
  by_cases hbehind : pos + b.slots < as.length
  · have hlost : pos < as.length - b.slots := by omega
    have hsum : pos + (as.length - b.slots - pos) = as.length - b.slots := by omega
    refine .inr (.inl ⟨as.length - b.slots - pos, ?_, hbehind, hsum⟩)
    simp only [Bus.receive, hposition, next, h.oldest, if_pos hlost, hsum]
  · cases hnext : as[pos]? with
    | some a =>
      exact .inl ⟨a, h.receive_event hposition hnext (by omega), rfl, by omega⟩
    | none =>
      have hall : pos = as.length := Nat.le_antisymm hpos (List.getElem?_eq_none_iff.mp hnext)
      have hthere : ¬ pos < as.length - b.slots := by omega
      have hget : (lastOf b.slots as)[pos - (as.length - b.slots)]? = none := by
        rw [lastOf, List.getElem?_drop, List.getElem?_eq_none_iff]
        omega
      refine .inr (.inr ⟨?_, hall⟩)
      simp only [Bus.receive, hposition, next, h.oldest, h.kept, if_neg hthere, hget]

/-- There is something to read until everything was read. -/
theorem Holds.isEmpty_unread (h : b.Holds as) (hposition : b.position? rx = some pos)
    (hpos : pos ≤ as.length) : (b.unread rx).isEmpty = true ↔ pos = as.length := by
  simp only [unread, hposition, h.oldest, h.kept, lastOf]
  split
  · rename_i hbehind
    simp only [List.cons_append, List.isEmpty_cons, Bool.false_eq_true, false_iff]
    omega
  · rename_i hthere
    simp only [List.nil_append, List.isEmpty_iff, List.map_eq_nil_iff, List.drop_drop,
      List.drop_eq_nil_iff]
    omega

end Steward.Bus

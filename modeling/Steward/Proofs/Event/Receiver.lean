import Steward.Proofs.Event.Bus

/-!
# Proofs/Event/Receiver — what one receiver gets of all that is published

A bus has many receivers and counts all events ever stored.  What one receiver gets is a matter of far
less: the events published since it subscribed, how many of them it is past, and whether more may come
(`Listener`).  A bus bears this account out (`Bears`), each operation keeps it, and the account does not
mention the other receivers or what was published before.

* `Bears.receive` — what a receiver gets is read off its account.
* `results_of_bears` — so are all results along any operations.
* `Listener.results_own` — an account goes by the operations that concern its receiver.
* `Listener.leads_results` — the results lead through what is published.
* `receiver_loses_only_the_oldest` — what a receiver gets after any history, in whatever company.
-/

namespace Steward

namespace Bus

variable {α : Type} {b : Bus α} {rx : Nat}

/-! ## What a receiver gets along a history -/

/-- The bus after some operations. -/
def after (b : Bus α) (ops : List (Op α)) : Bus α := ops.foldl (fun b op => (b.step op).1) b

@[simp] theorem after_nil (b : Bus α) : b.after [] = b := rfl

@[simp] theorem after_cons (b : Bus α) (op : Op α) (ops : List (Op α)) :
    b.after (op :: ops) = (b.step op).1.after ops := rfl

theorem after_append (b : Bus α) (ops later : List (Op α)) :
    b.after (ops ++ later) = (b.after ops).after later := List.foldl_append

/-- What a receiver gets by an operation, if that is its own attempt to get something. -/
def got? (rx : Nat) : Op α → Answer α → Option (Received α)
  | .receive rx', .got r => if rx' = rx then some r else none
  | _, _ => none

theorem got?_other {rx' : Nat} (h : rx' ≠ rx) (answer : Answer α) :
    got? rx (.receive rx') answer = none := by
  cases answer with
  | got r => exact if_neg h
  | _ => rfl

/-- All that a receiver gets along some operations, in order. -/
def results (b : Bus α) (rx : Nat) (ops : List (Op α)) : List (Received α) :=
  (ops.zip (b.run ops)).filterMap fun t => got? rx t.1 t.2

theorem results_cons (b : Bus α) (rx : Nat) (op : Op α) (ops : List (Op α)) :
    b.results rx (op :: ops) = (got? rx op (b.step op).2).toList ++ (b.step op).1.results rx ops := by
  simp only [results, run, List.zip_cons_cons, List.filterMap_cons]
  cases got? rx op (b.step op).2 <;> rfl

/-- All that is published along some operations, that is until the bus is closed. -/
def published : List (Op α) → List α
  | [] => []
  | .publish as :: ops => as ++ published ops
  | .close :: _ => []
  | .subscribe :: ops | .receive _ :: ops | .unsubscribe _ :: ops => published ops

namespace Op

/-- The operation is that a receiver leaves. -/
def leaves (rx : Nat) : Op α → Bool
  | .unsubscribe rx' => rx' == rx
  | .subscribe | .publish _ | .receive _ | .close => false

theorem leaves_iff {rx : Nat} {op : Op α} : op.leaves rx = true ↔ op = .unsubscribe rx := by
  cases op <;> simp [leaves]

/-- The operation as a receiver sees it that is the only one; the others do nothing. -/
def own? (rx : Nat) : Op α → Option (Op α)
  | .publish as => some (.publish as)
  | .close => some .close
  | .receive rx' => if rx' = rx then some (.receive 0) else none
  | .unsubscribe rx' => if rx' = rx then some (.unsubscribe 0) else none
  | .subscribe => none

end Op

end Bus

/-! ## The account of one receiver -/

namespace Received

variable {α : Type}

/-- How many events a receiver is past with a result: one it was given, or those it has lost. -/
def passes : Received α → Nat
  | .event _ => 1
  | .lagged missed => missed
  | .empty | .closed => 0

/-- How many events a receiver is past with some results. -/
def passed : List (Received α) → Nat
  | [] => 0
  | r :: rs => r.passes + passed rs

theorem passed_append (rs rs' : List (Received α)) :
    passed (rs ++ rs') = passed rs + passed rs' := by
  induction rs with
  | nil => exact (Nat.zero_add _).symm
  | cons r rs ih => rw [List.cons_append, passed, passed, ih, Nat.add_assoc]

/-- The results lead through a list of events in order: each event is the next one, each loss skips as
many as it says and at least one, and nothing comes after the end. -/
inductive Leads : List (Received α) → List α → Prop
  | done (as) : Leads [] as
  | event {a rs as} : Leads rs as → Leads (.event a :: rs) (a :: as)
  | lagged {missed rs as} : 1 ≤ missed → missed ≤ as.length → Leads rs (as.drop missed) →
      Leads (.lagged missed :: rs) as
  | empty {rs as} : Leads rs as → Leads (.empty :: rs) as
  | closed {rs} : Leads rs [] → Leads (.closed :: rs) []

end Received

/-- What there is to know of one receiver. -/
structure Listener (α : Type) where
  /-- The events published since it subscribed. -/
  since : List α
  /-- How many of them it is past. -/
  past : Nat
  /-- More may come. -/
  isOpen : Bool
  within : past ≤ since.length

namespace Listener

open Bus (Op)

variable {α : Type} {l : Listener α} {slots rx : Nat}

/-- The account of a receiver that has just subscribed. -/
def fresh : Listener α := ⟨[], 0, true, Nat.le_refl 0⟩

/-- What the receiver gets next, on a ring of so many slots. -/
def next (l : Listener α) (slots : Nat) : Received α :=
  if l.past + slots < l.since.length then .lagged (l.since.length - slots - l.past)
  else
    match l.since[l.past]? with
    | some a => .event a
    | none => if l.isOpen then .empty else .closed

/-- **What the next result tells**: the event the receiver has come to, how many are lost of those
before the last that fit the ring, or that it is past everything. -/
theorem next_cases (l : Listener α) (slots : Nat) :
    (∃ a, l.next slots = .event a ∧ l.since.length ≤ l.past + slots ∧ l.since[l.past]? = some a) ∨
    (∃ missed, l.next slots = .lagged missed ∧ 1 ≤ missed ∧
      l.past + missed + slots = l.since.length) ∨
    (l.next slots = .empty ∧ l.past = l.since.length ∧ l.isOpen = true) ∨
    (l.next slots = .closed ∧ l.past = l.since.length ∧ l.isOpen = false) := by
  unfold next
  by_cases hbehind : l.past + slots < l.since.length
  · rw [if_pos hbehind]
    exact .inr (.inl ⟨_, rfl, by omega, by omega⟩)
  · rw [if_neg hbehind]
    cases hnext : l.since[l.past]? with
    | some a => exact .inl ⟨a, rfl, by omega, rfl⟩
    | none =>
      have hall : l.past = l.since.length :=
        Nat.le_antisymm l.within (List.getElem?_eq_none_iff.mp hnext)
      cases hopen : l.isOpen with
      | true => exact .inr (.inr (.inl ⟨rfl, hall, rfl⟩))
      | false => exact .inr (.inr (.inr ⟨rfl, hall, rfl⟩))

theorem next_event_iff {a : α} : l.next slots = .event a ↔
    l.since.length ≤ l.past + slots ∧ l.since[l.past]? = some a := by
  unfold next
  grind

theorem next_lagged_iff {missed : Nat} : l.next slots = .lagged missed ↔
    l.past + slots < l.since.length ∧ l.past + missed + slots = l.since.length := by
  unfold next
  grind

theorem next_empty_iff :
    l.next slots = .empty ↔ l.past = l.since.length ∧ l.isOpen = true := by
  have hwithin := l.within
  unfold next
  grind

theorem next_closed_iff :
    l.next slots = .closed ↔ l.past = l.since.length ∧ l.isOpen = false := by
  have hwithin := l.within
  unfold next
  grind

theorem within_next (l : Listener α) (slots : Nat) :
    l.past + (l.next slots).passes ≤ l.since.length := by
  obtain ⟨a, hnext, -, hget⟩ | ⟨missed, hnext, -, hsum⟩ | ⟨hnext, hall, -⟩ | ⟨hnext, hall, -⟩ :=
    l.next_cases slots
  · obtain ⟨hlt, -⟩ := List.getElem?_eq_some_iff.mp hget
    rw [hnext]
    exact hlt
  · rw [hnext, Received.passes]
    omega
  · rw [hnext, hall]
    exact Nat.le_refl _
  · rw [hnext, hall]
    exact Nat.le_refl _

/-- The account after the receiver has got its next result. -/
def read (l : Listener α) (slots : Nat) : Listener α where
  since := l.since
  past := l.past + (l.next slots).passes
  isOpen := l.isOpen
  within := l.within_next slots

/-- The account after more was published, of which nothing comes of a bus that is closed. -/
def hear (l : Listener α) (as : List α) : Listener α where
  since := l.since ++ if l.isOpen then as else []
  past := l.past
  isOpen := l.isOpen
  within := Nat.le_trans l.within (by simp)

/-- Nothing more will come. -/
def shut (l : Listener α) : Listener α := { l with isOpen := false }

/-- The account after an operation of anybody. -/
def act (slots rx : Nat) (l : Listener α) : Op α → Listener α
  | .publish as => l.hear as
  | .close => l.shut
  | .receive rx' => if rx' = rx then l.read slots else l
  | .subscribe | .unsubscribe _ => l

/-- What the receiver gets by an operation: its next result, if the operation is its attempt. -/
def gets (slots rx : Nat) (l : Listener α) : Op α → List (Received α)
  | .receive rx' => if rx' = rx then [l.next slots] else []
  | .publish _ | .close | .subscribe | .unsubscribe _ => []

/-- The account after some operations. -/
def after (slots rx : Nat) (l : Listener α) (ops : List (Op α)) : Listener α :=
  ops.foldl (act slots rx) l

/-- All that the receiver gets along some operations, until it leaves. -/
def results (slots rx : Nat) : Listener α → List (Op α) → List (Received α)
  | _, [] => []
  | l, op :: ops =>
    if op.leaves rx then [] else l.gets slots rx op ++ results slots rx (l.act slots rx op) ops

/-! ### The account alone -/

/-- An operation is to a receiver what its own part of it is to a receiver alone. -/
theorem own_act (slots rx : Nat) (l : Listener α) (op : Op α) :
    match op.own? rx with
    | some op' => op.leaves rx = op'.leaves 0 ∧ l.gets slots rx op = l.gets slots 0 op' ∧
        l.act slots rx op = l.act slots 0 op'
    | none => op.leaves rx = false ∧ l.gets slots rx op = [] ∧ l.act slots rx op = l := by
  cases op with
  | subscribe => exact ⟨rfl, rfl, rfl⟩
  | publish as => exact ⟨rfl, rfl, rfl⟩
  | close => exact ⟨rfl, rfl, rfl⟩
  | receive rx' => by_cases hown : rx' = rx <;> simp [Op.own?, Op.leaves, gets, act, hown]
  | unsubscribe rx' => by_cases hown : rx' = rx <;> simp [Op.own?, Op.leaves, gets, act, hown]

/-- **An account goes by what concerns its receiver**, as if it were the only one. -/
theorem results_own (slots rx : Nat) (l : Listener α) (ops : List (Op α)) :
    l.results slots rx ops = l.results slots 0 (ops.filterMap (Op.own? rx)) := by
  induction ops generalizing l with
  | nil => rfl
  | cons op ops ih =>
    have hown := l.own_act slots rx op
    rw [List.filterMap_cons, results]
    split at hown
    · rename_i op' hop
      obtain ⟨hleaves, hgets, hact⟩ := hown
      rw [hop, hleaves, hgets, hact, ih]
      rfl
    · rename_i hop
      obtain ⟨hleaves, hgets, hact⟩ := hown
      rw [hop, hleaves, hgets, hact, ih]
      rfl

/-! ### The account along a history -/

/-- What will have been published since the receiver subscribed, after some operations. -/
def told (l : Listener α) (ops : List (Op α)) : List α :=
  l.since ++ if l.isOpen then Bus.published ops else []

theorem told_fresh (ops : List (Op α)) : fresh.told ops = Bus.published ops := List.nil_append _

theorem told_cons (slots rx : Nat) (l : Listener α) (op : Op α) (ops : List (Op α)) :
    l.told (op :: ops) = (l.act slots rx op).told ops := by
  cases op with
  | subscribe => rfl
  | unsubscribe _ => rfl
  | close => simp [told, Bus.published, act, shut]
  | receive rx' => by_cases hown : rx' = rx <;> simp [told, Bus.published, act, read, hown]
  | publish as => cases hopen : l.isOpen <;> simp [told, Bus.published, act, hear, hopen]

/-- One more result leads from where the receiver is to where it is after that. -/
theorem leads_next (slots : Nat) (l : Listener α) {rs : List (Received α)} {ops : List (Op α)}
    (h : Received.Leads rs (((l.read slots).told ops).drop (l.read slots).past)) :
    Received.Leads (l.next slots :: rs) ((l.told ops).drop l.past) := by
  have htold : (l.read slots).told ops = l.told ops := rfl
  have hpast : (l.read slots).past = l.past + (l.next slots).passes := rfl
  rw [htold, hpast] at h
  obtain ⟨a, hnext, -, hget⟩ | ⟨missed, hnext, hlost, hsum⟩ | ⟨hnext, -, -⟩ | ⟨hnext, hall, hshut⟩ :=
    l.next_cases slots <;> rw [hnext] at h ⊢
  · obtain ⟨hlt, hat⟩ := List.getElem?_eq_some_iff.mp hget
    have hlt' : l.past < (l.told ops).length := by
      rw [told, List.length_append]
      omega
    have hat' : (l.told ops)[l.past] = a := by rw [← hat]; exact List.getElem_append_left hlt
    rw [List.drop_eq_getElem_cons hlt', hat']
    exact .event h
  · refine .lagged hlost ?_ ?_
    · rw [List.length_drop, told, List.length_append]
      omega
    · rw [List.drop_drop]
      exact h
  · exact .empty h
  · have hnone : (l.told ops).drop l.past = [] := by simp [told, hshut, hall]
    rw [Received.passes, Nat.add_zero, hnone] at h
    rw [hnone]
    exact .closed h

/-- **The results lead through what is published**, from where the receiver is. -/
theorem leads_results (slots rx : Nat) (l : Listener α) (ops : List (Op α)) :
    Received.Leads (l.results slots rx ops) ((l.told ops).drop l.past) := by
  induction ops generalizing l with
  | nil => exact .done _
  | cons op ops ih =>
    rw [results]
    split
    · exact .done _
    · have hrest := ih (l.act slots rx op)
      cases op with
      | receive rx' =>
        by_cases hown : rx' = rx
        · subst hown
          simp only [gets, act, if_true] at hrest ⊢
          exact l.leads_next slots hrest
        · simp only [gets, act, if_neg hown] at hrest ⊢
          exact hrest
      | publish as => rwa [← told_cons] at hrest
      | close => rwa [← told_cons] at hrest
      | subscribe => exact hrest
      | unsubscribe _ => exact hrest

/-- **Where a receiver is after some operations**: it was told of all that was published, and is past what
it got. -/
theorem since_after (slots rx : Nat) (l : Listener α) (ops : List (Op α)) :
    (l.after slots rx ops).since = l.told ops := by
  induction ops generalizing l with
  | nil => cases hopen : l.isOpen <;> simp [after, told, Bus.published]
  | cons op ops ih => exact (ih (l.act slots rx op)).trans (l.told_cons slots rx op ops).symm

theorem isOpen_after (slots rx : Nat) (l : Listener α) (ops : List (Op α)) :
    (l.after slots rx ops).isOpen = true ↔ l.isOpen = true ∧ .close ∉ ops := by
  induction ops generalizing l with
  | nil => simp [after]
  | cons op ops ih =>
    refine (ih (l.act slots rx op)).trans ?_
    cases op with
    | receive rx' => by_cases hown : rx' = rx <;> simp [act, read, hown]
    | publish as => simp [act, hear]
    | close => simp [act, shut]
    | subscribe => simp [act]
    | unsubscribe _ => simp [act]

/-- What others do, or that the bus is closed, leaves a receiver where it is. -/
theorem after_others (slots : Nat) (l : Listener α) {ops : List (Op α)}
    (hothers : ∀ op ∈ ops, op.own? rx = none ∨ op = .close) :
    (l.after slots rx ops).since = l.since ∧ (l.after slots rx ops).past = l.past := by
  induction ops generalizing l with
  | nil => exact ⟨rfl, rfl⟩
  | cons op ops ih =>
    obtain ⟨hop, hops⟩ := List.forall_mem_cons.mp hothers
    have hsame : (l.act slots rx op).since = l.since ∧ (l.act slots rx op).past = l.past := by
      obtain hnone | rfl := hop
      · have hown := l.own_act slots rx op
        rw [hnone] at hown
        rw [hown.2.2]
        exact ⟨rfl, rfl⟩
      · exact ⟨rfl, rfl⟩
    obtain ⟨hsince, hpast⟩ := ih (l.act slots rx op) hops
    exact ⟨hsince.trans hsame.1, hpast.trans hsame.2⟩

theorem past_act (slots rx : Nat) (l : Listener α) (op : Op α) :
    (l.act slots rx op).past = l.past + Received.passed (l.gets slots rx op) := by
  cases op with
  | receive rx' => by_cases hown : rx' = rx <;> simp [act, gets, read, hown, Received.passed]
  | _ => rfl

theorem past_after {ops : List (Op α)} (hstays : .unsubscribe rx ∉ ops) (slots : Nat)
    (l : Listener α) :
    (l.after slots rx ops).past = l.past + Received.passed (l.results slots rx ops) := by
  induction ops generalizing l with
  | nil => rfl
  | cons op ops ih =>
    rw [List.mem_cons, not_or] at hstays
    have hstill : ¬ op.leaves rx = true := fun hleaves => hstays.1 (Op.leaves_iff.mp hleaves).symm
    rw [results, if_neg hstill, Received.passed_append, ← Nat.add_assoc, ← past_act]
    exact ih hstays.2 (l.act slots rx op)

end Listener

/-! ## A bus and its receivers -/

namespace Bus

variable {α : Type} {b : Bus α} {rx : Nat} {l : Listener α}

/-- A bus bears out the account of a receiver: whatever it held before the receiver subscribed, it holds
what was published since, and has the receiver where the account has it. -/
structure Bears (b : Bus α) (rx : Nat) (l : Listener α) : Prop where
  holds : ∃ before, b.Holds (before ++ l.since) ∧ b.position? rx = some (before.length + l.past)
  isOpen : b.isOpen = l.isOpen

theorem step_publish (b : Bus α) (as : List α) :
    (b.step (.publish as)).1 = b.publishAll (if b.isOpen then as else []) := by
  cases hopen : b.isOpen <;> simp [step, hopen, publishAll]

/-- The bus after an operation has as many slots as before. -/
theorem slots_step (b : Bus α) (op : Op α) : (b.step op).1.slots = b.slots := by
  cases op with
  | subscribe =>
    rw [step]
    split <;> rfl
  | publish as => rw [step_publish, slots_publishAll]
  | receive rx =>
    simp only [step, receive]
    cases b.position? rx <;> rfl
  | unsubscribe rx => rfl
  | close => rfl

/-- Another receiver changes nothing. -/
theorem Bears.subscribe (h : b.Bears rx l) : (b.step .subscribe).1.Bears rx l := by
  by_cases hopen : b.isOpen = true
  · have hstep : b.step .subscribe = (b.subscribe.1, .receiver b.subscribe.2) := if_pos hopen
    obtain ⟨before, hholds, hposition⟩ := h.holds
    obtain ⟨hlt, -⟩ := List.getElem?_eq_some_iff.mp (Option.join_eq_some_iff.mp hposition)
    rw [hstep]
    refine ⟨⟨before, hholds.subscribe, ?_⟩, h.isOpen⟩
    rw [← hposition, position?, position?, Bus.subscribe, List.getElem?_append_left hlt]
  · have hstep : b.step .subscribe = (b, .noBus) := if_neg hopen
    rw [hstep]
    exact h

theorem Bears.close (h : b.Bears rx l) : b.close.Bears rx l.shut := by
  obtain ⟨before, hholds, hposition⟩ := h.holds
  exact ⟨⟨before, ⟨hholds.stored, hholds.kept⟩, hposition⟩, rfl⟩

theorem Bears.publish (h : b.Bears rx l) (as : List α) :
    (b.step (.publish as)).1.Bears rx (l.hear as) := by
  obtain ⟨before, hholds, hposition⟩ := h.holds
  rw [step_publish, h.isOpen]
  refine ⟨⟨before, ?_, ?_⟩, ?_⟩
  · have hnews : before ++ (l.hear as).since = (before ++ l.since) ++ if l.isOpen then as else [] :=
      (List.append_assoc _ _ _).symm
    rw [hnews]
    exact hholds.publishAll (hasReceivers_of_position hposition) _
  · exact (position?_publishAll b _ rx).trans hposition
  · exact (isOpen_publishAll b _).trans h.isOpen

/-- What another receiver does to its own place changes nothing. -/
theorem Bears.set {rx' : Nat} (h : b.Bears rx l) (hother : rx' ≠ rx) (place : Option Nat) :
    Bears { b with receivers := b.receivers.set rx' place } rx l := by
  obtain ⟨before, hholds, hposition⟩ := h.holds
  refine ⟨⟨before, ⟨hholds.stored, hholds.kept⟩, ?_⟩, h.isOpen⟩
  rw [← hposition, position?, position?, List.getElem?_set_ne hother]

theorem Bears.receive_other {rx' : Nat} (h : b.Bears rx l) (hother : rx' ≠ rx) :
    (b.step (.receive rx')).1.Bears rx l := by
  simp only [step, Bus.receive]
  cases b.position? rx' with
  | none => exact h
  | some pos => exact h.set hother _

/-- **What a receiver gets is read off its account**, and the bus bears out what is read. -/
theorem Bears.receive (h : b.Bears rx l) :
    (b.step (.receive rx)).2 = .got (l.next b.slots) ∧
      (b.step (.receive rx)).1.Bears rx (l.read b.slots) := by
  obtain ⟨before, hholds, hposition⟩ := h.holds
  have hreads (n : Nat) (hpasses : (l.next b.slots).passes = n) :
      (b.moveTo rx (before.length + l.past + n)).Bears rx (l.read b.slots) := by
    refine ⟨⟨before, hholds.moveTo _ _, ?_⟩, h.isOpen⟩
    rw [position?_moveTo hposition, Nat.add_assoc, ← hpasses]
    rfl
  have hlength : (before ++ l.since).length = before.length + l.since.length := List.length_append
  have hget : (before ++ l.since)[before.length + l.past]? = l.since[l.past]? := by
    rw [List.getElem?_append_right (by omega), Nat.add_sub_cancel_left]
  have hwithin := l.within
  rw [step]
  obtain ⟨a, hreceive, hat, hkept⟩ | ⟨missed, hreceive, hlost, hsum⟩ | ⟨hreceive, hall⟩ :=
    hholds.receive hposition (by omega) <;> rw [hreceive]
  · have hnext : l.next b.slots = .event a := by
      rw [Listener.next, if_neg (by omega), ← hget, hat]
    exact ⟨congrArg _ hnext.symm, hreads 1 (by rw [hnext, Received.passes])⟩
  · have hnext : l.next b.slots = .lagged missed := by
      rw [Listener.next, if_pos (by omega)]
      congr 1
      omega
    exact ⟨congrArg _ hnext.symm, hreads missed (by rw [hnext, Received.passes])⟩
  · have hnone : l.since[l.past]? = none := List.getElem?_eq_none (by omega)
    have hnext : l.next b.slots = if b.isOpen then .empty else .closed := by
      rw [Listener.next, if_neg (by omega), hnone, h.isOpen]
    exact ⟨congrArg _ hnext.symm, hreads 0 (by rw [hnext]; cases b.isOpen <;> rfl)⟩

/-- **Each operation keeps an account**, until the receiver leaves, and gives the receiver what the account
says. -/
theorem Bears.step {op : Op α} (h : b.Bears rx l) (hstays : op.leaves rx = false) :
    (b.step op).1.Bears rx (l.act b.slots rx op) ∧
      (got? rx op (b.step op).2).toList = l.gets b.slots rx op := by
  cases op with
  | subscribe => exact ⟨h.subscribe, rfl⟩
  | publish as => exact ⟨h.publish as, rfl⟩
  | close => exact ⟨h.close, rfl⟩
  | unsubscribe rx' =>
    have hother : rx' ≠ rx := by simpa [Op.leaves] using hstays
    exact ⟨h.set hother none, rfl⟩
  | receive rx' =>
    by_cases hown : rx' = rx
    · subst hown
      obtain ⟨hanswer, hreads⟩ := h.receive
      simp only [Listener.act, Listener.gets, if_true]
      exact ⟨hreads, by simp [got?, hanswer]⟩
    · simp only [Listener.act, Listener.gets, if_neg hown]
      refine ⟨h.receive_other hown, ?_⟩
      rw [got?_other hown]
      rfl

/-- A receiver that has left is never back, as its number is not given away again, and gets nothing. -/
theorem left_step (op : Op α) (h : b.receivers[rx]? = some none) :
    (b.step op).1.receivers[rx]? = some none ∧ got? rx op (b.step op).2 = none := by
  obtain ⟨hknown, -⟩ := List.getElem?_eq_some_iff.mp h
  cases op with
  | subscribe =>
    refine ⟨?_, rfl⟩
    rw [step]
    split
    · exact (List.getElem?_append_left hknown).trans h
    · exact h
  | publish as => exact ⟨by rw [step_publish, receivers_publishAll]; exact h, rfl⟩
  | close => exact ⟨h, rfl⟩
  | unsubscribe rx' =>
    refine ⟨?_, rfl⟩
    by_cases hown : rx' = rx
    · subst hown
      exact List.getElem?_set_self hknown
    · exact (List.getElem?_set_ne hown).trans h
  | receive rx' =>
    by_cases hown : rx' = rx
    · subst hown
      have hnobody : b.receive rx' = (b, none) := by rw [receive, position?, h]; rfl
      rw [step, hnobody]
      exact ⟨h, rfl⟩
    · refine ⟨?_, got?_other hown _⟩
      simp only [step, receive]
      cases b.position? rx' with
      | none => exact h
      | some pos => exact (List.getElem?_set_ne hown).trans h

theorem results_of_left {ops : List (Op α)} (h : b.receivers[rx]? = some none) :
    b.results rx ops = [] := by
  induction ops generalizing b with
  | nil => rfl
  | cons op ops ih =>
    obtain ⟨hstill, hnothing⟩ := left_step op h
    rw [results_cons, hnothing, ih hstill]
    rfl

/-- **All that a receiver gets is read off its account.** -/
theorem results_of_bears {ops : List (Op α)} (h : b.Bears rx l) :
    b.results rx ops = l.results b.slots rx ops := by
  induction ops generalizing b l with
  | nil => rfl
  | cons op ops ih =>
    rw [results_cons, Listener.results]
    cases hleaves : op.leaves rx with
    | false =>
      obtain ⟨hkept, hgets⟩ := h.step hleaves
      rw [hgets, ih hkept, slots_step, if_neg Bool.false_ne_true]
    | true =>
      obtain rfl := Op.leaves_iff.mp hleaves
      obtain ⟨before, -, hposition⟩ := h.holds
      obtain ⟨hlt, -⟩ := List.getElem?_eq_some_iff.mp (Option.join_eq_some_iff.mp hposition)
      rw [if_pos rfl, results_of_left (List.getElem?_set_self hlt)]
      rfl

theorem bears_after {ops : List (Op α)} (h : b.Bears rx l) (hstays : .unsubscribe rx ∉ ops) :
    (b.after ops).Bears rx (l.after b.slots rx ops) := by
  induction ops generalizing b l with
  | nil => exact h
  | cons op ops ih =>
    rw [List.mem_cons, not_or] at hstays
    have hleaves : op.leaves rx = false :=
      Bool.eq_false_iff.mpr fun hleaves => hstays.1 (Op.leaves_iff.mp hleaves).symm
    have hrest := ih (h.step hleaves).1 hstays.2
    rwa [slots_step] at hrest

/-! ## From the subscription on -/

/-- Without a receiver nothing that is published leaves a trace. -/
theorem publishAll_of_unheard (h : b.hasReceivers = false) (as : List α) : b.publishAll as = b := by
  induction as with
  | nil => rfl
  | cons a as ih =>
    have hsame : b.publish a = b := by rw [publish, if_neg (by simp [h])]
    exact (congrArg (publishAll · as) hsame).trans ih

theorem exists_holds_step {as : List α} (h : b.Holds as) (op : Op α) :
    ∃ as', (b.step op).1.Holds as' := by
  cases op with
  | subscribe =>
    rw [step]
    split
    · exact ⟨as, h.subscribe⟩
    · exact ⟨as, h⟩
  | publish news =>
    rw [step_publish]
    cases hlistens : b.hasReceivers with
    | true => exact ⟨_, h.publishAll hlistens _⟩
    | false => exact ⟨as, by rwa [publishAll_of_unheard hlistens]⟩
  | receive rx =>
    simp only [step, receive]
    cases b.position? rx with
    | none => exact ⟨as, h⟩
    | some pos => exact ⟨as, h.moveTo rx _⟩
  | unsubscribe rx => exact ⟨as, ⟨h.stored, h.kept⟩⟩
  | close => exact ⟨as, ⟨h.stored, h.kept⟩⟩

theorem exists_holds_after {as : List α} (h : b.Holds as) (ops : List (Op α)) :
    ∃ as', (b.after ops).Holds as' := by
  induction ops generalizing b as with
  | nil => exact ⟨as, h⟩
  | cons op ops ih =>
    obtain ⟨as', h'⟩ := exists_holds_step h op
    exact ih h'

theorem slots_after (b : Bus α) (ops : List (Op α)) : (b.after ops).slots = b.slots := by
  induction ops generalizing b with
  | nil => rfl
  | cons op ops ih => exact (ih (b.step op).1).trans (b.slots_step op)

/-- A bus on which somebody has just subscribed, after some operations. -/
def joined (capacity : Nat) (before : List (Op α)) : Bus α :=
  (((ofCapacity capacity).after before).step .subscribe).1

theorem slots_joined (capacity : Nat) (before : List (Op α)) :
    (joined capacity before).slots = ringSize capacity := by
  rw [joined, slots_step, slots_after]
  rfl

/-- **A subscription starts a fresh account**, whatever was published before. -/
theorem bears_joined {capacity : Nat} {before : List (Op α)}
    (h : (((ofCapacity capacity).after before).step .subscribe).2 = .receiver rx) :
    (joined capacity before).Bears rx .fresh := by
  obtain ⟨as, hholds⟩ := exists_holds_after (holds_ofCapacity capacity) before
  rw [joined]
  rw [step] at h ⊢
  split at h
  · rename_i hopen
    obtain rfl : ((ofCapacity capacity).after before).subscribe.2 = rx := Answer.receiver.inj h
    rw [if_pos hopen]
    refine ⟨⟨as, ?_, ?_⟩, hopen⟩
    · rw [Listener.fresh, List.append_nil]
      exact hholds.subscribe
    · exact (position?_subscribe _).trans (congrArg some hholds.stored)
  · exact nomatch h

/-- What an attempt of a receiver gives that is past some of the events published since it subscribed, on a
ring that has so many slots and keeps these events. -/
structure Finds (slots : Nat) (kept as : List α) (past : Nat) (isOver : Prop) (r : Received α) :
    Prop where
  within : past ≤ as.length
  event_iff (a : α) : r = .event a ↔ as.length ≤ past + slots ∧ as[past]? = some a
  lagged_iff (missed : Nat) :
    r = .lagged missed ↔ past + slots < as.length ∧ past + missed + slots = as.length
  empty_iff : r = .empty ↔ past = as.length ∧ ¬isOver
  closed_iff : r = .closed ↔ past = as.length ∧ isOver
  /-- What the receiver has lost is exactly what the ring has not kept. -/
  kept_of_lagged (missed : Nat) : r = .lagged missed →
    kept = as.drop (past + missed) ∧ kept.length = slots

/-- What is lost to a receiver is what its bus has not kept of the events since it subscribed. -/
theorem Bears.kept_of_lagged {missed : Nat} (h : b.Bears rx l)
    (hlost : l.past + missed + b.slots = l.since.length) :
    b.kept = l.since.drop (l.past + missed) ∧ b.kept.length = b.slots := by
  obtain ⟨before, hholds, -⟩ := h.holds
  have hdrop : (before ++ l.since).length - b.slots = before.length + (l.past + missed) := by
    rw [List.length_append]
    omega
  have hkept : b.kept = l.since.drop (l.past + missed) := by
    rw [hholds.kept, lastOf, hdrop, ← List.drop_drop, List.drop_left]
  refine ⟨hkept, ?_⟩
  rw [hkept, List.length_drop]
  omega

/-- An account says what is found. -/
theorem Bears.finds (h : b.Bears rx l) {isOver : Prop} (hover : l.isOpen = true ↔ ¬isOver) :
    Finds b.slots b.kept l.since l.past isOver (l.next b.slots) where
  within := l.within
  event_iff _ := Listener.next_event_iff
  lagged_iff _ := Listener.next_lagged_iff
  empty_iff := by rw [Listener.next_empty_iff, hover]
  closed_iff := by rw [Listener.next_closed_iff, ← Bool.not_eq_true, hover, Classical.not_not]
  kept_of_lagged _ hnext := h.kept_of_lagged (Listener.next_lagged_iff.mp hnext).2

/-- **After a loss the next attempt gives the first event kept**, whatever others do in between. -/
theorem Bears.next_after_lag {missed : Nat} {between : List (Op α)} (h : b.Bears rx l)
    (hlagged : l.next b.slots = .lagged missed) (hroom : 0 < b.slots)
    (hothers : ∀ op ∈ between, op.own? rx = none ∨ op = .close) :
    ∃ a, b.kept.head? = some a ∧
      ((b.after (.receive rx :: between)).step (.receive rx)).2 = .got (.event a) := by
  have hsum := (Listener.next_lagged_iff.mp hlagged).2
  have hstays : .unsubscribe rx ∉ between := by
    intro hmem
    simpa [Op.own?] using hothers _ hmem
  have hread := bears_after h.receive.2 hstays
  rw [slots_step] at hread
  obtain ⟨hsince, hpast⟩ := Listener.after_others b.slots (l.read b.slots) hothers
  have hread_since : (l.read b.slots).since = l.since := rfl
  have hread_past : (l.read b.slots).past = l.past + missed :=
    congrArg (fun r : Received α => l.past + r.passes) hlagged
  have hlt : l.past + missed < l.since.length := by omega
  refine ⟨l.since[l.past + missed], ?_, ?_⟩
  · rw [(h.kept_of_lagged hsum).1, List.head?_drop]
    exact List.getElem?_eq_getElem hlt
  · refine hread.receive.1.trans (congrArg _ (Listener.next_event_iff.mpr ?_))
    rw [hsince, hpast, hread_since, hread_past, slots_after, slots_step]
    exact ⟨by omega, List.getElem?_eq_getElem hlt⟩

/-- **A receiver loses only the oldest events, and knows how many.**  Whatever happened before it subscribed
and whatever anybody does later, its results lead through the events published since in order, each event
once and each loss as large as it says.  They are what it would get alone, of what concerns it.  And as long
as it stays, its next result is the event it has come to, unless more are unread than the smallest power of
two that covers the capacity: then it is told how many are lost, these are exactly those the ring has not
kept, and it goes on with the first that was kept.  It finds the bus empty or closed only when it is past
everything, closed only when the bus was given up. -/
theorem receiver_loses_only_the_oldest (capacity : Nat) (before later : List (Op α)) (rx : Nat)
    (hjoined : (((ofCapacity capacity).after before).step .subscribe).2 = .receiver rx) :
    ((ringSize capacity).isPowerOfTwo ∧
      ∀ n, n.isPowerOfTwo → (ringSize capacity ≤ n ↔ max 1 capacity ≤ n)) ∧
    Received.Leads ((joined capacity before).results rx later) (published later) ∧
    (joined capacity before).results rx later =
      (joined capacity []).results 0 (later.filterMap (Op.own? rx)) ∧
    (.unsubscribe rx ∉ later → ∃ r,
      (((joined capacity before).after later).step (.receive rx)).2 = .got r ∧
      Finds (ringSize capacity) ((joined capacity before).after later).kept (published later)
        (Received.passed ((joined capacity before).results rx later)) (.close ∈ later) r ∧
      ∀ missed, r = .lagged missed →
        ∀ between : List (Op α), (∀ op ∈ between, op.own? rx = none ∨ op = .close) →
          ∃ a, ((joined capacity before).after later).kept.head? = some a ∧
            (((joined capacity before).after (later ++ .receive rx :: between)).step
              (.receive rx)).2 = .got (.event a)) := by
  have hbears := bears_joined hjoined
  have hslots := slots_joined capacity before
  have halone : (joined capacity ([] : List (Op α))).Bears 0 .fresh := bears_joined rfl
  refine ⟨⟨isPowerOfTwo_ringSize capacity, fun n => ringSize_le_iff⟩, ?_, ?_, fun hstays => ?_⟩
  · rw [results_of_bears hbears]
    exact Listener.leads_results _ rx .fresh later
  · rw [results_of_bears hbears, results_of_bears halone, hslots, slots_joined,
      Listener.results_own]
  · have hnow := bears_after hbears hstays
    have hslots' : ((joined capacity before).after later).slots = ringSize capacity :=
      (slots_after _ _).trans hslots
    have hover : (Listener.fresh.after (joined capacity before).slots rx later).isOpen = true ↔
        ¬ .close ∈ later := by
      rw [Listener.isOpen_after]
      exact and_iff_right rfl
    refine ⟨_, hnow.receive.1, ?_, fun missed hlagged between hothers => ?_⟩
    · have hpast := Listener.past_after hstays (joined capacity before).slots .fresh
      rw [← results_of_bears hbears, Listener.fresh, Nat.zero_add] at hpast
      have hfinds := hnow.finds hover
      rw [Listener.since_after, Listener.told_fresh, hslots'] at hfinds
      rw [← hpast, hslots']
      exact hfinds
    · rw [after_append]
      refine hnow.next_after_lag hlagged ?_ hothers
      rw [hslots']
      exact Nat.pos_of_isPowerOfTwo (isPowerOfTwo_ringSize capacity)

/-- Six events on a ring of four, for a receiver that missed one before it came and one nobody heard. -/
theorem late_receiver_loses_two :
    (((joined 3 [.subscribe, .publish [7], .unsubscribe 0, .publish [8]]).after
      [.publish [1, 2, 3, 4, 5, 6], .subscribe, .close]).step (.receive 1)).2 = .got (.lagged 2) ∧
    (((joined 3 [.subscribe, .publish [7], .unsubscribe 0, .publish [8]]).after
      [.publish [1, 2, 3, 4, 5, 6], .subscribe, .close, .receive 1, .receive 2]).step
        (.receive 1)).2 = .got (.event 3) := by
  obtain ⟨-, -, -, hstays⟩ := receiver_loses_only_the_oldest 3
    [.subscribe, .publish [7], .unsubscribe 0, .publish [8]]
    [.publish [1, 2, 3, 4, 5, 6], .subscribe, .close] 1 rfl
  obtain ⟨r, hgot, hfinds, hafter⟩ := hstays (by simp)
  have hlagged : r = .lagged 2 := (hfinds.lagged_iff 2).mpr (by decide)
  obtain ⟨a, hkept, hnext⟩ := hafter 2 hlagged [.receive 2] (by simp [Op.own?])
  obtain rfl : 3 = a := Option.some.inj hkept
  exact ⟨hgot.trans (congrArg _ hlagged), hnext⟩

end Bus

end Steward

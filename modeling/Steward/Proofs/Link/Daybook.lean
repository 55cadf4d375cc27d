import Steward.Proofs.Link.Basic
import Mathlib.Data.List.Nodup
import Mathlib.Data.List.Infix

/-!
# Proofs/Link/Daybook — the books of a link

Whatever is done to a link, one can keep books: who came, what was taken, who is done, and who was
withdrawn.  A sender withdrawn from the line is `recalled`, its item is never sent; one withdrawn from
the slot is `abandoned`, its item stays.

* `Tallies` — the books and the link agree.  Each of the six things that can be done to a link keeps
  them in agreement: `Tallies.comes`, `.linesUp`, `.enter`, `.takes`, `.cancel` and `.closes`; together,
  `Tallies.goes`.
* `Tallies.order` — what was taken, then what is on the link, is what was sent, in the order in which
  the senders came.
* `Tallies.results_nodup`, `Tallies.taken_iff`, `Tallies.closed_iff` — a sender is done once; it was
  told `taken` when its item was taken, and `closed` when the link was closed before.
-/

namespace Steward

/-- The books of a link. -/
@[ext] structure Daybook (α : Type) where
  /-- Who came, in order. -/
  came : List (Parcel α) := []
  /-- What was taken, in order. -/
  taken : List (Parcel α) := []
  /-- Who is done, and how. -/
  done : List (Nat × SendResult) := []
  /-- Who was withdrawn from the line. -/
  recalled : List Nat := []
  /-- Who was withdrawn from the slot. -/
  abandoned : List Nat := []

namespace Daybook

variable {α : Type}

/-- Blank books. -/
instance : EmptyCollection (Daybook α) := ⟨⟨[], [], [], [], []⟩⟩

/-- The books, with what was entered later. -/
instance : Append (Daybook α) where
  append k e := ⟨k.came ++ e.came, k.taken ++ e.taken, k.done ++ e.done, k.recalled ++ e.recalled,
    k.abandoned ++ e.abandoned⟩

section Append

variable (k e : Daybook α)

@[simp] theorem came_append : (k ++ e).came = k.came ++ e.came := rfl

@[simp] theorem taken_append : (k ++ e).taken = k.taken ++ e.taken := rfl

@[simp] theorem done_append : (k ++ e).done = k.done ++ e.done := rfl

@[simp] theorem recalled_append : (k ++ e).recalled = k.recalled ++ e.recalled := rfl

@[simp] theorem abandoned_append : (k ++ e).abandoned = k.abandoned ++ e.abandoned := rfl

@[simp] theorem append_blank : k ++ ∅ = k := by
  change Daybook.mk (_ ++ []) (_ ++ []) (_ ++ []) (_ ++ []) (_ ++ []) = k
  simp only [List.append_nil]

theorem append_assoc (k₁ k₂ k₃ : Daybook α) : k₁ ++ k₂ ++ k₃ = k₁ ++ (k₂ ++ k₃) := by
  change Daybook.mk _ _ _ _ _ = Daybook.mk _ _ _ _ _
  simp

end Append

/-- The tickets of all who came. -/
def tickets (k : Daybook α) : List Nat := k.came.map (·.ticket)

/-- What was sent: what those brought who were not withdrawn from the line. -/
def sent (k : Daybook α) : List (Parcel α) := k.came.filter fun p => p.ticket ∉ k.recalled

/-- All who were withdrawn. -/
def withdrawn (k : Daybook α) : List Nat := k.recalled ++ k.abandoned

@[simp] theorem tickets_append (k e : Daybook α) : (k ++ e).tickets = k.tickets ++ e.tickets :=
  List.map_append

/-- Two entries about the same senders: the same come, and the same are withdrawn. -/
structure SameSenders (e e₀ : Daybook α) : Prop where
  came : e.came = e₀.came
  recalled : e.recalled = e₀.recalled
  abandoned : e.abandoned = e₀.abandoned

/-- An entry about nobody new leaves the tickets. -/
theorem tickets_append_of_nil {k e : Daybook α} (h : e.came = []) : (k ++ e).tickets = k.tickets := by
  rw [tickets_append, tickets, tickets, h, List.map_nil, List.append_nil]

end Daybook

namespace Link

variable {α : Type} {l l' : Link α}

/-- What is on a link: the parcel in the slot, then those in line. -/
def parcels (l : Link α) : List (Parcel α) := (l.slot.map (·.toParcel)).toList ++ l.line

theorem parcels_enter (l : Link α) : l.enter.parcels = l.parcels := by
  unfold enter
  split
  · simp [parcels, *]
  · rfl

theorem parcels_send (h : l.closed = false) (p : Parcel α) : (l.send p).parcels = l.parcels ++ [p] := by
  cases hfree : l.slot.isNone && l.line.isEmpty with
  | true =>
    obtain ⟨hslot, hline⟩ : l.slot = none ∧ l.line = [] := by simpa using hfree
    simp [send, start, h, parcels, hslot, hline]
  | false => simp [send, start, h, hfree, parcels]

/-- Who is under way has its item on the link. -/
theorem unfinished_subset (l : Link α) : l.unfinished ⊆ l.parcels.map (·.ticket) := by
  intro t ht
  rw [unfinished, List.mem_append] at ht
  rw [parcels, List.map_append, List.mem_append]
  refine ht.symm.imp_left fun ht => ?_
  unfold waiting? at ht
  split at ht
  · rename_i p hslot
    split at ht
    · simpa [hslot] using ht
    · cases ht
  · cases ht

/-- Who waits at the slot brought what is in it. -/
theorem placed_of_waiting {t : Nat} (h : l.waiting? = some t) :
    ∃ p, l.slot = some p ∧ p.awaited = true ∧ p.ticket = t := by
  unfold waiting? at h
  split at h
  · rename_i p hslot
    split at h
    · exact ⟨p, hslot, ‹_›, Option.some.inj h⟩
    · cases h
  · cases h

/-- Who is not in the slot is withdrawn from the line. -/
theorem cancel_line {t : Nat} (hslot : ∀ p, l.slot = some p → p.ticket ≠ t) :
    l.cancel t = { l with line := l.line.filter (·.ticket ≠ t) } := by
  unfold cancel
  cases h : l.slot with
  | none => rfl
  | some p => simp [hslot p h]

theorem filter_line {t : Nat} (hline : t ∉ l.line.map (·.ticket)) :
    l.line.filter (·.ticket ≠ t) = l.line :=
  List.filter_eq_self.mpr fun _ hq => decide_eq_true fun heq => hline (heq ▸ List.mem_map_of_mem hq)

/-- Who is not in line is withdrawn from the slot. -/
theorem cancel_slot {p : Placed α} (hp : l.slot = some p) (hline : p.ticket ∉ l.line.map (·.ticket)) :
    l.cancel p.ticket = { l with slot := some { p with awaited := false } } := by
  rw [cancel, hp, filter_line hline]
  simp

/-- Who is not under way is not withdrawn. -/
theorem cancel_nobody {t : Nat} (hline : t ∉ l.line.map (·.ticket)) (hwaiting : l.waiting? ≠ some t) :
    l.cancel t = l := by
  cases hp : l.slot with
  | none =>
    rw [cancel_line (by simp [hp]), filter_line hline]
  | some p =>
    by_cases ht : p.ticket = t
    · subst ht
      have hunawaited : p.awaited = false := by simpa [waiting?, hp] using hwaiting
      rw [cancel_slot hp hline, ← hunawaited, ← hp]
    · rw [cancel_line (by simpa [hp] using ht), filter_line hline]

/-- The entry for a sender that comes: it is refused at once by a closed link. -/
def arrival (l : Link α) (p : Parcel α) : Daybook α where
  came := [p]
  done := if l.closed then [(p.ticket, .closed)] else []

/-- The entry for a sender that is withdrawn, from the line or from the slot. -/
def withdrawal (l : Link α) (t : Nat) : Daybook α where
  recalled := if t ∈ l.line.map (·.ticket) then [t] else []
  abandoned := if l.waiting? = some t then [t] else []

/-- The entry for a link that is closed. -/
def closure (l : Link α) : Daybook α where
  done := l.unfinished.map (·, .closed)

end Link

/-- The entry for an item that is taken; its sender is done if it still waits. -/
def Placed.receipt {α : Type} (p : Placed α) : Daybook α where
  taken := [p.toParcel]
  done := if p.awaited then [(p.ticket, .taken)] else []

namespace Daybook

variable {α : Type} {k : Daybook α} {l l' : Link α}

/-- **The books and the link agree.** -/
structure Tallies (k : Daybook α) (l : Link α) : Prop where
  /-- Every sender has its own ticket. -/
  distinct : k.tickets.Nodup
  /-- A closed link has nothing on it. -/
  shut : l.closed = true → l.Shut
  /-- As long as the link is open, what was sent was taken or is on the link, in order. -/
  order : l.closed = false → k.taken ++ l.parcels = k.sent
  /-- What was taken is always what was sent first. -/
  begins : k.taken <+: k.sent
  /-- Whoever came is done, under way or withdrawn. -/
  roster : (k.done.map (·.1) ++ l.unfinished ++ k.withdrawn).Perm k.tickets
  /-- Who is done was told the truth. -/
  truth : ∀ t r, (t, r) ∈ k.done →
    (r = .taken ↔ t ∈ k.taken.map (·.ticket)) ∧ (r = .closed → l.closed = true)

/-- The books of a new link. -/
theorem tallies_blank (hslot : l.slot = none) (hline : l.line = []) (hopen : l.closed = false) :
    Tallies ∅ l where
  distinct := List.nodup_nil
  shut h := absurd (h.symm.trans hopen) (by decide)
  order _ := by rw [Link.parcels, hslot, hline]; rfl
  begins := List.prefix_rfl
  roster := by rw [Link.unfinished, Link.waiting?, hslot, hline]; exact .refl _
  truth t r h := absurd h List.not_mem_nil

/-- Who comes with a ticket of its own is new. -/
theorem new_of_nodup {p : Parcel α} (h : (k ++ l.arrival p).tickets.Nodup) : p.ticket ∉ k.tickets := by
  rw [tickets_append] at h
  exact fun hmem => List.disjoint_of_nodup_append h hmem (List.mem_singleton_self _)

namespace Tallies

/-! ## Who can be where -/

/-- Every item sent has its own ticket. -/
theorem sent_nodup (h : k.Tallies l) : (k.sent.map (·.ticket)).Nodup :=
  h.distinct.sublist (List.filter_sublist.map _)

/-- What was taken was brought by someone. -/
theorem taken_subset (h : k.Tallies l) : k.taken.map (·.ticket) ⊆ k.tickets :=
  List.map_subset _ (h.begins.sublist.trans List.filter_sublist).subset

/-- What is on the link was not taken yet. -/
theorem untaken (h : k.Tallies l) {t : Nat} (ht : t ∈ l.parcels.map (·.ticket)) :
    t ∉ k.taken.map (·.ticket) := by
  cases hclosed : l.closed with
  | true =>
    have hshut := h.shut hclosed
    simp [Link.parcels, hshut.slot, hshut.line] at ht
  | false =>
    have hnodup := h.sent_nodup
    rw [← h.order hclosed, List.map_append] at hnodup
    exact fun htaken => List.disjoint_of_nodup_append hnodup htaken ht

/-- What is on the link has its own ticket. -/
theorem parcels_nodup (h : k.Tallies l) : (l.parcels.map (·.ticket)).Nodup := by
  cases hclosed : l.closed with
  | true =>
    have hshut := h.shut hclosed
    simp [Link.parcels, hshut.slot, hshut.line]
  | false =>
    have hnodup := h.sent_nodup
    rw [← h.order hclosed, List.map_append] at hnodup
    exact hnodup.of_append_right

/-- Nobody is at two places. -/
theorem roster_nodup (h : k.Tallies l) :
    (k.done.map (·.1) ++ l.unfinished ++ k.withdrawn).Nodup := h.roster.nodup_iff.mpr h.distinct

/-- **A sender is done once.** -/
theorem results_nodup (h : k.Tallies l) : (k.done.map (·.1)).Nodup :=
  h.roster_nodup.of_append_left.of_append_left

/-- Who was withdrawn is not done. -/
theorem not_done_of_withdrawn (h : k.Tallies l) {t : Nat} (ht : t ∈ k.withdrawn) :
    t ∉ k.done.map (·.1) := fun hdone =>
  List.disjoint_of_nodup_append h.roster_nodup (List.mem_append_left _ hdone) ht

/-- Who came and was not withdrawn is done or under way. -/
theorem done_or_unfinished (h : k.Tallies l) {t : Nat} (ht : t ∈ k.tickets) (hw : t ∉ k.withdrawn) :
    t ∈ k.done.map (·.1) ∨ t ∈ l.unfinished :=
  List.mem_append.mp ((List.mem_append.mp (h.roster.mem_iff.mpr ht)).resolve_right hw)

/-- **A sender that was not withdrawn was told that its item was taken, if and only if it was.** -/
theorem taken_iff (h : k.Tallies l) {t : Nat} (hw : t ∉ k.withdrawn) :
    (t, .taken) ∈ k.done ↔ t ∈ k.taken.map (·.ticket) := by
  refine ⟨fun hdone => (h.truth t _ hdone).1.mp rfl, fun htaken => ?_⟩
  have hdone := (h.done_or_unfinished (h.taken_subset htaken) hw).resolve_right
    fun hunder => h.untaken (l.unfinished_subset hunder) htaken
  obtain ⟨⟨_, r⟩, hmem, rfl⟩ := List.mem_map.mp hdone
  exact (h.truth _ r hmem).1.mpr htaken ▸ hmem

/-- **A sender that came and was not withdrawn was told that the link is closed, if and only if it was
closed before its item was taken.** -/
theorem closed_iff (h : k.Tallies l) {t : Nat} (ht : t ∈ k.tickets) (hw : t ∉ k.withdrawn) :
    (t, .closed) ∈ k.done ↔ l.closed = true ∧ t ∉ k.taken.map (·.ticket) := by
  constructor
  · intro hdone
    obtain ⟨htaken, hclosed⟩ := h.truth t _ hdone
    exact ⟨hclosed rfl, fun hmem => nomatch htaken.mpr hmem⟩
  · rintro ⟨hclosed, htaken⟩
    have hdone := (h.done_or_unfinished ht hw).resolve_right
      (by rw [(h.shut hclosed).unfinished]; exact List.not_mem_nil)
    obtain ⟨⟨_, r⟩, hmem, rfl⟩ := List.mem_map.mp hdone
    cases r with
    | taken => exact absurd ((h.truth _ _ hmem).1.mp rfl) htaken
    | closed => exact hmem

/-- Who was withdrawn from the slot has its item there still, or it was taken. -/
theorem abandoned_stays (h : k.Tallies l) (hopen : l.closed = false) {p : Parcel α}
    (hp : p ∈ k.came) (hab : p.ticket ∈ k.abandoned) :
    p ∈ k.taken ∨ l.slot.map (·.toParcel) = some p := by
  have hnodup := h.roster_nodup
  have hdisjoint : List.Disjoint k.recalled k.abandoned :=
    List.disjoint_of_nodup_append hnodup.of_append_right
  have hsent : p ∈ k.sent := List.mem_filter.mpr ⟨hp, decide_eq_true fun hre => hdisjoint hre hab⟩
  rw [← h.order hopen, List.mem_append, Link.parcels, List.mem_append] at hsent
  refine hsent.imp_right fun hon => hon.elim (fun hslot => by simpa using hslot) fun hline => ?_
  have hunder : p.ticket ∈ l.unfinished := List.mem_append_left _ (List.mem_map_of_mem hline)
  exact absurd (List.mem_append_right _ hab) (List.disjoint_of_nodup_append hnodup
    (List.mem_append_right _ hunder))

/-! ## What can be done to a link -/

/-- Handles are not in the books. -/
theorem congr (h : k.Tallies l) (slot : l'.slot = l.slot) (line : l'.line = l.line)
    (closed : l'.closed = l.closed) : k.Tallies l' := by
  obtain ⟨slot', line', closed', offers'⟩ := l'
  obtain rfl : slot' = l.slot := slot
  obtain rfl : line' = l.line := line
  obtain rfl : closed' = l.closed := closed
  exact ⟨h.distinct, fun hclosed => ⟨hclosed, (h.shut hclosed).slot, (h.shut hclosed).line⟩, h.order,
    h.begins, h.roster, h.truth⟩

/-- The head of the line goes into the slot. -/
theorem enter (h : k.Tallies l) : k.Tallies l.enter where
  distinct := h.distinct
  shut hclosed := by
    have hshut := h.shut (l.closed_enter ▸ hclosed)
    rwa [hshut.enter]
  order hopen := by
    rw [l.parcels_enter]
    exact h.order (l.closed_enter ▸ hopen)
  begins := h.begins
  roster := ((l.unfinished_enter.append_left _).append_right _).trans h.roster
  truth := by
    rw [l.closed_enter]
    exact h.truth

/-- An entry balances the roster when it says who went and who came. -/
theorem balance (h : k.Tallies l) {e : Daybook α}
    (he : (e.done.map (·.1) ++ l'.unfinished ++ e.withdrawn).Perm (l.unfinished ++ e.tickets)) :
    ((k ++ e).done.map (·.1) ++ l'.unfinished ++ (k ++ e).withdrawn).Perm (k ++ e).tickets := by
  refine List.perm_iff_count.mpr fun t => ?_
  have hroster := h.roster.count_eq t
  have hentry := he.count_eq t
  simp only [withdrawn, tickets_append, done_append, recalled_append, abandoned_append,
    List.map_append, List.count_append] at hroster hentry ⊢
  omega

/-- Who is new was never withdrawn. -/
theorem not_recalled (h : k.Tallies l) {t : Nat} (hnew : t ∉ k.tickets) : t ∉ k.recalled :=
  fun hmem => hnew <| h.roster.subset <| List.mem_append_right _ (List.mem_append_left _ hmem)

/-- On an open link nobody was refused yet. -/
theorem taken_of_open (h : k.Tallies l) (hopen : l.closed = false) {t : Nat} {r : SendResult}
    (hmem : (t, r) ∈ k.done) : r = .taken ∧ t ∈ k.taken.map (·.ticket) := by
  cases r with
  | taken => exact ⟨rfl, (h.truth t _ hmem).1.mp rfl⟩
  | closed => exact absurd (((h.truth t _ hmem).2 rfl).symm.trans hopen) (by decide)

/-- A sender joins an open link at its end. -/
theorem joins (h : k.Tallies l) {p : Parcel α} (hnew : p.ticket ∉ k.tickets)
    (hopen : l.closed = false) (closed : l'.closed = false) (parcels : l'.parcels = l.parcels ++ [p])
    (unfinished : l'.unfinished.Perm (l.unfinished ++ [p.ticket])) :
    (k ++ { came := [p] }).Tallies l' := by
  have hsent : (k ++ { came := [p] }).sent = k.sent ++ [p] := by
    simp [sent, h.not_recalled hnew]
  have htaken : (k ++ { came := [p] }).taken = k.taken := List.append_nil _
  have hdone : (k ++ { came := [p] }).done = k.done := List.append_nil _
  refine ⟨?_, fun hclosed => ?_, fun _ => ?_, ?_, h.balance ?_, fun t r hmem => ?_⟩
  · rw [tickets_append]
    exact h.distinct.append (List.nodup_singleton _) (List.disjoint_singleton.mpr hnew)
  · exact absurd (hclosed.symm.trans closed) (by decide)
  · rw [parcels, hsent, htaken, ← h.order hopen, List.append_assoc]
  · rw [hsent, htaken]
    exact h.begins.trans (List.prefix_append _ _)
  · rw [withdrawn, List.append_nil, List.append_nil]
    exact unfinished
  · rw [hdone] at hmem
    rw [htaken]
    exact ⟨(h.truth t r hmem).1, fun hr => nomatch (h.taken_of_open hopen hmem).1.symm.trans hr⟩

/-- A sender is refused by a closed link. -/
theorem refuses (h : k.Tallies l) {p : Parcel α} (hnew : p.ticket ∉ k.tickets)
    (hclosed : l.closed = true) :
    (k ++ { came := [p], done := [(p.ticket, .closed)] }).Tallies l := by
  refine ⟨?_, h.shut, fun hopen => ?_, ?_, h.balance ?_, fun t r hmem => ?_⟩
  · rw [tickets_append]
    exact h.distinct.append (List.nodup_singleton _) (List.disjoint_singleton.mpr hnew)
  · exact absurd (hclosed.symm.trans hopen) (by decide)
  · rw [taken_append, List.append_nil]
    refine h.begins.trans ?_
    simp [sent, h.not_recalled hnew]
  · rw [(h.shut hclosed).unfinished]
    exact .refl _
  · simp only [done_append, taken_append, List.append_nil, List.mem_append, List.mem_singleton,
      Prod.mk.injEq] at hmem ⊢
    obtain hmem | ⟨rfl, rfl⟩ := hmem
    · exact h.truth t r hmem
    · exact ⟨⟨nofun, fun htaken => absurd (h.taken_subset htaken) hnew⟩, fun _ => hclosed⟩

/-- **A sender comes to the link.** -/
theorem comes (h : k.Tallies l) {p : Parcel α} (hnew : p.ticket ∉ k.tickets) :
    (k ++ l.arrival p).Tallies (l.send p) := by
  have hunder := l.unfinished_send p
  cases hclosed : l.closed with
  | true =>
    rw [(h.shut hclosed).send, Link.arrival, hclosed]
    exact h.refuses hnew hclosed
  | false =>
    rw [hclosed] at hunder
    rw [Link.arrival, hclosed]
    exact h.joins hnew hclosed (by rw [l.closed_send, hclosed]) (l.parcels_send hclosed p) hunder

/-- **A sender comes and joins the line.** -/
theorem linesUp (h : k.Tallies l) {p : Parcel α} (hnew : p.ticket ∉ k.tickets) :
    (k ++ l.arrival p).Tallies (l.lineUp p) := by
  cases hclosed : l.closed with
  | true =>
    rw [(h.shut hclosed).lineUp, Link.arrival, hclosed]
    exact h.refuses hnew hclosed
  | false =>
    have hjoined : l.lineUp p = { l with line := l.line ++ [p] } := by simp [Link.lineUp, hclosed]
    rw [hjoined, Link.arrival, hclosed]
    refine h.joins hnew hclosed (hclosed ▸ rfl) (List.append_assoc _ _ _).symm ?_
    simp only [Link.unfinished, Link.waiting?, List.map_append, List.append_assoc]
    exact List.perm_append_comm.append_left _

/-- **What is in the slot is taken.** -/
theorem takes (h : k.Tallies l) {p : Placed α} (hp : l.slot = some p) :
    (k ++ p.receipt).Tallies l.take := by
  have hopen : l.closed = false := by
    refine Bool.eq_false_iff.mpr fun hclosed => ?_
    rw [(h.shut hclosed).slot] at hp
    cases hp
  have horder : k.taken ++ [p.toParcel] ++ l.line = k.sent := by
    have horder := h.order hopen
    rw [Link.parcels, hp] at horder
    simpa using horder
  have hsent : (k ++ p.receipt).sent = k.sent := by simp [sent, Placed.receipt]
  refine ⟨?_, fun hclosed => ?_, fun _ => ?_, ?_, h.balance ?_, fun t r hmem => ?_⟩
  · simpa [Placed.receipt, tickets] using h.distinct
  · exact absurd (hclosed.symm.trans hopen) (by decide)
  · rw [hsent, ← horder]
    rfl
  · exact hsent ▸ ⟨l.line, horder⟩
  · have hwaiting : p.receipt.done.map (·.1) = l.waiting?.toList := by
      cases hawaited : p.awaited <;> simp [Placed.receipt, Link.waiting?, hp, hawaited]
    have hnobody : l.take.waiting? = none := rfl
    rw [hwaiting, Link.unfinished, Link.unfinished, hnobody, Option.toList_none]
    simpa [withdrawn, Placed.receipt, tickets, Link.take] using List.perm_append_comm
  · suffices hall : r = .taken ∧ t ∈ (k ++ p.receipt).taken.map (·.ticket) from
      ⟨iff_of_true hall.1 hall.2, fun hr => absurd (hall.1.symm.trans hr) (by decide)⟩
    rw [done_append, List.mem_append] at hmem
    rw [taken_append, List.map_append, List.mem_append]
    obtain hmem | hmem := hmem
    · exact (h.taken_of_open hopen hmem).imp_right .inl
    · obtain ⟨rfl, rfl⟩ : t = p.ticket ∧ r = .taken := by
        unfold Placed.receipt at hmem
        split at hmem
        · simpa using hmem
        · cases hmem
      exact ⟨rfl, .inr (List.mem_singleton_self _)⟩

/-- **The link is closed.** -/
theorem closes (h : k.Tallies l) : (k ++ l.closure).Tallies l.close := by
  have hsent : (k ++ l.closure).sent = k.sent := by simp [sent, Link.closure]
  have htaken : (k ++ l.closure).taken = k.taken := List.append_nil _
  refine ⟨?_, fun _ => l.shut_close, nofun, ?_, h.balance ?_, fun t r hmem => ?_⟩
  · simpa [Link.closure, tickets] using h.distinct
  · rw [hsent, htaken]
    exact h.begins
  · have hall : l.closure.done.map (·.1) = l.unfinished := by simp [Link.closure, Function.comp_def]
    rw [l.shut_close.unfinished, hall, List.append_nil]
    exact .refl _
  · rw [htaken]
    rw [done_append, List.mem_append] at hmem
    obtain hmem | hmem := hmem
    · exact ⟨(h.truth t r hmem).1, fun _ => rfl⟩
    · obtain ⟨t', hunder, heq⟩ := List.mem_map.mp hmem
      obtain ⟨rfl, rfl⟩ := Prod.mk.inj heq
      exact ⟨⟨nofun, fun hmem => absurd hmem (h.untaken (l.unfinished_subset hunder))⟩, fun _ => rfl⟩

/-- A sender is withdrawn from the line. -/
theorem recalls (h : k.Tallies l) {t : Nat} (hline : t ∈ l.line.map (·.ticket)) :
    (k ++ { recalled := [t] }).Tallies { l with line := l.line.filter (·.ticket ≠ t) } := by
  have hopen : l.closed = false := by
    refine Bool.eq_false_iff.mpr fun hclosed => ?_
    rw [(h.shut hclosed).line] at hline
    cases hline
  have hnodup := h.parcels_nodup
  rw [Link.parcels, List.map_append] at hnodup
  have hsent : (k ++ { recalled := [t] }).sent = k.sent.filter (·.ticket ≠ t) := by
    simp [sent, List.filter_filter, and_comm]
  have htaken : (k ++ { recalled := [t] }).taken = k.taken := List.append_nil _
  have hkept : k.taken.filter (·.ticket ≠ t) = k.taken := by
    refine List.filter_eq_self.mpr fun p hp => decide_eq_true ?_
    rintro rfl
    refine h.untaken ?_ (List.mem_map_of_mem hp)
    rw [Link.parcels, List.map_append]
    exact List.mem_append_right _ hline
  have hslot : (l.slot.map (·.toParcel)).toList.filter (·.ticket ≠ t) =
      (l.slot.map (·.toParcel)).toList := by
    refine List.filter_eq_self.mpr fun p hp => decide_eq_true ?_
    rintro rfl
    exact List.disjoint_of_nodup_append hnodup (List.mem_map_of_mem hp) hline
  refine ⟨?_, fun hclosed => ?_, fun _ => ?_, ?_, h.balance ?_, fun t' r hmem => ?_⟩
  · simpa [tickets] using h.distinct
  · exact absurd (hclosed.symm.trans hopen) (by decide)
  · rw [htaken, hsent, ← h.order hopen, List.filter_append, hkept, Link.parcels, Link.parcels,
      List.filter_append, hslot]
  · rw [hsent, htaken, ← hkept]
    exact h.begins.filter _
  · have hgone : (l.line.filter (·.ticket ≠ t)).map (·.ticket) = (l.line.map (·.ticket)).erase t := by
      rw [hnodup.of_append_right.erase_eq_filter, List.filter_map]
      exact congrArg _ (List.filter_congr fun p _ => by simp [bne, beq_eq_decide])
    have hall := (List.perm_cons_erase hline).append_right l.waiting?.toList
    rw [Link.unfinished, Link.unfinished, hgone]
    refine .trans ?_ (hall.symm.trans (.of_eq (List.append_nil _).symm))
    exact List.perm_append_singleton _ _
  · rw [done_append, List.append_nil] at hmem
    rw [htaken]
    exact h.truth t' r hmem

/-- A sender is withdrawn from the slot. -/
theorem abandons (h : k.Tallies l) {p : Placed α} (hp : l.slot = some p) (hawaited : p.awaited = true) :
    (k ++ { abandoned := [p.ticket] }).Tallies { l with slot := some { p with awaited := false } } := by
  have hsent : (k ++ { abandoned := [p.ticket] }).sent = k.sent := by simp [sent]
  have htaken : (k ++ { abandoned := [p.ticket] }).taken = k.taken := List.append_nil _
  refine ⟨?_, fun hclosed => ?_, fun hopen => ?_, ?_, h.balance ?_, fun t r hmem => ?_⟩
  · simpa [tickets] using h.distinct
  · rw [(h.shut hclosed).slot] at hp
    cases hp
  · rw [hsent, htaken, ← h.order hopen, Link.parcels, Link.parcels, hp]
    rfl
  · rw [hsent, htaken]
    exact h.begins
  · simp [Link.unfinished, Link.waiting?, hp, hawaited, withdrawn, tickets]
  · rw [done_append, List.append_nil] at hmem
    rw [htaken]
    exact h.truth t r hmem

/-- **A sender is withdrawn**, from wherever it is. -/
theorem cancel (h : k.Tallies l) (t : Nat) : (k ++ l.withdrawal t).Tallies (l.cancel t) := by
  by_cases hline : t ∈ l.line.map (·.ticket)
  · have hslot : ∀ p, l.slot = some p → p.ticket ≠ t := by
      rintro p hp rfl
      have hnodup := h.parcels_nodup
      rw [Link.parcels, hp, List.map_append] at hnodup
      exact List.disjoint_of_nodup_append hnodup (List.mem_singleton_self _) hline
    have hwaiting : l.waiting? ≠ some t := by
      intro hwaiting
      obtain ⟨p, hp, -, ht⟩ := Link.placed_of_waiting hwaiting
      exact hslot p hp ht
    rw [Link.cancel_line hslot, Link.withdrawal, if_pos hline, if_neg hwaiting]
    exact h.recalls hline
  · by_cases hwaiting : l.waiting? = some t
    · obtain ⟨p, hp, hawaited, rfl⟩ := Link.placed_of_waiting hwaiting
      rw [Link.cancel_slot hp hline, Link.withdrawal, if_neg hline, if_pos hwaiting]
      exact h.abandons hp hawaited
    · rw [Link.cancel_nobody hline hwaiting, Link.withdrawal, if_neg hline, if_neg hwaiting]
      exact (append_blank k).symm ▸ h

end Tallies

end Daybook

/-- What can happen to a link, each with its entry in the books. -/
inductive Link.Goes {α : Type} : Link α → Daybook α → Link α → Prop where
  | enter (l : Link α) : Goes l ∅ l.enter
  | handles (l : Link α) (n : Nat) : Goes l ∅ { l with offers := n }
  | comes (l : Link α) (p : Parcel α) : Goes l (l.arrival p) (l.send p)
  | linesUp (l : Link α) (p : Parcel α) : Goes l (l.arrival p) (l.lineUp p)
  | cancel (l : Link α) (t : Nat) : Goes l (l.withdrawal t) (l.cancel t)
  | takes {l : Link α} {p : Placed α} (hp : l.slot = some p) : Goes l p.receipt l.take
  | closes (l : Link α) : Goes l l.closure l.close
  | trans {l l' l'' : Link α} {e e' : Daybook α} (h : Goes l e l') (h' : Goes l' e' l'') :
      Goes l (e ++ e') l''

/-- **Whatever happens to a link, its books go on to tally**, as long as senders have their own
tickets. -/
theorem Daybook.Tallies.goes {α : Type} {k e : Daybook α} {l l' : Link α} (h : k.Tallies l)
    (hg : l.Goes e l') (hdistinct : (k ++ e).tickets.Nodup) : (k ++ e).Tallies l' := by
  induction hg generalizing k with
  | enter l => exact (append_blank k).symm ▸ h.enter
  | handles l n => exact (append_blank k).symm ▸ h.congr rfl rfl rfl
  | comes l p => exact h.comes (new_of_nodup hdistinct)
  | linesUp l p => exact h.linesUp (new_of_nodup hdistinct)
  | cancel l t => exact h.cancel t
  | takes hp => exact h.takes hp
  | closes l => exact h.closes
  | trans h₁ h₂ ih₁ ih₂ =>
    rw [← append_assoc] at hdistinct ⊢
    have hbefore := hdistinct
    rw [tickets_append] at hbefore
    exact ih₂ (ih₁ h hbefore.of_append_left) hdistinct

end Steward

import Mathlib
import Steward.Proofs.Service.Relay
import Steward.Proofs.Subscriber.Panic

/-!
# Proofs/Service/Echo — whether what the audience publishes comes to rest

What the audience publishes comes round to it again.  A dropped announcement is not announced, but a panic
over the report of a panic is reported, so what is told once may echo for ever.

An event *entails* what may be published on account of it, whatever the subscriber was handed before, and
it *fades* if every chain of such events ends.  `echoBound` is then the most that the audience can publish.
The count is an amortized one: what is unread on the bus and what is pending with the workers is paid for
in advance by what was told (`Paid`).

* `Paid.does` — nothing that can happen spends more than was paid.
* `fadesIn_of_quiet` — among observers that do not panic over events about observers, all events fade.
* `echoes_fade_or_repeat` — what fades sets off no more than its bound, in whatever order things happen;
  an observer that panics over the report of its own panic is an example of what does not fade.
-/

namespace Steward

/-- The price of events, each of which counts, with all that may follow from it. -/
def Event.price (weight : Event → Nat) (es : List Event) : Nat := (es.map fun e => 1 + weight e).sum

namespace Subscriber

/-- What may be announced because the subscriber drops an event. -/
def announcements (s : Subscriber) (e : Event) : List Event :=
  if e.isOverflow then []
  else [.overflow s.name DropReason.full.text, .overflow s.name DropReason.closed.text]

/-- An event may be published because the subscriber is offered another one: it reports a panic over that,
whatever was handed over before, or announces that it was dropped. -/
def Entails (s : Subscriber) (e d : Event) : Prop :=
  s.interested e.kind = true ∧ ((∃ before, d ∈ s.report e before) ∨ d ∈ s.announcements e)

/-- The most that the report of a panic over the event may cost, whatever was handed over before.  There is
one report at most, so this is a maximum as soon as the weights are bounded, as those of `echoBound` are. -/
noncomputable def dues (weight : Event → Nat) (s : Subscriber) (e : Event) : Nat :=
  ⨆ before, Event.price weight (s.report e before)

/-- The most that the subscriber may set off with an event, which it either handles or drops. -/
noncomputable def toll (weight : Event → Nat) (s : Subscriber) (e : Event) : Nat :=
  if s.interested e.kind then
    max (s.dues weight e) ((s.announcements e).foldr (fun d n => max (1 + weight d) n) 0)
  else 0

end Subscriber

/-- Nothing follows any more after so many generations. -/
def FadesIn (subs : List Subscriber) : Nat → Event → Prop
  | 0, _ => False
  | n + 1, e => ∀ s ∈ subs, ∀ d, s.Entails e d → FadesIn subs n d

/-- The most that may follow from an event in so many generations. -/
noncomputable def echoBound (subs : List Subscriber) : Nat → Event → Nat
  | 0, _ => 0
  | n + 1, e => (subs.map fun s => s.toll (echoBound subs n) e).sum

/-! ## What can follow from an event -/

section Consequences

variable {subs : List Subscriber} {s : Subscriber} {e d : Event} {n : Nat}
  {weight weight' : Event → Nat}

theorem Event.price_append (weight : Event → Nat) (es es' : List Event) :
    price weight (es ++ es') = price weight es + price weight es' := by
  simp [price]

theorem Subscriber.isOverflow_announcements (hd : d ∈ s.announcements e) : d.isOverflow = true := by
  unfold announcements at hd
  split at hd
  · cases hd
  · rcases List.mem_pair.mp hd with rfl | rfl <;> rfl

/-- All that can follow is about observers. -/
theorem Subscriber.Entails.isAboutObserver (h : s.Entails e d) : d.isAboutObserver = true := by
  rcases h.2 with ⟨before, hreport⟩ | hannounced
  · exact Bool.or_eq_true_iff.mpr (.inr (isPanicReport_of_report hreport))
  · exact Bool.or_eq_true_iff.mpr (.inl (isOverflow_announcements hannounced))

/-- An event that fades does so in any larger number of generations. -/
theorem FadesIn.succ (h : FadesIn subs n e) : FadesIn subs (n + 1) e := by
  induction n generalizing e with
  | zero => cases h
  | succ n ih => exact fun s hs d hd => ih (h s hs d hd)

/-- What an event that fades entails does so as well. -/
theorem FadesIn.entailed (h : FadesIn subs n e) (hs : s ∈ subs) (hd : s.Entails e d) :
    FadesIn subs n d := by
  cases n with
  | zero => cases h
  | succ n => exact (h s hs d hd).succ

/-! ### What the subscribers set off -/

/-- The dearest of some events, one of which is published. -/
theorem le_foldr_max (weight : Event → Nat) {ds : List Event} (hd : d ∈ ds) :
    1 + weight d ≤ ds.foldr (fun d n => max (1 + weight d) n) 0 := by
  induction ds with
  | nil => cases hd
  | cons d' ds ih =>
    rw [List.foldr_cons]
    rcases List.mem_cons.mp hd with rfl | hlater
    · exact Nat.le_max_left _ _
    · exact Nat.le_trans (ih hlater) (Nat.le_max_right _ _)

theorem foldr_max_le {k : Nat} {ds : List Event} (h : ∀ d ∈ ds, weight d ≤ k) :
    ds.foldr (fun d n => max (1 + weight d) n) 0 ≤ k + 1 := by
  induction ds with
  | nil => exact Nat.zero_le _
  | cons d ds ih =>
    rw [List.forall_mem_cons] at h
    rw [List.foldr_cons, Nat.max_le]
    exact ⟨by omega, ih h.2⟩

theorem foldr_max_congr {ds : List Event} (h : ∀ d ∈ ds, weight d = weight' d) :
    ds.foldr (fun d n => max (1 + weight d) n) 0 = ds.foldr (fun d n => max (1 + weight' d) n) 0 := by
  induction ds with
  | nil => rfl
  | cons d ds ih =>
    rw [List.forall_mem_cons] at h
    rw [List.foldr_cons, List.foldr_cons, h.1, ih h.2]

/-- There is at most one report of an event. -/
theorem Subscriber.price_report_le {k : Nat} {before : List Event}
    (h : ∀ d ∈ s.report e before, weight d ≤ k) : Event.price weight (s.report e before) ≤ k + 1 := by
  unfold report at h ⊢
  split at h
  · have hone := h _ (List.mem_singleton_self _)
    simp only [Event.price, List.map_cons, List.map_nil, List.sum_cons, List.sum_nil]
    omega
  · exact Nat.zero_le _

/-- The dues cover each report. -/
theorem Subscriber.price_report_le_dues {k : Nat} (hweight : ∀ d, weight d ≤ k) (s : Subscriber)
    (e : Event) (before : List Event) :
    Event.price weight (s.report e before) ≤ s.dues weight e := by
  refine le_ciSup (f := fun before => Event.price weight (s.report e before)) ⟨k + 1, ?_⟩ before
  rintro _ ⟨past, rfl⟩
  exact s.price_report_le fun d _ => hweight d

/-- The dues cover all that is reported of some events. -/
theorem Subscriber.price_reports_le {k : Nat} (hweight : ∀ d, weight d ≤ k) (s : Subscriber)
    (before es : List Event) :
    Event.price weight (s.reports before es) ≤ (es.map (s.dues weight)).sum := by
  induction es generalizing before with
  | nil => exact Nat.le_refl 0
  | cons e es ih =>
    rw [reports, Event.price_append, List.map_cons, List.sum_cons]
    exact Nat.add_le_add (s.price_report_le_dues hweight e before) (ih _)

/-- The toll depends on what can follow. -/
theorem Subscriber.toll_congr (h : ∀ d, s.Entails e d → weight d = weight' d) :
    s.toll weight e = s.toll weight' e := by
  unfold toll
  split
  · rename_i hwants
    have hdues : s.dues weight e = s.dues weight' e := by
      refine iSup_congr fun before => congrArg List.sum (List.map_congr_left fun d hd => ?_)
      rw [h d ⟨hwants, .inl ⟨before, hd⟩⟩]
    rw [hdues, foldr_max_congr fun d hd => h d ⟨hwants, .inr hd⟩]
  · rfl

/-- More generations add nothing to the bound of an event that fades. -/
theorem echoBound_succ (h : FadesIn subs n e) : echoBound subs (n + 1) e = echoBound subs n e := by
  induction n generalizing e with
  | zero => cases h
  | succ n ih =>
    exact congrArg List.sum (List.map_congr_left fun s hs => s.toll_congr fun d hd => ih (h s hs d hd))

/-- The tolls of an event that fades are its bound. -/
theorem sum_toll (h : FadesIn subs n e) :
    (subs.map fun s => s.toll (echoBound subs n) e).sum = echoBound subs n e := echoBound_succ h

/-- A subscriber sets off one more than what can follow from an event, as it handles or drops it but
once. -/
theorem Subscriber.toll_le {k : Nat} (h : ∀ d, s.Entails e d → weight d ≤ k) :
    s.toll weight e ≤ k + 1 := by
  unfold toll
  split
  · rename_i hwants
    have hdues : s.dues weight e ≤ k + 1 :=
      ciSup_le' fun before => s.price_report_le fun d hd => h d ⟨hwants, .inl ⟨before, hd⟩⟩
    exact Nat.max_le.mpr ⟨hdues, foldr_max_le fun d hd => h d ⟨hwants, .inr hd⟩⟩
  · exact Nat.zero_le _

/-- Where nothing can follow, nothing is set off. -/
theorem Subscriber.toll_eq_zero (h : ∀ d, ¬ s.Entails e d) : s.toll weight e = 0 := by
  unfold toll
  split
  · rename_i hwants
    have hquiet (before : List Event) : s.report e before = [] :=
      List.eq_nil_iff_forall_not_mem.mpr fun d hd => h d ⟨hwants, .inl ⟨before, hd⟩⟩
    have hkept : s.announcements e = [] :=
      List.eq_nil_iff_forall_not_mem.mpr fun d hd => h d ⟨hwants, .inr hd⟩
    simp [dues, hquiet, hkept, Event.price]
  · rfl

theorem echoBound_le {k : Nat}
    (h : ∀ s ∈ subs, ∀ d, s.Entails e d → echoBound subs n d ≤ k) :
    echoBound subs (n + 1) e ≤ subs.length * (k + 1) := by
  have hsum := List.sum_le_card_nsmul (subs.map fun s => s.toll (echoBound subs n) e) (k + 1) (by
    intro t ht
    obtain ⟨s, hs, rfl⟩ := List.mem_map.mp ht
    exact s.toll_le (h s hs))
  rwa [List.length_map, Nat.nsmul_eq_mul] at hsum

/-- In so many generations there is only so much that can follow, from any event. -/
theorem exists_echoBound_le (subs : List Subscriber) (n : Nat) : ∃ k, ∀ e, echoBound subs n e ≤ k := by
  induction n with
  | zero => exact ⟨0, fun _ => Nat.le_refl 0⟩
  | succ n ih =>
    obtain ⟨k, hk⟩ := ih
    exact ⟨subs.length * (k + 1), fun e => echoBound_le fun s _ d _ => hk d⟩

/-! ### Quiet observers -/

/-- An observer that panics over no event that it sees about observers. -/
def Subscriber.Quiet (s : Subscriber) : Prop :=
  ∀ (e : Event) (before : List Event), e.isAboutObserver = true → s.interested e.kind = true →
    s.report e before = []

/-- Nothing but announcements follows from what is about observers. -/
theorem Subscriber.Quiet.announces (h : s.Quiet) (habout : e.isAboutObserver = true)
    (hd : s.Entails e d) : d ∈ s.announcements e := by
  refine hd.2.resolve_left ?_
  rintro ⟨before, hreport⟩
  rw [h e before habout hd.1] at hreport
  cases hreport

/-- And nothing from an announcement. -/
theorem Subscriber.Quiet.not_entails (h : s.Quiet) (hover : e.isOverflow = true) (d : Event) :
    ¬ s.Entails e d := by
  intro hd
  have hannounced := h.announces (Bool.or_eq_true_iff.mpr (.inl hover)) hd
  rw [announcements, if_pos hover] at hannounced
  cases hannounced

/-- **Among quiet observers everything fades**, and soon. -/
theorem fadesIn_of_quiet (h : ∀ s ∈ subs, s.Quiet) (e : Event) :
    FadesIn subs 3 e ∧ echoBound subs 3 e ≤ subs.length * (subs.length + 1) := by
  have hover {s s' : Subscriber} (hs' : s' ∈ subs) {d d' : Event} (hd : s.Entails e d)
      (hd' : s'.Entails d d') : d'.isOverflow = true :=
    Subscriber.isOverflow_announcements ((h s' hs').announces hd.isAboutObserver hd')
  refine ⟨fun s hs d hd s' hs' d' hd' s'' hs'' d'' hd'' => ?_, echoBound_le fun s hs d hd => ?_⟩
  · exact absurd hd'' ((h s'' hs'').not_entails (hover hs' hd hd') d'')
  · have hzero : subs.length = subs.length * (0 + 1) := by omega
    rw [hzero]
    refine echoBound_le fun s' hs' d' hd' => Nat.le_of_eq (List.sum_eq_zero fun t ht => ?_)
    obtain ⟨s'', hs'', rfl⟩ := List.mem_map.mp ht
    exact Subscriber.toll_eq_zero ((h s'' hs'').not_entails (hover hs' hd hd'))

end Consequences

/-! ## A worker that panics -/

/-- An empty queue takes an event. -/
theorem Worker.offer_idle {s : Subscriber} {w : Worker} (hgoing : w.ended = false)
    (hqueue : w.queue = []) (e : Event) :
    w.offer s e = ({ w with queue := [e], listens := false }, none) := by
  have hroom : w.queue.length < s.room := by
    rw [hqueue]
    exact Nat.le_max_left 1 s.capacity
  rw [offer_room hgoing hroom, hqueue, List.nil_append]

/-- A worker gets over a panic: it reports it, and has nothing in hand. -/
theorem Worker.next?_panics {s : Subscriber} {w : Worker} {e report : Event} {rest : List Event}
    (hfree : s.gated = false) (hgoing : w.ended = false) (hheld : w.held = none)
    (hqueue : w.queue = e :: rest) (hpanics : s.report e w.seen = [report]) :
    ∃ w', w.next? s = some (w', [report]) ∧ w'.held = none ∧ w'.queue = rest ∧ w'.ended = false := by
  unfold Subscriber.report at hpanics
  split at hpanics
  · rename_i payload hreaction
    obtain rfl := List.singleton_inj.mp hpanics
    refine ⟨(w.fetch s e rest).1, ?_, ?_⟩
    · simp [next?, isHeldUp, hgoing, hheld, hqueue, fetch, hreaction, hfree, handle]
    · simp [fetch, hreaction, hfree, handle, hgoing]
  · cases hpanics

/-! ## What the audience owes -/

section Debt

variable (weight : Event → Nat) {k : Nat} (hweight : ∀ d, weight d ≤ k)

/-- What a member may publish for what it has. -/
noncomputable def Member.debt (m : Member) : Nat :=
  (m.worker.pending.map (m.subscriber.dues weight)).sum

include hweight in
/-- A worker pays for what it publishes. -/
theorem Member.debt_of_hands {m : Member} {w : Worker} {handed published : List Event}
    (h : m.worker.Hands m.subscriber handed published w) :
    Event.price weight published + Member.debt weight { m with worker := w } ≤ m.debt weight := by
  have hreports : Event.price weight published ≤ (handed.map (m.subscriber.dues weight)).sum := by
    rw [h.reports]
    exact m.subscriber.price_reports_le hweight m.worker.seen handed
  have hpending : ((handed ++ w.pending).map (m.subscriber.dues weight)).sum ≤ m.debt weight :=
    (h.pending.map _).sum_le_sum fun _ _ => Nat.zero_le _
  rw [List.map_append, List.sum_append] at hpending
  simp only [Member.debt] at hpending ⊢
  omega

/-- A member that is offered an event does not care, drops it, or has it in its queue. -/
theorem Member.offer_cases (m : Member) (e : Event) :
    m.offer e = (m, []) ∨
    (m.subscriber.interested e.kind = true ∧
      ∃ d ∈ m.subscriber.announcements e, m.offer e = (m, [d])) ∨
    (m.subscriber.interested e.kind = true ∧
      ∃ w, m.offer e = ({ m with worker := w }, []) ∧ w.pending = m.worker.pending ++ [e]) := by
  unfold Member.offer
  split
  · rename_i hwants
    cases hended : m.worker.ended with
    | true =>
      rw [Worker.offer_ended hended]
      by_cases hoverflow : e.isOverflow = true
      · exact .inl (by simp [hoverflow])
      · refine .inr (.inl ⟨hwants, .overflow m.subscriber.name DropReason.closed.text, ?_, ?_⟩) <;>
          simp [Subscriber.announcements, hoverflow]
    | false =>
      by_cases hfull : m.subscriber.room ≤ m.worker.queue.length
      · rw [Worker.offer_full hended hfull]
        by_cases hoverflow : e.isOverflow = true
        · exact .inl (by simp [hoverflow])
        · refine .inr (.inl ⟨hwants, .overflow m.subscriber.name DropReason.full.text, ?_, ?_⟩) <;>
            simp [Subscriber.announcements, hoverflow]
      · rw [Worker.offer_room hended (Nat.lt_of_not_le hfull)]
        exact .inr (.inr ⟨hwants, _, rfl, by simp [Worker.pending]⟩)
  · exact .inl rfl

/-- What a member owes for an event, and announces of it, is no more than its toll. -/
theorem Member.debt_offer (m : Member) (e : Event) :
    Event.price weight (m.offer e).2 + (m.offer e).1.debt weight ≤
      m.debt weight + m.subscriber.toll weight e := by
  rcases m.offer_cases e with hquiet | ⟨hwants, d, hd, hdrops⟩ | ⟨hwants, w, hqueues, hpending⟩
  · rw [hquiet]
    simp [Event.price]
  · have hannounced := le_foldr_max weight hd
    rw [hdrops, Subscriber.toll, if_pos hwants]
    simp only [Event.price, List.map_cons, List.map_nil, List.sum_cons, List.sum_nil] at hannounced ⊢
    omega
  · have hdebt : Member.debt weight { m with worker := w } =
        m.debt weight + m.subscriber.dues weight e := by
      simp [Member.debt, hpending]
    rw [hqueues, hdebt, Subscriber.toll, if_pos hwants]
    simp only [Event.price, List.map_nil, List.sum_nil]
    omega

namespace Audience

variable {a a' a'' : Audience} {p : Subscriber → Event → Prop}

/-- What the members may publish for what they have. -/
noncomputable def debt (a : Audience) : Nat := (a.members.map (Member.debt weight)).sum

theorem debt_set {ms : List Member} {i : Nat} {m : Member} (hm : ms[i]? = some m) (m' : Member) :
    ((ms.set i m').map (Member.debt weight)).sum + m.debt weight =
      (ms.map (Member.debt weight)).sum + m'.debt weight := by
  induction ms generalizing i with
  | nil => cases hm
  | cons x xs ih =>
    cases i with
    | zero =>
      obtain rfl : x = m := by simpa using hm
      simp only [List.set_cons_zero, List.map_cons, List.sum_cons]
      omega
    | succ i =>
      have hlater := ih (by simpa using hm)
      simp only [List.set_cons_succ, List.map_cons, List.sum_cons]
      omega

/-- The members together owe no more for an event than their tolls. -/
theorem debt_emit (a : Audience) (e : Event) :
    Event.price weight (a.emit e).2 + (a.emit e).1.debt weight ≤
      a.debt weight + (a.members.map fun m => m.subscriber.toll weight e).sum := by
  simp only [Audience.emit, debt]
  induction a.members with
  | nil => exact Nat.le_refl _
  | cons m ms ih =>
    have hfirst := m.debt_offer weight e
    simp only [List.flatMap_cons, List.map_cons, List.sum_cons, Event.price_append] at ih ⊢
    omega

/-- All that is pending with the members is of this kind. -/
def Within (p : Subscriber → Event → Prop) (a : Audience) : Prop :=
  ∀ m ∈ a.members, ∀ e ∈ m.worker.pending, p m.subscriber e

theorem Within.emit (h : a.Within p) {e : Event}
    (hnew : ∀ m ∈ a.members, m.subscriber.interested e.kind = true → p m.subscriber e) :
    (a.emit e).1.Within p := by
  intro m' hm' e' he'
  obtain ⟨m, hm, rfl⟩ := List.mem_map.mp hm'
  rcases m.offer_cases e with hquiet | ⟨-, d, -, hdrops⟩ | ⟨hwants, w, hqueues, hpending⟩
  · rw [hquiet] at he' ⊢
    exact h m hm e' he'
  · rw [hdrops] at he' ⊢
    exact h m hm e' he'
  · rw [hqueues] at he' ⊢
    rw [hpending, List.mem_append, List.mem_singleton] at he'
    rcases he' with hbefore | rfl
    · exact h m hm e' hbefore
    · exact hnew m hm hwants

/-- An audience has got ahead and paid for what it published, which are reports of what was pending. -/
structure Pays (p : Subscriber → Event → Prop) (published : List Event) (a a' : Audience) : Prop where
  subscribers : a'.members.map (·.subscriber) = a.members.map (·.subscriber)
  debt : Event.price weight published + a'.debt weight ≤ a.debt weight
  within : a.Within p → a'.Within p
  reports : a.Within p → ∀ d ∈ published, ∃ s e before, p s e ∧ d ∈ s.report e before

theorem Pays.nothing (members : a'.members = a.members) : Pays weight p [] a a' where
  subscribers := congrArg _ members
  debt := by simp [Event.price, Audience.debt, members]
  within h := by
    unfold Within
    rw [members]
    exact h
  reports _ := List.forall_mem_nil _

theorem Pays.trans {es es' : List Event} (h : Pays weight p es a a') (h' : Pays weight p es' a' a'') :
    Pays weight p (es ++ es') a a'' where
  subscribers := h'.subscribers.trans h.subscribers
  debt := by
    have hnow := h.debt
    have hthen := h'.debt
    rw [Event.price_append]
    omega
  within := h'.within ∘ h.within
  reports hp := List.forall_mem_append.mpr ⟨h.reports hp, h'.reports (h.within hp)⟩

include hweight in
/-- One worker hands events over and reports the panics over them. -/
theorem pays_set {member : Nat} {m : Member} (hm : a.members[member]? = some m) {w : Worker}
    {handed published : List Event} (hw : m.worker.Hands m.subscriber handed published w)
    (rota : Rota Nat) :
    Pays weight p published a ⟨a.members.set member { m with worker := w }, rota⟩ where
  subscribers := (handles_set hm hw.toHandles rota).subscribers
  debt := by
    have hpaid := Member.debt_of_hands weight hweight hw
    have hset := debt_set weight hm { m with worker := w }
    simp only [Audience.debt]
    omega
  within hp m' hm' e he := by
    rcases List.mem_or_eq_of_mem_set hm' with hother | rfl
    · exact hp m' hother e he
    · exact hp m (List.mem_of_getElem? hm) e (hw.pending.subset (List.mem_append_right _ he))
  reports hp d hd := by
    rw [hw.reports] at hd
    obtain ⟨e, he, before, hd⟩ := Subscriber.mem_reports hd
    have hpending : e ∈ m.worker.pending := hw.pending.subset (List.mem_append_left _ he)
    exact ⟨m.subscriber, e, before, hp m (List.mem_of_getElem? hm) e hpending, hd⟩

include hweight in
theorem pays_advance (a : Audience) (member : Nat) :
    Pays weight p (a.advance member).2 a (a.advance member).1 := by
  unfold advance
  split
  · exact .nothing weight rfl
  · rename_i m hm
    split
    · exact .nothing weight rfl
    · rename_i hnext
      obtain ⟨handed, hhands⟩ := Worker.hands_next? hnext
      exact pays_set weight hweight hm hhands a.rota

include hweight in
theorem pays_turn (a : Audience) (member : Nat) :
    Pays weight p (a.turn member).2 a (a.turn member).1 := by
  unfold turn
  split
  · exact .nothing weight rfl
  · rename_i m hm
    obtain ⟨handed, hhands⟩ := Worker.hands_turn m.subscriber m.worker Rota.allowance
    exact pays_set weight hweight hm hhands _

include hweight in
/-- **The workers pay for what they publish**, however long they run. -/
theorem pays_run (a : Audience) : Pays weight p a.run.2 a a.run.1 := by
  induction a using Audience.run.induct with
  | case1 a hnext =>
    rw [run_idle hnext]
    exact .nothing weight rfl
  | case2 a member rota hnext now ih =>
    rw [run_turn hnext]
    have hrota : Pays weight p [] a { a with rota := rota } := .nothing weight rfl
    exact (hrota.trans weight (pays_turn weight hweight { a with rota := rota } member)).trans weight ih

/-- Nobody publishes anything for a permit. -/
theorem pays_permit (a : Audience) (member n : Nat) : Pays weight p [] a (a.permit member n) := by
  have hsame {β : Type} (f : Member → β) (hf : ∀ m, f (m.permit n) = f m) :
      (a.permit member n).members.map f = a.members.map f := by
    refine List.ext_getElem? fun number => ?_
    rw [List.getElem?_map, List.getElem?_map, permit, List.getElem?_modify]
    cases a.members[number]? with
    | none => rfl
    | some m =>
      dsimp only [Option.map_some, Functor.map]
      split
      · exact congrArg some (hf m)
      · rfl
  refine ⟨hsame _ fun _ => rfl, ?_, fun hp => ?_, fun _ => List.forall_mem_nil _⟩
  · rw [debt, debt, hsame (Member.debt weight) fun _ => rfl]
    simp [Event.price]
  · have hall := hsame (fun m => ∀ e ∈ m.worker.pending, p m.subscriber e) fun _ => rfl
    intro m hm
    have hmem := hall ▸ List.mem_map_of_mem hm
    obtain ⟨m₀, hm₀, heq⟩ := List.mem_map.mp hmem
    exact heq ▸ hp m₀ hm₀

/-- What is announced of an event can follow from it. -/
theorem mem_announced {a : Audience} {e d : Event} (hd : d ∈ (a.emit e).2) :
    ∃ m ∈ a.members, m.subscriber.Entails e d := by
  obtain ⟨m, hm, hd⟩ := List.mem_flatMap.mp hd
  refine ⟨m, hm, ?_⟩
  rcases m.offer_cases e with hquiet | ⟨hwants, d', hd', hdrops⟩ | ⟨-, w, hqueues, -⟩
  · rw [hquiet] at hd
    cases hd
  · rw [hdrops] at hd
    obtain rfl := List.mem_singleton.mp hd
    exact ⟨hwants, .inr hd'⟩
  · rw [hqueues] at hd
    cases hd

end Audience

end Debt

/-! ## What fades comes to rest -/

namespace Relay

variable {subs : List Subscriber} {n : Nat} {r r' : Relay} {pos pos' : Nat} {feed : Feed}

/-- What may follow from the events from a position on. -/
def ahead (weight : Event → Nat) (r : Relay) (pos : Nat) : Nat :=
  ((r.aired.drop pos).map fun a => weight a.event).sum

/-- What was published is added to what is ahead. -/
theorem ahead_append (weight : Event → Nat) (aired : List Airing) (pos : Nat) (news : List Airing) :
    (((aired ++ news).drop pos).map fun a => weight a.event).sum ≤
      ((aired.drop pos).map fun a => weight a.event).sum +
        (news.map fun a => weight a.event).sum := by
  rw [List.drop_append, List.map_append, List.sum_append]
  refine Nat.add_le_add_left ?_ _
  exact ((List.drop_sublist _ news).map _).sum_le_sum fun _ _ => Nat.zero_le _

/-- A subscriber wants an event that fades. -/
def Fading (subs : List Subscriber) (n : Nat) (s : Subscriber) (e : Event) : Prop :=
  s ∈ subs ∧ s.interested e.kind = true ∧ FadesIn subs n e

/-- **What was told has paid** for what came from the audience, what is ahead of the listener, and what is
pending with the workers. -/
structure Paid (subs : List Subscriber) (n : Nat) (r : Relay) (pos : Nat) : Prop where
  subscribers : r.audience.members.map (·.subscriber) = subs
  fades : ∀ a ∈ r.aired, FadesIn subs n a.event
  within : r.audience.Within (Fading subs n)
  balance : r.echoes.length + r.ahead (echoBound subs n) pos + r.audience.debt (echoBound subs n) ≤
    (r.told.map (echoBound subs n)).sum

theorem paid_ofList (subs : List Subscriber) (capacity n : Nat) : (ofList subs capacity).Paid subs n 0 where
  subscribers := (Audience.accounts_ofList subs).subscribers
  fades := List.forall_mem_nil _
  within m hm e he := by
    obtain ⟨s, -, rfl⟩ := List.mem_map.mp hm
    cases he
  balance := by
    have hdebt : (Audience.ofList subs).debt (echoBound subs n) = 0 := by
      simp [Audience.debt, Audience.ofList, Member.debt, Member.fresh, Worker.fresh, Worker.pending,
        Function.comp_def]
    simp [ofList, Feed.ofList, echoes, told, ahead, hdebt]

/-- The audience publishes what is paid for by what the listener has got past. -/
theorem Paid.echo (h : r.Paid subs n pos) {published : List Event}
    (subscribers : feed.audience.members.map (·.subscriber) = r.audience.members.map (·.subscriber))
    (fades : ∀ e ∈ published, FadesIn subs n e)
    (within : feed.audience.Within (Fading subs n))
    (price : Event.price (echoBound subs n) published + feed.audience.debt (echoBound subs n) +
        r.ahead (echoBound subs n) pos' ≤
      r.audience.debt (echoBound subs n) + r.ahead (echoBound subs n) pos) :
    (r.echo feed published).Paid subs n pos' where
  subscribers := subscribers.trans h.subscribers
  fades := List.forall_mem_append.mpr ⟨h.fades, by simpa using fades⟩
  within := within
  balance := by
    have hbefore := h.balance
    have hahead := ahead_append (echoBound subs n) r.aired pos'
      (published.map (Airing.mk .audience))
    have hprice : Event.price (echoBound subs n) published = published.length +
        ((published.map (Airing.mk .audience)).map fun a => echoBound subs n a.event).sum := by
      simp [Event.price, List.sum_map_add, Function.comp_def]
    rw [echoes_echo, told_echo, List.length_append]
    simp only [ahead, Relay.echo] at hbefore price ⊢
    omega

/-- The workers publish what is paid for by what was pending. -/
theorem Paid.pays (h : r.Paid subs n pos) {published : List Event}
    (hpays : Audience.Pays (echoBound subs n) (Fading subs n) published r.audience feed.audience) :
    (r.echo feed published).Paid subs n pos := by
  refine h.echo hpays.subscribers (fun d hd => ?_) (hpays.within h.within)
    (Nat.add_le_add_right hpays.debt _)
  obtain ⟨s, e, before, ⟨hs, hwants, hfades⟩, hreport⟩ := hpays.reports h.within d hd
  exact hfades.entailed hs ⟨hwants, .inl ⟨before, hreport⟩⟩

/-- The listener hands an event on, which pays for what follows from it. -/
theorem Paid.hears (h : r.Paid subs n pos) {a : Airing} (hnext : r.aired[pos]? = some a)
    (haudience : feed.audience = (r.audience.emit a.event).1) :
    (r.echo feed (r.audience.emit a.event).2).Paid subs n (pos + 1) := by
  have hfades : FadesIn subs n a.event := h.fades a (List.mem_of_getElem? hnext)
  have hsubs {m : Member} (hm : m ∈ r.audience.members) : m.subscriber ∈ subs :=
    h.subscribers ▸ List.mem_map_of_mem hm
  refine h.echo ?_ (fun d hd => ?_) ?_ ?_
  · rw [haudience]
    exact (Audience.handles_emit r.audience a.event).subscribers
  · obtain ⟨m, hm, hd⟩ := Audience.mem_announced hd
    exact hfades.entailed (hsubs hm) hd
  · rw [haudience]
    exact h.within.emit fun m hm hwants => ⟨hsubs hm, hwants, hfades⟩
  · have hpaid := Audience.debt_emit (echoBound subs n) r.audience a.event
    have htoll : (r.audience.members.map fun m => m.subscriber.toll (echoBound subs n) a.event).sum =
        echoBound subs n a.event := by
      rw [← sum_toll hfades, ← h.subscribers, List.map_map]
      rfl
    have hahead : r.ahead (echoBound subs n) pos =
        echoBound subs n a.event + r.ahead (echoBound subs n) (pos + 1) := by
      obtain ⟨hlt, rfl⟩ := List.getElem?_eq_some_iff.mp hnext
      rw [ahead, List.drop_eq_getElem_cons hlt]
      rfl
    rw [haudience, hahead]
    omega

/-- The listener gets further without handing anything on. -/
theorem Paid.moves (h : r.Paid subs n pos) (hle : pos ≤ pos') : r.Paid subs n pos' where
  subscribers := h.subscribers
  fades := h.fades
  within := h.within
  balance := by
    have hbefore := h.balance
    have hahead : r.ahead (echoBound subs n) pos' ≤ r.ahead (echoBound subs n) pos := by
      obtain ⟨k, rfl⟩ := Nat.exists_eq_add_of_le hle
      have hlater : (r.aired.drop (pos + k)).Sublist (r.aired.drop pos) := by
        rw [← List.drop_drop]
        exact List.drop_sublist _ _
      exact (hlater.map _).sum_le_sum fun _ _ => Nat.zero_le _
    omega

/-- The run pays for what it tells. -/
theorem Paid.tells (h : r.Paid subs n pos) {e : Event} (hfades : FadesIn subs n e)
    (haudience : feed.audience = r.audience) :
    Paid subs n { r with toFeed := feed, aired := r.aired ++ [⟨.run, e⟩] } pos where
  subscribers := haudience ▸ h.subscribers
  fades := List.forall_mem_append.mpr ⟨h.fades, by simpa using hfades⟩
  within := haudience ▸ h.within
  balance := by
    have hbefore := h.balance
    have hahead := ahead_append (echoBound subs n) r.aired pos [⟨.run, e⟩]
    simp only [ahead, told, echoes, haudience, List.filter_append, List.map_append,
      List.sum_append, List.map_cons, List.map_nil, List.sum_cons, List.sum_nil, List.filter_cons,
      List.filter_nil, decide_true, reduceCtorEq, decide_false, if_true, Bool.false_eq_true, if_false,
      List.append_nil] at hbefore hahead ⊢
    omega

/-- **Nothing that can happen spends more than was paid.** -/
theorem Paid.does (h : r.Paid subs n pos) (hdoes : Does r pos r' pos')
    (hfades : ∀ e ∈ r'.told, FadesIn subs n e) : r'.Paid subs n pos' := by
  obtain ⟨k, hk⟩ := exists_echoBound_le subs n
  cases hdoes with
  | tells e _ haudience => exact h.tells (hfades e (by simp [told])) haudience
  | hears _ hnext haudience =>
    obtain ⟨hsubs, hfade, hwithin, hbalance⟩ := h.hears hnext haudience
    exact ⟨hsubs, hfade, hwithin, hbalance⟩
  | misses _ _ haudience =>
    obtain ⟨hsubs, hfade, hwithin, hbalance⟩ := h.moves (Nat.le_add_right pos _)
    exact ⟨haudience ▸ hsubs, hfade, haudience ▸ hwithin, haudience ▸ hbalance⟩
  | finds _ _ haudience =>
    exact ⟨haudience ▸ h.subscribers, h.fades, haudience ▸ h.within, haudience ▸ h.balance⟩
  | advances member haudience => exact h.pays (haudience ▸ Audience.pays_advance _ hk _ member)
  | works haudience => exact h.pays (haudience ▸ Audience.pays_run _ hk _)
  | permits member k =>
    have hpays : Audience.Pays (echoBound subs n) (Fading subs n) []
        r.audience { r.toFeed with audience := r.audience.permit member k }.audience :=
      Audience.pays_permit _ _ member k
    have hpaid := h.pays hpays
    rw [echo_nothing] at hpaid
    exact hpaid
  | callsOff _ | notices _ | nothing => exact ⟨h.subscribers, h.fades, h.within, h.balance⟩

/-- **What fades sets off no more than its bound**, whatever happens. -/
theorem length_echoes_le (subs : List Subscriber) (capacity n : Nat) (history : List Action)
    (hfades : ∀ e ∈ ((ofList subs capacity).after history).told, FadesIn subs n e) :
    ((ofList subs capacity).after history).echoes.length ≤
      (((ofList subs capacity).after history).told.map (echoBound subs n)).sum := by
  obtain ⟨pos, -, hpaid⟩ := keeps_after
    (P := fun r pos => (∀ e ∈ r.told, FadesIn subs n e) → r.Paid subs n pos)
    (fun r pos r' pos' hdoes h hthen =>
      (h fun e he => hthen e ((told_does hdoes).subset he)).does hdoes hthen)
    (tracks_ofList subs capacity) (fun _ => paid_ofList subs capacity n) history
  have hbalance := (hpaid hfades).balance
  omega

/-- Among quiet observers each event told sets off a limited number of others. -/
theorem length_echoes_of_quiet (hquiet : ∀ s ∈ subs, s.Quiet) (capacity : Nat)
    (history : List Action) :
    ((ofList subs capacity).after history).echoes.length ≤
      ((ofList subs capacity).after history).told.length * (subs.length * (subs.length + 1)) := by
  have hfades := length_echoes_le subs capacity 3 history fun e _ => (fadesIn_of_quiet hquiet e).1
  have hbound : ∀ t ∈ ((ofList subs capacity).after history).told.map (echoBound subs 3),
      t ≤ subs.length * (subs.length + 1) := by
    intro t ht
    obtain ⟨e, -, rfl⟩ := List.mem_map.mp ht
    exact (fadesIn_of_quiet hquiet e).2
  have hsum := List.sum_le_card_nsmul _ _ hbound
  rw [List.length_map, Nat.nsmul_eq_mul] at hsum
  exact hfades.trans hsum

/-! ## What does not -/

/-- The listener looks at the bus and one worker gets ahead, so many times. -/
def rounds (member n : Nat) : List Action := (List.replicate n [.listen, .advance member]).flatten

/-- The listener is called off, and notices. -/
def callingOff : List Action := [.callOff, .notice]

/-- Of these subscribers, the one with this number wants to see the event, and the others do not. -/
def OnlyWants (subs : List Subscriber) (number : Nat) (e : Event) : Prop :=
  ∀ (k : Nat) (s : Subscriber), subs[k]? = some s → (s.interested e.kind = true ↔ k = number)

/-- The last event on the bus is one that a subscriber will panic over, with this report, and that nobody
else wants to see.  The listener has read the others, and the worker has nothing to do. -/
structure Circles (subs : List Subscriber) (number : Nat) (s : Subscriber) (report : Event) (r : Relay) :
    Prop where
  going : r.stage ≠ .gone
  subscribers : r.audience.members.map (·.subscriber) = subs
  idle : ∃ w : Worker, r.audience.members[number]? = some ⟨s, w⟩ ∧ w.held = none ∧ w.queue = [] ∧
    w.ended = false
  last : ∃ pos a, r.Tracks pos ∧ pos + 1 = r.aired.length ∧ r.aired[pos]? = some a ∧
    OnlyWants subs number a.event ∧ ∀ before, s.report a.event before = [report]

section Circles

variable {number : Nat} {s : Subscriber} {report : Event}

/-- There is news, and the end has not come. -/
theorem Circles.hasNews (h : r.Circles subs number s report) : r.hasNews = true ∧ r.isOver = false := by
  obtain ⟨pos, a, htracks, hlast, -⟩ := h.last
  refine ⟨?_, by simp [isOver, h.going]⟩
  have hunread := htracks.holds.isEmpty_unread htracks.position (by rw [length_events]; exact htracks.le)
  rw [length_events] at hunread
  have hsome : ¬ (r.bus.unread r.listener).isEmpty = true := fun hall => by
    have := hunread.mp hall
    omega
  simpa [Feed.hasNews] using hsome

/-- An event that one idle member wants to see goes into its queue, and nobody announces anything. -/
theorem emit_of_onlyWants {a : Audience} {w : Worker} {e : Event}
    (hsubs : a.members.map (·.subscriber) = subs) (hm : a.members[number]? = some ⟨s, w⟩)
    (hgoing : w.ended = false) (hqueue : w.queue = []) (honly : OnlyWants subs number e) :
    (a.emit e).1.members[number]? = some ⟨s, { w with queue := [e], listens := false }⟩ ∧
      (a.emit e).2 = [] := by
  have hmember {k : Nat} {m : Member} (hk : a.members[k]? = some m) :
      m.subscriber.interested e.kind = true ↔ k = number :=
    honly k m.subscriber (by rw [← hsubs, List.getElem?_map, hk]; rfl)
  have hwants : s.interested e.kind = true := (hmember hm).mpr rfl
  have hoffer : Member.offer ⟨s, w⟩ e = (⟨s, { w with queue := [e], listens := false }⟩, []) := by
    simp [Member.offer, hwants, Worker.offer_idle hgoing hqueue]
  refine ⟨by simp [Audience.emit, hm, hoffer], List.flatMap_eq_nil_iff.mpr fun m hmem => ?_⟩
  obtain ⟨k, hk⟩ := List.mem_iff_getElem?.mp hmem
  by_cases hnumber : k = number
  · subst hnumber
    obtain rfl := Option.some.inj (hm.symm.trans hk)
    rw [hoffer]
  · have hbored : ¬ m.subscriber.interested e.kind = true := fun h => hnumber ((hmember hk).mp h)
    rw [Member.offer, if_neg hbored]

/-- **Once round**: the worker panics over the last event, and the report of that is the last event. -/
theorem Circles.round (h : r.Circles subs number s report) (hfree : s.gated = false)
    (honly : OnlyWants subs number report) (hpanics : ∀ before, s.report report before = [report]) :
    (r.after [.listen, .advance number]).Circles subs number s report ∧
      (r.after [.listen, .advance number]).told = r.told ∧
      (r.after [.listen, .advance number]).echoes = r.echoes ++ [report] := by
  obtain ⟨w, hmember, hheld, hqueue, hgoing⟩ := h.idle
  obtain ⟨pos, a, htracks, hlast, hnext, honlyNow, hpanicsNow⟩ := h.last
  obtain ⟨hqueued, hquiet⟩ := emit_of_onlyWants h.subscribers hmember hgoing hqueue honlyNow
  obtain ⟨feed, haudience, hlisten, hthen⟩ := htracks.hears h.going hnext
    (htracks.holds.receive_event htracks.position (by simp [events, hnext])
      (by rw [length_events]; have := htracks.room; omega))
  -- the worker takes the event from its queue, and panics
  obtain ⟨w', hstep, hheld', hqueue', hgoing'⟩ := Worker.next?_panics
    (w := { w with queue := [a.event], listens := false }) hfree hgoing hheld rfl (hpanicsNow _)
  have hheard : r.listen.audience = (r.audience.emit a.event).1 := by rw [hlisten]; exact haudience
  rw [← hheard] at hqueued
  have hadvance : r.listen.audience.advance number =
      (⟨r.listen.audience.members.set number ⟨s, w'⟩, r.listen.audience.rota⟩, [report]) := by
    simp [Audience.advance, hqueued, hstep]
  have hthere : number < r.listen.audience.members.length := (List.getElem?_eq_some_iff.mp hqueued).1
  have hsubs : (r.listen.audience.advance number).1.members.map (·.subscriber) = subs := by
    obtain ⟨hs, hhandles, -⟩ := Audience.handles_advance (a := r.listen.audience) rfl number
    rw [hhandles.subscribers, hheard, (Audience.handles_emit r.audience a.event).subscribers]
    exact h.subscribers
  have hround : r.after [.listen, .advance number] =
      r.listen.echo _ (r.listen.audience.advance number).2 := rfl
  have haired : r.listen.aired = r.aired := by
    rw [hlisten]
    simp [Relay.echo, hquiet]
  have hairs := hthen.airs .audience (r.listen.audience.advance number).2
    (r.listen.audience.advance number).1
  refine ⟨⟨?_, hsubs, ⟨w', ?_, hheld', hqueue', hgoing'⟩, pos + 1, ⟨.audience, report⟩,
    ⟨hairs.holds, hairs.position, hairs.le, hairs.room⟩, ?_, ?_, honly, hpanics⟩, ?_, ?_⟩
  · rw [hround, hlisten]
    exact h.going
  · have hafter : (r.after [.listen, .advance number]).audience =
        (r.listen.audience.advance number).1 := rfl
    rw [hafter, hadvance]
    exact List.getElem?_set_self hthere
  · simp [hround, Relay.echo, haired, hadvance, hlast]
  · simp [hround, Relay.echo, haired, hadvance, hlast]
  · rw [hround, told_echo, told, haired, told]
  · rw [hround, echoes_echo, hadvance, echoes, haired, echoes]

/-- **Round and round**: each time there is one more report, and as much to do as before. -/
theorem Circles.rounds (h : r.Circles subs number s report) (hfree : s.gated = false)
    (honly : OnlyWants subs number report) (hpanics : ∀ before, s.report report before = [report])
    (n : Nat) :
    (r.after (rounds number n)).Circles subs number s report ∧
      (r.after (rounds number n)).told = r.told ∧
      (r.after (rounds number n)).echoes = r.echoes ++ List.replicate n report := by
  induction n generalizing r with
  | zero => exact ⟨h, rfl, (List.append_nil _).symm⟩
  | succ n ih =>
    obtain ⟨hnow, htold, hechoes⟩ := h.round hfree honly hpanics
    obtain ⟨hlater, htold', hechoes'⟩ := ih hnow
    refine ⟨hlater, htold'.trans htold, hechoes'.trans ?_⟩
    rw [hechoes, List.append_assoc, List.replicate_succ]
    rfl

/-- One event is told that a subscriber will panic over. -/
theorem circles_tell {e : Event} (hs : subs[number]? = some s) (honly : OnlyWants subs number e)
    (hpanics : ∀ before, s.report e before = [report]) (capacity : Nat) :
    ((ofList subs capacity).act (.tell e)).Circles subs number s report where
  going := nofun
  subscribers := (Audience.accounts_ofList subs).subscribers
  idle := by
    refine ⟨.fresh, ?_, rfl, rfl, rfl⟩
    change (subs.map Member.fresh)[number]? = _
    rw [List.getElem?_map, hs]
    rfl
  last := ⟨0, ⟨.run, e⟩, ((tracks_ofList subs capacity).tell e).2, rfl, rfl, honly, hpanics⟩

/-- To call the listener off does not keep it from reading what is left. -/
theorem Circles.callOff (h : r.Circles subs number s report) (hattending : r.stage = .attending) :
    (r.after callingOff).Circles subs number s report := by
  obtain ⟨pos, a, htracks, hlast⟩ := h.last
  have hstage : r.after callingOff = { r with stage := .draining } := by
    simp [callingOff, after, act, hattending]
  have hstays : Stage.draining ≠ .gone := by decide
  rw [hstage]
  exact ⟨fun hgone => absurd hgone hstays, h.subscribers, h.idle, pos, a,
    ⟨htracks.holds, htracks.position, htracks.le, htracks.room⟩, hlast⟩

end Circles

/-- **What fades sets off no more than its bound; what does not may echo for ever.**  Whatever happens
between the bus, the listener and the workers, the audience publishes no more than the events told can set
off, if all of these fade.  With observers that panic over no event about observers all events fade, and
each sets off no more than a number of events that depends on how many observers there are.  But an
observer that panics over the report of its own panic does so again with each report, whether or not the
listener was called off, so that the run does not come to its end. -/
theorem echoes_fade_or_repeat (subs : List Subscriber) (capacity : Nat) :
    (∀ (n : Nat) (history : List Action),
      let r := (ofList subs capacity).after history
      (∀ e ∈ r.told, FadesIn subs n e) →
        r.echoes.length ≤ (r.told.map (echoBound subs n)).sum) ∧
    ((∀ s ∈ subs, s.Quiet) →
      (∀ e, FadesIn subs 3 e) ∧
      ∀ history : List Action,
        let r := (ofList subs capacity).after history
        r.echoes.length ≤ r.told.length * (subs.length * (subs.length + 1))) ∧
    ∀ (number : Nat) (s : Subscriber) (e report : Event), subs[number]? = some s → s.gated = false →
      OnlyWants subs number e → (∀ before, s.report e before = [report]) →
      OnlyWants subs number report → (∀ before, s.report report before = [report]) →
      ∀ calling, calling = [] ∨ calling = callingOff → ∀ n,
        let r := (ofList subs capacity).after (.tell e :: calling ++ rounds number n)
        r.told = [e] ∧ r.echoes = List.replicate n report ∧ r.hasNews = true ∧ r.isOver = false := by
  refine ⟨length_echoes_le subs capacity, fun hquiet =>
    ⟨fun e => (fadesIn_of_quiet hquiet e).1, length_echoes_of_quiet hquiet capacity⟩, ?_⟩
  intro number s e report hs hfree honly hpanics honly' hpanics' calling hcalling n r
  have htell : ((ofList subs capacity).act (.tell e)).Circles subs number s report :=
    circles_tell hs honly hpanics capacity
  have hcalled : ((ofList subs capacity).after (.tell e :: calling)).Circles subs number s report ∧
      ((ofList subs capacity).after (.tell e :: calling)).told = [e] ∧
      ((ofList subs capacity).after (.tell e :: calling)).echoes = [] := by
    rcases hcalling with rfl | rfl
    · exact ⟨htell, rfl, rfl⟩
    · exact ⟨htell.callOff rfl, rfl, rfl⟩
  obtain ⟨hcircles, htold, hechoes⟩ := hcalled.1.rounds hfree honly' hpanics' n
  rw [← after_append] at hcircles htold hechoes
  rw [hcalled.2.1] at htold
  rw [hcalled.2.2, List.nil_append] at hechoes
  exact ⟨htold, hechoes, hcircles.hasNews⟩

/-- It has room for one event, and panics over the start of the handler. -/
def hasty : Subscriber where
  name := "hasty"
  capacity := 1
  interested _ := true
  gated := false
  reaction e _ := if e.kind = .handlerStarted then .panics (.text "boom") else .handles

/-- The second event finds the queue full; then the worker panics over the first one. -/
def twoEvents : List Action :=
  [.tell (.ofKind .handlerStarted), .tell (.ofKind .handlerExited), .listen, .listen, .advance 0,
    .listen, .advance 0, .listen, .advance 0]

/-- The hasty one sets off two events, of the four that it might, and the loud one goes on and on. -/
theorem twoEvents_fade :
    ((ofList [hasty] 8).after twoEvents).echoes = [.overflow "hasty" "full", .panicked "hasty" "boom"] ∧
    ((ofList [hasty] 8).after twoEvents).echoes.length ≤ 2 * (1 * (1 + 1)) ∧
    ((ofList [hasty] 8).after twoEvents).hasNews = false ∧
    ((ofList [Fanout.loud] 8).after
      (.tell (.ofKind .handlerStarted) :: callingOff ++ rounds 0 100)).echoes =
        List.replicate 100 (.panicked "loud" "no") := by
  have hquiet : ∀ s ∈ [hasty], s.Quiet := by
    intro s hs e _ habout _
    obtain rfl := List.mem_singleton.mp hs
    have hother : e.kind ≠ .handlerStarted := by
      rintro hkind
      simp [Event.isAboutObserver, hkind] at habout
    simp [Subscriber.report, hasty, hother]
  obtain ⟨-, hfades, -⟩ := echoes_fade_or_repeat [hasty] 8
  obtain ⟨-, hbound⟩ := hfades hquiet
  obtain ⟨-, -, hrepeats⟩ := echoes_fade_or_repeat [Fanout.loud] 8
  have honly (e : Event) : OnlyWants [Fanout.loud] 0 e := by
    intro k s hs
    obtain ⟨rfl, rfl⟩ : k = 0 ∧ Fanout.loud = s := by
      cases k with
      | zero => exact ⟨rfl, Option.some.inj hs⟩
      | succ k => cases hs
    exact ⟨fun _ => rfl, fun _ => rfl⟩
  have htold : ((ofList [hasty] 8).after twoEvents).told.length = 2 := by decide +kernel
  refine ⟨by decide +kernel, ?_, by decide +kernel, ?_⟩
  · rw [← htold]
    exact hbound twoEvents
  · exact (hrepeats 0 Fanout.loud (.ofKind .handlerStarted) (.panicked "loud" "no") rfl rfl (honly _)
      (fun _ => rfl) (honly _) (fun _ => rfl) callingOff (.inr rfl) 100).2.1

end Relay

end Steward

import Steward.Proofs.Subscriber.Accounting

/-!
# Proofs/Subscriber/Panic — what a panic costs a subscriber

A subscriber may panic over an event while it handles it, or before it has begun.  What becomes of the
other events depends on which: the first is caught and reported, the second is a *break*, which nobody
catches.  Which of them happens with an event, if any, may depend on the events handed over before, so all
of this is said of a list of events and the list of those before it.

* `Subscriber.breaksIn_iff` — a subscriber breaks on one of some events when it was handed those before it.
* `Worker.Handles`, `Worker.Hands` — each thing that happens to a worker hands some of the events it has to
  its subscriber, which breaks on none of them, and reports the panics over them; an ended worker stays so.
* `Worker.Serves.seen_of_finished` — with nothing left to do, a worker was handed all that was queued up to
  the first event its subscriber breaks on.
* `keeps_events_iff_breaks_on_none` — so a subscriber keeps its events exactly if it breaks on none of them.
-/

namespace Steward

namespace Subscriber

/-- The subscriber panics over the event before it has begun to handle it, after those before. -/
def breaksOn (s : Subscriber) (e : Event) (before : List Event) : Bool := s.reaction e before = .breaks

/-- What is published when the subscriber was handed an event, after those before: the report of its panic,
if it panics. -/
def report (s : Subscriber) (e : Event) (before : List Event) : List Event :=
  match s.reaction e before with
  | .panics payload => [Event.panicked s.name payload.message]
  | _ => []

/-- What is published when the subscriber was handed some events one by one, after those before. -/
def reports (s : Subscriber) (before : List Event) : List Event → List Event
  | [] => []
  | e :: es => s.report e before ++ s.reports (before ++ [e]) es

/-- The subscriber breaks on one of the events, which come one by one after those before. -/
def breaksIn (s : Subscriber) (before : List Event) : List Event → Bool
  | [] => false
  | e :: es => s.breaksOn e before || s.breaksIn (before ++ [e]) es

/-- The events up to the first that the subscriber breaks on. -/
def spared (s : Subscriber) (before : List Event) : List Event → List Event
  | [] => []
  | e :: es => if s.breaksOn e before then [] else e :: s.spared (before ++ [e]) es

variable {s : Subscriber} {e told : Event} {before es : List Event}

theorem isPanicReport_of_report (h : told ∈ s.report e before) : told.isPanicReport = true := by
  unfold report at h
  split at h
  · obtain rfl := List.mem_singleton.mp h
    rfl
  · cases h

@[simp] theorem reports_singleton (s : Subscriber) (before : List Event) (e : Event) :
    s.reports before [e] = s.report e before := List.append_nil _

theorem reports_append (s : Subscriber) (before es es' : List Event) :
    s.reports before (es ++ es') = s.reports before es ++ s.reports (before ++ es) es' := by
  induction es generalizing before with
  | nil => simp [reports]
  | cons e es ih => simp [reports, ih]

/-- Each report is that of some event, after those that came before it. -/
theorem mem_reports (h : told ∈ s.reports before es) : ∃ e ∈ es, ∃ past, told ∈ s.report e past := by
  induction es generalizing before with
  | nil => cases h
  | cons e es ih =>
    rcases List.mem_append.mp h with hnow | hlater
    · exact ⟨e, List.mem_cons_self, before, hnow⟩
    · obtain ⟨e', he', past, htold⟩ := ih hlater
      exact ⟨e', List.mem_cons_of_mem e he', past, htold⟩

theorem breaksIn_append (s : Subscriber) (before es es' : List Event) :
    s.breaksIn before (es ++ es') = (s.breaksIn before es || s.breaksIn (before ++ es) es') := by
  induction es generalizing before with
  | nil => simp [breaksIn]
  | cons e es ih => simp [breaksIn, ih, Bool.or_assoc]

/-- The last of the events comes after all others. -/
theorem breaksIn_concat (s : Subscriber) (es : List Event) (e : Event) :
    s.breaksIn [] (es ++ [e]) = (s.breaksIn [] es || s.breaksOn e es) := by
  simp [breaksIn_append, breaksIn]

/-- To break on one of the events is to break on it when all before it were handed over. -/
theorem breaksIn_iff : s.breaksIn [] es = true ↔
    ∃ past e later, es = past ++ e :: later ∧ s.breaksOn e past = true := by
  constructor
  · suffices hfrom : ∀ before, s.breaksIn before es = true →
        ∃ past e later, es = past ++ e :: later ∧ s.breaksOn e (before ++ past) = true from
      fun h => hfrom [] h
    induction es with
    | nil => exact fun _ h => nomatch h
    | cons e es ih =>
      intro before h
      rcases Bool.or_eq_true_iff.mp h with hnow | hlater
      · exact ⟨[], e, es, rfl, by rwa [List.append_nil]⟩
      · obtain ⟨past, e', later, rfl, hbreaks⟩ := ih _ hlater
        exact ⟨e :: past, e', later, rfl, by rwa [List.append_assoc] at hbreaks⟩
  · rintro ⟨past, e, later, rfl, hbreaks⟩
    simp [breaksIn_append, breaksIn, hbreaks]

/-- What the subscriber breaks on none of is spared. -/
theorem spared_append (h : s.breaksIn before es = false) (es' : List Event) :
    s.spared before (es ++ es') = es ++ s.spared (before ++ es) es' := by
  induction es generalizing before with
  | nil => simp
  | cons e es ih =>
    obtain ⟨hnow, hlater⟩ := Bool.or_eq_false_iff.mp h
    simp [spared, hnow, ih hlater]

end Subscriber

/-! ## One worker -/

namespace Worker

variable {s : Subscriber} {w w' w'' : Worker}

/-- The subscriber breaks on nothing that it was handed, nor on what the worker has in hand for it. -/
def Intact (s : Subscriber) (w : Worker) : Prop := s.breaksIn [] (w.seen ++ w.held.toList) = false

theorem Intact.seen (h : w.Intact s) : s.breaksIn [] w.seen = false := by
  rw [Intact, Subscriber.breaksIn_append, Bool.or_eq_false_iff] at h
  exact h.1

/-- What the worker has in hand is spared too. -/
theorem Intact.held (h : w.Intact s) {e : Event} (hheld : w.held = some e) :
    s.breaksOn e w.seen = false := by
  rw [Intact, hheld, Option.toList_some, Subscriber.breaksIn_concat, Bool.or_eq_false_iff] at h
  exact h.2

/-- A worker has got from one state to another, and handed these events over meanwhile. -/
structure Handles (s : Subscriber) (handed : List Event) (w w' : Worker) : Prop where
  seen : w'.seen = w.seen ++ handed
  intact : w.Intact s → w'.Intact s
  ended : w.ended = true → w'.ended = true

theorem Handles.refl (s : Subscriber) (w : Worker) : Handles s [] w w :=
  ⟨(List.append_nil _).symm, id, id⟩

theorem Handles.trans {as bs : List Event} (h : Handles s as w w') (h' : Handles s bs w' w'') :
    Handles s (as ++ bs) w w'' where
  seen := by rw [h'.seen, h.seen, List.append_assoc]
  intact := h'.intact ∘ h.intact
  ended := h'.ended ∘ h.ended

/-- What a worker has in hand and in its queue, in the order in which it will hand it over. -/
def pending (w : Worker) : List Event := w.held.toList ++ w.queue

/-- A worker has got ahead: what it handed over was pending before, and it published the reports of the
panics over that. -/
structure Hands (s : Subscriber) (handed published : List Event) (w w' : Worker) : Prop
    extends Handles s handed w w' where
  pending : (handed ++ w'.pending).Sublist w.pending
  reports : published = s.reports w.seen handed

theorem Hands.refl (s : Subscriber) (w : Worker) : Hands s [] [] w w :=
  ⟨.refl s w, List.Sublist.refl _, rfl⟩

theorem Hands.trans {as bs told told' : List Event} (h : Hands s as told w w')
    (h' : Hands s bs told' w' w'') : Hands s (as ++ bs) (told ++ told') w w'' where
  toHandles := h.toHandles.trans h'.toHandles
  pending := by
    rw [List.append_assoc]
    exact ((List.Sublist.refl as).append h'.pending).trans h.pending
  reports := by rw [Subscriber.reports_append, ← h.seen, ← h.reports, ← h'.reports]

/-- An event that comes in is not handed over yet. -/
theorem handles_offer (s : Subscriber) (w : Worker) (e : Event) : Handles s [] w (w.offer s e).1 := by
  unfold offer
  split
  · exact .refl s w
  · split
    · exact .refl s w
    · exact ⟨(List.append_nil _).symm, id, id⟩

theorem handles_permit (s : Subscriber) (w : Worker) (n : Nat) : Handles s [] w (w.permit n) :=
  ⟨(List.append_nil _).symm, id, id⟩

/-- A worker that waits hands nothing over. -/
theorem hands_await (s : Subscriber) (w : Worker) : Hands s [] [] w w.await :=
  ⟨⟨(List.append_nil _).symm, id, id⟩, List.Sublist.refl _, rfl⟩

/-- An event is handed over that the subscriber does not break on. -/
theorem handles_handle {e : Event} (hgoing : w.ended = false) (hspared : s.breaksOn e w.seen = false) :
    Handles s [e] w (w.handle s e).1 where
  seen := rfl
  intact h := by
    simp [Intact, handle, Subscriber.breaksIn_concat, h.seen, hspared]
  ended hended := nomatch hgoing.symm.trans hended

/-- What a worker takes out of its queue goes to the subscriber at once, or stays in hand; if the
subscriber breaks on it, it goes nowhere. -/
theorem hands_fetch (hgoing : w.ended = false) (hheld : w.held = none) {e : Event} {rest : List Event}
    (hqueue : w.queue = e :: rest) :
    ∃ handed, Hands s handed (w.fetch s e rest).2 w (w.fetch s e rest).1 := by
  have hpending : w.pending = e :: rest := by simp [pending, hheld, hqueue]
  unfold fetch
  split
  · refine ⟨[], ⟨(List.append_nil _).symm, id, fun _ => rfl⟩, ?_, rfl⟩
    exact (congrArg (· ++ []) (congrArg Option.toList hheld)).symm ▸ List.nil_sublist _
  · rename_i hreaction
    have hspared : s.breaksOn e w.seen = false := decide_eq_false hreaction
    dsimp only
    split
    · refine ⟨[], ⟨(List.append_nil _).symm, fun h => ?_, id⟩, ?_, rfl⟩
      · simp [Intact, Subscriber.breaksIn_concat, h.seen, hspared]
      · rw [hpending]
        exact List.Sublist.refl _
    · have hhandles := handles_handle (w := { w with queue := rest }) hgoing hspared
      refine ⟨[e], ⟨hhandles.seen, hhandles.intact, hhandles.ended⟩, ?_, (s.reports_singleton _ e).symm⟩
      rw [hpending]
      exact List.Sublist.refl _

/-- The event in hand goes to the subscriber, which does not break on it. -/
theorem hands_handOver (hgoing : w.ended = false) {e : Event} (hheld : w.held = some e) :
    Hands s [e] (w.handOver s e).2 w (w.handOver s e).1 where
  seen := rfl
  intact h :=
    (handles_handle (w := { w with permits := w.permits - 1 }) hgoing (h.held hheld)).intact h
  ended hended := nomatch hgoing.symm.trans hended
  pending := by
    have hpending : w.pending = e :: w.queue := by rw [pending, hheld]; rfl
    rw [hpending]
    exact List.Sublist.refl _
  reports := (s.reports_singleton _ e).symm

/-- **Each panic is reported once**: a worker that goes on publishes the reports of what it hands
over. -/
theorem hands_next? {t : Worker × List Event} (h : w.next? s = some t) :
    ∃ handed, Hands s handed t.2 w t.1 := by
  obtain ⟨hgoing, ⟨e, hheld, rfl⟩ | ⟨e, rest, hheld, hqueue, rfl⟩⟩ := next?_cases h
  · exact ⟨[e], hands_handOver hgoing hheld⟩
  · exact hands_fetch hgoing hheld hqueue

theorem hands_turn (s : Subscriber) (w : Worker) (n : Nat) :
    ∃ handed, Hands s handed (turn s w n).published w (turn s w n).worker := by
  induction n generalizing w with
  | zero => exact ⟨[], .refl s w⟩
  | succ n ih =>
    unfold turn
    split
    · exact ⟨[], hands_await s w⟩
    · rename_i w' published hnext
      obtain ⟨now, hnow⟩ := hands_next? hnext
      obtain ⟨later, hlater⟩ := ih w'
      exact ⟨now ++ later, hnow.trans hlater⟩

/-- **A worker with nothing left was handed all up to the first event its subscriber breaks on**, and
has ended exactly if there is one. -/
theorem Serves.seen_of_finished {queued : List Event} (h : Serves s w queued) (hintact : w.Intact s)
    (hfinished : w.isFinished = true) :
    w.seen = s.spared [] queued ∧ (w.ended = true ↔ s.breaksIn [] queued = true) := by
  have hseen : s.breaksIn [] w.seen = false := hintact.seen
  cases hended : w.ended with
  | false =>
    obtain rfl : w.seen = queued := h.seen hfinished hended
    have hall := Subscriber.spared_append hseen []
    rw [List.append_nil, Subscriber.spared, List.append_nil] at hall
    exact ⟨hall.symm, by simp [hseen]⟩
  | true =>
    obtain ⟨-, -, e, lost, hreaction, rfl⟩ := h.ended hended
    have hbreaks : s.breaksOn e w.seen = true := decide_eq_true hreaction
    have hlost := Subscriber.spared_append hseen (e :: lost)
    refine ⟨?_, fun _ => Subscriber.breaksIn_iff.mpr ⟨w.seen, e, lost, rfl, hbreaks⟩, fun _ => rfl⟩
    rw [hlost, List.nil_append, Subscriber.spared, if_pos hbreaks, List.append_nil]

end Worker

/-! ## All members -/

/-- An event is handed to a member. -/
structure Handing where
  member : Nat
  event : Event
  deriving DecidableEq

namespace Handing

/-- What a member is handed, in order. -/
def handedTo (member : Nat) (hs : List Handing) : List Event :=
  (hs.filter (·.member = member)).map (·.event)

/-- What is published when an event was handed to a member with one of these subscribers, after all that
was handed over before. -/
def report (subs : List Subscriber) (h : Handing) (before : List Handing) : List Event :=
  subs[h.member]?.elim [] (·.report h.event (handedTo h.member before))

/-- What is published when some events were handed over one by one. -/
def reports (subs : List Subscriber) (before : List Handing) : List Handing → List Event
  | [] => []
  | h :: hs => h.report subs before ++ reports subs (before ++ [h]) hs

theorem handedTo_append (member : Nat) (hs hs' : List Handing) :
    handedTo member (hs ++ hs') = handedTo member hs ++ handedTo member hs' := by
  simp [handedTo]

theorem handedTo_map (number member : Nat) (es : List Event) :
    handedTo number (es.map (⟨member, ·⟩)) = if member = number then es else [] := by
  by_cases hmember : member = number <;>
    simp [handedTo, hmember, List.filter_map, Function.comp_def]

theorem reports_append (subs : List Subscriber) (before hs hs' : List Handing) :
    reports subs before (hs ++ hs') = reports subs before hs ++ reports subs (before ++ hs) hs' := by
  induction hs generalizing before with
  | nil => simp [reports]
  | cons h hs ih => simp [reports, ih]

/-- What one member is handed is reported as its subscriber does. -/
theorem reports_map {subs : List Subscriber} {member : Nat} {s : Subscriber}
    (hs : subs[member]? = some s) (before : List Handing) (es : List Event) :
    reports subs before (es.map (⟨member, ·⟩)) = s.reports (handedTo member before) es := by
  induction es generalizing before with
  | nil => rfl
  | cons e es ih =>
    have hnext : handedTo member (before ++ [⟨member, e⟩]) = handedTo member before ++ [e] := by
      simp [handedTo]
    simp only [List.map_cons, reports, Subscriber.reports, ih, hnext]
    simp [report, hs]

end Handing

namespace Audience

variable {a a' a'' : Audience} {subs : List Subscriber} {hs hs' : List Handing}

/-- An audience has got from one state to another, and these events were handed to its members. -/
structure Handles (hs : List Handing) (a a' : Audience) : Prop where
  subscribers : a'.members.map (·.subscriber) = a.members.map (·.subscriber)
  workers : ∀ (number : Nat) (m' : Member), a'.members[number]? = some m' →
    ∃ m, a.members[number]? = some m ∧
      m.worker.Handles m'.subscriber (Handing.handedTo number hs) m'.worker

theorem Handles.refl (a : Audience) : Handles [] a a :=
  ⟨rfl, fun _ m hm => ⟨m, hm, .refl m.subscriber m.worker⟩⟩

/-- A member keeps its subscriber. -/
theorem Handles.subscriber (h : Handles hs a a') {number : Nat} {m m' : Member}
    (hm : a.members[number]? = some m) (hm' : a'.members[number]? = some m') :
    m'.subscriber = m.subscriber := by
  have hsame := congrArg (·[number]?) h.subscribers
  simpa [hm, hm'] using hsame

theorem Handles.trans (h : Handles hs a a') (h' : Handles hs' a' a'') : Handles (hs ++ hs') a a'' where
  subscribers := h'.subscribers.trans h.subscribers
  workers number m'' hm'' := by
    obtain ⟨m', hm', hlater⟩ := h'.workers number m'' hm''
    obtain ⟨m, hm, hnow⟩ := h.workers number m' hm'
    rw [← h'.subscriber hm' hm''] at hnow
    exact ⟨m, hm, Handing.handedTo_append number hs hs' ▸ hnow.trans hlater⟩

/-- Each member is changed in its place, and handed nothing. -/
theorem handles_of_members {c : Nat → Member → Member} {members : List Member} {rota : Rota Nat}
    (hmembers : ∀ number : Nat, members[number]? = a.members[number]?.map (c number))
    (hsame : ∀ (number : Nat) (m : Member), (c number m).subscriber = m.subscriber)
    (hchange : ∀ (number : Nat) (m : Member),
      m.worker.Handles m.subscriber [] (c number m).worker) :
    Handles [] a ⟨members, rota⟩ where
  subscribers := List.ext_getElem? fun number => by
    rw [List.getElem?_map, List.getElem?_map, hmembers]
    cases a.members[number]? with
    | none => rfl
    | some m => exact congrArg some (hsame number m)
  workers number m' hm' := by
    rw [hmembers] at hm'
    obtain ⟨m, hm, rfl⟩ := Option.map_eq_some_iff.mp hm'
    exact ⟨m, hm, (hsame number m).symm ▸ hchange number m⟩

theorem handles_emit (a : Audience) (e : Event) : Handles [] a (a.emit e).1 := by
  refine handles_of_members (c := fun _ m => (m.offer e).1) (fun number => ?_)
    (fun _ m => m.subscriber_offer e) fun _ m => ?_
  · exact List.getElem?_map
  · unfold Member.offer
    split
    · exact Worker.handles_offer m.subscriber m.worker e
    · exact .refl _ _

theorem handles_permit (a : Audience) (member n : Nat) : Handles [] a (a.permit member n) := by
  refine handles_of_members (c := fun number m => if member = number then m.permit n else m)
    (fun number => List.getElem?_modify ..) (fun number m => ?_) fun number m => ?_
  · split <;> rfl
  · split
    · exact Worker.handles_permit m.subscriber m.worker n
    · exact .refl _ _

/-- One worker hands events over, and reports the panics over them. -/
theorem handles_set {member : Nat} {m : Member} (hm : a.members[member]? = some m) {w : Worker}
    {handed : List Event} (hw : m.worker.Handles m.subscriber handed w) (rota : Rota Nat) :
    Handles (handed.map (⟨member, ·⟩)) a ⟨a.members.set member { m with worker := w }, rota⟩ where
  subscribers := by
    have hlt : member < a.members.length := (List.getElem?_eq_some_iff.mp hm).1
    refine List.ext_getElem? fun number => ?_
    rw [List.getElem?_map, List.getElem?_map, List.getElem?_set]
    split
    · subst_vars
      rw [hm]
      rfl
    · rfl
  workers number m' hm' := by
    rw [List.getElem?_set] at hm'
    rw [Handing.handedTo_map]
    split at hm'
    · rename_i hnumber
      subst hnumber
      rw [if_pos rfl]
      split at hm'
      · obtain rfl := Option.some.inj hm'
        exact ⟨m, hm, hw⟩
      · cases hm'
    · rename_i hother
      rw [if_neg hother]
      exact ⟨m', hm', .refl _ _⟩

/-- What the members have seen is what was handed over. -/
def Saw (a : Audience) (before : List Handing) : Prop :=
  ∀ (number : Nat) (m : Member), a.members[number]? = some m →
    m.worker.seen = Handing.handedTo number before

theorem Handles.saw {before : List Handing} (h : Handles hs a a') (hsaw : a.Saw before) :
    a'.Saw (before ++ hs) := by
  intro number m' hm'
  obtain ⟨m, hm, hworker⟩ := h.workers number m' hm'
  rw [hworker.seen, hsaw number m hm, Handing.handedTo_append]

/-- An audience has got ahead: it handed some events over, and published the reports of the panics over
them. -/
def Reports (a : Audience) (subs : List Subscriber) (published : List Event) (hs : List Handing) : Prop :=
  ∀ before, a.Saw before → published = Handing.reports subs before hs

theorem Reports.nothing (subs : List Subscriber) (a : Audience) : a.Reports subs [] [] := fun _ _ => rfl

theorem Reports.trans {es es' : List Event} (h : a.Reports subs es hs) (hhandles : Handles hs a a')
    (h' : a'.Reports subs es' hs') : a.Reports subs (es ++ es') (hs ++ hs') := by
  intro before hsaw
  rw [Handing.reports_append, ← h before hsaw, ← h' _ (hhandles.saw hsaw)]

/-- One member is handed events, and what is published are the reports of its subscriber. -/
theorem reports_of_member (hsubs : a.members.map (·.subscriber) = subs) {member : Nat} {m : Member}
    (hm : a.members[member]? = some m) {published es : List Event}
    (h : published = m.subscriber.reports m.worker.seen es) :
    a.Reports subs published (es.map (⟨member, ·⟩)) := by
  intro before hsaw
  have hs : subs[member]? = some m.subscriber := by rw [← hsubs, List.getElem?_map, hm]; rfl
  rw [h, Handing.reports_map hs, hsaw member m hm]

theorem handles_advance (hsubs : a.members.map (·.subscriber) = subs) (member : Nat) :
    ∃ hs, Handles hs a (a.advance member).1 ∧ a.Reports subs (a.advance member).2 hs := by
  unfold advance
  split
  · exact ⟨[], .refl a, .nothing subs a⟩
  · rename_i m hm
    split
    · exact ⟨[], .refl a, .nothing subs a⟩
    · rename_i hnext
      obtain ⟨handed, hhands⟩ := Worker.hands_next? hnext
      exact ⟨_, handles_set hm hhands.toHandles a.rota, reports_of_member hsubs hm hhands.reports⟩

theorem handles_turn (hsubs : a.members.map (·.subscriber) = subs) (member : Nat) :
    ∃ hs, Handles hs a (a.turn member).1 ∧ a.Reports subs (a.turn member).2 hs := by
  unfold turn
  split
  · exact ⟨[], .refl a, .nothing subs a⟩
  · rename_i m hm
    obtain ⟨handed, hhands⟩ := Worker.hands_turn m.subscriber m.worker Rota.allowance
    exact ⟨_, handles_set hm hhands.toHandles _, reports_of_member hsubs hm hhands.reports⟩

theorem handles_run (hsubs : a.members.map (·.subscriber) = subs) :
    ∃ hs, Handles hs a a.run.1 ∧ a.Reports subs a.run.2 hs := by
  induction a using Audience.run.induct with
  | case1 a hnext =>
    rw [run_idle hnext]
    exact ⟨[], ⟨rfl, (Handles.refl a).workers⟩, .nothing subs a⟩
  | case2 a member rota hnext now ih =>
    obtain ⟨hs, hnow, htold⟩ := handles_turn (a := { a with rota := rota }) hsubs member
    obtain ⟨hs', hlater, hrest⟩ := ih (hnow.subscribers.trans hsubs)
    rw [run_turn hnext]
    exact ⟨hs ++ hs', ⟨(hnow.trans hlater).subscribers, (hnow.trans hlater).workers⟩,
      htold.trans hnow hrest⟩

/-- Those that dropped an event as closed have ended. -/
def Refused (os : List Offering) (a : Audience) : Prop :=
  ∀ o ∈ os, o.dropped = some .closed → ∀ m, a.members[o.member]? = some m → m.worker.ended = true

/-- Who has ended stays so. -/
theorem Refused.handles {os : List Offering} (h : a.Refused os) (hhandles : Handles hs a a') :
    a'.Refused os := by
  intro o ho hclosed m' hm'
  obtain ⟨m, hm, hworker⟩ := hhandles.workers o.member m' hm'
  exact hworker.ended (h o ho hclosed m hm)

theorem Refused.emit {os : List Offering} (h : a.Refused os) (e : Event) :
    (a.emit e).1.Refused (os ++ a.offerings e) := by
  intro o ho hclosed m' hm'
  obtain ⟨m, hm, hworker⟩ := (handles_emit a e).workers o.member m' hm'
  refine hworker.ended ?_
  rcases List.mem_append.mp ho with hbefore | hnow
  · exact h o hbefore hclosed m hm
  · obtain ⟨m₀, hm₀, hdropped⟩ := mem_offerings hnow
    obtain rfl := Option.some.inj (hm.symm.trans hm₀)
    exact (Worker.offer_dropped _ _ e).1.mp (hdropped.symm.trans hclosed)

end Audience

/-! ## An audience beside a bus -/

namespace Fanout

variable {f : Fanout} {subs : List Subscriber}

/-- No announcement reports a panic. -/
theorem isPanicReport_announced (os : List Offering) :
    (os.flatMap Offering.announced).filter Event.isPanicReport = [] := by
  refine List.filter_eq_nil_iff.mpr fun e he => ?_
  have hoverflow : e.isOverflow = true :=
    List.filter_eq_self.mp (Offering.isOverflow_announced os) e he
  simp only [Event.isOverflow, beq_iff_eq] at hoverflow
  simp [Event.isPanicReport, hoverflow]

/-- The reports of panics are nothing but that. -/
theorem isPanicReport_reports (before hs : List Handing) :
    (Handing.reports subs before hs).filter Event.isPanicReport = Handing.reports subs before hs := by
  refine List.filter_eq_self.mpr ?_
  induction hs generalizing before with
  | nil => exact List.forall_mem_nil _
  | cons h hs ih =>
    refine List.forall_mem_append.mpr ⟨fun e he => ?_, ih _⟩
    unfold Handing.report at he
    cases hs : subs[h.member]? with
    | none =>
      rw [hs] at he
      cases he
    | some s =>
      rw [hs] at he
      exact Subscriber.isPanicReport_of_report he

/-- An action hands some events over, and publishes the reports of the panics over them. -/
theorem handles_act (hsubs : f.audience.members.map (·.subscriber) = subs) (a : Action) :
    ∃ hs, f.audience.Handles hs (f.act a).audience ∧
      f.audience.Reports subs ((f.effect a).published.filter Event.isPanicReport) hs := by
  -- what the workers publish are such reports only
  have hreports {published : List Event} {hs : List Handing}
      (h : f.audience.Reports subs published hs) :
      f.audience.Reports subs (published.filter Event.isPanicReport) hs := fun before hsaw => by
    rw [h before hsaw, isPanicReport_reports]
  cases a with
  | emit e =>
    simp only [act, effect, Fanout.emit]
    split
    · exact ⟨[], .refl _, .nothing subs _⟩
    · refine ⟨[], Audience.handles_emit f.audience e, ?_⟩
      rw [Audience.announced_emit, isPanicReport_announced]
      exact .nothing subs _
  | advance member =>
    obtain ⟨hs, hhandles, htold⟩ := Audience.handles_advance hsubs member
    exact ⟨hs, hhandles, hreports htold⟩
  | run =>
    obtain ⟨hs, hhandles, htold⟩ := Audience.handles_run hsubs
    exact ⟨hs, hhandles, hreports htold⟩
  | permit member n => exact ⟨[], Audience.handles_permit f.audience member n, .nothing subs _⟩
  | close => exact ⟨[], .refl _, .nothing subs _⟩

/-- **Every panic is reported once**, along any history: the reports are those of what was handed over,
in that order. -/
theorem handles_after (hsubs : f.audience.members.map (·.subscriber) = subs)
    (history : List Action) :
    ∃ hs, f.audience.Handles hs (f.after history).audience ∧
      f.audience.Reports subs ((f.published history).filter Event.isPanicReport) hs := by
  induction history generalizing f with
  | nil => exact ⟨[], .refl _, .nothing subs _⟩
  | cons a later ih =>
    obtain ⟨hs, hnow, htold⟩ := handles_act hsubs a
    obtain ⟨hs', hlater, hrest⟩ := ih (hnow.subscribers.trans hsubs)
    refine ⟨hs ++ hs', hnow.trans hlater, ?_⟩
    rw [published_cons, List.filter_append]
    exact htold.trans hnow hrest

/-- Who drops an event as closed has ended. -/
theorem refused_after {os : List Offering} (h : f.audience.Refused os) (history : List Action) :
    (f.after history).audience.Refused (os ++ f.offered history) := by
  induction history generalizing f os with
  | nil => exact (List.append_nil os).symm ▸ h
  | cons a later ih =>
    rw [offered_cons, ← List.append_assoc]
    refine ih ?_
    cases a with
    | emit e =>
      simp only [act, effect, Fanout.emit]
      split
      · exact (List.append_nil os).symm ▸ h
      · exact h.emit e
    | _ =>
      obtain ⟨hs, hhandles, -⟩ := handles_act (f := f) rfl _
      exact (List.append_nil os).symm ▸ h.handles hhandles

/-- When the workers have run, each of them has nothing left or waits for a permit. -/
theorem finished_shutdown (h : f.audience.Ready) {m : Member}
    (hm : m ∈ (f.apply .shutdown).audience.members) :
    m.worker.isFinished = true ∨ m.isHeldUp = true := by
  obtain ⟨number, hnumber⟩ := List.mem_iff_getElem?.mp hm
  exact (h.run number m hnumber).isFinished

/-- **A subscriber keeps its events exactly if it breaks on none of them.**  After any history there is one
order in which events were handed over, each member's part of which is what it has seen, and the panics
reported are those over these events, each once and in that order.  A subscriber may take one of two equal
events otherwise than the other, as it may go by what it was handed before.  A worker that has ended met an
event its subscriber breaks on, and only such a one drops events as closed.  With nothing left to do, a worker
has handed over all that was queued for it up to the first event its subscriber breaks on; it has ended,
and the rest is lost, exactly if there is such an event.  After a shutdown no worker has anything left,
unless it waits for a permit. -/
theorem keeps_events_iff_breaks_on_none (subs : List Subscriber) (capacity : Nat)
    (history : List Action) :
    let start := ofList subs capacity
    let f := start.after history
    (∃ hs : List Handing,
      (∀ (number : Nat) (m : Member), f.audience.members[number]? = some m →
        m.worker.seen = Handing.handedTo number hs) ∧
      (start.published history).filter Event.isPanicReport = Handing.reports subs [] hs) ∧
    (∀ (number : Nat) (m : Member), f.audience.members[number]? = some m →
      let queued := Offering.queuedFor number (start.offered history)
      subs[number]? = some m.subscriber ∧
      (m.worker.ended = true → m.subscriber.breaksIn [] queued = true) ∧
      ((∃ o ∈ start.offered history, o.member = number ∧ o.dropped = some .closed) →
        m.worker.ended = true) ∧
      (m.worker.isFinished = true →
        m.worker.seen = m.subscriber.spared [] queued ∧
        (m.worker.ended = true ↔ m.subscriber.breaksIn [] queued = true) ∧
        (m.worker.seen = queued ↔ m.subscriber.breaksIn [] queued = false))) ∧
    ∀ m ∈ (f.apply .shutdown).audience.members, m.worker.isFinished = true ∨ m.isHeldUp = true := by
  intro start f
  have hstart : start.audience.Accounts subs [] := Audience.accounts_ofList subs
  have haccounts : f.audience.Accounts subs (start.offered history) := accounts_after hstart history
  have hready : f.audience.Ready := ready_after (Audience.ready_ofList subs) history
  have hnobody : start.audience.Refused [] := List.forall_mem_nil _
  have hrefused : f.audience.Refused (start.offered history) := refused_after hnobody history
  obtain ⟨hs, hhandles, htold⟩ := handles_after hstart.subscribers history
  -- at the start nobody has seen anything, nor has anything in hand
  have hfresh (number : Nat) (m : Member) (hm : start.audience.members[number]? = some m) :
      m.worker = Worker.fresh := by
    obtain ⟨s, -, rfl⟩ : ∃ s, subs[number]? = some s ∧ Member.fresh s = m := by
      simpa [start, ofList, Audience.ofList] using hm
    rfl
  have hsaw : start.audience.Saw [] := fun number m hm => by rw [hfresh number m hm]; rfl
  refine ⟨⟨hs, hhandles.saw hsaw, htold [] hsaw⟩, fun number m hm => ?_,
    fun m hm => finished_shutdown hready hm⟩
  have hserves := haccounts.serves number m hm
  refine ⟨?_, fun hended => ?_, fun hlost => ?_, fun hfinished => ?_⟩
  · rw [← haccounts.subscribers, List.getElem?_map, hm]
    rfl
  · obtain ⟨-, -, e, lost, hreaction, hqueued⟩ := hserves.ended hended
    exact Subscriber.breaksIn_iff.mpr ⟨_, e, lost, hqueued, decide_eq_true hreaction⟩
  · obtain ⟨o, ho, hmember, hclosed⟩ := hlost
    exact hrefused o ho hclosed m (hmember ▸ hm)
  · have hintact : m.worker.Intact m.subscriber := by
      obtain ⟨m₀, hm₀, hworker⟩ := hhandles.workers number m hm
      refine hworker.intact ?_
      rw [hfresh number m₀ hm₀]
      rfl
    obtain ⟨hseen, hended⟩ := hserves.seen_of_finished hintact hfinished
    refine ⟨hseen, hended, fun hall => hall ▸ hintact.seen, fun hspared => hserves.seen hfinished ?_⟩
    exact Bool.eq_false_iff.mpr fun hnow => Bool.false_ne_true (hspared.symm.trans (hended.mp hnow))

/-- It panics over the start of the handler, and breaks on its end. -/
def frail : Subscriber where
  name := "frail"
  capacity := 8
  interested _ := true
  gated := false
  reaction e _ := match e.kind with
    | .handlerStarted => .panics (.text "boom")
    | .handlerExited => .breaks
    | _ => .handles

/-- It panics over every event. -/
def loud : Subscriber where
  name := "loud"
  capacity := 8
  interested _ := true
  gated := false
  reaction e _ := if e.kind = .handlerExited then .panics .value else .panics (.text "no")

/-- Three events come in before a worker gets ahead, another one after, and the queues are closed. -/
def threeAndOne : List Action :=
  [.emit (.ofKind .handlerStarted), .emit (.ofKind .handlerExited), .emit (.ofKind .bridgeStopped),
    .advance 0, .advance 1, .advance 0, .advance 1, .advance 1, .emit (.ofKind .graceExceeded),
    .advance 1, .close]

/-- The one that breaks loses what was queued behind, and nobody reports it; the other one keeps all its
events. -/
theorem frail_loses_events :
    ((ofList [frail, loud] 8).after threeAndOne).isOver = true ∧
    (ofList [frail, loud] 8).published threeAndOne = [.panicked "frail" "boom",
      .panicked "loud" "no", .panicked "loud" "unknown panic", .panicked "loud" "no",
      .overflow "frail" "closed", .panicked "loud" "no"] ∧
    (∃ m, ((ofList [frail, loud] 8).after threeAndOne).audience.members[0]? = some m ∧
      m.worker.ended = true ∧ m.worker.seen = [.ofKind .handlerStarted] ∧
      m.worker.seen ≠ Offering.queuedFor 0 ((ofList [frail, loud] 8).offered threeAndOne)) ∧
    ∃ m, ((ofList [frail, loud] 8).after threeAndOne).audience.members[1]? = some m ∧
      m.worker.ended = false ∧
      m.worker.seen = Offering.queuedFor 1 ((ofList [frail, loud] 8).offered threeAndOne) := by
  have hover : ((ofList [frail, loud] 8).after threeAndOne).isOver = true := rfl
  have hqueued : Offering.queuedFor 0 ((ofList [frail, loud] 8).offered threeAndOne) =
      [.ofKind .handlerStarted, .ofKind .handlerExited, .ofKind .bridgeStopped] := rfl
  have hbreaks : frail.breaksIn [] (Offering.queuedFor 0 ((ofList [frail, loud] 8).offered threeAndOne)) =
      true := rfl
  have hspared : loud.breaksIn [] (Offering.queuedFor 1 ((ofList [frail, loud] 8).offered threeAndOne)) =
      false := rfl
  obtain ⟨m, hm⟩ : ∃ m, ((ofList [frail, loud] 8).after threeAndOne).audience.members[0]? = some m :=
    ⟨_, rfl⟩
  obtain ⟨m', hm'⟩ : ∃ m, ((ofList [frail, loud] 8).after threeAndOne).audience.members[1]? = some m :=
    ⟨_, rfl⟩
  have hfinished (number : Nat) (m : Member)
      (hm : ((ofList [frail, loud] 8).after threeAndOne).audience.members[number]? = some m) :
      m.worker.isFinished = true :=
    List.all_eq_true.mp (Bool.and_eq_true _ _ ▸ hover).2 m (List.mem_of_getElem? hm)
  obtain ⟨-, hmembers, -⟩ := keeps_events_iff_breaks_on_none [frail, loud] 8 threeAndOne
  obtain ⟨hsub, -, -, hbroken⟩ := hmembers 0 m hm
  obtain ⟨hsub', -, -, hsound⟩ := hmembers 1 m' hm'
  obtain ⟨hseen, hended, hkeeps⟩ := hbroken (hfinished 0 m hm)
  obtain ⟨-, hended', hkeeps'⟩ := hsound (hfinished 1 m' hm')
  have hfrail : frail = m.subscriber := Option.some.inj hsub
  have hloud : loud = m'.subscriber := Option.some.inj hsub'
  rw [← hfrail] at hseen hended hkeeps
  rw [← hloud] at hended' hkeeps'
  refine ⟨hover, rfl, ⟨m, hm, hended.mpr hbreaks, hseen.trans (congrArg _ hqueued), ?_⟩,
    m', hm', ?_, hkeeps'.mpr hspared⟩
  · exact fun hall => nomatch hbreaks.symm.trans (hkeeps.mp hall)
  · exact Bool.eq_false_iff.mpr fun hnow => nomatch hspared.symm.trans (hended'.mp hnow)

/-- Of three equal events, it panics over the first and breaks on the second. -/
example :
    let moody : Subscriber :=
      { frail with reaction := fun _ before => if before = [] then .panics .value else .breaks }
    let history := List.replicate 3 (.emit (.ofKind .bridgeStopped)) ++ [.advance 0, .advance 0]
    ((ofList [moody] 8).after history).audience.members.map (fun m => (m.worker.seen, m.worker.ended)) =
        [([.ofKind .bridgeStopped], true)] ∧
      (ofList [moody] 8).published history = [.panicked "frail" "unknown panic"] := ⟨rfl, rfl⟩

end Fanout

end Steward

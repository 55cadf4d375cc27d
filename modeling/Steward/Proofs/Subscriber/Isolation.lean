import Steward.Proofs.Subscriber.Accounting

/-!
# Proofs/Subscriber/Isolation — what a subscriber sees does not depend on the others

A member of an audience goes by what concerns it: the events, its own turns and permits, the runs of all
workers and the closing of the queues (`Action.to?`).  All the same it is not untouched by the others: they
have their turns between its own, and decide when it is called.  But its worker is a function of what it has
taken in (`Worker.rest`), however the turns fall, and is always called in time.

* `rest_turn` — no turn changes where a worker comes to rest.
* `Audience.Ready.run_rest` — when the workers have run, each is there.
* `alike_after` — a member among others is as good as the same subscriber alone.
* `subscribers_are_isolated` — so two audiences that agree on one subscriber agree on what it sees.
-/

namespace Steward

/-! ## One worker -/

namespace Worker

variable {s : Subscriber} {w : Worker}

/-- The worker, whether or not it waits to be called. -/
def unheard (w : Worker) : Worker := { w with listens := false }

/-- What a worker can be given does not depend on whether it waits to be called. -/
theorem next?_unheard (s : Subscriber) (w : Worker) :
    w.unheard.next? s = (w.next? s).map fun t => (t.1.unheard, t.2) := by
  have hfetch (e : Event) (rest : List Event) :
      w.unheard.fetch s e rest = ((w.fetch s e rest).1.unheard, (w.fetch s e rest).2) := by
    simp only [fetch, handle, unheard]
    cases s.reaction e w.seen <;> cases s.gated <;> rfl
  cases hcannot : w.ended || w.isHeldUp s with
  | true =>
    have hcannot' : (w.unheard.ended || w.unheard.isHeldUp s) = true := hcannot
    rw [Worker.next?, if_pos hcannot', Worker.next?, if_pos hcannot]
    rfl
  | false =>
    have hcan : ¬(w.ended || w.isHeldUp s) = true := Bool.eq_false_iff.mp hcannot
    have hcan' : ¬(w.unheard.ended || w.unheard.isHeldUp s) = true := hcan
    rw [Worker.next?, if_neg hcan', Worker.next?, if_neg hcan, show w.unheard.held = w.held from rfl,
      show w.unheard.queue = w.queue from rfl]
    cases w.held with
    | some e => rfl
    | none =>
      cases w.queue with
      | nil => rfl
      | cons e rest => exact congrArg some (hfetch e rest)

theorem offer_unheard (s : Subscriber) (w : Worker) (e : Event) :
    w.unheard.offer s e = ((w.offer s e).1.unheard, (w.offer s e).2) := by
  cases hended : w.ended with
  | true => rw [offer_ended hended, offer_ended (w := w.unheard) hended]
  | false =>
    rcases Nat.lt_or_ge w.queue.length s.room with hroom | hfull
    · rw [offer_room hended hroom, offer_room (w := w.unheard) hended hroom]
      rfl
    · rw [offer_full hended hfull, offer_full (w := w.unheard) hended hfull]

/-- Where a worker comes to rest that is given all it can be. -/
def rest (s : Subscriber) (w : Worker) : Worker :=
  match _h : w.next? s with
  | none => w
  | some t => rest s t.1
termination_by w.backlog
decreasing_by exact backlog_next? _h

theorem rest_of_none (h : w.next? s = none) : w.rest s = w := by
  rw [rest]
  split
  · rfl
  · rename_i hsome
    exact nomatch h.symm.trans hsome

theorem rest_of_some {t : Worker × List Event} (h : w.next? s = some t) : w.rest s = t.1.rest s := by
  rw [rest]
  split
  · rename_i hnone
    exact nomatch h.symm.trans hnone
  · rename_i t' hsome
    obtain rfl : t = t' := Option.some.inj (h.symm.trans hsome)
    rfl

/-- **No turn changes where a worker comes to rest.** -/
theorem rest_turn (s : Subscriber) (w : Worker) (n : Nat) :
    (turn s w n).worker.unheard.rest s = w.unheard.rest s := by
  induction n generalizing w with
  | zero => rfl
  | succ n ih =>
    unfold turn
    split
    · rfl
    · rename_i w' published hnext
      have hnext' : w.unheard.next? s = some (w'.unheard, published) := by rw [next?_unheard, hnext]; rfl
      rw [rest_of_some hnext']
      exact ih w'

/-- Who is at rest is where it comes to rest. -/
theorem AtRest.rest (h : w.AtRest s) : w.unheard.rest s = w.unheard :=
  rest_of_none (by rw [next?_unheard, h.next?]; rfl)

end Worker

/-! ## All members -/

namespace Audience

variable {a : Audience} {number : Nat} {m : Member}

/-- A turn, be it its own or another's, leaves a member with the same subscriber and the same rest ahead. -/
theorem rest_member_turn (a : Audience) (member : Nat) (hm : a.members[number]? = some m) :
    ∃ m', (a.turn member).1.members[number]? = some m' ∧ m'.subscriber = m.subscriber ∧
      m'.worker.unheard.rest m.subscriber = m.worker.unheard.rest m.subscriber := by
  unfold turn
  split
  · exact ⟨m, hm, rfl, rfl⟩
  · rename_i m₀ hm₀
    dsimp only
    by_cases hown : member = number
    · subst hown
      obtain rfl : m = m₀ := Option.some.inj (hm.symm.trans hm₀)
      exact ⟨_, List.getElem?_set_self (List.getElem?_eq_some_iff.mp hm).1, rfl,
        Worker.rest_turn m.subscriber m.worker Rota.allowance⟩
    · exact ⟨m, (List.getElem?_set_ne hown).trans hm, rfl, rfl⟩

theorem rest_member_run (a : Audience) (number : Nat) :
    ∀ m, a.members[number]? = some m →
      ∃ m', a.run.1.members[number]? = some m' ∧ m'.subscriber = m.subscriber ∧
        m'.worker.unheard.rest m.subscriber = m.worker.unheard.rest m.subscriber := by
  induction a using Audience.run.induct with
  | case1 a hnext =>
    rw [run_idle hnext]
    exact fun m hm => ⟨m, hm, rfl, rfl⟩
  | case2 a member rota hnext now ih =>
    intro m hm
    rw [run_turn hnext]
    obtain ⟨m₁, hm₁, hsub, hrest⟩ := rest_member_turn { a with rota := rota } member hm
    obtain ⟨m₂, hm₂, hsub', hrest'⟩ := ih m₁ hm₁
    rw [hsub] at hrest' hsub'
    exact ⟨m₂, hm₂, hsub', hrest'.trans hrest⟩

/-- **When the workers have run, each has come to its rest.** -/
theorem Ready.run_rest (h : a.Ready) (hm : a.members[number]? = some m) :
    ∃ m', a.run.1.members[number]? = some m' ∧ m'.subscriber = m.subscriber ∧
      m'.worker.unheard = m.worker.unheard.rest m.subscriber := by
  obtain ⟨m', hm', hsub, hrest⟩ := a.rest_member_run number m hm
  have hatRest : m'.worker.AtRest m.subscriber := hsub ▸ h.run number m' hm'
  exact ⟨m', hm', hsub, hatRest.rest.symm.trans hrest⟩

end Audience

/-! ## One member among others, and alone -/

/-- The events dropped for a member, each with the reason. -/
def Offering.droppedFor (member : Nat) (os : List Offering) : List (Event × DropReason) :=
  (os.filter (·.member = member)).filterMap fun o => o.dropped.map (o.event, ·)

theorem Offering.droppedFor_append (member : Nat) (as bs : List Offering) :
    droppedFor member (as ++ bs) = droppedFor member as ++ droppedFor member bs := by
  rw [droppedFor, List.filter_append, List.filterMap_append]
  rfl

namespace Member

variable {m m' : Member}

/-- Two members with the same subscriber, whose workers are in the same state. -/
structure Alike (m m' : Member) : Prop where
  subscriber : m.subscriber = m'.subscriber
  worker : m.worker.unheard = m'.worker.unheard

/-- What of an event is dropped for the member, with the reason. -/
def refusal (m : Member) (e : Event) : List (Event × DropReason) :=
  if m.subscriber.interested e.kind then
    (m.worker.offer m.subscriber e).2.toList.map (e, ·)
  else []

theorem refusal_offering (m : Member) (number : Nat) (e : Event) :
    (m.offering? number e).toList.filterMap (fun o => o.dropped.map (o.event, ·)) = m.refusal e := by
  unfold offering? refusal
  by_cases hwants : m.subscriber.interested e.kind
  · cases (m.worker.offer m.subscriber e).2 <;> simp [hwants]
  · simp [hwants]

theorem Alike.offer (h : m.Alike m') (e : Event) :
    (m.offer e).1.Alike (m'.offer e).1 ∧ m.refusal e = m'.refusal e := by
  obtain ⟨s, w⟩ := m
  obtain ⟨s', w'⟩ := m'
  obtain ⟨rfl, hworker⟩ : s = s' ∧ w.unheard = w'.unheard := ⟨h.subscriber, h.worker⟩
  have hoffer : ((w.offer s e).1.unheard, (w.offer s e).2) =
      ((w'.offer s e).1.unheard, (w'.offer s e).2) := by
    rw [← Worker.offer_unheard, ← Worker.offer_unheard, hworker]
  obtain ⟨hnow, hdropped⟩ := Prod.mk.inj hoffer
  unfold Member.offer refusal
  dsimp only
  split
  · exact ⟨⟨rfl, hnow⟩, by rw [hdropped]⟩
  · exact ⟨⟨rfl, hworker⟩, rfl⟩

/-- Who gets ahead does so alike. -/
theorem Alike.next? (h : m.Alike m') :
    (m.worker.next? m.subscriber).map (·.1.unheard) =
      (m'.worker.next? m'.subscriber).map (·.1.unheard) := by
  have hboth (m : Member) : (m.worker.next? m.subscriber).map (·.1.unheard) =
      (m.worker.unheard.next? m.subscriber).map (·.1) := by
    rw [Worker.next?_unheard, Option.map_map]
    rfl
  rw [hboth, hboth, h.subscriber, h.worker]

end Member

namespace Audience

variable {a : Audience} {member number : Nat} {m : Member}

theorem droppedFor_offerings (hm : a.members[member]? = some m) (e : Event) :
    Offering.droppedFor member (a.offerings e) = m.refusal e := by
  rw [Offering.droppedFor, filter_offerings hm, m.refusal_offering]

/-- The member that gets ahead. -/
theorem getElem?_advance_self (hm : a.members[member]? = some m) :
    (a.advance member).1.members[member]? =
      some { m with worker := ((m.worker.next? m.subscriber).map (·.1)).getD m.worker } := by
  unfold advance
  rw [hm]
  dsimp only
  split
  · rename_i hnext
    rw [hnext]
    exact hm
  · rename_i hnext
    rw [hnext]
    exact List.getElem?_set_self (List.getElem?_eq_some_iff.mp hm).1

/-- The others. -/
theorem getElem?_advance_ne (a : Audience) (hne : member ≠ number) :
    (a.advance member).1.members[number]? = a.members[number]? := by
  unfold advance
  split
  · rfl
  · split
    · rfl
    · exact List.getElem?_set_ne hne

end Audience

namespace Fanout

variable {f g : Fanout} {i : Nat}

/-- What an action is to a member, as if it were the only one; nothing if it is done to another. -/
def Action.to? (member : Nat) : Action → Option Action
  | .advance k => if k = member then some (.advance 0) else none
  | .permit k n => if k = member then some (.permit 0 n) else none
  | a => some a

/-- A member of one audience is like the first one of another. -/
def Alike (f : Fanout) (i : Nat) (g : Fanout) : Prop :=
  f.isShut = g.isShut ∧
    ∃ m m', f.audience.members[i]? = some m ∧ g.audience.members[0]? = some m' ∧ m.Alike m'

/-- What is done to another member is nothing to this one. -/
theorem Alike.other (h : f.Alike i g) {a : Action} (hother : a.to? i = none) :
    (f.act a).Alike i g ∧ Offering.droppedFor i (f.effect a).offered = [] := by
  obtain ⟨hshut, m, m', hm, hm', halike⟩ := h
  cases a with
  | emit | run | close => exact nomatch hother
  | advance k =>
    have hne : k ≠ i := fun heq => by simp [Action.to?, heq] at hother
    exact ⟨⟨hshut, m, m', (f.audience.getElem?_advance_ne hne).trans hm, hm', halike⟩, rfl⟩
  | permit k n =>
    have hne : k ≠ i := fun heq => by simp [Action.to?, heq] at hother
    exact ⟨⟨hshut, m, m', (List.getElem?_modify_ne _ _ hne).trans hm, hm', halike⟩, rfl⟩

/-- What is done to a member does the same to the one like it. -/
theorem Alike.own (h : f.Alike i g) (hf : f.audience.Ready) (hg : g.audience.Ready) {a b : Action}
    (hown : a.to? i = some b) :
    (f.act a).Alike i (g.act b) ∧
      Offering.droppedFor i (f.effect a).offered = Offering.droppedFor 0 (g.effect b).offered := by
  obtain ⟨hshut, m, m', hm, hm', halike⟩ := h
  cases a with
  | emit e =>
    obtain rfl : Action.emit e = b := Option.some.inj hown
    cases hclosed : f.isShut with
    | true =>
      have hclosed' : g.isShut = true := hshut.symm.trans hclosed
      simp only [act, effect, Fanout.emit, hclosed, hclosed', if_true]
      exact ⟨⟨hshut, m, m', hm, hm', halike⟩, rfl⟩
    | false =>
      have hclosed' : g.isShut = false := hshut.symm.trans hclosed
      simp only [act, effect, Fanout.emit, hclosed, hclosed', Bool.false_eq_true, if_false]
      obtain ⟨hoffer, hrefusal⟩ := halike.offer e
      refine ⟨⟨rfl, _, _, ?_, ?_, hoffer⟩, ?_⟩
      · simp [Audience.emit, hm]
      · simp [Audience.emit, hm']
      · rw [Audience.droppedFor_offerings hm, Audience.droppedFor_offerings hm', hrefusal]
  | advance k =>
    obtain ⟨rfl, rfl⟩ : k = i ∧ Action.advance 0 = b := by simpa [Action.to?] using hown
    refine ⟨⟨hshut, _, _, Audience.getElem?_advance_self hm, Audience.getElem?_advance_self hm',
      halike.subscriber, ?_⟩, rfl⟩
    have hahead (m : Member) : (((m.worker.next? m.subscriber).map (·.1)).getD m.worker).unheard =
        ((m.worker.next? m.subscriber).map (·.1.unheard)).getD m.worker.unheard := by
      cases m.worker.next? m.subscriber <;> rfl
    exact (hahead m).trans ((congr (congrArg _ halike.next?) halike.worker).trans (hahead m').symm)
  | run =>
    obtain rfl : Action.run = b := Option.some.inj hown
    obtain ⟨n, hn, hsub, hrest⟩ := hf.run_rest hm
    obtain ⟨n', hn', hsub', hrest'⟩ := hg.run_rest hm'
    refine ⟨⟨hshut, n, n', hn, hn', ⟨?_, ?_⟩⟩, rfl⟩
    · rw [hsub, hsub', halike.subscriber]
    · rw [hrest, hrest', halike.subscriber, halike.worker]
  | permit k n =>
    obtain ⟨rfl, rfl⟩ : k = i ∧ Action.permit 0 n = b := by simpa [Action.to?] using hown
    refine ⟨⟨hshut, m.permit n, m'.permit n, ?_, ?_, halike.subscriber, ?_⟩, rfl⟩
    · simp [act, Audience.permit, hm]
    · simp [act, Audience.permit, hm']
    · exact congrArg (·.permit n) halike.worker
  | close =>
    obtain rfl : Action.close = b := Option.some.inj hown
    exact ⟨⟨rfl, m, m', hm, hm', halike⟩, rfl⟩

/-- **A member among others is as good as the same subscriber alone.** -/
theorem alike_after (h : f.Alike i g) (hf : f.audience.Ready) (hg : g.audience.Ready)
    (history : List Action) :
    (f.after history).Alike i (g.after (history.filterMap (·.to? i))) ∧
      Offering.droppedFor i (f.offered history) =
        Offering.droppedFor 0 (g.offered (history.filterMap (·.to? i))) := by
  induction history generalizing f g with
  | nil => exact ⟨h, rfl⟩
  | cons a later ih =>
    rw [offered_cons, Offering.droppedFor_append]
    cases hown : a.to? i with
    | none =>
      obtain ⟨hnow, hnothing⟩ := h.other hown
      obtain ⟨hlater, hdropped⟩ := ih hnow (ready_act hf a) hg
      rw [List.filterMap_cons_none hown, hnothing]
      exact ⟨hlater, hdropped⟩
    | some b =>
      obtain ⟨hnow, hfirst⟩ := h.own hf hg hown
      obtain ⟨hlater, hdropped⟩ := ih hnow (ready_act hf a) (ready_act hg b)
      rw [List.filterMap_cons_some hown, offered_cons, Offering.droppedFor_append, hfirst, hdropped]
      exact ⟨hlater, rfl⟩

/-! ## Isolation -/

/-- How things stand with a member. -/
structure Standing where
  /-- The events handed to it, oldest first. -/
  handed : List Event
  /-- The events dropped for it, each with the reason. -/
  dropped : List (Event × DropReason)
  /-- Its worker has ended. -/
  ended : Bool
  deriving DecidableEq

/-- How things stand with a member after a history, if there is such a member. -/
def standing? (f : Fanout) (member : Nat) (history : List Action) : Option Standing :=
  ((f.after history).audience.members[member]?).map fun m =>
    ⟨m.worker.seen, Offering.droppedFor member (f.offered history), m.worker.ended⟩

theorem standing?_eq {member : Nat} {history : List Action} {m : Member}
    (hm : (f.after history).audience.members[member]? = some m) :
    f.standing? member history =
      some ⟨m.worker.seen, Offering.droppedFor member (f.offered history), m.worker.ended⟩ := by
  rw [standing?, hm]
  rfl

/-- A subscriber alone shows how things stand with it among others. -/
theorem standing?_alone {subs : List Subscriber} {s : Subscriber} (hs : subs[i]? = some s)
    (capacity capacity' : Nat) (history : List Action) :
    ∃ standing, (ofList subs capacity).standing? i history = some standing ∧
      (ofList [s] capacity').standing? 0 (history.filterMap (·.to? i)) = some standing := by
  have hstart : (ofList subs capacity).Alike i (ofList [s] capacity') :=
    ⟨rfl, .fresh s, .fresh s, by simp [ofList, Audience.ofList, hs], rfl, ⟨rfl, rfl⟩⟩
  obtain ⟨⟨-, m, m', hm, hm', halike⟩, hdropped⟩ :=
    alike_after hstart (Audience.ready_ofList subs) (Audience.ready_ofList [s]) history
  refine ⟨_, standing?_eq hm, (standing?_eq hm').trans ?_⟩
  rw [hdropped, Option.some.injEq, Standing.mk.injEq]
  have hworker := halike.worker.symm
  exact ⟨(congrArg Worker.seen hworker :), rfl, (congrArg Worker.ended hworker :)⟩

/-- **No subscriber can tell who the others are.**  Take two audiences that have the same subscriber at some
place, and otherwise any others, in any number.  As long as the same is done to it in both, whatever is done
to the others, it is handed the same events, the same events are dropped for it with the same reasons, and
its worker has ended in both or in none: so after every step, as a history may end anywhere. -/
theorem subscribers_are_isolated {subs subs' : List Subscriber} {s : Subscriber} {i j : Nat}
    (hs : subs[i]? = some s) (hs' : subs'[j]? = some s) (capacity capacity' : Nat)
    {history history' : List Action}
    (hsame : history.filterMap (·.to? i) = history'.filterMap (·.to? j)) :
    ∃ standing, (ofList subs capacity).standing? i history = some standing ∧
      (ofList subs' capacity').standing? j history' = some standing := by
  obtain ⟨standing, hstands, halone⟩ := standing?_alone hs capacity 1 history
  obtain ⟨standing', hstands', halone'⟩ := standing?_alone hs' capacity' 1 history'
  obtain rfl : standing = standing' := Option.some.inj (by rw [← halone, ← halone', hsame])
  exact ⟨standing, hstands, hstands'⟩

/-- It is handed its events one by one, for a permit each, and has room for one. -/
def narrow : Subscriber := { Subscriber.plain "narrow" with capacity := 1, gated := true }

/-- One that breaks on the end of the handler, one that panics over everything, and the narrow one. -/
def badCompany : List Subscriber :=
  [{ Subscriber.plain "broken" with
      reaction := fun e _ => if e.kind = .handlerExited then .breaks else .handles },
    { Subscriber.plain "loud" with reaction := fun _ _ => .panics .value },
    narrow]

/-- The narrow one comes first.  It has an event in hand and one in its queue when the third one comes, and
then gets a permit; its companion never gets to run. -/
def inPeace : List Action :=
  [.emit (.ofKind .handlerStarted), .advance 0, .emit (.ofKind .handlerExited),
    .emit (.ofKind .bridgeStopped), .permit 0 1, .advance 0, .close]

/-- The narrow one comes last, and the others are busy all the time. -/
def inBadCompany : List Action :=
  [.emit (.ofKind .handlerStarted), .advance 0, .advance 2, .advance 1, .emit (.ofKind .handlerExited),
    .advance 0, .permit 1 3, .emit (.ofKind .bridgeStopped), .permit 2 1, .advance 1, .advance 2,
    .advance 1, .close, .advance 1]

/-- Once it is in peace, and once one of the others has ended and one has panicked over every event. -/
theorem narrow_in_bad_company :
    ((ofList badCompany 8).standing? 0 inBadCompany).map (·.ended) = some true ∧
    ((ofList badCompany 8).published inBadCompany).filter (·.kind == .subscriberPanicked) =
      List.replicate 3 (.panicked "loud" "unknown panic") ∧
    ∃ standing, (ofList [narrow, .plain "idle"] 8).standing? 0 inPeace = some standing ∧
      (ofList badCompany 8).standing? 2 inBadCompany = some standing ∧
      standing = ⟨[.ofKind .handlerStarted], [(.ofKind .bridgeStopped, .full)], false⟩ := by
  have hfirst : [narrow, .plain "idle"][0]? = some narrow := rfl
  have hlast : badCompany[2]? = some narrow := rfl
  have hsame : inPeace.filterMap (·.to? 0) = inBadCompany.filterMap (·.to? 2) := rfl
  obtain ⟨standing, hpeace, hbad⟩ := subscribers_are_isolated hfirst hlast 8 8 hsame
  exact ⟨rfl, rfl, standing, hpeace, hbad, Option.some.inj (hpeace.symm.trans rfl)⟩

end Fanout

end Steward

import Mathlib.Data.List.Basic
import Steward.Proofs.Service.Relay
import Steward.Proofs.Service.Vigil
import Steward.Proofs.Subscriber.Panic
import Steward.Service.Broadcast

/-!
# Proofs/Service/Broadcast — what a subscriber gets to see of a run

What the run tells and what comes from the audience share one bus, but not a kind of event, so the two can
be told apart by whoever was handed them.

* `Relay.Heard` — the listener hands on what is on the bus in order; what it has left there when it is done
  came from the audience.
* `Broadcast.Telling` — what is told is the beginning of the events of the run, and all of them when the
  listener is called off.
* `subscribers_see_run` — a subscriber sees the events of a run in order, and all that it wants to see
  unless the listener, its own queue or its own worker loses one.
-/

namespace Steward

namespace Audience

/-- What is offered to the subscriber with a number, where they are numbered from `k`. -/
theorem wanting_from (e : Event) (subs : List Subscriber) (k number : Nat) :
    ((((subs.zipIdx k).filter fun (s, _) => s.interested e.kind).map fun (s, n) =>
      (n, s.name, e)).filter (·.1 = number)).map (·.2.2) =
      if k ≤ number then
        subs[number - k]?.elim [] fun s => if s.interested e.kind then [e] else []
      else [] := by
  induction subs generalizing k with
  | nil => simp
  | cons s subs ih =>
    -- the subscriber is further on, is the first one, or stands before all of them
    have hfirst : ((((s :: subs).zipIdx k).filter fun (s, _) => s.interested e.kind).map fun (s, n) =>
        (n, s.name, e)).filter (·.1 = number) =
        (if s.interested e.kind ∧ k = number then [(k, s.name, e)] else []) ++
          (((subs.zipIdx (k + 1)).filter fun (s, _) => s.interested e.kind).map fun (s, n) =>
            (n, s.name, e)).filter (·.1 = number) := by
      by_cases hwants : s.interested e.kind = true <;> by_cases hnumber : k = number <;>
        simp [hwants, hnumber]
    rw [hfirst, List.map_append, ih]
    rcases Nat.lt_trichotomy k number with hlt | rfl | hgt
    · have hsub : number - k = number - (k + 1) + 1 := by omega
      rw [if_neg (fun h => Nat.ne_of_lt hlt h.2), if_pos (Nat.succ_le_of_lt hlt),
        if_pos (Nat.le_of_lt hlt), hsub]
      rfl
    · rw [if_neg (Nat.not_succ_le_self k), if_pos (Nat.le_refl k), Nat.sub_self]
      by_cases hwants : s.interested e.kind = true <;> simp [hwants]
    · rw [if_neg (fun h => Nat.ne_of_gt hgt h.2), if_neg (by omega), if_neg (by omega)]
      rfl

/-- **A subscriber is offered the events that it wants to see**, in order. -/
theorem offered_to {subs : List Subscriber} {os : List Offering} {es : List Event}
    (h : os.map (fun o => (o.member, o.name, o.event)) = es.flatMap (wanting subs)) {number : Nat}
    {s : Subscriber} (hs : subs[number]? = some s) :
    (os.filter (·.member = number)).map (·.event) = es.filter (s.interested ·.kind) := by
  have hoffered : (os.filter (·.member = number)).map (·.event) =
      ((os.map fun o => (o.member, o.name, o.event)).filter (·.1 = number)).map (·.2.2) := by
    simp [List.filter_map, Function.comp_def]
  rw [hoffered, h]
  clear hoffered h
  induction es with
  | nil => rfl
  | cons e es ih =>
    have hone := wanting_from e subs 0 number
    rw [if_pos (Nat.zero_le _), Nat.sub_zero, hs] at hone
    rw [List.flatMap_cons, List.filter_append, List.map_append, ih, List.filter_cons, wanting, hone]
    by_cases hwants : s.interested e.kind = true <;> simp [hwants]

end Audience

/-! ## What the listener hands on -/

namespace Relay

open Audience (wanting)

variable {subs : List Subscriber} {r r' : Relay} {pos pos' : Nat} {feed : Feed}

/-- **What became of what is on the bus.**  The listener handed on what it found there, in order, and missed
what it says it has missed.  When it is done, all that is left there came from the audience. -/
structure Heard (subs : List Subscriber) (r : Relay) (pos : Nat) : Prop where
  le : pos ≤ r.aired.length
  inOrder : r.heard.Sublist ((r.aired.take pos).map (·.event))
  complete : r.missed = [] → r.heard = (r.aired.take pos).map (·.event)
  rest : r.stage = .gone → ∀ a ∈ r.aired.drop pos, a.author = .audience
  echoes : ∀ a ∈ r.aired, a.author = .audience → a.event.isAboutObserver = true
  accounts : r.audience.Accounts subs r.offered
  wanted : r.offered.map (fun o => (o.member, o.name, o.event)) = r.heard.flatMap (wanting subs)
  refused : r.audience.Refused r.offered

theorem heard_ofList (subs : List Subscriber) (capacity : Nat) : (ofList subs capacity).Heard subs 0 where
  le := Nat.le_refl 0
  inOrder := List.Sublist.refl _
  complete _ := rfl
  rest := nofun
  echoes := List.forall_mem_nil _
  accounts := Audience.accounts_ofList subs
  wanted := rfl
  refused := List.forall_mem_nil _

/-- The audience publishes something about observers. -/
theorem Heard.echo (h : r.Heard subs pos) {published : List Event}
    (accounts : feed.audience.Accounts subs r.offered) (refused : feed.audience.Refused r.offered)
    (about : ∀ e ∈ published, e.isAboutObserver = true) : (r.echo feed published).Heard subs pos where
  le := Nat.le_trans h.le (by simp [Relay.echo])
  inOrder := by
    simp only [Relay.echo, List.take_append_of_le_length h.le]
    exact h.inOrder
  complete hall := by
    simp only [Relay.echo, List.take_append_of_le_length h.le]
    exact h.complete hall
  rest hgone := by
    simp only [Relay.echo, List.drop_append_of_le_length h.le]
    exact List.forall_mem_append.mpr ⟨h.rest hgone, by simp⟩
  echoes := List.forall_mem_append.mpr ⟨h.echoes, by simpa using about⟩
  accounts := accounts
  wanted := h.wanted
  refused := refused

/-- Some events were handed to the members, which panicked over them or not. -/
theorem Heard.handles (h : r.Heard subs pos) {hs : List Handing} {published : List Event}
    (accounts : feed.audience.Accounts subs r.offered) (handles : r.audience.Handles hs feed.audience)
    (tells : Worker.Tells published) : (r.echo feed published).Heard subs pos :=
  h.echo accounts (h.refused.handles handles) fun e he => Bool.or_eq_true_iff.mpr (.inr (tells e he))

/-- The listener hands on the event at its position. -/
theorem Heard.hears (h : r.Heard subs pos) (hgoing : r.stage ≠ .gone) {a : Airing}
    (hnext : r.aired[pos]? = some a) (haudience : feed.audience = (r.audience.emit a.event).1) :
    Heard subs { r.echo feed (r.audience.emit a.event).2 with
      heard := r.heard ++ [a.event]
      offered := r.offered ++ r.audience.offerings a.event } (pos + 1) := by
  obtain ⟨hlt, hget⟩ := List.getElem?_eq_some_iff.mp hnext
  have htake : (r.echo feed (r.audience.emit a.event).2).aired.take (pos + 1) =
      r.aired.take pos ++ [a] := by
    rw [Relay.echo, List.take_append_of_le_length hlt, List.take_add_one, hnext]
    rfl
  have habout : ∀ e ∈ (r.audience.emit a.event).2, e.isAboutObserver = true := by
    intro e he
    rw [Audience.announced_emit] at he
    have hoverflow : e.isOverflow = true :=
      List.filter_eq_self.mp (Offering.isOverflow_announced _) e he
    exact Bool.or_eq_true_iff.mpr (.inl hoverflow)
  refine ⟨?_, ?_, fun hall => ?_, fun hgone => absurd hgone hgoing, ?_, ?_, ?_, ?_⟩
  · simp only [Relay.echo, List.length_append]
    omega
  · dsimp only
    rw [htake, List.map_append]
    exact h.inOrder.append (List.Sublist.refl _)
  · dsimp only
    rw [htake, List.map_append, h.complete hall]
    rfl
  · exact List.forall_mem_append.mpr ⟨h.echoes, by simpa using habout⟩
  · exact haudience ▸ h.accounts.emit a.event
  · dsimp only
    rw [List.map_append, h.wanted, Audience.offerings_wanting, h.accounts.subscribers,
      List.flatMap_append, List.flatMap_singleton]
  · exact haudience ▸ h.refused.emit a.event

/-- **Whatever happens keeps that.** -/
theorem Heard.does (h : r.Heard subs pos) (hdoes : Does r pos r' pos') : r'.Heard subs pos' := by
  cases hdoes with
  | tells e hattending haudience =>
    refine ⟨Nat.le_trans h.le (by simp), ?_, fun hall => ?_, fun hgone => ?_, ?_, haudience ▸ h.accounts,
      h.wanted, haudience ▸ h.refused⟩
    · simp only [List.take_append_of_le_length h.le]
      exact h.inOrder
    · simp only [List.take_append_of_le_length h.le]
      exact h.complete hall
    · exact nomatch hattending.symm.trans hgone
    · exact List.forall_mem_append.mpr ⟨h.echoes, by simp⟩
  | hears hgoing hnext haudience => exact h.hears hgoing hnext haudience
  | misses hgoing hle haudience =>
    refine ⟨hle, ?_, fun hnone => ?_, fun hgone => absurd hgone hgoing, h.echoes, haudience ▸ h.accounts,
      h.wanted, haudience ▸ h.refused⟩
    · exact h.inOrder.trans ((List.take_sublist_take_left (Nat.le_add_right pos _)).map _)
    · simp at hnone
  | finds hgoing hall haudience =>
    refine ⟨h.le, h.inOrder, h.complete, fun _ => ?_, h.echoes, haudience ▸ h.accounts, h.wanted,
      haudience ▸ h.refused⟩
    rw [hall, List.drop_length]
    exact List.forall_mem_nil _
  | advances member haudience =>
    obtain ⟨hs, hhandles, -⟩ := Audience.handles_advance h.accounts.subscribers member
    obtain ⟨haccounts, htells⟩ := h.accounts.advance member
    exact h.handles (haudience ▸ haccounts) (haudience ▸ hhandles) htells
  | works haudience =>
    obtain ⟨hs, hhandles, -⟩ := Audience.handles_run h.accounts.subscribers
    obtain ⟨haccounts, htells⟩ := h.accounts.run
    exact h.handles (haudience ▸ haccounts) (haudience ▸ hhandles) htells
  | permits member n =>
    exact ⟨h.le, h.inOrder, h.complete, h.rest, h.echoes, h.accounts.permit member n, h.wanted,
      h.refused.handles (Audience.handles_permit r.audience member n)⟩
  | callsOff _ => exact { h with rest := nofun }
  | notices _ => exact { h with rest := nofun }
  | nothing => exact h

theorem heard_after (subs : List Subscriber) (capacity : Nat) (history : List Action) :
    ∃ pos, ((ofList subs capacity).after history).Heard subs pos := by
  obtain ⟨pos, -, hheard⟩ := keeps_after (P := Heard subs) (fun _ _ _ _ hdoes h => h.does hdoes)
    (tracks_ofList subs capacity) (heard_ofList subs capacity) history
  exact ⟨pos, hheard⟩

/-! ## What a member was handed -/

/-- What is on the bus and not about observers was told by the run. -/
theorem Heard.told_events (h : r.Heard subs pos) :
    r.events.filter (!·.isAboutObserver) = r.told.filter (!·.isAboutObserver) := by
  rw [events, told, List.filter_map, List.filter_map, List.filter_filter]
  refine congrArg _ (List.filter_congr fun a ha => ?_)
  cases hauthor : a.author with
  | run => simp
  | audience => simp [h.echoes a ha hauthor]

section Member

variable (h : r.Heard subs pos) {number : Nat} {m : Member}
  (hm : r.audience.members[number]? = some m)
include h hm

theorem Heard.subscriber : subs[number]? = some m.subscriber := by
  rw [← h.accounts.subscribers, List.getElem?_map, hm]
  rfl

/-- What is queued for a member is what it wants to see of what the listener handed on, less what it
dropped. -/
theorem Heard.queued : (Offering.queuedFor number r.offered).Sublist
    (r.heard.filter (m.subscriber.interested ·.kind)) := by
  rw [← Audience.offered_to h.wanted (h.subscriber hm), Offering.queuedFor]
  exact (List.monotone_filter_right _ fun o ho => (Bool.and_eq_true _ _ ▸ ho).1).map _

/-- **A member is handed events in order.** -/
theorem Heard.seen : m.worker.seen.Sublist r.events := by
  have hserves := h.accounts.serves number m hm
  have hseen : m.worker.seen.Sublist (Offering.queuedFor number r.offered) :=
    (List.sublist_append_left _ _).trans hserves.handed_prefix.sublist
  have htake : ((r.aired.take pos).map (·.event)).Sublist r.events := (List.take_sublist _ _).map _
  exact hseen.trans ((h.queued hm).trans (List.filter_sublist.trans (h.inOrder.trans htake)))

/-- **A member that lost nothing was handed all that it wants to see**, when it has nothing left. -/
theorem Heard.seen_all (hfinished : m.worker.isFinished = true) (hgoing : m.worker.ended = false)
    (hroom : ∀ o ∈ r.offered, o.member = number → o.dropped ≠ some .full) :
    m.worker.seen = r.heard.filter (m.subscriber.interested ·.kind) := by
  rw [(h.accounts.serves number m hm).seen hfinished hgoing, ← Audience.offered_to h.wanted (h.subscriber hm),
    Offering.queuedFor]
  refine congrArg _ (List.filter_congr fun o ho => ?_)
  by_cases hmember : o.member = number
  · have hkept : o.dropped = none := by
      cases hdropped : o.dropped with
      | none => rfl
      | some reason =>
        cases reason with
        | full => exact absurd hdropped (hroom o ho hmember)
        | closed =>
          have hended := h.refused o ho hdropped m (hmember ▸ hm)
          exact absurd (hgoing.symm.trans hended) Bool.false_ne_true
    simp [hmember, hkept]
  · simp [hmember]

end Member

/-- When the listener is done and has missed nothing, it has handed on all that the run told. -/
theorem Heard.heard_all (h : r.Heard subs pos) (hgone : r.stage = .gone) (hnone : r.missed = []) :
    r.heard.filter (!·.isAboutObserver) = r.told.filter (!·.isAboutObserver) := by
  have hrest : ((r.aired.drop pos).map (·.event)).filter (!·.isAboutObserver) = [] := by
    refine List.filter_eq_nil_iff.mpr fun e he => ?_
    obtain ⟨a, ha, rfl⟩ := List.mem_map.mp he
    simp [h.echoes a (List.mem_of_mem_drop ha) (h.rest hgone a ha)]
  rw [h.complete hnone, ← h.told_events, events]
  conv_rhs => rw [← List.take_append_drop pos r.aired, List.map_append, List.filter_append, hrest,
    List.append_nil]

/-! ## What the run tells -/

/-- Nobody but the run tells of it, or calls the listener off. -/
theorem told_act {a : Action} (haside : a.isOfRun = false) :
    (r.act a).told = r.told ∧ (r.stage = .attending → (r.act a).stage = .attending) := by
  cases a with
  | tell | callOff => cases haside
  | listen =>
    refine ⟨?_, stage_listen⟩
    simp only [act, listen]
    split
    · rfl
    · split
      · exact told_echo r r.toFeed.listen _
      · rfl
      · rfl
  | advance | work => exact ⟨told_echo r _ _, id⟩
  | permit => exact ⟨rfl, id⟩
  | notice =>
    simp only [act]
    split
    · rename_i hcalled
      exact ⟨rfl, fun hattending => absurd (hattending.symm.trans hcalled) (by decide)⟩
    · exact ⟨rfl, id⟩

end Relay

/-! ## The events of a run -/

namespace Event

variable {service : String} {delivered dropped : List Command} {open? : Option Command} {es : List Event}

theorem Story.not_about (h : Story service delivered dropped open? es) :
    ∀ e ∈ es, e.isAboutObserver = false := by
  induction h with
  | opened handlerName args => simp [opening, isAboutObserver, ofKind, withArgs, withReason, withService]
  | status s h ih =>
    exact List.forall_mem_append.mpr ⟨ih, List.forall_mem_singleton.mpr rfl⟩
  | received c h ih | delivered h ih | dropped h ih =>
    exact List.forall_mem_append.mpr ⟨ih, List.forall_mem_singleton.mpr rfl⟩

theorem not_about_ended (service : String) (c : Cause) (answer : Except HostError Unit) :
    ∀ e ∈ ended service c answer, e.isAboutObserver = false := by
  intro e he
  rcases List.mem_pair.mp he with rfl | rfl
  · cases c <;> rfl
  · cases answer <;> rfl

/-- **No event of a run is about observers.** -/
theorem Chronicle.not_about (h : Chronicle service es) : ∀ e ∈ es, e.isAboutObserver = false := by
  have htail {before news : List Event} (hbefore : ∀ e ∈ before, e.isAboutObserver = false)
      (c : Cause) (answer : Except HostError Unit) (hnews : ∀ e ∈ news, e.isAboutObserver = false) :
      ∀ e ∈ before ++ Event.ended service c answer ++ news, e.isAboutObserver = false :=
    List.forall_mem_append.mpr
      ⟨List.forall_mem_append.mpr ⟨hbefore, not_about_ended service c answer⟩, hnews⟩
  cases h with
  | unstarted e =>
    intro e' he'
    rcases List.mem_pair.mp he' with rfl | rfl <;> rfl
  | ended h c answer => exact htail h.not_about c answer (List.forall_mem_singleton.mpr rfl)
  | outlived h left answer grace? =>
    refine htail h.not_about _ answer fun e he => ?_
    rcases List.mem_pair.mp he with rfl | rfl <;> rfl

end Event

/-- When the bridge has ended, its stop is the last that it tells. -/
theorem Bridge.Written.farewell {name : String} {es : List Event} {ending : Ending}
    (h : Written name es (.ended ending)) : ∃ before, es = before ++ [Event.stopped name] := by
  cases h with
  | stopped c _ _ story answer hes => exact ⟨_, hes⟩
  | unstarted _ hes => exact ⟨_, hes⟩

namespace Vigil

variable {σ : Type} [StatusHost σ]

/-- **What a run tells**: nothing about observers, and at the end that the bridge has stopped, and that the
handler has outlived its grace period. -/
theorem events_of_run (name handlerName : String) (context : Context) (host : σ) (guard : Guard)
    (grace? : Option Duration) (history : List Step) :
    let v := (fresh name handlerName context host guard grace?).after history
    Left v ∧ (∀ e ∈ v.events, e.isAboutObserver = false) ∧
      (v.departed = true → ∃ before, v.events = before ++ Event.stopped name :: v.overstay.toList) := by
  intro v
  obtain ⟨steps, hbridge⟩ := (fresh name handlerName context host guard grace?).bridge_after history
  have hname : v.bridge.name = name := by
    rw [hbridge, Bridge.name_after]
    rfl
  have hwritten : Bridge.Written name (Bridge.events v.bridge.log) v.bridge.stage := by
    rw [hbridge]
    exact Bridge.written_after name handlerName context host steps
  have hleft : Left v := left_after (left_fresh name handlerName context host guard grace?) history
  refine ⟨hleft, fun e he => ?_, fun hgone => ?_⟩
  · obtain ⟨rest, hchronicle⟩ := hwritten.completable fun e he => hname ▸ (hleft.told e he).2
    exact hchronicle.not_about e (List.mem_append_left _ he)
  · obtain ⟨ending, hs⟩ := hleft.ended hgone
    rw [hs] at hwritten
    obtain ⟨before, hbefore⟩ := hwritten.farewell
    exact ⟨before, by rw [events, hbefore, List.append_assoc]; rfl⟩

end Vigil

/-! ## A run with its subscribers -/

namespace Broadcast

variable {σ : Type} [StatusHost σ]

/-- **What is told is the beginning of the events of the run**, and all of them when the listener is called
off. -/
structure Telling (b : Broadcast σ) : Prop where
  left : Vigil.Left b.vigil
  inOrder : b.relay.told <+: b.vigil.events
  calledOff : b.relay.stage ≠ .attending → b.vigil.departed = true ∧ b.relay.told = b.vigil.events

omit [StatusHost σ] in
theorem telling_fresh (name handlerName : String) (context : Context) (host : σ) (guard : Guard)
    (grace? : Option Duration) (subs : List Subscriber) (capacity : Nat) :
    (fresh name handlerName context host guard grace? subs capacity).Telling where
  left := Vigil.left_fresh name handlerName context host guard grace?
  inOrder := List.nil_prefix
  calledOff hcalled := absurd rfl hcalled

theorem Telling.step {b : Broadcast σ} (h : b.Telling) (s : Step) : (b.step s).Telling := by
  cases s with
  | vigil s =>
    refine ⟨h.left.step s, h.inOrder.trans (h.left.events_prefix [s]), fun hcalled => ?_⟩
    obtain ⟨hgone, hall⟩ := h.calledOff hcalled
    exact ⟨(Vigil.departed_after hgone [s]).1, hall.trans (h.left.events_after hgone [s]).symm⟩
  | tell =>
    simp only [Broadcast.step]
    split
    · rename_i e hnext
      by_cases hattending : b.relay.stage = .attending
      · have htold : (b.relay.act (.tell e)).told = b.relay.told ++ [e] := by
          simp [Relay.act, Relay.tell, hattending, Relay.told]
        have hstage : (b.relay.act (.tell e)).stage = .attending := by
          simp [Relay.act, Relay.tell, hattending]
        refine ⟨h.left, ?_, fun hcalled => absurd hstage hcalled⟩
        rw [htold]
        obtain ⟨rest, hrest⟩ := h.inOrder
        rw [← hrest, List.getElem?_append_right (Nat.le_refl _), Nat.sub_self] at hnext
        obtain ⟨rest, rfl⟩ : ∃ later, rest = e :: later := by
          cases rest with
          | nil => cases hnext
          | cons e' later => exact ⟨later, by rw [Option.some.inj hnext]⟩
        exact ⟨rest, by rw [← hrest, List.append_assoc]; rfl⟩
      · have hstays : b.relay.act (.tell e) = b.relay := by simp [Relay.act, Relay.tell, hattending]
        rw [hstays]
        exact h
    · exact h
  | relay a haside =>
    obtain ⟨htold, hstays⟩ := Relay.told_act (r := b.relay) haside
    refine ⟨h.left, htold.symm ▸ h.inOrder, fun hcalled => ?_⟩
    obtain ⟨hgone, hall⟩ := h.calledOff fun hattending => hcalled (hstays hattending)
    exact ⟨hgone, htold.trans hall⟩
  | callOff =>
    simp only [Broadcast.step]
    split
    · rename_i hready
      obtain ⟨hgone, hlength⟩ : b.vigil.departed = true ∧
          b.relay.told.length = b.vigil.events.length := by simpa using hready
      have hall : b.relay.told = b.vigil.events := h.inOrder.eq_of_length hlength
      have htold : (b.relay.act .callOff).told = b.relay.told := by
        simp only [Relay.act]
        split <;> rfl
      exact ⟨h.left, htold.symm ▸ h.inOrder, fun _ => ⟨hgone, htold.trans hall⟩⟩
    · exact h

theorem telling_after {b : Broadcast σ} (h : b.Telling) (history : List Step) :
    (b.after history).Telling := by
  induction history generalizing b with
  | nil => exact h
  | cons s later ih => exact ih (h.step s)

/-- The parts of a broadcast go through histories of their own. -/
theorem parts_after (b : Broadcast σ) (history : List Step) :
    ∃ steps actions, (b.after history).vigil = b.vigil.after steps ∧
      (b.after history).relay = b.relay.after actions := by
  induction history generalizing b with
  | nil => exact ⟨[], [], rfl, rfl⟩
  | cons s later ih =>
    obtain ⟨steps, actions, hvigil, hrelay⟩ := ih (b.step s)
    have hnow : ∃ now now', (b.step s).vigil = b.vigil.after now ∧ (b.step s).relay = b.relay.after now' := by
      cases s with
      | vigil s => exact ⟨[s], [], rfl, rfl⟩
      | relay a _ => exact ⟨[], [a], rfl, rfl⟩
      | tell =>
        simp only [step]
        split
        · exact ⟨[], [.tell _], rfl, rfl⟩
        · exact ⟨[], [], rfl, rfl⟩
      | callOff =>
        simp only [step]
        split
        · exact ⟨[], [.callOff], rfl, rfl⟩
        · exact ⟨[], [], rfl, rfl⟩
    obtain ⟨now, now', hvigil', hrelay'⟩ := hnow
    refine ⟨now ++ steps, now' ++ actions, ?_, ?_⟩
    · rw [Vigil.after_append, ← hvigil']
      exact hvigil
    · rw [Relay.after_append, ← hrelay']
      exact hrelay

/-- **Subscribers see the whole run.**  Whatever the order of the steps, what a subscriber was handed of the
events of the run is a part of those published, in their order and each once.  When the run returns, the
events are all published, the last ones being that the bridge has stopped, and that the handler has outlived
its grace period; a subscriber was then handed exactly those that it wants to see, if the listener has
missed nothing, no event found its queue full, and its worker has not ended.  The other subscribers do not
matter. -/
theorem subscribers_see_run (name handlerName : String) (context : Context) (host : σ) (guard : Guard)
    (grace? : Option Duration) (subs : List Subscriber) (capacity : Nat) (history : List Step) :
    let b := (fresh name handlerName context host guard grace? subs capacity).after history
    b.relay.told <+: b.vigil.events ∧
    (b.result?.isSome = true → b.relay.told = b.vigil.events ∧
      ∃ before, b.vigil.events = before ++ Event.stopped name :: b.vigil.overstay.toList) ∧
    ∀ (number : Nat) (m : Member), b.relay.audience.members[number]? = some m →
      subs[number]? = some m.subscriber ∧
      (m.worker.seen.filter (!·.isAboutObserver)).Sublist b.relay.told ∧
      (b.result?.isSome = true → b.relay.missed = [] →
        (∀ o ∈ b.relay.offered, o.member = number → o.dropped ≠ some .full) →
        m.worker.ended = false →
        m.worker.seen.filter (!·.isAboutObserver) =
          b.vigil.events.filter (m.subscriber.interested ·.kind)) := by
  intro b
  obtain ⟨steps, actions, hvigil, hrelay⟩ :=
    (fresh name handlerName context host guard grace? subs capacity).parts_after history
  obtain ⟨-, habout, hends⟩ := hvigil ▸
    Vigil.events_of_run name handlerName context host guard grace? steps
  obtain ⟨pos, hheard⟩ := hrelay ▸ Relay.heard_after subs capacity actions
  have htelling : b.Telling :=
    telling_after (telling_fresh name handlerName context host guard grace? subs capacity) history
  have htold : b.relay.told.filter (!·.isAboutObserver) = b.relay.told :=
    List.filter_eq_self.mpr fun e he => by simp [habout e (htelling.inOrder.subset he)]
  -- when the run returns the listener was called off, and all workers are done
  have hdone (hresult : b.result?.isSome = true) :
      b.relay.stage = .gone ∧ (∀ m ∈ b.relay.audience.members, m.worker.isFinished = true) ∧
        b.vigil.departed = true ∧ b.relay.told = b.vigil.events := by
    have hover : b.relay.isOver = true := by
      unfold result? at hresult
      split at hresult
      · assumption
      · cases hresult
    obtain ⟨hgone, hfinished⟩ : b.relay.stage = .gone ∧
        ∀ m ∈ b.relay.audience.members, m.worker.isFinished = true := by
      simpa [Relay.isOver] using hover
    exact ⟨hgone, hfinished, htelling.calledOff (by simp [hgone])⟩
  refine ⟨htelling.inOrder, fun hresult => ?_, fun number m hm => ?_⟩
  · obtain ⟨-, -, hdeparted, hall⟩ := hdone hresult
    exact ⟨hall, hends hdeparted⟩
  · refine ⟨hheard.subscriber hm, ?_, fun hresult hnone hroom hgoing => ?_⟩
    · have hseen := (hheard.seen hm).filter (!·.isAboutObserver)
      rwa [hheard.told_events, htold] at hseen
    · obtain ⟨hgone, hfinished, -, hall⟩ := hdone hresult
      have hseen := hheard.seen_all hm (hfinished m (List.mem_of_getElem? hm)) hgoing hroom
      rw [hseen, List.filter_filter, ← hall, ← htold, ← hheard.heard_all hgone hnone, List.filter_filter]
      exact List.filter_congr fun e _ => Bool.and_comm _ _

/-- It wants to see how the run goes, and how it ends. -/
def picky : Subscriber where
  name := "picky"
  capacity := 8
  interested k := k = .statusReported || k = .bridgeStopped || k = .graceExceeded
  gated := false
  reaction _ _ := .handles

/-- The handler of the run is left behind.  The frail one panics over its start, and then does not get to
run until its queue is full; the listener is called off while it has events to read. -/
def watchedRun : List Step :=
  Vigil.violatedRun.map .vigil ++
    (List.replicate 2 [.tell, .relay .listen rfl, .relay (.advance 1) rfl]).flatten ++
    (List.replicate 9 [.tell, .relay .listen rfl, .relay (.advance 0) rfl]).flatten ++
    [.callOff, .relay .notice rfl] ++ List.replicate 16 (.relay .listen rfl) ++
    .relay (.advance 0) rfl :: List.replicate 8 (.relay (.advance 1) rfl)

/-- That run, watched by both. -/
def watched : Broadcast ScriptedHost :=
  (fresh "svc" "handler" 0 (ScriptedHost.mk [] 0) (.capture .home) none [picky, Fanout.frail] 16).after
    watchedRun

/-- The picky one has seen all it wants to see, to the very end. -/
theorem watched_to_the_end :
    watched.result?.isSome = true ∧
    (∃ o ∈ watched.relay.offered, o.name = "frail" ∧ o.dropped = some .full) ∧
    (watched.vigil.events.filter (picky.interested ·.kind)).map (·.kind) =
      [.statusReported, .bridgeStopped, .graceExceeded] ∧
    ∃ m, watched.relay.audience.members[0]? = some m ∧
      m.worker.seen.filter (!·.isAboutObserver) =
        watched.vigil.events.filter (picky.interested ·.kind) := by
  have hresult : watched.result?.isSome = true := by decide +kernel
  have hnone : watched.relay.missed = [] := by decide +kernel
  have hroom : ∀ o ∈ watched.relay.offered, o.member = 0 → o.dropped ≠ some .full := by decide +kernel
  have hgoing : watched.relay.audience.members.all (!·.worker.ended) = true := by decide +kernel
  obtain ⟨m, hm⟩ : ∃ m, watched.relay.audience.members[0]? = some m :=
    Option.isSome_iff_exists.mp (by decide +kernel)
  have hgoing : m.worker.ended = false :=
    (Bool.not_eq_true' _).mp (List.all_eq_true.mp hgoing m (List.mem_of_getElem? hm))
  have hrun : (fresh "svc" "handler" 0 (ScriptedHost.mk [] 0) (.capture .home) none
      [picky, Fanout.frail] 16).after watchedRun = watched := rfl
  have hsees := subscribers_see_run "svc" "handler" 0 (ScriptedHost.mk [] 0) (.capture .home) none
    [picky, Fanout.frail] 16 watchedRun
  rw [hrun] at hsees
  obtain ⟨hsub, -, hseen⟩ := hsees.2.2 0 m hm
  have hpicky : picky = m.subscriber := Option.some.inj hsub
  refine ⟨hresult, by decide +kernel, by decide +kernel, m, hm, ?_⟩
  rw [hpicky]
  exact hseen hresult hnone hroom hgoing

end Broadcast

end Steward

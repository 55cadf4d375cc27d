import Steward.Proofs.Event.Bus
import Steward.Service.Relay

/-!
# Proofs/Service/Relay — what can happen between the bus and the audience

A relay `Tracks` the position of its listener when the bus holds what was aired and the listener is not
beyond it.  An action then `Does` one of few things, and keeps the track (`Tracks.act`), so that whatever is
kept by each of these things holds along all histories (`keeps_after`).
-/

namespace Steward.Relay

variable {r r' : Relay} {pos pos' : Nat}

/-- The events that went to the bus. -/
def events (r : Relay) : List Event := r.aired.map (·.event)

theorem length_events (r : Relay) : r.events.length = r.aired.length := List.length_map _

@[simp] theorem told_echo (r : Relay) (feed : Feed) (published : List Event) :
    (r.echo feed published).told = r.told := by
  simp [told, echo, List.filter_map, Function.comp_def]

@[simp] theorem echoes_echo (r : Relay) (feed : Feed) (published : List Event) :
    (r.echo feed published).echoes = r.echoes ++ published := by
  simp [echoes, echo, List.filter_map, Function.comp_def]

theorem echo_nothing (r : Relay) (feed : Feed) : r.echo feed [] = { r with toFeed := feed } := by
  rw [echo, List.map_nil, List.append_nil]

/-- The bus holds what was aired, and the listener has a position there. -/
structure Tracks (r : Relay) (pos : Nat) : Prop where
  holds : r.bus.Holds r.events
  position : r.bus.position? r.listener = some pos
  le : pos ≤ r.aired.length
  room : 0 < r.bus.slots

theorem tracks_ofList (subs : List Subscriber) (capacity : Nat) : (ofList subs capacity).Tracks 0 where
  holds := (Bus.holds_ofCapacity capacity).subscribe
  position := Bus.position?_subscribe _
  le := Nat.zero_le _
  room := (Bus.slots_ofCapacity capacity : 0 < (Bus.ofCapacity capacity : Bus Event).slots)

/-- What an action does to a relay whose listener is at a position, and where the listener is then. -/
inductive Does (r : Relay) (pos : Nat) : Relay → Nat → Prop where
  /-- The run told of an event. -/
  | tells {feed : Feed} (e : Event) (attending : r.stage = .attending)
      (audience : feed.audience = r.audience) :
      Does r pos { r with toFeed := feed, aired := r.aired ++ [⟨.run, e⟩] } pos
  /-- The listener handed on the event at its position. -/
  | hears {feed : Feed} {a : Airing} (going : r.stage ≠ .gone) (next : r.aired[pos]? = some a)
      (audience : feed.audience = (r.audience.emit a.event).1) :
      Does r pos { r.echo feed (r.audience.emit a.event).2 with
        heard := r.heard ++ [a.event]
        offered := r.offered ++ r.audience.offerings a.event } (pos + 1)
  /-- The listener was too slow, and has missed some events. -/
  | misses {feed : Feed} {n : Nat} (going : r.stage ≠ .gone) (le : pos + n ≤ r.aired.length)
      (audience : feed.audience = r.audience) :
      Does r pos { r with toFeed := feed, missed := r.missed ++ [n] } (pos + n)
  /-- The listener found that it has read everything. -/
  | finds {feed : Feed} (going : r.stage ≠ .gone) (all : pos = r.aired.length)
      (audience : feed.audience = r.audience) :
      Does r pos { r with toFeed := feed, stage := r.stage.idle } pos
  /-- One worker got ahead. -/
  | advances {feed : Feed} (member : Nat) (audience : feed.audience = (r.audience.advance member).1) :
      Does r pos (r.echo feed (r.audience.advance member).2) pos
  /-- The workers ran until they could only wait. -/
  | works {feed : Feed} (audience : feed.audience = r.audience.run.1) :
      Does r pos (r.echo feed r.audience.run.2) pos
  /-- A member got permits. -/
  | permits (member n : Nat) : Does r pos { r with audience := r.audience.permit member n } pos
  /-- The listener was called off. -/
  | callsOff (attending : r.stage = .attending) : Does r pos { r with stage := .called } pos
  /-- The listener noticed. -/
  | notices (called : r.stage = .called) : Does r pos { r with stage := .draining } pos
  /-- Nothing happened. -/
  | nothing : Does r pos r pos

/-- What was told before is told. -/
theorem told_does (hdoes : Does r pos r' pos') : r.told <+: r'.told := by
  cases hdoes with
  | tells e _ _ => simp [told]
  | advances | works => simp
  | @hears feed a => exact (told_echo r feed (r.audience.emit a.event).2).symm ▸ List.prefix_refl r.told
  | _ => exact List.prefix_refl _

/-- The listener goes on from another position. -/
theorem Tracks.moves (h : r.Tracks pos) (hle : pos' ≤ r.aired.length) :
    Tracks { r with bus := r.bus.moveTo r.listener pos' } pos' where
  holds := h.holds.moveTo _ _
  position := Bus.position?_moveTo h.position pos'
  le := hle
  room := h.room

/-- Something was published; nobody moves. -/
theorem Tracks.airs (h : r.Tracks pos) (author : Author) (published : List Event)
    (audience : Audience) :
    Tracks { r with
      bus := r.bus.publishAll published
      audience := audience
      aired := r.aired ++ published.map (Airing.mk author) } pos where
  holds := by
    have hevents : (published.map (Airing.mk author)).map (·.event) = published := by
      simp [Function.comp_def]
    rw [events, List.map_append, hevents]
    exact h.holds.publishAll (Bus.hasReceivers_of_position h.position) published
  position := (Bus.position?_publishAll _ _ _).trans h.position
  le := Nat.le_trans h.le (by rw [List.length_append]; exact Nat.le_add_right _ _)
  room := (Bus.slots_publishAll _ _).symm ▸ h.room

theorem Tracks.tell (h : r.Tracks pos) (e : Event) :
    Does r pos (r.tell e) pos ∧ (r.tell e).Tracks pos := by
  unfold Relay.tell
  split
  · exact ⟨.tells e ‹_› rfl, h.airs .run [e] r.audience⟩
  · exact ⟨.nothing, h⟩

/-- The listener hands on the event that it finds. -/
theorem Tracks.hears (h : r.Tracks pos) (hgoing : r.stage ≠ .gone) {a : Airing}
    (hnext : r.aired[pos]? = some a)
    (hreceive : r.bus.receive r.listener =
      (r.bus.moveTo r.listener (pos + 1), some (.event a.event))) :
    ∃ feed : Feed, feed.audience = (r.audience.emit a.event).1 ∧
      r.listen = { r.echo feed (r.audience.emit a.event).2 with
        heard := r.heard ++ [a.event]
        offered := r.offered ++ r.audience.offerings a.event } ∧
      r.listen.Tracks (pos + 1) := by
  have hlt : pos < r.aired.length := (List.getElem?_eq_some_iff.mp hnext).1
  have hfeed : r.toFeed.listen = { r.toFeed with
      bus := (r.bus.moveTo r.listener (pos + 1)).publishAll (r.audience.emit a.event).2
      audience := (r.audience.emit a.event).1 } := by
    simp only [Feed.listen, hreceive]
  have hmoved := (h.moves hlt).airs .audience (r.audience.emit a.event).2
    (r.audience.emit a.event).1
  unfold Relay.listen
  rw [if_neg hgoing]
  simp only [hreceive, hfeed]
  exact ⟨_, rfl, rfl, hmoved.holds, hmoved.position, hmoved.le, hmoved.room⟩

/-- What the listener finds on the bus. -/
theorem Tracks.listen (h : r.Tracks pos) : ∃ pos', Does r pos r.listen pos' ∧ r.listen.Tracks pos' := by
  by_cases hgone : r.stage = .gone
  · have hstays : r.listen = r := by rw [Relay.listen, if_pos hgone]
    exact hstays.symm ▸ ⟨pos, .nothing, h⟩
  · have hreceive := h.holds.receive h.position (by rw [length_events]; exact h.le)
    rw [length_events] at hreceive
    rcases hreceive with ⟨e, hreceive, hnext, -⟩ | ⟨n, hreceive, -, hle⟩ | ⟨hreceive, hall⟩
    · obtain ⟨a, ha, rfl⟩ : ∃ a, r.aired[pos]? = some a ∧ a.event = e := by
        simpa [events] using hnext
      obtain ⟨feed, haudience, hlisten, htracks⟩ := h.hears hgone ha hreceive
      exact ⟨pos + 1, hlisten.symm ▸ .hears hgone ha haudience, htracks⟩
    · have hle : pos + n ≤ r.aired.length := hle.symm ▸ Nat.sub_le _ _
      have hfeed : r.toFeed.listen = { r.toFeed with bus := r.bus.moveTo r.listener (pos + n) } := by
        simp only [Feed.listen, hreceive]
      have hmoved := h.moves hle
      unfold Relay.listen
      rw [if_neg hgone]
      simp only [hreceive, hfeed]
      exact ⟨pos + n, .misses hgone hle rfl, hmoved.holds, hmoved.position, hmoved.le, hmoved.room⟩
    · have hmoved := h.moves h.le
      unfold Relay.listen
      rw [if_neg hgone]
      cases hopen : r.bus.isOpen <;> rw [hopen] at hreceive <;>
      · have hfeed : r.toFeed.listen = { r.toFeed with bus := r.bus.moveTo r.listener pos } := by
          simp only [Feed.listen, hreceive, if_true, Bool.false_eq_true, if_false]
        simp only [hreceive, hfeed, if_true, Bool.false_eq_true, if_false]
        exact ⟨pos, .finds hgone hall rfl, hmoved.holds, hmoved.position, hmoved.le, hmoved.room⟩

/-- **Whatever happens is one of few things**, and the listener keeps its place on the bus. -/
theorem Tracks.act (h : r.Tracks pos) (a : Action) :
    ∃ pos', Does r pos (r.act a) pos' ∧ (r.act a).Tracks pos' := by
  cases a with
  | tell e => exact ⟨pos, h.tell e⟩
  | listen => exact h.listen
  | advance member =>
    exact ⟨pos, .advances member rfl, h.airs .audience (r.audience.advance member).2 _⟩
  | work => exact ⟨pos, .works rfl, h.airs .audience r.audience.run.2 _⟩
  | permit member n => exact ⟨pos, .permits member n, h.holds, h.position, h.le, h.room⟩
  | callOff =>
    simp only [Relay.act]
    split
    · exact ⟨pos, .callsOff ‹_›, h.holds, h.position, h.le, h.room⟩
    · exact ⟨pos, .nothing, h⟩
  | notice =>
    simp only [Relay.act]
    split
    · exact ⟨pos, .notices ‹_›, h.holds, h.position, h.le, h.room⟩
    · exact ⟨pos, .nothing, h⟩

/-- **What each of these things keeps holds along every history.** -/
theorem keeps_after {P : Relay → Nat → Prop} (keeps : ∀ r pos r' pos', Does r pos r' pos' →
    P r pos → P r' pos') (h : r.Tracks pos) (hnow : P r pos) (history : List Action) :
    ∃ pos', (r.after history).Tracks pos' ∧ P (r.after history) pos' := by
  induction history generalizing r pos with
  | nil => exact ⟨pos, h, hnow⟩
  | cons a later ih =>
    obtain ⟨pos', hdoes, hthen⟩ := h.act a
    exact ih hthen (keeps r pos _ pos' hdoes hnow)

end Steward.Relay

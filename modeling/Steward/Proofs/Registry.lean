import Steward.Proofs.Bridge.Start
import Steward.Registry.Calls

/-!
# Proofs/Registry — the runs of a table do not know of each other

The runs of a table are numbered in the order of their registration, and each has the number after its own
as its id (`Numbered`), so that an id is the id of one run for ever.

* `getElem?_after` — a run is what becomes of it alone.
* `lookup_number` — who looks for the id of a run finds that run, until it is deregistered.
* `Registration.Told` — the first outcome that is published for a run counts, and no other.
* `runs_are_isolated` — a table of runs is as good as many runs without a table.
-/

namespace Steward

namespace Handshake

variable {h : Handshake}

/-- A second outcome is refused. -/
theorem publish_of_settled (hs : h.isSettled = true) (o : Outcome) : h.publish o = (h, false) := by
  simp [publish, store_of_settled hs]

/-- The first outcome is there, and the signal is set. -/
theorem publish_of_unsettled (hs : h.isSettled = false) (o : Outcome) :
    h.publish o = ({ h with outcome := some o, ready := true }, true) := by
  simp [publish, store_of_unsettled hs, announce]

end Handshake

/-! ## One run -/

namespace Registration

variable {number : Nat} {e : Registration} {c : Call}

/-- Nothing that happens to a run changes who it is. -/
theorem identity_react (number : Nat) (e : Registration) (c : Call) :
    (e.react number c).id = e.id ∧ (e.react number c).name = e.name ∧
      (e.react number c).guard = e.guard := by
  cases c with
  | register | lookup => exact ⟨rfl, rfl, rfl⟩
  | main | control | deregister =>
    unfold react
    dsimp only
    split <;> exact ⟨rfl, rfl, rfl⟩
  | aside run a =>
    unfold react
    dsimp only
    split
    · cases a <;> exact ⟨rfl, rfl, rfl⟩
    · exact ⟨rfl, rfl, rfl⟩

theorem identity_alone (number : Nat) (e : Registration) (calls : List Call) :
    (e.alone number calls).id = e.id ∧ (e.alone number calls).name = e.name ∧
      (e.alone number calls).guard = e.guard := by
  induction calls generalizing e with
  | nil => exact ⟨rfl, rfl, rfl⟩
  | cons c later ih =>
    obtain ⟨hid, hname, hguard⟩ := e.identity_react number c
    obtain ⟨hid', hname', hguard'⟩ := ih (e.react number c)
    exact ⟨hid'.trans hid, hname'.trans hname, hguard'.trans hguard⟩

/-- The host's calls reach a run until it is deregistered. -/
theorem live_react (number : Nat) (e : Registration) (c : Call) :
    (e.react number c).live = true ↔ e.live = true ∧ Call.deregister e.id ≠ c := by
  cases c with
  | register | lookup => simp [react]
  | main | control =>
    unfold react
    dsimp only
    split <;> simp [enter, receive]
  | deregister id =>
    unfold react answersTo
    dsimp only
    split
    · rename_i hanswers
      obtain ⟨-, hid⟩ : e.live = true ∧ e.id = id := by simpa using hanswers
      simp [hid]
    · rename_i hsilent
      cases hlive : e.live with
      | false => simp
      | true =>
        have hother : e.id ≠ id := by simpa [hlive] using hsilent
        simp [hother]
  | aside run a =>
    unfold react
    dsimp only
    split
    · cases a <;> simp [Registration.aside]
    · simp

theorem live_alone (number : Nat) (e : Registration) (calls : List Call) :
    (e.alone number calls).live = true ↔ e.live = true ∧ .deregister e.id ∉ calls := by
  induction calls generalizing e with
  | nil => simp [alone]
  | cons c later ih =>
    obtain ⟨hid, -⟩ := e.identity_react number c
    have hlater := ih (e.react number c)
    rw [hid, live_react] at hlater
    rw [List.mem_cons, not_or, ← and_assoc]
    exact hlater

/-- **What the handshake of a run has of the outcomes published for it**: whether there was one, and the
first one until it is taken. -/
structure Told (os : List Outcome) (h : Handshake) : Prop where
  settled : h.isSettled = !os.isEmpty
  first : ∀ o, h.outcome = some o → os.head? = some o

theorem told_fresh : Told [] .fresh where
  settled := rfl
  first := nofun

theorem Told.publish {os : List Outcome} {h : Handshake} (hh : Told os h) (o : Outcome) :
    Told (os ++ [o]) (h.publish o).1 := by
  cases hsettled : h.isSettled with
  | true =>
    rw [Handshake.publish_of_settled hsettled]
    refine ⟨by simp [hsettled], fun o' ho => ?_⟩
    rw [List.head?_append, hh.first o' ho]
    rfl
  | false =>
    rw [Handshake.publish_of_unsettled hsettled]
    obtain rfl : os = [] := by simpa [hsettled] using hh.settled.symm
    exact ⟨by simp [Handshake.isSettled], fun o' ho => ho⟩

/-- To take the outcome publishes nothing. -/
theorem Told.poll {os : List Outcome} {h : Handshake} (hh : Told os h) : Told os h.poll.1 := by
  unfold Handshake.poll
  split
  · rename_i hready
    split
    · refine ⟨?_, nofun⟩
      rw [← hh.settled]
      simp [Handshake.isSettled, hready]
    · exact hh
  · exact hh

theorem Told.react {os : List Outcome} (h : Told os e.handshake) (number : Nat) (c : Call) :
    Told (os ++ (e.publishes? number c).toList) (e.react number c).handshake := by
  have hnothing : os ++ (none : Option Outcome).toList = os := List.append_nil os
  cases c with
  | register | lookup => exact hnothing.symm ▸ h
  | main id raw =>
    unfold Registration.react publishes?
    dsimp only
    split
    · exact h.publish _
    · exact hnothing.symm ▸ h
  | control | deregister =>
    unfold Registration.react publishes?
    dsimp only
    split <;> exact hnothing.symm ▸ h
  | aside run a =>
    unfold Registration.react
    dsimp only
    split
    · rename_i hnumber
      cases a with
      | publish o =>
        simp only [publishes?, if_pos hnumber]
        exact h.publish o
      | poll => exact hnothing.symm ▸ h.poll
      | stop => exact hnothing.symm ▸ ⟨h.settled, h.first⟩
      | take | enter | close | answer => exact hnothing.symm ▸ h
    · rename_i hother
      cases a with
      | publish o =>
        simp only [publishes?, if_neg hother]
        exact hnothing.symm ▸ h
      | _ => exact hnothing.symm ▸ h

/-- **The first outcome counts**, whatever is done to the run. -/
theorem Told.alone {os : List Outcome} (h : Told os e.handshake) (number : Nat) (calls : List Call) :
    Told (os ++ e.outcomes number calls) (e.alone number calls).handshake := by
  induction calls generalizing e os with
  | nil => exact (List.append_nil os).symm ▸ h
  | cons c later ih =>
    rw [outcomes, ← List.append_assoc]
    exact ih (h.react number c)

end Registration

/-! ## All runs -/

namespace Registry

variable {r : Registry} {number : Nat} {e : Registration} {id : Context}

/-- How many runs are registered along a history. -/
def registrations (history : List Call) : Nat := history.countP Call.isRegister

theorem registrations_cons (c : Call) (later : List Call) :
    registrations (c :: later) = registrations [c] + registrations later := by
  rw [← List.singleton_append, registrations, List.countP_append]
  rfl

theorem mem_of_lookup (h : r.lookup id = some e) :
    (∃ number : Nat, r.runs[number]? = some e) ∧ e.live = true ∧ e.id = id := by
  obtain ⟨hlive, hid⟩ : e.live = true ∧ e.id = id := by simpa using List.find?_some h
  exact ⟨List.mem_iff_getElem?.mp (List.mem_of_find?_eq_some h), hlive, hid⟩

theorem silent_of_lookup (h : r.lookup id = none) (he : r.runs[number]? = some e) :
    e.answersTo id = false := by
  have hnone := List.find?_eq_none.mp h e (List.mem_of_getElem? he)
  exact Bool.eq_false_iff.mpr hnone

/-- To change a run that is not there changes nothing. -/
theorem update_of_lookup (h : r.lookup id = none) (f : Registration → Registration) :
    r.update id f = r := by
  have hsame : r.runs.map (fun e => if e.live && e.id == id then f e else e) = r.runs := by
    refine (List.map_congr_left fun e he => ?_).trans (List.map_id _)
    obtain ⟨number, hnumber⟩ := List.mem_iff_getElem?.mp he
    have hsilent := silent_of_lookup h hnumber
    rw [Registration.answersTo] at hsilent
    simp [hsilent]
  exact congrArg Registry.mk hsame

theorem getElem?_update (h : r.runs[number]? = some e) (id : Context)
    (f : Registration → Registration) :
    (r.update id f).runs[number]? = some (if e.answersTo id then f e else e) := by
  rw [update, List.getElem?_map, h]
  rfl

/-- A control call changes the run that it finds. -/
theorem control_eq_update (r : Registry) (caller : ThreadId) (c : ControlCall) :
    (r.control caller c).1 = r.update c.context (·.receive caller c) := by
  unfold control
  split
  · rename_i hnone
    exact (update_of_lookup hnone _).symm
  · rfl

/-- **What a call does to a run does not depend on the others.** -/
theorem getElem?_call (h : r.runs[number]? = some e) (c : Call) :
    (r.call c).1.runs[number]? = some (e.react number c) := by
  cases c with
  | register name thread onRegister =>
    have hlt : number < r.runs.length := (List.getElem?_eq_some_iff.mp h).1
    simp only [call, register]
    rw [List.getElem?_append_left hlt, h]
    rfl
  | lookup id => exact h
  | deregister id | main id raw => exact getElem?_update h id _
  | control caller c =>
    simp only [call, control_eq_update]
    exact getElem?_update h c.context _
  | aside run a =>
    simp only [call, modify]
    rw [List.getElem?_modify, h]
    rfl

/-- **A run is what becomes of it alone.** -/
theorem getElem?_after (h : r.runs[number]? = some e) (calls : List Call) :
    (r.after calls).runs[number]? = some (e.alone number calls) := by
  induction calls generalizing r e with
  | nil => exact h
  | cons c later ih => exact ih (getElem?_call h c)

theorem length_call (r : Registry) (c : Call) :
    (r.call c).1.runs.length = r.runs.length + registrations [c] := by
  cases c with
  | register => simp [call, register, registrations, Call.isRegister]
  | lookup => rfl
  | deregister | main => simp [call, deregister, main, update, registrations, Call.isRegister]
  | control =>
    simp only [call, control_eq_update]
    simp [update, registrations, Call.isRegister]
  | aside => simp [call, modify, registrations, Call.isRegister]

/-- A new run has the next number and the next id. -/
theorem of_new_run {c : Call} (h : (r.call c).1.runs[number]? = some e)
    (hnew : r.runs.length ≤ number) :
    number = r.runs.length ∧ ∃ name thread onRegister, c = .register name thread onRegister ∧
      e = .opened r.nextId name (.capture thread) onRegister := by
  have hlt := (List.getElem?_eq_some_iff.mp h).1
  rw [length_call] at hlt
  cases c with
  | register name thread onRegister =>
    have hnumber : number = r.runs.length := Nat.le_antisymm (Nat.le_of_lt_succ hlt) hnew
    subst hnumber
    simp only [call, register, List.getElem?_concat_length] at h
    exact ⟨rfl, name, thread, onRegister, rfl, (Option.some.inj h).symm⟩
  | _ => exact absurd hlt (Nat.not_lt.mpr hnew)

theorem length_after (r : Registry) (history : List Call) :
    (r.after history).runs.length = r.runs.length + registrations history := by
  induction history generalizing r with
  | nil => rfl
  | cons c later ih =>
    rw [registrations_cons, ← Nat.add_assoc, ← length_call]
    exact ih (r.call c).1

/-! ## The ids -/

/-- Each run has the number after its own as its id. -/
structure Numbered (r : Registry) : Prop where
  few : r.runs.length < UInt64.size
  id : ∀ (number : Nat) (e : Registration), r.runs[number]? = some e → e.id.toNat = number + 1

theorem numbered_empty : empty.Numbered where
  few := by decide
  id _ _ h := nomatch h

/-- The id of the next run. -/
theorem toNat_nextId (h : r.runs.length + 1 < UInt64.size) : r.nextId.toNat = r.runs.length + 1 := by
  rw [nextId, UInt64.toNat_ofNat']
  exact Nat.mod_eq_of_lt h

theorem Numbered.call (h : r.Numbered) (c : Call) (few : (r.call c).1.runs.length < UInt64.size) :
    (r.call c).1.Numbered where
  few := few
  id number e he := by
    rcases Nat.lt_or_ge number r.runs.length with hlt | hge
    · have hbefore := List.getElem?_eq_getElem hlt
      have hnow := getElem?_call hbefore c
      obtain rfl := Option.some.inj (he.symm.trans hnow)
      rw [(Registration.identity_react number _ c).1]
      exact h.id number _ hbefore
    · obtain ⟨rfl, name, thread, onRegister, rfl, rfl⟩ := of_new_run he hge
      rw [length_call] at few
      exact toNat_nextId few

/-- **Every run keeps a number of its own as its id**, as long as there are not too many. -/
theorem numbered_after (h : r.Numbered) {history : List Call}
    (few : r.runs.length + registrations history < UInt64.size) : (r.after history).Numbered := by
  induction history generalizing r with
  | nil => exact h
  | cons c later ih =>
    rw [registrations_cons] at few
    have hlength := r.length_call c
    have hlater : (r.call c).1.runs.length + registrations later < UInt64.size := by omega
    have hnow : (r.call c).1.Numbered := h.call c (by omega)
    exact ih hnow hlater

/-- The ids are not zero, and grow. -/
theorem Numbered.ids (h : r.Numbered) :
    (∀ id ∈ r.runs.map (·.id), id ≠ 0) ∧ (r.runs.map (·.id)).Pairwise (· < ·) := by
  refine ⟨fun id hid hzero => ?_, List.pairwise_iff_getElem.mpr fun i j hi hj hlt => ?_⟩
  · obtain ⟨e, he, rfl⟩ := List.mem_map.mp hid
    obtain ⟨number, hnumber⟩ := List.mem_iff_getElem?.mp he
    have htoNat := h.id number e hnumber
    rw [hzero] at htoNat
    cases htoNat
  · have hnumber {k : Nat} (hk : k < (r.runs.map fun e : Registration => e.id).length) :
        (r.runs.map fun e : Registration => e.id)[k].toNat = k + 1 := by
      rw [List.getElem_map]
      exact h.id k _ (List.getElem?_eq_getElem (by simpa using hk))
    rw [UInt64.lt_iff_toNat_lt, hnumber, hnumber]
    omega

/-- Where no run is new, the ids are those of before. -/
theorem ids_call_of_length {c : Call} (h : (r.call c).1.runs.length = r.runs.length) :
    (r.call c).1.runs.map (·.id) = r.runs.map (·.id) := by
  refine List.ext_getElem? fun number => ?_
  rw [List.getElem?_map, List.getElem?_map]
  cases hnumber : r.runs[number]? with
  | none =>
    rw [List.getElem?_eq_none_iff, ← h] at hnumber
    rw [List.getElem?_eq_none hnumber]
  | some e =>
    rw [getElem?_call hnumber]
    exact congrArg some (Registration.identity_react number e c).1

/-- A call hands out the id of the new run. -/
theorem ids_call (r : Registry) (c : Call) :
    (r.call c).1.runs.map (·.id) = r.runs.map (·.id) ++ (r.call c).2.id?.toList := by
  cases c with
  | register => simp [call, register, Reply.id?]
  | lookup | deregister | main | control | aside =>
    exact (ids_call_of_length (r.length_call _)).trans (List.append_nil _).symm

/-- **The ids handed out are those of the runs**, in order. -/
theorem ids_after (r : Registry) (history : List Call) :
    (r.after history).runs.map (·.id) = r.runs.map (·.id) ++ r.handedOut history := by
  induction history generalizing r with
  | nil => exact (List.append_nil _).symm
  | cons c later ih =>
    have hhanded : r.handedOut (c :: later) =
        (r.call c).2.id?.toList ++ (r.call c).1.handedOut later := by
      rw [handedOut, replies, List.filterMap_cons]
      cases (r.call c).2.id? <;> rfl
    rw [hhanded, ← List.append_assoc, ← ids_call]
    exact ih (r.call c).1

theorem Numbered.eq_of_id (h : r.Numbered) {number' : Nat} {e' : Registration}
    (he : r.runs[number]? = some e) (he' : r.runs[number']? = some e') (hid : e.id = e'.id) :
    number = number' := by
  have hnumber := h.id number e he
  have hnumber' := h.id number' e' he'
  rw [hid, hnumber'] at hnumber
  omega

/-- **Who looks for the id of a run finds that run**, until it is deregistered. -/
theorem Numbered.lookup_number (h : r.Numbered) (he : r.runs[number]? = some e) :
    r.lookup e.id = if e.live then some e else none := by
  cases hfound : r.lookup e.id with
  | none =>
    have hsilent := silent_of_lookup hfound he
    have hgone : e.live = false := by simpa [Registration.answersTo] using hsilent
    rw [hgone]
    rfl
  | some e' =>
    obtain ⟨⟨number', he'⟩, hlive, hid⟩ := mem_of_lookup hfound
    obtain rfl := h.eq_of_id he' he hid
    obtain rfl := Option.some.inj (he'.symm.trans he)
    rw [hlive]
    rfl

/-- To change the run with an id is to change one run. -/
theorem Numbered.update_eq_modify (h : r.Numbered) (hfound : r.lookup id = some e)
    (he : r.runs[number]? = some e) (f : Registration → Registration) :
    r.update id f = r.modify number f := by
  obtain ⟨-, hlive, rfl⟩ := mem_of_lookup hfound
  refine congrArg Registry.mk (List.ext_getElem? fun k => ?_)
  rw [List.getElem?_map, List.getElem?_modify]
  cases hk : r.runs[k]? with
  | none => rfl
  | some e' =>
    by_cases hnumber : number = k
    · subst hnumber
      obtain rfl := Option.some.inj (he.symm.trans hk)
      simp [hlive]
    · have hother : e'.id ≠ e.id := fun hid => hnumber (h.eq_of_id he hk hid.symm)
      simp [hnumber, hother]

/-- A run that was deregistered is not found again. -/
theorem lookup_deregister (r : Registry) (id : Context) : (r.deregister id).1.lookup id = none := by
  refine List.find?_eq_none.mpr fun e he => ?_
  obtain ⟨e', -, rfl⟩ := List.mem_map.mp he
  dsimp only
  split
  · simp
  · assumption

/-- A run that is registered along a history has a number and an id, and goes on alone. -/
theorem getElem?_registered (before later : List Call) (name : String) (thread : ThreadId)
    (onRegister : RegisterAnswer) :
    (empty.after (before ++ .register name thread onRegister :: later)).runs[registrations before]? =
      some ((Registration.opened (.ofNat (registrations before + 1)) name (.capture thread)
        onRegister).alone (registrations before) later) := by
  have hlength : (empty.after before).runs.length = registrations before :=
    (empty.length_after before).trans (Nat.zero_add _)
  rw [after_append]
  refine getElem?_after ?_ later
  have hid : (empty.after before).nextId = .ofNat (registrations before + 1) := by rw [nextId, hlength]
  simp only [call, register, hid, ← hlength, List.getElem?_concat_length]
  rfl

/-- **Runs are isolated.**  Along any history of calls, with fewer registrations than there are numbers in
a word, the ids handed out are not zero and grow.  A run that was registered is what becomes of it alone
with the calls that came later: its id leads to it until it is deregistered, and to nothing after that, and
of the outcomes published for it the first one counts.  An id that was not handed out leads to nothing.  To
deregister a run gives back what the id led to, and the id leads to nothing then.

With an id that leads to nothing, the host's calls do nothing.  With one that leads to a run they act on that
run: an entry of the service leaves its link alone, gives the host the run's own id to call back with, and
publishes the host's answer if nothing was published before; a control call leaves all but its link alone,
and returns the same number also if the link is closed. -/
theorem runs_are_isolated (history : List Call) (few : registrations history < UInt64.size) :
    let r := empty.after history
    ((∀ id ∈ empty.handedOut history, id ≠ 0) ∧ (empty.handedOut history).Pairwise (· < ·) ∧
      empty.handedOut history = r.runs.map (·.id)) ∧
    (∀ before name thread onRegister later,
      history = before ++ .register name thread onRegister :: later →
      let number := registrations before
      let start := Registration.opened (.ofNat (number + 1)) name (.capture thread) onRegister
      let e := start.alone number later
      r.runs[number]? = some e ∧ (e.id = start.id ∧ e.name = name ∧ e.guard = .capture thread) ∧
      (.deregister start.id ∉ later → r.lookup start.id = some e) ∧
      (.deregister start.id ∈ later → r.lookup start.id = none) ∧
      e.handshake.isSettled = !(start.outcomes number later).isEmpty ∧
      ∀ o, e.handshake.outcome = some o → (start.outcomes number later).head? = some o) ∧
    (∀ id, id ∉ empty.handedOut history → r.lookup id = none) ∧
    (∀ id, (r.deregister id).2 = r.lookup id ∧ (r.deregister id).1.lookup id = none) ∧
    (∀ id, r.lookup id = none →
      (∀ raw, r.main id raw = r) ∧
      ∀ caller c, c.context = id → r.control caller c = (r, callNotImplemented)) ∧
    ∀ id e, r.lookup id = some e → ∃ number, r.runs[number]? = some e ∧
      (∀ raw, r.main id raw = r.modify number (·.enter id raw) ∧ (e.enter id raw).control = e.control ∧
        (e.enter id raw).callback = (if e.onRegister.isOk then some e.id else e.callback) ∧
        (e.enter id raw).handshake =
          if e.handshake.isSettled then e.handshake
          else { e.handshake with outcome := some (e.outcome raw), ready := true }) ∧
      ∀ caller c, c.context = id →
        r.control caller c = (r.modify number (·.receive caller c), noError) ∧
        (e.receive caller c).handshake = e.handshake ∧ (e.receive caller c).asked = e.asked ∧
        (e.control.closed = true → (e.receive caller c).control = e.control) := by
  intro r
  have hnumbered : r.Numbered :=
    numbered_after numbered_empty ((Nat.zero_add _).symm ▸ few)
  have hids : empty.handedOut history = r.runs.map (·.id) := (empty.ids_after history).symm
  obtain ⟨hnonzero, hgrow⟩ := hnumbered.ids
  refine ⟨⟨hids ▸ hnonzero, hids ▸ hgrow, hids⟩, ?_, fun id hid => ?_,
    fun id => ⟨rfl, r.lookup_deregister id⟩, fun id hnone => ⟨fun raw => update_of_lookup hnone _, ?_⟩,
    fun id e hfound => ?_⟩
  · rintro before name thread onRegister later rfl number start e
    have he : r.runs[number]? = some e := getElem?_registered before later name thread onRegister
    obtain ⟨hid, hname, hguard⟩ := start.identity_alone number later
    have hlookup : r.lookup start.id = if e.live then some e else none :=
      hid ▸ hnumbered.lookup_number he
    have hlive : e.live = true ↔ start.live = true ∧ .deregister start.id ∉ later :=
      start.live_alone number later
    have htold : Registration.Told ([] ++ start.outcomes number later) e.handshake :=
      Registration.told_fresh.alone number later
    refine ⟨he, ⟨hid, hname, hguard⟩, fun hstays => ?_, fun hgone => ?_, htold.settled, htold.first⟩
    · rw [hlookup, if_pos (hlive.mpr ⟨rfl, hstays⟩)]
    · rw [hlookup, if_neg fun h => (hlive.mp h).2 hgone]
  · cases hfound : r.lookup id with
    | none => rfl
    | some e =>
      obtain ⟨⟨number, he⟩, -, rfl⟩ := mem_of_lookup hfound
      exact absurd (hids ▸ List.mem_map_of_mem (List.mem_of_getElem? he)) hid
  · rintro caller c rfl
    simp only [control, hnone]
  · obtain ⟨⟨number, he⟩, -, hid⟩ := mem_of_lookup hfound
    refine ⟨number, he, fun raw => ⟨hnumbered.update_eq_modify hfound he _, rfl, ?_, ?_⟩, ?_⟩
    · rw [hid]
      rfl
    · cases hsettled : e.handshake.isSettled with
      | true => simp [Registration.enter, Handshake.publish_of_settled hsettled]
      | false =>
        simp [Registration.enter, Handshake.publish_of_unsettled hsettled, Registration.outcome]
    · rintro caller c rfl
      refine ⟨?_, rfl, rfl, fun hclosed => ?_⟩
      · simp only [control, hfound]
        exact congrArg (·, noError) (hnumbered.update_eq_modify hfound he _)
      · simp [Registration.receive, Link.send, Link.start, hclosed]

/-- Two runs are registered; the service of the first is entered, its outcome is taken, and it is entered
again; then the first run goes, and nobody receives the control events of the second. -/
def twoRuns : List Call :=
  [.register "first" .home (.ok 7), .register "second" (.other 1) (.ok 8),
    .main 1 [[115, 118, 99]], .aside 0 .poll, .main 1 [], .aside 0 (.publish (.error .notStarted)),
    .deregister 1, .aside 1 .close]

/-- The first id leads to nothing any more, and the host's calls with it do nothing; the second leads to its
run, and a control call returns though nobody receives its event. -/
theorem twoRuns_isolated :
    registrations twoRuns < UInt64.size ∧ (empty.after twoRuns).lookup 1 = none ∧
    (∀ raw, (empty.after twoRuns).main 1 raw = empty.after twoRuns) ∧
    ∃ e, (empty.after twoRuns).lookup 2 = some e ∧ e.name = "second" ∧
      e.handshake.isSettled = false ∧ e.control.closed = true ∧
      ((empty.after twoRuns).control .home ⟨1, 0, 0, 2⟩).2 = noError := by
  have few : registrations twoRuns < UInt64.size := by decide
  obtain ⟨-, hruns, -, -, hnothing, hrun⟩ := runs_are_isolated twoRuns few
  obtain ⟨-, -, -, hgone, -⟩ := hruns [] "first" .home (.ok 7) (twoRuns.drop 1) rfl
  have hnone : (empty.after twoRuns).lookup 1 = none :=
    hgone (by simp [twoRuns, Registration.opened, registrations])
  obtain ⟨hmain, -⟩ := hnothing 1 hnone
  obtain ⟨-, ⟨-, hname, -⟩, hstays, -, hsettled, -⟩ :=
    hruns (twoRuns.take 1) "second" (.other 1) (.ok 8) (twoRuns.drop 2) rfl
  have hfound := hstays (by simp [twoRuns, Registration.opened, registrations, Call.isRegister])
  obtain ⟨number, -, -, hcontrol⟩ := hrun 2 _ hfound
  exact ⟨few, hnone, hmain, _, hfound, hname, hsettled, rfl,
    congrArg Prod.snd (hcontrol .home ⟨1, 0, 0, 2⟩ rfl).1⟩

end Registry

end Steward

import Mathlib.Data.List.Induction
import Steward.Proofs.Bridge.Report
import Steward.Service.Course

/-!
# Proofs/Service/Result — the first word decides

The host enters the service as often as it likes, and the dispatcher comes back when it likes; the
handshake lets one word count, and the bridge and the thread that runs the service each see a part of
what became of it.  Put together, the two parts give back the word.

The word that counts is the one whose outcome was put down first.  So a dispatcher that came back is to
blame unless an entry puts its outcome down before the thread that runs the service has put down its own;
and that thread may go on when an entry has put down its outcome and not set dispatcher-ready yet.

* `blamed_after` — the dispatcher is to blame exactly if the first word was its own.
* `returned_iff_first` — the first word is the dispatcher's exactly if it came back first.
* `ready_of_isPrompt`, `returnsFirst_of_isPrompt` — without delay dispatcher-ready is set when dispatching is
  over, and the dispatcher comes first if it is back before any entry.
* `result_of_firstWord` — the first word decides what the run results in.
* `comes_to_result` — a run whose start failed comes to its result by itself, and so does one that is
  over.
-/

namespace Steward.Course

variable {σ : Type}

/-! ## Words -/

section Words

variable [StatusHost σ] {c : Course σ}

theorem words_append (c : Course σ) (h₁ h₂ : List Step) :
    c.words (h₁ ++ h₂) = c.words h₁ ++ (c.after h₁).words h₂ := by
  induction h₁ generalizing c with
  | nil => rfl
  | cons s later ih =>
    rw [List.cons_append, words, words, ih, List.append_assoc]
    rfl

theorem firstWord?_cons (c : Course σ) (s : Step) (later : List Step) :
    c.firstWord? (s :: later) = (c.word? s).or ((c.step s).firstWord? later) := by
  rw [firstWord?, words]
  cases c.word? s <;> rfl

theorem firstWord?_append (c : Course σ) (h₁ h₂ : List Step) :
    c.firstWord? (h₁ ++ h₂) = (c.firstWord? h₁).or ((c.after h₁).firstWord? h₂) := by
  rw [firstWord?, words_append, List.head?_append]
  rfl

theorem firstWord?_concat (c : Course σ) (history : List Step) (s : Step) :
    c.firstWord? (history ++ [s]) = (c.firstWord? history).or ((c.after history).word? s) := by
  rw [firstWord?_append, firstWord?_cons]
  exact congrArg _ (Option.or_none ..)

end Words

/-! ## The bridge's side of a history -/

/-- What a step is to the bridge. -/
def toBridge (c : Course σ) : Step → List Bridge.Step
  | .move => [.move]
  | .act a _ => [.act a]
  | .entry answer raw => [.act (.store (Word.ofEntry answer raw).outcome)]
  | .returns _ => []
  | .settle => (c.word? .settle).toList.map fun w => .act (.store w.outcome)
  | .announce => [.act .announce]

/-- A history as the bridge has it. -/
def onBridge [StatusHost σ] (c : Course σ) : List Step → List Bridge.Step
  | [] => []
  | s :: later => c.toBridge s ++ (c.step s).onBridge later

theorem settle_bridge (c : Course σ) :
    c.settle.bridge =
      (c.word? .settle).elim c.bridge fun w => c.bridge.act (.store w.outcome) := by
  obtain ⟨b, d⟩ := c
  cases d <;> rfl

theorem step_bridge [StatusHost σ] (c : Course σ) (s : Step) :
    (c.step s).bridge = c.bridge.after (c.toBridge s) := by
  cases s with
  | move | act | entry | announce => rfl
  | returns r =>
    rw [step]
    split <;> rfl
  | settle =>
    rw [step, settle_bridge, toBridge]
    cases c.word? .settle <;> rfl

/-- **The bridge of a run goes through a history of its own.** -/
theorem after_bridge [StatusHost σ] (c : Course σ) (history : List Step) :
    (c.after history).bridge = c.bridge.after (c.onBridge history) := by
  induction history generalizing c with
  | nil => rfl
  | cons s later ih =>
    rw [onBridge, Bridge.after_append, ← step_bridge]
    exact ih (c.step s)

/-- The outcomes put down are those of the words. -/
theorem stored_toBridge (c : Course σ) (s : Step) :
    (Bridge.acts (c.toBridge s)).filterMap Bridge.Action.published? =
      (c.word? s).toList.map Word.outcome := by
  cases s with
  | move | entry | returns | announce => rfl
  | act a aside => cases a <;> first | rfl | cases aside
  | settle =>
    rw [toBridge]
    cases c.word? .settle <;> rfl

theorem stored_onBridge [StatusHost σ] (c : Course σ) (history : List Step) :
    (Bridge.acts (c.onBridge history)).filterMap Bridge.Action.published? =
      (c.words history).map Word.outcome := by
  induction history generalizing c with
  | nil => rfl
  | cons s later ih =>
    rw [onBridge, Bridge.acts_append, List.filterMap_append, stored_toBridge, ih, words, List.map_append]

/-- The first outcome published is that of the first word. -/
theorem published?_onBridge [StatusHost σ] (c : Course σ) (history : List Step) :
    Bridge.published? (Bridge.acts (c.onBridge history)) = (c.firstWord? history).map Word.outcome := by
  rw [Bridge.published?, ← List.head?_filterMap, stored_onBridge, List.head?_map]
  rfl

/-- Nobody but the bridge takes the outcome of the start. -/
theorem steal_notMem_toBridge (c : Course σ) (s : Step) : .steal ∉ Bridge.acts (c.toBridge s) := by
  cases s with
  | move | entry | returns | announce => simp [toBridge, Bridge.acts]
  | act a aside =>
    intro hsteal
    obtain rfl : .steal = a := List.mem_singleton.mp hsteal
    cases aside
  | settle =>
    rw [toBridge]
    cases c.word? .settle <;> simp [Bridge.acts]

theorem steal_notMem_onBridge [StatusHost σ] (c : Course σ) (history : List Step) :
    .steal ∉ Bridge.acts (c.onBridge history) := by
  induction history generalizing c with
  | nil => exact List.not_mem_nil
  | cons s later ih =>
    rw [onBridge, Bridge.acts_append, List.mem_append, not_or]
    exact ⟨c.steal_notMem_toBridge s, ih (c.step s)⟩

/-- The signal stays set. -/
theorem ready_step [StatusHost σ] (c : Course σ) (s : Step) (h : c.bridge.handshake.ready = true) :
    (c.step s).bridge.handshake.ready = true := by
  have hact : ∀ a, (c.bridge.act a).handshake.ready = true := fun a =>
    (Bridge.happens_act c.bridge a).ready h
  cases s with
  | act a => exact hact a
  | entry answer raw => exact hact _
  | announce => exact hact _
  | returns r =>
    rw [step]
    split <;> exact h
  | settle =>
    rw [step, settle_bridge]
    cases c.word? .settle with
    | none => exact h
    | some w => exact hact (.store w.outcome)
  | move =>
    change (c.bridge.step .move).handshake.ready = true
    rw [Bridge.step]
    split
    · rename_i m hnext
      exact (Bridge.makes_perform hnext).ready.trans h
    · exact h

section History

variable [StatusHost σ] (name handlerName : String) (context : Context) (host : σ)
  (history : List Step)

/-- The bridge of a run from its start. -/
theorem bridge_after_fresh :
    ((fresh name handlerName context host).after history).bridge =
      (Bridge.fresh name handlerName context host).after
        ((fresh name handlerName context host).onBridge history) := after_bridge _ history

/-! ## The dispatcher's part -/

/-- The handshake takes no further outcome once there was a word. -/
theorem isSettled_after :
    ((fresh name handlerName context host).after history).bridge.handshake.isSettled =
      ((fresh name handlerName context host).firstWord? history).isSome := by
  rw [bridge_after_fresh, Bridge.isSettled_after, published?_onBridge, Option.isSome_map]

/-- **How far the thread that runs the service has come**, given the first word and the signal. -/
inductive Blamed (first : Option Word) (ready : Bool) : Dispatching → Prop where
  | away (other : ∀ r, first ≠ some (.returned r)) : Blamed first ready .away
  | back (r : Except HostError Unit) (other : ∀ r, first ≠ some (.returned r)) : Blamed first ready (.back r)
  | stored (r : Except HostError Unit) (own : first = some (.returned r)) : Blamed first ready (.stored r)
  | done (w : Word) (word : first = some w) (set : w.blame.isSome = true → ready = true) :
    Blamed first ready (.done w.blame)

section Blamed

variable {first : Option Word} {ready : Bool} {d : Dispatching}

/-- An entry has its word. -/
theorem Blamed.entered (h : Blamed first ready d) (o : Outcome) {ready' : Bool}
    (hready : ready = true → ready' = true) : Blamed (first.or (some (.entered o))) ready' d := by
  have hother : (∀ r, first ≠ some (.returned r)) →
      ∀ r, first.or (some (.entered o)) ≠ some (.returned r) := by
    intro hother r
    cases first with
    | none => simp
    | some w => exact hother r
  cases h with
  | away other => exact .away (hother other)
  | back r other => exact .back r (hother other)
  | stored r own => exact .stored r (by rw [own]; rfl)
  | done w word set => exact .done w (by rw [word]; rfl) (hready ∘ set)

/-- Nobody has a word. -/
theorem Blamed.quiet (h : Blamed first ready d) {ready' : Bool} (hready : ready = true → ready' = true) :
    Blamed first ready' d := by
  cases h with
  | away other => exact .away other
  | back r other => exact .back r other
  | stored r own => exact .stored r own
  | done w word set => exact .done w word (hready ∘ set)

/-- Once dispatching is over there was a word, and it is known whose. -/
theorem Blamed.done_iff {blame : Option HostError} (h : Blamed first ready (.done blame)) :
    ∃ w, first = some w ∧ blame = w.blame ∧ (w.blame.isSome = true → ready = true) := by
  cases h with
  | done w word set => exact ⟨w, word, rfl, set⟩

end Blamed

omit [StatusHost σ] in
/-- The thread that runs the service has its word, unless there was one. -/
theorem Blamed.settle {c : Course σ} {first : Option Word}
    (h : Blamed first c.bridge.handshake.ready c.dispatching)
    (hsettled : c.bridge.handshake.isSettled = first.isSome) :
    Blamed (first.or (c.word? .settle)) c.settle.bridge.handshake.ready c.settle.dispatching := by
  obtain ⟨b, d⟩ := c
  cases d with
  | away | stored | done =>
    change Blamed (first.or none) _ _
    rw [Option.or_none]
    exact h
  | back r =>
    obtain - | ⟨_, other⟩ := h
    change Blamed (first.or (some (.returned r))) _
      (if (b.handshake.store (Word.returned r).outcome).2 then .stored r else .done none)
    rw [Handshake.store_counts, hsettled]
    cases first with
    | none => exact .stored r rfl
    | some w =>
      cases w with
      | entered o => exact .done (.entered o) rfl nofun
      | returned r' => exact absurd rfl (other r')

/-- **The dispatcher is to blame exactly if the first word was its own.** -/
theorem blamed_after :
    Blamed ((fresh name handlerName context host).firstWord? history)
      ((fresh name handlerName context host).after history).bridge.handshake.ready
      ((fresh name handlerName context host).after history).dispatching := by
  induction history using List.reverseRecOn with
  | nil => exact .away nofun
  | append_singleton history s ih =>
    have hsettled := isSettled_after name handlerName context host history
    rw [firstWord?_concat, after_append]
    generalize (fresh name handlerName context host).after history = c at ih hsettled ⊢
    generalize (fresh name handlerName context host).firstWord? history = first at ih hsettled ⊢
    change Blamed (first.or (c.word? s)) (c.step s).bridge.handshake.ready (c.step s).dispatching
    have hready := c.ready_step s
    cases s with
    | move | act =>
      rw [word?, Option.or_none]
      exact ih.quiet hready
    | entry answer raw => exact ih.entered _ hready
    | settle => exact ih.settle hsettled
    | returns r =>
      rw [word?, Option.or_none, step]
      split
      case h_1 haway =>
        rw [haway] at ih
        obtain ⟨other⟩ := ih
        exact .back r other
      case h_2 => exact ih
    | announce =>
      rw [word?, Option.or_none]
      cases hd : c.dispatching with
      | stored r =>
        rw [hd] at ih
        obtain - | - | ⟨_, own⟩ := ih
        have hset : (c.step .announce).bridge.handshake.ready = true :=
          Bridge.ready_announce c.bridge (by rw [hsettled, own]; rfl)
        rw [step, announce, hd]
        exact .done (.returned r) own fun _ => hset
      | away | back | done =>
        have hsame : (c.step .announce).dispatching = c.dispatching := by
          rw [step, announce, hd]
        rw [hsame]
        exact ih.quiet hready

/-! ## The bridge's part -/

/-- A run that ended with a last report was started by the first word, with the handle it reports
with. -/
theorem entered_of_stopped {exit : ExitCode} {left : Bool}
    (h : ((fresh name handlerName context host).after history).bridge.ending? =
      some (.stopped exit left)) :
    ∃ (d : Dispatched) (r : Except HostError Unit),
      (fresh name handlerName context host).firstWord? history = some (.entered (.ok d)) ∧
      (Bridge.reports ((fresh name handlerName context host).after history).bridge.log).getLast? =
        some (d.handle, Record.ofStatus .stopped exit, r) := by
  rw [bridge_after_fresh] at h ⊢
  obtain ⟨d, r, htaken, hlast⟩ := Bridge.last_report_after name handlerName context host _ h
  have hpublished := Bridge.published_of_taken name handlerName context host _
    (o := .ok d) (by rw [htaken]; exact List.mem_singleton_self _)
  rw [published?_onBridge] at hpublished
  obtain ⟨w, hw, houtcome⟩ := Option.map_eq_some_iff.mp hpublished
  cases w with
  | entered o =>
    obtain rfl : o = .ok d := houtcome
    exact ⟨d, r, hw, hlast⟩
  | returned => cases houtcome

/-- **A run that ended without a report knows why**: the first word says so. -/
theorem failed_of_notStarted {e : Option HostError}
    (h : ((fresh name handlerName context host).after history).bridge.ending? =
      some (.notStarted e)) :
    ∃ e' w, e = some e' ∧ (fresh name handlerName context host).firstWord? history = some w ∧
      w.outcome = .error e' := by
  rw [bridge_after_fresh] at h
  have htaken := Bridge.refused_after name handlerName context host _ h
  cases e with
  | none =>
    have hunstolen := Bridge.unstolen_after name handlerName context host
      (steal_notMem_onBridge (fresh name handlerName context host) history)
    exact absurd (by rw [htaken]; exact List.mem_singleton_self _) hunstolen.found
  | some e =>
    have hpublished := Bridge.published_of_taken name handlerName context host _
      (o := .error e) (by rw [htaken]; exact List.mem_singleton_self _)
    rw [published?_onBridge] at hpublished
    obtain ⟨w, hw, houtcome⟩ := Option.map_eq_some_iff.mp hpublished
    exact ⟨e, w, rfl, hw, houtcome⟩

/-! ## The two parts together -/

omit [StatusHost σ] in
/-- Dispatching is over when it has come to something. -/
theorem dispatching_of_dispatch {c : Course σ} {blame : Option HostError} (h : c.dispatch = some blame) :
    c.dispatching = .done blame := by
  unfold dispatch Dispatching.result? at h
  split at h
  · rename_i hd
    rw [hd, Option.some.inj h]
  · cases h

omit [StatusHost σ] in
/-- There is a result when both parts are there. -/
theorem parts_of_result {c : Course σ} {res : Except RunError ExitCode} (h : c.result? = some res) :
    ∃ blame ending, c.dispatching = .done blame ∧ c.bridge.ending? = some ending ∧
      res = Service.resultOf blame ending := by
  unfold result? at h
  split at h
  · rename_i hd he
    exact ⟨_, _, dispatching_of_dispatch hd, he, (Option.some.inj h).symm⟩
  · cases h

/-- **A result is one of three**, each with the first word that goes with it. -/
theorem result_cases {res : Except RunError ExitCode}
    (h : ((fresh name handlerName context host).after history).result? = some res) :
    (∃ r, (fresh name handlerName context host).firstWord? history = some (.returned r) ∧
      res = .error (.dispatch (Word.returnError r))) ∨
    (∃ e, (fresh name handlerName context host).firstWord? history = some (.entered (.error e)) ∧
      res = .error (.registration e)) ∨
    ∃ d exit r, (fresh name handlerName context host).firstWord? history = some (.entered (.ok d)) ∧
      res = .ok exit ∧
      (Bridge.reports ((fresh name handlerName context host).after history).bridge.log).getLast? =
        some (d.handle, Record.ofStatus .stopped exit, r) := by
  obtain ⟨blame, ending, hd, he, rfl⟩ := parts_of_result h
  have hblamed := blamed_after name handlerName context host history
  rw [hd] at hblamed
  obtain ⟨w, hw, rfl, -⟩ := hblamed.done_iff
  cases ending with
  | stopped exit left =>
    obtain ⟨d, r, hfirst, hlast⟩ := entered_of_stopped name handlerName context host history he
    exact .inr (.inr ⟨d, exit, r, hfirst, rfl, hlast⟩)
  | notStarted e =>
    obtain ⟨e, w', rfl, hw', houtcome⟩ :=
      failed_of_notStarted name handlerName context host history he
    obtain rfl := Option.some.inj (hw'.symm.trans hw)
    cases w' with
    | returned r => exact .inl ⟨r, hw, rfl⟩
    | entered o =>
      obtain rfl : o = .error e := houtcome
      exact .inr (.inl ⟨e, hw, rfl⟩)

end History

/-! ## Who came first -/

/-- An entry puts its outcome down. -/
def Step.isEntry : Step → Bool
  | .entry _ _ => true
  | _ => false

/-- The dispatcher comes back. -/
def Step.isReturn : Step → Bool
  | .returns _ => true
  | _ => false

/-- The thread that runs the service puts its outcome down. -/
def Step.isSettle : Step → Bool
  | .settle => true
  | _ => false

/-- The thread that runs the service puts its outcome down before any entry does. -/
def SettlesFirst (history : List Step) : Prop :=
  ∃ before later, history = before ++ .settle :: later ∧
    ∀ s ∈ before, s.isEntry = false ∧ s.isSettle = false

/-- **The dispatcher comes back first**: with this result, before any entry has put its outcome down; and none
does until the thread that runs the service has put down its own. -/
def ReturnsFirst (history : List Step) (r : Except HostError Unit) : Prop :=
  ∃ before later, history = before ++ .returns r :: later ∧
    (∀ s ∈ before, s.isEntry = false ∧ s.isReturn = false) ∧ SettlesFirst later

section First

variable {s : Step} {later : List Step} {r : Except HostError Unit}

theorem settlesFirst_cons (hentry : s.isEntry = false) (hsettle : s.isSettle = false) :
    SettlesFirst (s :: later) ↔ SettlesFirst later := by
  constructor
  · rintro ⟨before, after, heq, hbefore⟩
    obtain ⟨rfl, hnow⟩ | ⟨before, rfl, rfl⟩ := List.cons_eq_append_iff.mp heq
    · obtain ⟨rfl, -⟩ := List.cons.inj hnow
      cases hsettle
    · exact ⟨before, after, rfl, fun s hs => hbefore s (List.mem_cons_of_mem _ hs)⟩
  · rintro ⟨before, after, rfl, hbefore⟩
    exact ⟨s :: before, after, rfl, List.forall_mem_cons.mpr ⟨⟨hentry, hsettle⟩, hbefore⟩⟩

theorem not_settlesFirst_entry {answer : RegisterAnswer} {raw : List (List UInt16)} :
    ¬ SettlesFirst (.entry answer raw :: later) := by
  rintro ⟨before, after, heq, hbefore⟩
  obtain ⟨rfl, hnow⟩ | ⟨before, rfl, rfl⟩ := List.cons_eq_append_iff.mp heq
  · cases (List.cons.inj hnow).1
  · cases (hbefore _ List.mem_cons_self).1

theorem returnsFirst_cons (hentry : s.isEntry = false) (hreturn : s.isReturn = false) :
    ReturnsFirst (s :: later) r ↔ ReturnsFirst later r := by
  constructor
  · rintro ⟨before, after, heq, hbefore, hafter⟩
    obtain ⟨rfl, hnow⟩ | ⟨before, rfl, rfl⟩ := List.cons_eq_append_iff.mp heq
    · obtain ⟨rfl, -⟩ := List.cons.inj hnow
      cases hreturn
    · exact ⟨before, after, rfl, fun s hs => hbefore s (List.mem_cons_of_mem _ hs), hafter⟩
  · rintro ⟨before, after, rfl, hbefore, hafter⟩
    exact ⟨s :: before, after, rfl, List.forall_mem_cons.mpr ⟨⟨hentry, hreturn⟩, hbefore⟩, hafter⟩

theorem returnsFirst_returns {r' : Except HostError Unit} :
    ReturnsFirst (.returns r' :: later) r ↔ r' = r ∧ SettlesFirst later := by
  constructor
  · rintro ⟨before, after, heq, hbefore, hafter⟩
    obtain ⟨rfl, hnow⟩ | ⟨before, rfl, rfl⟩ := List.cons_eq_append_iff.mp heq
    · obtain ⟨hr, rfl⟩ := List.cons.inj hnow
      exact ⟨(Step.returns.inj hr).symm, hafter⟩
    · cases (hbefore _ List.mem_cons_self).2
  · rintro ⟨rfl, hafter⟩
    exact ⟨[], later, rfl, by simp, hafter⟩

theorem not_returnsFirst_entry {answer : RegisterAnswer} {raw : List (List UInt16)} :
    ¬ ReturnsFirst (.entry answer raw :: later) r := by
  rintro ⟨before, after, heq, hbefore, -⟩
  obtain ⟨rfl, hnow⟩ | ⟨before, rfl, rfl⟩ := List.cons_eq_append_iff.mp heq
  · cases (List.cons.inj hnow).1
  · cases (hbefore _ List.mem_cons_self).1

end First

/-- When the dispatcher is back, the next word decides. -/
theorem returned_iff_settles [StatusHost σ] {c : Course σ} {r : Except HostError Unit}
    (hback : c.dispatching = .back r) (history : List Step) (r' : Except HostError Unit) :
    c.firstWord? history = some (.returned r') ↔ r = r' ∧ SettlesFirst history := by
  induction history generalizing c with
  | nil => simp [firstWord?, words, SettlesFirst]
  | cons s later ih =>
    rw [firstWord?_cons]
    cases s with
    | entry answer raw =>
      refine iff_of_false (fun h => ?_) fun h => not_settlesFirst_entry h.2
      cases h
    | settle =>
      have hword : c.word? .settle = some (.returned r) := congrArg Dispatching.word? hback
      have hfirst : SettlesFirst (.settle :: later) := ⟨[], later, rfl, by simp⟩
      rw [hword]
      simp [hfirst]
    | returns r₁ =>
      have hstep : c.step (.returns r₁) = c := by simp only [step, hback]
      rw [hstep, settlesFirst_cons rfl rfl, ← ih hback]
      rfl
    | announce =>
      have hstep : (c.step .announce).dispatching = .back r := by simp only [step, announce, hback]
      rw [settlesFirst_cons rfl rfl, ← ih hstep]
      rfl
    | move =>
      have hstep : (c.step .move).dispatching = .back r := hback
      rw [settlesFirst_cons rfl rfl, ← ih hstep]
      rfl
    | act a aside =>
      have hstep : (c.step (.act a aside)).dispatching = .back r := hback
      rw [settlesFirst_cons rfl rfl, ← ih hstep]
      rfl

/-- **The first word is the dispatcher's exactly if it came back first.** -/
theorem returned_iff_first [StatusHost σ] {c : Course σ} (haway : c.dispatching = .away)
    (history : List Step) (r : Except HostError Unit) :
    c.firstWord? history = some (.returned r) ↔ ReturnsFirst history r := by
  induction history generalizing c with
  | nil => simp [firstWord?, words, ReturnsFirst]
  | cons s later ih =>
    rw [firstWord?_cons]
    cases s with
    | entry answer raw =>
      refine iff_of_false (fun h => ?_) not_returnsFirst_entry
      cases h
    | returns r₁ =>
      have hstep : (c.step (.returns r₁)).dispatching = .back r₁ := by simp only [step, haway]
      rw [returnsFirst_returns, ← returned_iff_settles hstep]
      rfl
    | settle =>
      have hstep : c.step .settle = c := by simp only [step, settle, haway]
      have hword : c.word? .settle = none := congrArg Dispatching.word? haway
      rw [hstep, hword, returnsFirst_cons rfl rfl, ← ih haway]
      rfl
    | announce =>
      have hstep : (c.step .announce).dispatching = .away := by simp only [step, announce, haway]
      rw [returnsFirst_cons rfl rfl, ← ih hstep]
      rfl
    | move =>
      have hstep : (c.step .move).dispatching = .away := haway
      rw [returnsFirst_cons rfl rfl, ← ih hstep]
      rfl
    | act a aside =>
      have hstep : (c.step (.act a aside)).dispatching = .away := haway
      rw [returnsFirst_cons rfl rfl, ← ih hstep]
      rfl

/-! ## What the dispatcher comes back with -/

/-- The same step, but for what the dispatcher comes back with. -/
def Step.mapReturn (f : Except HostError Unit → Except HostError Unit) : Step → Step
  | .returns r => .returns (f r)
  | s => s

/-- So far, but for what the dispatcher came back with. -/
def mapReturn (f : Except HostError Unit → Except HostError Unit) (c : Course σ) : Course σ where
  bridge := c.bridge
  dispatching :=
    match c.dispatching with
    | .back r => .back (f r)
    | other => other

section MapReturn

variable (f : Except HostError Unit → Except HostError Unit)

/-- A word is without effect on the bridge if there was one before. -/
theorem store_of_settled {c : Course σ} (hset : c.bridge.handshake.isSettled = true) (w : Word) :
    c.store w = c := by
  rw [store, Bridge.act, Handshake.store_of_settled hset]

/-- A thread whose outcome does not count forgets what the dispatcher came back with. -/
theorem settle_mapReturn {c : Course σ}
    (hset : ∀ r, c.dispatching = .back r → c.bridge.handshake.isSettled = true) :
    (c.mapReturn f).settle = c.settle.mapReturn f := by
  obtain ⟨b, d⟩ := c
  cases d with
  | away | stored | done => rfl
  | back r =>
    have hb : b.handshake.isSettled = true := hset r rfl
    have hsettle : ∀ r, Course.settle ⟨b, .back r⟩ = ⟨b, .done none⟩ := by
      intro r
      simp only [settle, Handshake.store_counts, hb, Bool.not_true, Bool.false_eq_true, if_false]
      exact congrArg (Course.mk · _) (congrArg Course.bridge (store_of_settled (c := ⟨b, .back r⟩) hb _))
    exact (hsettle (f r)).trans (congrArg (mapReturn f) (hsettle r)).symm

/-- It makes no difference to a step what the dispatcher comes back with, unless that becomes the outcome. -/
theorem step_mapReturn [StatusHost σ] {c : Course σ} (hstored : ∀ r, c.dispatching ≠ .stored r) (s : Step)
    (hset : ∀ r, c.word? s = some (.returned r) → c.bridge.handshake.isSettled = true) :
    (c.mapReturn f).step (s.mapReturn f) = (c.step s).mapReturn f := by
  cases s with
  | move | act | entry => rfl
  | returns r =>
    obtain ⟨b, d⟩ := c
    cases d <;> rfl
  | announce =>
    obtain ⟨b, d⟩ := c
    cases d with
    | stored r => exact absurd rfl (hstored r)
    | away | back | done => rfl
  | settle =>
    exact settle_mapReturn f fun r hback => hset r (congrArg Dispatching.word? hback)

/-- **What the dispatcher comes back with makes no difference if the first word is an entry's.** -/
theorem after_mapReturn [StatusHost σ] (name handlerName : String) (context : Context) (host : σ)
    (history : List Step)
    (h : ∀ r, (fresh name handlerName context host).firstWord? history ≠ some (.returned r)) :
    (fresh name handlerName context host).after (history.map (Step.mapReturn f)) =
      ((fresh name handlerName context host).after history).mapReturn f := by
  induction history using List.reverseRecOn with
  | nil => rfl
  | append_singleton history s ih =>
    have hblamed := blamed_after name handlerName context host history
    have hsettled := isSettled_after name handlerName context host history
    rw [List.map_append, after_append, after_append]
    rw [firstWord?_concat] at h
    have hbefore : ∀ r, (fresh name handlerName context host).firstWord? history ≠ some (.returned r) :=
      fun r hr => h r (by rw [hr]; rfl)
    rw [ih hbefore]
    refine step_mapReturn f (fun r hd => ?_) s fun r hword => ?_
    · rw [hd] at hblamed
      obtain - | - | ⟨_, own⟩ := hblamed
      exact hbefore r own
    · rw [hsettled]
      cases hfirst : (fresh name handlerName context host).firstWord? history with
      | some w => rfl
      | none =>
        refine absurd ?_ (h r)
        rw [hfirst, hword]
        rfl

/-- So it makes none to the result. -/
theorem result?_mapReturn (c : Course σ) : (c.mapReturn f).result? = c.result? := by
  obtain ⟨b, d⟩ := c
  cases d <;> rfl

end MapReturn

/-! ## The result -/

/-- **Dispatching is over when there is an outcome**: there was a word, and dispatcher-ready is set, unless an
entry has put down the outcome that counts and has yet to set it. -/
theorem ready_of_over [StatusHost σ] (name handlerName : String) (context : Context) (host : σ)
    (history : List Step)
    (hd : ((fresh name handlerName context host).after history).dispatch.isSome = true) :
    let c := (fresh name handlerName context host).after history
    ∃ w, (fresh name handlerName context host).firstWord? history = some w ∧
      (c.step .announce).bridge.handshake.ready = true ∧
      (c.bridge.handshake.ready = true ∨ c.bridge.handshake.isStored = true ∧ ∃ o, w = .entered o) := by
  intro c
  obtain ⟨blame, hblame⟩ := Option.isSome_iff_exists.mp hd
  have hblamed := blamed_after name handlerName context host history
  rw [dispatching_of_dispatch hblame] at hblamed
  obtain ⟨w, hw, rfl, hset⟩ := hblamed.done_iff
  have hsettled : c.bridge.handshake.isSettled = true := by
    rw [isSettled_after, hw]
    rfl
  refine ⟨w, hw, Bridge.ready_announce _ hsettled, ?_⟩
  cases w with
  | returned r => exact .inl (hset rfl)
  | entered o => exact (Handshake.ready_or_stored hsettled).imp_right fun hstored => ⟨hstored, o, rfl⟩

/-- A run with a result has dispatcher-ready set. -/
theorem ready_of_result [StatusHost σ] (name handlerName : String) (context : Context) (host : σ)
    (history : List Step) {res : Except RunError ExitCode}
    (hres : ((fresh name handlerName context host).after history).result? = some res) :
    ((fresh name handlerName context host).after history).bridge.handshake.ready = true := by
  obtain ⟨-, ending, -, hending, -⟩ := parts_of_result hres
  have hbridge := bridge_after_fresh name handlerName context host history
  rw [hbridge] at hending
  have hbegun := Bridge.ready_of_begun name handlerName context host _ (by
    rw [Bridge.stage_of_ending hending]
    exact Stage.noConfusion)
  exact (congrArg (·.handshake.ready) hbridge).trans hbegun

/-- **The result blames the dispatcher exactly if that came back first.** -/
theorem blames_iff [StatusHost σ] (name handlerName : String) (context : Context) (host : σ)
    (history : List Step) {res : Except RunError ExitCode}
    (hres : ((fresh name handlerName context host).after history).result? = some res) (e : HostError) :
    res = .error (.dispatch e) ↔ ∃ r, ReturnsFirst history r ∧ e = Word.returnError r := by
  simp only [← returned_iff_first (c := fresh name handlerName context host) rfl history]
  obtain ⟨r, hw, rfl⟩ | ⟨e', hw, rfl⟩ | ⟨d, exit, r, hw, rfl, -⟩ :=
    result_cases name handlerName context host history hres <;>
  simp [hw, eq_comm]

/-! ### Without delay -/

/-- Dispatcher-ready is set, by who has put the outcome down. -/
def Step.isAnnounce : Step → Bool
  | .announce => true
  | _ => false

/-- Nobody is held up while it publishes: the entry whose outcome counts has set dispatcher-ready too, and no
entry comes between the dispatcher's return and the outcome that the thread that runs the service puts down
for it. -/
def isPrompt [StatusHost σ] (c : Course σ) : List Step → Bool
  | [] => true
  | s :: later =>
    (match s with
      | .entry _ _ => c.bridge.handshake.isSettled || later.any Step.isAnnounce
      | .returns _ => (later.find? fun t => t.isEntry || t.isSettle).any Step.isSettle
      | _ => true) && (c.step s).isPrompt later

theorem isPrompt_after [StatusHost σ] {c : Course σ} {before later : List Step}
    (h : c.isPrompt (before ++ later) = true) : (c.after before).isPrompt later = true := by
  induction before generalizing c with
  | nil => exact h
  | cons s before ih => exact ih (Bool.and_eq_true_iff.mp h).2

theorem announce_of_isPrompt [StatusHost σ] {c : Course σ} {answer : RegisterAnswer}
    {raw : List (List UInt16)} {later : List Step} (h : c.isPrompt (.entry answer raw :: later) = true)
    (hfirst : c.bridge.handshake.isSettled = false) :
    ∃ between rest, later = between ++ .announce :: rest := by
  simp only [isPrompt, hfirst, Bool.false_or, Bool.and_eq_true, List.any_eq_true] at h
  obtain ⟨⟨s, hs, hannounces⟩, -⟩ := h
  obtain ⟨between, rest, rfl⟩ := List.append_of_mem hs
  cases s with
  | announce => exact ⟨between, rest, rfl⟩
  | _ => cases hannounces

theorem settlesFirst_of_isPrompt [StatusHost σ] {c : Course σ} {r : Except HostError Unit}
    {later : List Step} (h : c.isPrompt (.returns r :: later) = true) : SettlesFirst later := by
  obtain ⟨hsettles, -⟩ := Bool.and_eq_true_iff.mp h
  obtain ⟨s, hfind, hsettle⟩ := (Option.any_eq_true ..).mp hsettles
  obtain ⟨-, between, rest, rfl, hbetween⟩ := List.find?_eq_some_iff_append.mp hfind
  refine ⟨between, rest, ?_, fun t ht => by simpa using hbetween t ht⟩
  cases s with
  | settle => rfl
  | _ => cases hsettle

/-- The first word of an entry was put down by the first that came with no word before it. -/
theorem exists_entry_of_firstWord [StatusHost σ] {c : Course σ} {history : List Step} {o : Outcome}
    (h : c.firstWord? history = some (.entered o)) :
    ∃ before answer raw later, history = before ++ .entry answer raw :: later ∧
      c.firstWord? before = none := by
  induction history using List.reverseRecOn with
  | nil => cases h
  | append_singleton history s ih =>
    rw [firstWord?_concat] at h
    cases hfirst : c.firstWord? history with
    | some w =>
      rw [hfirst] at h ih
      obtain ⟨before, answer, raw, later, rfl, hnone⟩ := ih h
      exact ⟨before, answer, raw, later ++ [s], by simp, hnone⟩
    | none =>
      rw [hfirst, Option.none_or] at h
      cases s with
      | entry answer raw => exact ⟨history, answer, raw, [], rfl, hfirst⟩
      | settle =>
        rw [word?] at h
        cases hd : (c.after history).dispatching <;> rw [hd] at h <;> cases h
      | move | act | returns | announce => cases h

/-- The signal stays set, whatever happens. -/
theorem ready_after [StatusHost σ] {c : Course σ} (h : c.bridge.handshake.ready = true)
    (history : List Step) : (c.after history).bridge.handshake.ready = true := by
  induction history generalizing c with
  | nil => exact h
  | cons s later ih => exact ih (c.ready_step s h)

/-- **Without delay dispatcher-ready is set when dispatching is over.** -/
theorem ready_of_isPrompt [StatusHost σ] {name handlerName : String} {context : Context} {host : σ}
    {history : List Step} (h : (fresh name handlerName context host).isPrompt history = true)
    (hd : ((fresh name handlerName context host).after history).dispatch.isSome = true) :
    ((fresh name handlerName context host).after history).bridge.handshake.ready = true := by
  obtain ⟨w, hw, -, hready | ⟨-, o, rfl⟩⟩ := ready_of_over name handlerName context host history hd
  · exact hready
  -- the entry that counts is followed by its announcement
  obtain ⟨before, answer, raw, later, rfl, hnone⟩ := exists_entry_of_firstWord hw
  have hunsettled := isSettled_after name handlerName context host before
  rw [hnone] at hunsettled
  obtain ⟨between, rest, rfl⟩ := announce_of_isPrompt (isPrompt_after h) hunsettled
  have hsettled := isSettled_after name handlerName context host (before ++ .entry answer raw :: between)
  rw [firstWord?_append, hnone, firstWord?_cons] at hsettled
  have hsplit : before ++ .entry answer raw :: (between ++ .announce :: rest) =
      (before ++ .entry answer raw :: between) ++ .announce :: rest := by simp
  rw [hsplit, after_append]
  exact ready_after (Bridge.ready_announce _ hsettled) rest

/-- Without delay the dispatcher comes back first if no entry was before it. -/
theorem returnsFirst_of_isPrompt [StatusHost σ] {c : Course σ} {history : List Step}
    (h : c.isPrompt history = true) (r : Except HostError Unit) :
    ReturnsFirst history r ↔ ∃ before later, history = before ++ .returns r :: later ∧
      ∀ s ∈ before, s.isEntry = false ∧ s.isReturn = false := by
  constructor
  · rintro ⟨before, later, hsplit, hbefore, -⟩
    exact ⟨before, later, hsplit, hbefore⟩
  · rintro ⟨before, later, rfl, hbefore⟩
    exact ⟨before, later, rfl, hbefore, settlesFirst_of_isPrompt (isPrompt_after h)⟩

/-- The host enters the service, the dispatcher fails while the handler runs, and the handler exits
with a code of its own. -/
def failedAfterEntry : List Step :=
  [.entry (.ok 1) [[115, 118, 99]], .announce, .move, .returns (.error (.numbered 5)), .settle,
    .act (.finish (.exited (.ofService 3))) rfl, .move, .move, .move, .move, .move, .move, .move]

/-- An entry that was put off between its two halves: the thread that runs the service goes on before
dispatcher-ready is set. -/
example :
    let c := (fresh "svc" "handler" 0 (ScriptedHost.mk [] 0)).after
      [.returns (.ok ()), .entry (.ok 1) [[115, 118, 99]], .settle]
    c.dispatch = some none ∧ c.bridge.handshake.ready = false ∧ c.bridge.handshake.isStored = true :=
  ⟨rfl, rfl, rfl⟩

/-! ## Coming to a result -/

/-- A bridge that is left to itself leaves the dispatcher's part alone. -/
theorem after_moves [StatusHost σ] (c : Course σ) (n : Nat) :
    c.after (List.replicate n .move) = { c with bridge := c.bridge.after (List.replicate n .move) } := by
  induction n generalizing c with
  | zero => rfl
  | succ n ih => exact ih (c.step .move)

/-- **A run comes to its result by itself** when dispatching is over and dispatcher-ready is set, and either
the start failed or the run is over. -/
theorem comes_to_result [StatusHost σ] (name handlerName : String) (context : Context) (host : σ)
    (history : List Step)
    (hd : ((fresh name handlerName context host).after history).dispatch.isSome = true)
    (hready : ((fresh name handlerName context host).after history).bridge.handshake.ready = true)
    (hstart : ∀ d, (fresh name handlerName context host).firstWord? history = some (.entered (.ok d)) →
      ((fresh name handlerName context host).after history).bridge.verdict?.isSome = true) :
    ∃ n, (((fresh name handlerName context host).after history).after
      (List.replicate n .move)).result?.isSome = true := by
  obtain ⟨w, hw, -⟩ := ready_of_over name handlerName context host history hd
  have hends : ∃ n, ((((fresh name handlerName context host).after history).bridge).after
      (List.replicate n .move)).ending?.isSome = true := by
    cases hw' : w.outcome with
    | ok s =>
      cases w with
      | entered o =>
        obtain rfl : o = .ok s := hw'
        obtain ⟨v, hv⟩ := Option.isSome_iff_exists.mp (hstart s hw)
        obtain ⟨n, hn⟩ := Bridge.ends_of_verdict hv
        exact ⟨n, by rw [hn]; rfl⟩
      | returned r => cases hw'
    | error e =>
      rw [bridge_after_fresh] at hready ⊢
      refine Bridge.ends_of_refused name handlerName context host (e := e)
        (steal_notMem_onBridge _ history) ?_ hready
      rw [published?_onBridge, hw, Option.map_some, hw']
  obtain ⟨n, hn⟩ := hends
  obtain ⟨ending, hending⟩ := Option.isSome_iff_exists.mp hn
  obtain ⟨blame, hblame⟩ := Option.isSome_iff_exists.mp hd
  refine ⟨n, ?_⟩
  rw [after_moves]
  unfold result? dispatch at *
  rw [hblame, hending]
  rfl

end Steward.Course

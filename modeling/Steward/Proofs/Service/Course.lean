import Steward.Proofs.Bridge.Session
import Steward.Proofs.Service.Result
import Steward.Service.Scripted

/-!
# Proofs/Service/Course — what happens to a run is a course

A run on a scheduler is a course: each thing done to it is a list of steps, with the words that were
said on the start.  So what is known of all courses is known of the runs that are carried out.

* `passes_main`, `passes_dispatchReturns` — to enter the service and to come back from dispatching are
  one word each, with nothing in between; the rest of what is done to a run has none.
* `course_of_play` — a whole run on a host that does as it is told is a course, with words of that
  host only; `result_of_play` says what comes of it.
-/

namespace Steward

namespace Course

variable {σ : Type}

/-- **A history that leaves the outcome of the start to the bridge has no words.** -/
theorem exists_wordless [StatusHost σ] (c : Course σ) {history : List Bridge.Step}
    (h : ∀ a ∈ Bridge.acts history, a.concernsStart = false) :
    ∃ steps, c.words steps = [] ∧
      c.after steps = { c with bridge := c.bridge.after history } := by
  induction history generalizing c with
  | nil => exact ⟨[], rfl, rfl⟩
  | cons s later ih =>
    cases s with
    | move =>
      obtain ⟨steps, hwords, hafter⟩ := ih (c.step .move) h
      exact ⟨.move :: steps, hwords, hafter⟩
    | act a =>
      have haside : a.concernsStart = false := h a List.mem_cons_self
      obtain ⟨steps, hwords, hafter⟩ :=
        ih (c.step (.act a haside)) fun a' ha' => h a' (List.mem_cons_of_mem _ ha')
      exact ⟨.act a haside :: steps, hwords, hafter⟩

end Course

namespace Service

variable {σ : Type} [StatusHost σ] {s s₁ s₂ : Service σ} {ws ws₁ ws₂ : List Word}

/-- A run went from one state to another by a history with these words. -/
def Passes (s s' : Service σ) (ws : List Word) : Prop :=
  ∃ history, s.course.words history = ws ∧ s'.course = s.course.after history

theorem Passes.of_eq (h : s₁.course = s.course) : s.Passes s₁ [] := ⟨[], rfl, h⟩

theorem Passes.refl (s : Service σ) : s.Passes s [] := .of_eq rfl

theorem Passes.trans (h₁ : s.Passes s₁ ws₁) (h₂ : s₁.Passes s₂ ws₂) : s.Passes s₂ (ws₁ ++ ws₂) := by
  obtain ⟨before, rfl, hbefore⟩ := h₁
  obtain ⟨later, rfl, hlater⟩ := h₂
  refine ⟨before ++ later, ?_, ?_⟩
  · rw [Course.words_append, ← hbefore]
  · rw [Course.after_append, ← hbefore, hlater]

/-- What is done beside the bridge and the dispatcher may come after. -/
theorem Passes.congr (h : s.Passes s₁ ws) (hc : s₂.course = s₁.course) : s.Passes s₂ ws := by
  obtain ⟨history, hwords, hafter⟩ := h
  exact ⟨history, hwords, hc.trans hafter⟩

/-! ## What has no word -/

/-- What the scheduler does has no word. -/
theorem Passes.of_follows (h : s.session.Follows s₁.session) (hd : s₁.dispatch = s.dispatch) :
    s.Passes s₁ [] := by
  obtain ⟨history, hbridge, haside⟩ := h
  obtain ⟨steps, hwords, hafter⟩ := s.course.exists_wordless haside
  refine ⟨steps, hwords, ?_⟩
  rw [hafter, course, course, bridge, bridge, hbridge, hd]

theorem passes_round (s : Service σ) {ops : List Bridge.Session.Op}
    (h : ∀ op ∈ ops, op.concernsStart = false) : s.Passes (s.round ops).1 [] :=
  .of_follows (s.session.follows_round h) rfl

/-- A round of one operation. -/
theorem passes_round_one (s : Service σ) (op : Bridge.Session.Op) (h : op.concernsStart = false) :
    s.Passes (s.round [op]).1 [] :=
  s.passes_round fun _ hop => List.mem_singleton.mp hop ▸ h

/-- A control call has no word. -/
theorem passes_control (s : Service σ) (caller : ThreadId) (call : ControlCall) :
    s.Passes (s.control caller call).1 [] := by
  unfold control
  split
  · exact s.passes_round_one (.control caller call) rfl
  · exact .refl s

/-- What is done on the handler's side is a round. -/
theorem exists_round_step (s : Service σ) (op : Op) :
    ∃ op' : Bridge.Session.Op, op'.concernsStart = false ∧ (s.step op).1 = (s.round [op']).1 := by
  cases op with
  | tell told =>
    refine ⟨.tell told, rfl, ?_⟩
    unfold Service.step
    dsimp only
    split <;> rfl
  | aux st =>
    refine ⟨.aux st, rfl, ?_⟩
    unfold Service.step
    dsimp only
    split <;> rfl
  | dropAux =>
    refine ⟨.dropAux, rfl, ?_⟩
    unfold Service.step
    dsimp only
    split <;> rfl

/-- What is done on the handler's side has no word. -/
theorem passes_step (s : Service σ) (op : Op) : s.Passes (s.step op).1 [] := by
  obtain ⟨op', haside, hround⟩ := s.exists_round_step op
  exact hround ▸ s.passes_round_one op' haside

theorem passes_endHandler (s : Service σ) : s.Passes s.endHandler [] := by
  unfold endHandler
  split
  · exact .refl s
  · exact s.passes_round_one .endSteps rfl

omit [StatusHost σ] in
/-- To wait for a handler that was left concerns neither the bridge nor the dispatcher. -/
theorem course_awaitHandler (s : Service σ) : s.awaitHandler.course = s.course := by
  unfold awaitHandler
  split
  · split <;> rfl
  · rfl

/-! ## What has a word -/

/-- A round in which an outcome is published, and nothing else, after the steps that publish it. -/
theorem passes_round_publish (s : Service σ) (steps : List Course.Step) {o : Outcome}
    (hsteps : (s.course.after steps).bridge = (s.bridge.act (.store o)).act .announce) :
    ∃ history, s.course.words history = s.course.words steps ∧ s.course.after history =
      ⟨(s.round [.publish o]).1.bridge, (s.course.after steps).dispatching⟩ := by
  obtain ⟨later, hbridge, haside⟩ := s.session.follows_round_publish o
  obtain ⟨rest, hwords, hafter⟩ := (s.course.after steps).exists_wordless haside
  refine ⟨steps ++ rest, ?_, ?_⟩
  · rw [Course.words_append, hwords, List.append_nil]
  · rw [Course.after_append, hafter, hsteps]
    refine congrArg (Course.mk · _) ?_
    rw [Bridge.Session.bridge_act, Bridge.Session.bridge_act] at hbridge
    exact hbridge.symm

/-- **To enter the service is a word**, as long as the run is registered. -/
theorem passes_main (s : Service σ) (id : Context) (answer : RegisterAnswer)
    (raw : List (List UInt16)) :
    s.Passes (s.main id answer raw)
      (if s.bridge.registered && id == s.bridge.context then [.ofEntry answer raw] else []) := by
  unfold main
  split
  · obtain ⟨history, hwords, hafter⟩ :=
      s.passes_round_publish [.entry answer raw, .announce] rfl
    refine ⟨history, hwords, ?_⟩
    rw [hafter]
    refine congrArg (Course.mk _ ·) ?_
    change _ = (Course.announce _).dispatching
    unfold Course.announce course
    cases hd : s.dispatch <;> simp [round, hd, Course.step, Course.store]
  · exact .refl s

omit [StatusHost σ] in
/-- What dispatching comes to when nothing comes in between. -/
theorem announce_settle (b : Bridge σ) (r : Except HostError Unit) :
    (Course.settle ⟨b, .back r⟩).announce =
      ⟨(b.act (.store (Word.returned r).outcome)).act .announce,
        .done (if b.handshake.isSettled then none else some (Word.returnError r))⟩ := by
  have hsettle : Course.settle ⟨b, .back r⟩ = ⟨b.act (.store (Word.returned r).outcome),
      if (b.handshake.store (Word.returned r).outcome).2 then .stored r else .done none⟩ := rfl
  rw [hsettle, Handshake.store_counts]
  cases b.handshake.isSettled <;> rfl

/-- **To come back from dispatching is a word.** -/
theorem passes_dispatchReturns (s : Service σ) (hd : s.dispatch = none)
    (r : Except HostError Unit) : s.Passes (s.dispatchReturns r) [.returned r] := by
  have haway : s.course = ⟨s.bridge, .away⟩ := by
    unfold course
    rw [hd]
  have hall : s.course.after [.returns r, .settle, .announce] =
      ⟨(s.bridge.act (.store (Word.returned r).outcome)).act .announce,
        .done (if s.bridge.handshake.isSettled then none else some (Word.returnError r))⟩ := by
    rw [haway]
    exact announce_settle s.bridge r
  obtain ⟨history, hwords, hafter⟩ := s.passes_round_publish _ (congrArg Course.bridge hall)
  refine ⟨history, ?_, ?_⟩
  · rw [hwords, haway]
    rfl
  · rw [hafter, hall]
    cases hsettled : s.bridge.handshake.isSettled <;> cases r <;>
      simp only [dispatchReturns, hsettled] <;> rfl

end Service

/-! ## A whole run -/

namespace Service.Scripted

/-- The word of an operation on the start, if it comes to that. -/
def Op.word? (onRegister : RegisterAnswer) : Op → Option Word
  | .main _ raw => some (.ofEntry onRegister raw)
  | .returns r => some (.returned r)
  | .handler _ | .control _ _ => none

theorem onRegister_main (s : Scripted) (id : Context) (raw : List (List UInt16)) :
    (s.main id raw).onRegister = s.onRegister := by
  unfold main
  split <;> rfl

/-- What the host answers to a registration is the same all the time. -/
theorem onRegister_step (s : Scripted) (op : Op) : (s.step op).1.onRegister = s.onRegister := by
  cases op with
  | handler op => rfl
  | main id raw => exact s.onRegister_main id raw
  | control caller call =>
    unfold step
    dsimp only
    split <;> rfl
  | returns r =>
    unfold step
    dsimp only
    split <;> rfl

/-- An operation has its word at most. -/
theorem passes_step (s : Scripted) (op : Op) :
    ∃ ws, ws.Sublist (op.word? s.onRegister).toList ∧ s.service.Passes (s.step op).1.service ws := by
  cases op with
  | handler op => exact ⟨[], .refl _, s.service.passes_step op⟩
  | main id raw =>
    have hmain : (s.main id raw).service = s.service.main id s.onRegister raw := by
      unfold main Service.main
      split <;> rfl
    refine ⟨_, ?_, (s.service.passes_main id s.onRegister raw).congr (congrArg course hmain)⟩
    split
    · exact .refl _
    · exact List.nil_sublist _
  | control caller call =>
    refine ⟨[], .refl _, ?_⟩
    unfold step
    dsimp only
    split
    · exact s.service.passes_control caller call
    · exact .refl _
  | returns r =>
    unfold step
    dsimp only
    split
    · rename_i hd
      exact ⟨_, .refl _, s.service.passes_dispatchReturns (Option.isNone_iff_eq_none.mp hd) r⟩
    · exact ⟨[], List.nil_sublist _, .refl _⟩

/-- Operations one after the other have their words at most. -/
theorem passes_steps (s : Scripted) (ops : List Op) :
    ∃ ws, ws.Sublist (ops.filterMap (Op.word? s.onRegister)) ∧
      s.service.Passes (s.steps ops).1.service ws := by
  induction ops generalizing s with
  | nil => exact ⟨[], .refl _, .refl _⟩
  | cons op ops ih =>
    obtain ⟨ws₁, hws₁, h₁⟩ := s.passes_step op
    obtain ⟨ws₂, hws₂, h₂⟩ := ih (s.step op).1
    rw [onRegister_step] at hws₂
    refine ⟨ws₁ ++ ws₂, ?_, h₁.trans h₂⟩
    have hcons : (op :: ops).filterMap (Op.word? s.onRegister) =
        (op.word? s.onRegister).toList ++ ops.filterMap (Op.word? s.onRegister) := by
      cases hword : op.word? s.onRegister <;> simp [hword]
    rw [hcons]
    exact hws₁.append hws₂

/-- To come to the end is the dispatcher's word, if it has not come back before. -/
theorem passes_finish (s : Scripted) :
    ∃ ws, ws.Sublist [.returned (.ok ())] ∧ s.service.Passes s.finish ws := by
  have hend := s.service.passes_endHandler
  unfold finish
  dsimp only
  split
  · rename_i hd
    have hreturns := s.service.endHandler.passes_dispatchReturns
      (Option.isNone_iff_eq_none.mp hd) (.ok ())
    exact ⟨_, .refl _, (hend.trans hreturns).congr (course_awaitHandler _)⟩
  · exact ⟨[], List.nil_sublist _, hend.congr (course_awaitHandler _)⟩

/-- Before anything is done to it, a run has no words. -/
theorem passes_launch (name handlerName : String) (host : ScriptedHost) (config : Config)
    (subs : List Subscriber) (keepsAux : Bool) :
    ∃ history, (Course.fresh name handlerName runId host).words history = [] ∧
      (Service.launch name handlerName host config subs keepsAux).course =
        (Course.fresh name handlerName runId host).after history := by
  have hstart : ∀ op ∈ [Bridge.Session.Op.start], op.concernsStart = false :=
    fun _ hop => List.mem_singleton.mp hop ▸ rfl
  obtain ⟨history, hbridge, haside⟩ :=
    (Bridge.Session.ofBridge (.fresh name handlerName runId host) keepsAux).follows_round hstart
  obtain ⟨steps, hwords, hafter⟩ :=
    (Course.fresh name handlerName runId host).exists_wordless haside
  exact ⟨steps, hwords, (congrArg (Course.mk · .away) hbridge).trans hafter.symm⟩

/-- **A whole run is a course**, from its start to the result, with words of the host only: what it
was told to say, and the dispatcher's return at the end. -/
theorem course_of_play (name handlerName : String) (host : ScriptedHost) (config : Config)
    (subs : List Subscriber) (keepsAux : Bool) (onRegister : RegisterAnswer) (ops : List Op) :
    ∃ history,
      (play (Service.launch name handlerName host config subs keepsAux) onRegister ops).2.1.course =
        (Course.fresh name handlerName runId host).after history ∧
      ((Course.fresh name handlerName runId host).words history).Sublist
        (ops.filterMap (Op.word? onRegister) ++ [.returned (.ok ())]) := by
  obtain ⟨start, hstart, hlaunch⟩ := passes_launch name handlerName host config subs keepsAux
  obtain ⟨ws, hws, hsteps⟩ := (launch (Service.launch name handlerName host config subs keepsAux)
    onRegister).passes_steps ops
  obtain ⟨ws', hws', hfinish⟩ := ((launch (Service.launch name handlerName host config subs keepsAux)
    onRegister).steps ops).1.passes_finish
  obtain ⟨later, hlater, hafter⟩ := hsteps.trans hfinish
  refine ⟨start ++ later, ?_, ?_⟩
  · rw [Course.after_append, ← hlaunch]
    exact hafter
  · rw [Course.words_append, hstart, ← hlaunch]
    exact hlater ▸ hws.append hws'

/-- A word of the host is the outcome of a registration as it answers them, or a return it was told to
make. -/
theorem of_mem_words {onRegister : RegisterAnswer} {ops : List Op} {w : Word}
    (h : w ∈ ops.filterMap (Op.word? onRegister) ++ [.returned (.ok ())]) :
    (∃ raw, w = .ofEntry onRegister raw) ∨ ∃ r, (.returns r ∈ ops ∨ r = .ok ()) ∧ w = .returned r := by
  obtain h | h := List.mem_append.mp h
  · obtain ⟨op, hop, hword⟩ := List.mem_filterMap.mp h
    cases op with
    | main id raw => exact .inl ⟨raw, (Option.some.inj hword).symm⟩
    | returns r => exact .inr ⟨r, .inl hop, (Option.some.inj hword).symm⟩
    | handler | control => cases hword
  · exact .inr ⟨_, .inr rfl, List.mem_singleton.mp h⟩

/-- **What a whole run results in.**  The dispatcher is blamed with a return the host was told to make;
a registration is blamed with the host's answer; and an exit code is that of the last report, made
with the handle that the host gave. -/
theorem result_of_play (name handlerName : String) (host : ScriptedHost) (config : Config)
    (subs : List Subscriber) (keepsAux : Bool) (onRegister : RegisterAnswer) (ops : List Op)
    {res : Except RunError ExitCode}
    (h : (play (Service.launch name handlerName host config subs keepsAux) onRegister
      ops).2.1.result? = some res) :
    (∃ r, (.returns r ∈ ops ∨ r = .ok ()) ∧ res = .error (.dispatch (Word.returnError r))) ∨
    (∃ e, onRegister = .error e ∧ res = .error (.registration e)) ∨
    ∃ handle exit r, onRegister = .ok handle ∧ res = .ok exit ∧
      (Bridge.reports (play (Service.launch name handlerName host config subs keepsAux) onRegister
        ops).2.1.bridge.log).getLast? = some (handle, Record.ofStatus .stopped exit, r) := by
  obtain ⟨history, hcourse, hwords⟩ :=
    course_of_play name handlerName host config subs keepsAux onRegister ops
  have hword : ∀ w, (Course.fresh name handlerName runId host).firstWord? history = some w →
      (∃ raw, w = .ofEntry onRegister raw) ∨
        ∃ r, (.returns r ∈ ops ∨ r = .ok ()) ∧ w = .returned r := by
    intro w hw
    exact of_mem_words (hwords.mem (List.mem_of_mem_head? hw))
  have hlog := congrArg (fun c => Bridge.reports c.bridge.log) hcourse
  dsimp only [course] at hlog
  rw [← result?_course, hcourse] at h
  obtain ⟨r, hw, rfl⟩ | ⟨e, hw, rfl⟩ | ⟨d, exit, r, hw, rfl, hlast⟩ :=
    Course.result_cases name handlerName runId host history h
  · obtain ⟨raw, hentry⟩ | ⟨r, hr, hreturn⟩ := hword _ hw
    · cases hentry
    · obtain rfl := Word.returned.inj hreturn
      exact .inl ⟨_, hr, rfl⟩
  · obtain ⟨raw, hentry⟩ | ⟨r, -, hreturn⟩ := hword _ hw
    · cases onRegister with
      | error e' =>
        obtain rfl := Except.error.inj (Word.entered.inj hentry)
        exact .inr (.inl ⟨_, rfl, rfl⟩)
      | ok handle => cases Word.entered.inj hentry
    · cases hreturn
  · obtain ⟨raw, hentry⟩ | ⟨r, -, hreturn⟩ := hword _ hw
    · cases onRegister with
      | error e' => cases Word.entered.inj hentry
      | ok handle =>
        obtain rfl := Except.ok.inj (Word.entered.inj hentry)
        exact .inr (.inr ⟨_, exit, r, rfl, rfl, hlog ▸ hlast⟩)
    · cases hreturn

end Service.Scripted

end Steward

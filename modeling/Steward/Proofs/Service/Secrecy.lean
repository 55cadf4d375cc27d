import Steward.Service.Scripted
import Steward.Service.Vigil

/-!
# Proofs/Service/Secrecy — what is told on of a call on a foreign thread

The guard of a run takes the content of a call on any thread but its own: what is left of it is the
context, which the call needs to find its run (`ControlCall.seenBy`).  That is all a run ever gets to
see, so two runs that differ in the content of such calls only cannot be told apart.

* `Guard.stamp_eq_iff` — the guard tells two calls apart exactly if it sees different calls.
* `Vigil.after_seenBy` — a run is the same with every call as its guard sees it.
* `Vigil.foreign_content_unseen` — nothing that can be seen of a run depends on the content of a call
  on a foreign thread, whatever the order of the steps.
* `Vigil.playWith_congr` — the same where the next step may depend on what was seen so far.
* `Service.Scripted.play_seen` — the same for a run on a host that does as it is told.
-/

namespace Steward

/-- What a guard sees of a call on the thread `caller`: of a call on a foreign thread, its context. -/
def ControlCall.seenBy (g : Guard) (caller : ThreadId) (call : ControlCall) : ControlCall :=
  if caller = g.expected then call else ⟨0, 0, 0, call.context⟩

/-- The context is seen of every call. -/
theorem ControlCall.context_seenBy (g : Guard) (caller : ThreadId) (call : ControlCall) :
    (call.seenBy g caller).context = call.context := by
  unfold seenBy
  split <;> rfl

/-- Different codes are different commands. -/
theorem Command.ofRaw_injective {m n : UInt32} (h : ofRaw m = ofRaw n) : m = n := by
  have hraw := congrArg raw h
  rwa [raw_ofRaw, raw_ofRaw] at hraw

/-- **The guard tells two calls apart exactly if it sees different calls.** -/
theorem Guard.stamp_eq_iff (g : Guard) (caller : ThreadId) (c c' : ControlCall) :
    g.stamp caller c = g.stamp caller c' ↔ c.seenBy g caller = c'.seenBy g caller := by
  obtain ⟨code, eventType, eventData, context⟩ := c
  obtain ⟨code', eventType', eventData', context'⟩ := c'
  unfold stamp ControlCall.seenBy
  by_cases home : caller = g.expected
  · simp only [if_pos home, ControlEvent.mk.injEq, ControlCall.mk.injEq, and_true]
    exact and_congr_left fun _ => ⟨Command.ofRaw_injective, congrArg Command.ofRaw⟩
  · simp only [if_neg home, ControlEvent.mk.injEq, ControlCall.mk.injEq, true_and, and_true]

theorem Guard.stamp_seenBy (g : Guard) (caller : ThreadId) (call : ControlCall) :
    g.stamp caller (call.seenBy g caller) = g.stamp caller call := by
  refine (g.stamp_eq_iff caller _ call).mpr ?_
  unfold ControlCall.seenBy
  split <;> rfl

namespace Vigil

variable {σ : Type}

/-- A step with its call as the guard sees it. -/
def Step.seenBy (g : Guard) : Step → Step
  | .call ticket caller c => .call ticket caller (c.seenBy g caller)
  | .course s => .course s
  | .send ticket => .send ticket
  | .leave => .leave

/-- A call does what the call does that its guard sees. -/
theorem call_seenBy (v : Vigil σ) (ticket : Nat) (caller : ThreadId) (call : ControlCall) :
    v.call ticket caller (call.seenBy v.guard caller) = v.call ticket caller call := by
  simp only [Vigil.call, ControlCall.context_seenBy, Guard.stamp_seenBy]

variable [StatusHost σ]

theorem step_seenBy (v : Vigil σ) (s : Step) : v.step (s.seenBy v.guard) = v.step s := by
  cases s with
  | call ticket caller call => exact v.call_seenBy ticket caller call
  | course | send | leave => rfl

/-- The guard of a run stays the same. -/
theorem guard_step (v : Vigil σ) (s : Step) : (v.step s).guard = v.guard := by
  cases s with
  | course => rfl
  | call ticket caller call =>
    simp only [step, Vigil.call]
    split <;> rfl
  | send ticket =>
    simp only [step, send]
    split <;> rfl
  | leave =>
    simp only [step, leave]
    split <;> rfl

/-- **A run is the same with every call as its guard sees it.** -/
theorem after_seenBy (v : Vigil σ) (history : List Step) :
    v.after (history.map (Step.seenBy v.guard)) = v.after history := by
  induction history generalizing v with
  | nil => rfl
  | cons s later ih =>
    change (v.step (s.seenBy v.guard)).after (later.map (Step.seenBy v.guard)) =
      (v.step s).after later
    rw [step_seenBy, ← v.guard_step s]
    exact ih (v.step s)

/-- **The content of a call on a foreign thread is not seen.**  Two runs of the same steps, but for the
content of calls on foreign threads, are in the same state after each step; so at each step the events
stamped, the numbers the calls returned, the events told, the requests the handler took, the reports
made and the result of the run are the same in both, and so is the way in which the bridge ended. -/
theorem foreign_content_unseen (name handlerName : String) (context : Context) (host : σ)
    (guard : Guard) (grace? : Option Duration) (h₁ h₂ : List Step)
    (alike : h₁.map (Step.seenBy guard) = h₂.map (Step.seenBy guard)) :
    let start := fresh name handlerName context host guard grace?
    ∀ n, (start.after (h₁.take n)).sight = (start.after (h₂.take n)).sight ∧
      (start.after (h₁.take n)).bridge.ending? = (start.after (h₂.take n)).bridge.ending? ∧
      start.after (h₁.take n) = start.after (h₂.take n) := by
  intro start n
  have hsame : start.after (h₁.take n) = start.after (h₂.take n) := by
    rw [← start.after_seenBy (h₁.take n), ← start.after_seenBy (h₂.take n), List.map_take,
      List.map_take]
    exact congrArg (fun h => start.after (h.take n)) alike
  exact ⟨congrArg sight hsame, congrArg (·.bridge.ending?) hsame, hsame⟩

/-- A call on a foreign thread ends the run. -/
def violatedBy (call : ControlCall) : List Step :=
  [.course (.entry (.ok 1) [[115, 118, 99]]), .course .announce, .course .move,
    .call 1 (.other 0) call, .send 1, .course .move, .course .move, .course .move, .course .move,
    .course .move, .course .move, .course (.act (.finish (.exited .success)) rfl),
    .course (.returns (.ok ())), .course .settle, .leave]

/-- Whether it asks for a stop or for an answer, and whatever it holds, the run is the same. -/
theorem violations_look_alike :
    let start := fresh "svc" "handler" 0 (ScriptedHost.mk [] 0) (.capture .home) none
    let stopped := start.after (violatedBy ⟨1, 0, 0, 0⟩)
    let asked := start.after (violatedBy ⟨4, 2, 3, 0⟩)
    stopped.sight = asked.sight ∧
    asked.stamped = [⟨.other 0, 0, 0, 0, some ExitCode.crossThreadCall⟩] ∧
    asked.returned = [(1, noError)] ∧
    asked.bridge.ending? = some (.stopped (.ofService ExitCode.crossThreadCall) true) := by
  intro start stopped asked
  refine ⟨?_, by decide +kernel, by decide +kernel, by decide +kernel⟩
  exact (foreign_content_unseen "svc" "handler" 0 (ScriptedHost.mk [] 0) (.capture .home) none
    (violatedBy ⟨1, 0, 0, 0⟩) (violatedBy ⟨4, 2, 3, 0⟩) rfl 15).1

/-! ## A world that looks at what it does -/

/-- What the world does next to a run, by what it has seen of it so far. -/
abbrev World := List Sight → Step

/-- A run with a world that answers to what it sees, and what is seen of it step by step. -/
def playWith (v : Vigil σ) (world : World) : Nat → Vigil σ × List Sight
  | 0 => (v, [v.sight])
  | n + 1 =>
    let (now, seen) := v.playWith world n
    let next := now.step (world seen)
    (next, seen ++ [next.sight])

theorem guard_playWith (v : Vigil σ) (world : World) (n : Nat) :
    (v.playWith world n).1.guard = v.guard := by
  induction n with
  | zero => rfl
  | succ n ih => exact (guard_step _ _).trans ih

/-- **Nor is it seen by a world that answers to what it sees.**  Two worlds that answer alike, but for
the content of calls on foreign threads, play the same run and see the same of it. -/
theorem playWith_congr (v : Vigil σ) {world world' : World}
    (alike : ∀ seen, (world seen).seenBy v.guard = (world' seen).seenBy v.guard) (n : Nat) :
    v.playWith world n = v.playWith world' n := by
  induction n with
  | zero => rfl
  | succ n ih =>
    have hstep : ∀ seen, (v.playWith world' n).1.step (world seen) =
        (v.playWith world' n).1.step (world' seen) := by
      intro seen
      rw [← step_seenBy, ← step_seenBy _ (world' seen), guard_playWith, alike]
    simp only [playWith, ih, hstep]

end Vigil

/-! ## One run among others -/

/-- **Of a call on a foreign thread the table of runs has no more than its run**: neither the runs nor
the number returned depend on its content. -/
theorem Registry.control_seenBy (r : Registry) (g : Guard) (caller : ThreadId) (call : ControlCall)
    (reached : ∀ e ∈ r.runs, e.live = true → e.id = call.context → e.guard = g) :
    r.control caller (call.seenBy g caller) = r.control caller call := by
  have hupdate : (r.update call.context fun e =>
        { e with control := e.control.send ⟨0, e.guard.stamp caller (call.seenBy g caller)⟩ }) =
      r.update call.context fun e =>
        { e with control := e.control.send ⟨0, e.guard.stamp caller call⟩ } := by
    refine congrArg Registry.mk (List.map_congr_left fun e he => ?_)
    split
    · rename_i hlive
      obtain ⟨live, hid⟩ := Bool.and_eq_true_iff.mp hlive
      have hstamp : e.guard.stamp caller (call.seenBy g caller) = e.guard.stamp caller call := by
        rw [reached e he live (beq_iff_eq.mp hid), Guard.stamp_seenBy]
      simp only [hstamp]
    · rfl
  simp only [control, ControlCall.context_seenBy, hupdate]

/-! ## A run on a host that does as it is told -/

namespace Bridge.Session

variable {σ : Type} [StatusHost σ]

/-- A round with a call is a round with what the guard of the run sees of it. -/
theorem round_control_seenBy (s : Session σ) (caller : ThreadId) (call : ControlCall) :
    s.round [.control caller (call.seenBy (.capture .home) caller)] =
      s.round [.control caller call] := by
  simp only [round, issueAll, issue, Guard.stamp_seenBy]

end Bridge.Session

namespace Service

/-- A control call does what the call does that the guard of the run sees. -/
theorem control_seenBy {σ : Type} [StatusHost σ] (s : Service σ) (caller : ThreadId)
    (call : ControlCall) :
    s.control caller (call.seenBy (.capture .home) caller) = s.control caller call := by
  have hround : s.round [.control caller (call.seenBy (.capture .home) caller)] =
      s.round [.control caller call] := by
    simp only [round, Bridge.Session.round_control_seenBy]
  rw [control, control, ControlCall.context_seenBy, hround]

namespace Scripted

/-- An operation with its call as the guard of the run sees it. -/
def Op.seen : Op → Op
  | .control caller call => .control caller (call.seenBy (.capture .home) caller)
  | .handler op => .handler op
  | .main id raw => .main id raw
  | .returns r => .returns r

theorem step_seen (s : Scripted) (op : Op) : s.step op.seen = s.step op := by
  cases op with
  | control caller call => simp only [Op.seen, step, control_seenBy]
  | handler | main | returns => rfl

theorem steps_seen (s : Scripted) (ops : List Op) : s.steps (ops.map Op.seen) = s.steps ops := by
  induction ops generalizing s with
  | nil => rfl
  | cons op ops ih => simp only [List.map_cons, steps, step_seen, ih]

/-- **A scripted run is the same with every call as its guard sees it**: so are its states, its answers
and its end. -/
theorem play_seen (s : Service ScriptedHost) (onRegister : RegisterAnswer) (ops : List Op) :
    play s onRegister (ops.map Op.seen) = play s onRegister ops := by
  simp only [play, steps_seen]

end Scripted

end Service

end Steward

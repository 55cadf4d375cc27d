import Steward.Proofs.Service.Course
import Steward.Service.Simulated

/-!
# Proofs/Service/Simulated — what lasts through a whole run on a simulated host

All that is done to a run on a simulated host are rounds on its scheduler, changes of the host, and the note
of what dispatching came to.  So whatever these three keep holds from the first call of the dispatcher to the
end of the run (`Lasting.beforeEnd`), when all that is left is to wait for a handler that is still there.
-/

namespace Steward.Service

namespace Simulated

/-- What is kept by all that is done to a run. -/
structure Lasting (P : Service SimulatedHost → Prop) : Prop where
  round : ∀ {s : Service SimulatedHost}, P s → ∀ ops, P (s.round ops).1
  host : ∀ {s : Service SimulatedHost}, P s → ∀ h, P (withHost s h)
  dispatch : ∀ {s : Service SimulatedHost}, P s → ∀ d, P { s with dispatch := d }

namespace Lasting

variable {P : Service SimulatedHost → Prop} {s : Service SimulatedHost} {r : Simulated}

theorem and {Q : Service SimulatedHost → Prop} (hP : Lasting P) (hQ : Lasting Q) :
    Lasting fun s => P s ∧ Q s where
  round h ops := ⟨hP.round h.1 ops, hQ.round h.2 ops⟩
  host h host := ⟨hP.host h.1 host, hQ.host h.2 host⟩
  dispatch h d := ⟨hP.dispatch h.1 d, hQ.dispatch h.2 d⟩

theorem handler (h : Lasting P) (hs : P s) (op : Service.Op) : P (s.step op).1 := by
  obtain ⟨op', -, hround⟩ := s.exists_round_step op
  exact hround ▸ h.round hs [op']

theorem main (h : Lasting P) (hs : P s) (id : Context) (answer : RegisterAnswer)
    (raw : List (List UInt16)) : P (s.main id answer raw) := by
  unfold Service.main
  split
  · exact h.round hs _
  · exact hs

theorem control (h : Lasting P) (hs : P s) (caller : ThreadId) (call : ControlCall) :
    P (s.control caller call).1 := by
  unfold Service.control
  split
  · exact h.round hs [.control caller call]
  · exact hs

theorem dispatchReturns (h : Lasting P) (hs : P s) (r : Except HostError Unit) :
    P (s.dispatchReturns r) := by
  cases r <;> exact h.dispatch (h.round hs [.publish (.error _)]) _

theorem endHandler (h : Lasting P) (hs : P s) : P s.endHandler := by
  unfold Service.endHandler
  split
  · exact hs
  · exact h.round hs [.endSteps]

/-- The dispatcher is called. -/
theorem launch (h : Lasting P) (hs : P s) : P (launch s).service := by
  unfold Simulated.launch
  split
  · exact h.dispatchReturns (h.host hs _) _
  · exact h.main (h.host (h.host hs _) _) _ _ _

/-- The dispatcher carries out a command. -/
theorem deliver (h : Lasting P) (hr : P r.service) (c : QueuedCommand) :
    P (r.deliver c).service := by
  unfold Simulated.deliver
  split
  · exact hr
  · rename_i k hk
    have hcontrol := h.control hr (if k.foreign then ThreadId.other 0 else ThreadId.home) k.call
    dsimp only
    split
    · exact h.host hcontrol _
    · exact hcontrol

/-- The dispatcher goes on, for any number of commands. -/
theorem pump (h : Lasting P) (hr : P r.service) (n : Nat) : P (r.pump n).service := by
  induction n generalizing r with
  | zero => exact hr
  | succ n ih =>
    unfold Simulated.pump
    split
    · exact hr
    · split
      · exact hr
      · rename_i c rest hqueue
        have htaken : P (withHost r.service { r.host with queue := rest }) := h.host hr _
        dsimp only
        split
        · exact h.dispatchReturns (h.host htaken _) (.ok ())
        · exact ih (h.deliver (r := { r with service := withHost _ _ }) htaken c)

theorem settle (h : Lasting P) (hr : P r.service) : P r.settle.service := by
  refine h.pump ?_ _
  unfold resume
  split
  · exact h.host hr _
  · exact hr

theorem step (h : Lasting P) (hr : P r.service) (op : Op) : P (r.step op).1.service := by
  cases op with
  | handler op => exact h.settle (r := { r with service := _ }) (h.handler hr op)
  | command c =>
    have hqueued := h.settle (r := { r with service := _ }) (h.host hr (r.host.enqueue c))
    unfold Simulated.step
    dsimp only
    split <;> exact hqueued

theorem steps (h : Lasting P) (hr : P r.service) (ops : List Op) :
    P (r.steps ops).1.service := by
  induction ops generalizing r with
  | nil => exact hr
  | cons op ops ih => exact ih (h.step hr op)

/-- **What lasts from the launch of a run lasts to its end**, but for the wait for the handler. -/
theorem fromLaunch (h : Lasting P) (hs : P (Simulated.launch s).service) (ops : List Op) :
    ∃ last, P last ∧ (play s ops).1 = last.awaitHandler :=
  ⟨_, h.settle (r := { service := _, calling := _ })
    (h.endHandler (h.steps (h.settle hs) ops)), rfl⟩

/-- So does what held before. -/
theorem beforeEnd (h : Lasting P) (hs : P s) (ops : List Op) :
    ∃ last, P last ∧ (play s ops).1 = last.awaitHandler := h.fromLaunch (h.launch hs) ops

end Lasting

end Simulated

end Steward.Service

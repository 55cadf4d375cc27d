import Steward.Proofs.Bridge.Actions

/-!
# Proofs/Bridge/Run — induction along a history

A history is a list of steps; `moves` are those the bridge makes along it, `acts` is what happens
in between.  What holds at first, and is kept by moves and by what happens, holds after every
history (`invariant_after`).
-/

namespace Steward.Bridge

variable {σ : Type}

/-- The move the bridge makes in a step, if it is its step and it can move. -/
def moveIn (b : Bridge σ) : Step → Option Move
  | .move => b.next?
  | .act _ => none

/-- The moves the bridge makes along a history, in order. -/
def moves [StatusHost σ] (b : Bridge σ) : List Step → List Move
  | [] => []
  | s :: later => (b.moveIn s).toList ++ (b.step s).moves later

/-- What happens between the moves along a history, in order. -/
def acts (history : List Step) : List Action :=
  history.filterMap fun | .act a => some a | .move => none

theorem acts_append (h₁ h₂ : List Step) : acts (h₁ ++ h₂) = acts h₁ ++ acts h₂ :=
  List.filterMap_append

theorem after_cons [StatusHost σ] (b : Bridge σ) (s : Step) (later : List Step) :
    b.after (s :: later) = (b.step s).after later := rfl

/-- What holds of a state, and is kept by the moves of the bridge and by what happens in between,
goes on to hold; `as` and `ms` are the actions and the moves before the history. -/
theorem invariant_along [StatusHost σ] {P : List Action → List Move → Bridge σ → Prop}
    (makes : ∀ {as : List Action} {ms : List Move} {m : Move} {b b' : Bridge σ},
      P as ms b → b.Makes m b' → P as (ms ++ [m]) b')
    (happens : ∀ {as : List Action} {ms : List Move} {a : Action} {b b' : Bridge σ},
      P as ms b → b.Happens a b' → P (as ++ [a]) ms b')
    {as : List Action} {ms : List Move} {b : Bridge σ} (h : P as ms b) (history : List Step) :
    P (as ++ acts history) (ms ++ b.moves history) (b.after history) := by
  induction history generalizing as ms b with
  | nil => simpa [acts, moves] using h
  | cons s later ih =>
    have hstep : P (as ++ acts [s]) (ms ++ (b.moveIn s).toList) (b.step s) := by
      cases s with
      | act a => simpa [acts, moveIn, step] using happens h (happens_act b a)
      | move =>
        cases hm : b.next? with
        | none => simpa [acts, moveIn, step, hm] using h
        | some m => simpa [acts, moveIn, step, hm] using makes h (makes_perform hm)
    have hlater := ih hstep
    rw [List.append_assoc, List.append_assoc, acts, acts, ← List.filterMap_append] at hlater
    exact hlater

/-- **Induction along a history.**  What holds at first, and is kept by the moves of the bridge and
by what happens in between, holds after every history.  It may speak of the actions and the moves
so far. -/
theorem invariant_after [StatusHost σ] {P : List Action → List Move → Bridge σ → Prop}
    (makes : ∀ {as : List Action} {ms : List Move} {m : Move} {b b' : Bridge σ},
      P as ms b → b.Makes m b' → P as (ms ++ [m]) b')
    (happens : ∀ {as : List Action} {ms : List Move} {a : Action} {b b' : Bridge σ},
      P as ms b → b.Happens a b' → P (as ++ [a]) ms b')
    {b : Bridge σ} (h : P [] [] b) (history : List Step) :
    P (acts history) (b.moves history) (b.after history) :=
  invariant_along makes happens h history

/-- The same for what speaks of states only. -/
theorem state_invariant_after [StatusHost σ] {P : Bridge σ → Prop}
    (makes : ∀ {m : Move} {b b' : Bridge σ}, P b → b.Makes m b' → P b')
    (meets : ∀ {b b' : Bridge σ}, P b → b.Meets b' → P b')
    {b : Bridge σ} (h : P b) (history : List Step) : P (b.after history) :=
  invariant_after (P := fun _ _ b => P b) makes (fun h hh => meets h hh.meets) h history

end Steward.Bridge

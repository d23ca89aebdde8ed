import Mathlib.Data.List.Basic

/-
  Runs of a labelled transition system, under a guard that
  every step has to meet.

  Main declarations:
    * `Transition.Run`
    * `Transition.Run.invariant`
    * `Transition.Run.invariant_history`
    * `Transition.Run.append`
-/

------------------------------------------------------------
-- Runs
------------------------------------------------------------

namespace Transition

variable {σ ℓ : Type}

/-
  The runs of `step` from a state, with the labels of their
  steps, oldest first. A step is taken only when the guard
  allows it, which may look at the labels before it, at the
  state it starts in and at its own label.
-/
inductive Run
    (step : σ → ℓ → σ → Prop)
    (guard : List ℓ → σ → ℓ → Prop)
    (start : σ) : List ℓ → σ → Prop
| nil : Run step guard start [] start
| snoc {history s label s'} :
    Run step guard start history s →
    guard history s label →
    step s label s' →
    Run step guard start (history ++ [label]) s'

/- No condition on the steps of a run. -/
def unguarded : List ℓ → σ → ℓ → Prop :=
  fun _ _ _ => True

namespace Run

variable {step : σ → ℓ → σ → Prop}
variable {guard : List ℓ → σ → ℓ → Prop}
variable {start s : σ} {history : List ℓ}

/-
  What holds at the start and is kept by every step the
  guard allows holds at the end of every run, where it may
  speak about the labels of the run.
-/
theorem invariant_history
    (I : List ℓ → σ → Prop)
    (hStart : I [] start)
    (hStep : ∀ history s label s',
      I history s → guard history s label →
      step s label s' → I (history ++ [label]) s')
    (hRun : Run step guard start history s) :
    I history s := by
  induction hRun with
  | nil => exact hStart
  | snoc _ hGuard hTaken ih =>
      exact hStep _ _ _ _ ih hGuard hTaken

/- A run under a guard is one under every weaker guard. -/
theorem weaken
    {g : List ℓ → σ → ℓ → Prop}
    (hRun : Run step guard start history s)
    (hWeaker : ∀ history s label,
      guard history s label → g history s label) :
    Run step g start history s := by
  induction hRun with
  | nil => exact .nil
  | snoc _ hGuard hTaken ih =>
      exact .snoc ih (hWeaker _ _ _ hGuard) hTaken

/- Runs without a guard follow one another. -/
theorem append
    {s' : σ} {history' : List ℓ}
    (hFirst : Run step unguarded start history s)
    (hRest : Run step unguarded s history' s') :
    Run step unguarded start (history ++ history') s' := by
  induction hRest with
  | nil => rw [List.append_nil]; exact hFirst
  | snoc _ hGuard hTaken ih =>
      rw [← List.append_assoc]
      exact .snoc ih hGuard hTaken

/- A run without steps goes nowhere. -/
theorem eq_of_nil
    (hRun : Run step guard start [] s) : s = start := by
  generalize hLabels : ([] : List ℓ) = labels at hRun
  cases hRun with
  | nil => rfl
  | snoc hBefore hGuard hTaken => simp at hLabels

/- The last step of a run. -/
theorem exists_of_snoc
    {label : ℓ}
    (hRun : Run step guard start (history ++ [label]) s) :
    ∃ s₁, Run step guard start history s₁ ∧
      guard history s₁ label ∧ step s₁ label s := by
  generalize hLabels : history ++ [label] = labels at hRun
  cases hRun with
  | nil => simp at hLabels
  | snoc hBefore hGuard hTaken =>
      rcases List.append_inj' hLabels rfl with ⟨rfl, hLast⟩
      cases hLast
      exact ⟨_, hBefore, hGuard, hTaken⟩

/- An invariant of the states alone. -/
theorem invariant
    (I : σ → Prop)
    (hStart : I start)
    (hStep : ∀ history s label s',
      I s → guard history s label →
      step s label s' → I s')
    (hRun : Run step guard start history s) :
    I s :=
  invariant_history (fun _ => I) hStart hStep hRun

end Run

end Transition

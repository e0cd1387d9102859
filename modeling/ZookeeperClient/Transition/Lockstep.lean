import Mathlib.Data.List.Basic

/-!
# Two deterministic runs in lockstep

Two step functions process the same list of inputs from the same state. If a condition on the
input and the state decides at each step whether they do the same or can be told apart, then the
runs cannot be told apart exactly when every step meets the condition.

## Main definitions

- `run` — processing a list of inputs
- `Along` — a condition holds before every step of a run
- `Indistinguishable` — the runs show the same after every beginning of the list

## Main results

- `indistinguishable_iff_along`
-/

namespace Transition

universe u v w

variable {ι : Type u} {σ : Type v} {ω : Type w}

/-- The state after the inputs have been processed. -/
def run (step : ι → σ → σ) (s : σ) (inputs : List ι) : σ :=
  inputs.foldl (fun s i => step i s) s

@[simp] theorem run_cons (step : ι → σ → σ) (s : σ) (i : ι) (inputs : List ι) :
    run step s (i :: inputs) = run step (step i s) inputs := rfl

/-- The condition holds of every input and the state that it finds. -/
def Along (step : ι → σ → σ) (C : ι → σ → Prop) : List ι → σ → Prop
  | [], _ => True
  | i :: inputs, s => C i s ∧ Along step C inputs (step i s)

/-- After every beginning of the list the two runs show the same. -/
def Indistinguishable (observe : σ → ω) (step step' : ι → σ → σ) (inputs : List ι) (s : σ) :
    Prop :=
  ∀ n, observe (run step s (inputs.take n)) = observe (run step' s (inputs.take n))

variable {observe : σ → ω} {step step' : ι → σ → σ} {C : ι → σ → Prop}

/-- The whole list is one of its beginnings. -/
theorem Indistinguishable.run_eq {inputs : List ι} {s : σ}
    (h : Indistinguishable observe step step' inputs s) :
    observe (run step s inputs) = observe (run step' s inputs) := by
  have hwhole := h inputs.length
  rwa [List.take_length] at hwhole

theorem indistinguishable_cons {i : ι} {inputs : List ι} {s : σ} (h : step i s = step' i s) :
    Indistinguishable observe step step' (i :: inputs) s ↔
      Indistinguishable observe step step' inputs (step' i s) := by
  constructor
  · intro hall n
    have hnext := hall (n + 1)
    rwa [List.take_succ_cons, run_cons, run_cons, h] at hnext
  · intro hrest n
    cases n with
    | zero => rfl
    | succ n =>
      rw [List.take_succ_cons, run_cons, run_cons, h]
      exact hrest n

/-- The runs can be told apart exactly when a step does not meet the condition. -/
theorem indistinguishable_iff_along (hsame : ∀ i s, C i s → step i s = step' i s)
    (hdiff : ∀ i s, ¬C i s → observe (step i s) ≠ observe (step' i s)) (inputs : List ι) (s : σ) :
    Indistinguishable observe step step' inputs s ↔ Along step' C inputs s := by
  induction inputs generalizing s with
  | nil => exact ⟨fun _ => trivial, fun _ n => by rw [List.take_nil]; rfl⟩
  | cons i inputs ih =>
    by_cases hC : C i s
    · rw [indistinguishable_cons (hsame i s hC), ih (step' i s)]
      exact (and_iff_right hC).symm
    · refine iff_of_false (fun h => hdiff i s hC ?_) fun h => hC h.1
      exact h 1

end Transition

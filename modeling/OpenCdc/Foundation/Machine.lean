import Mathlib.Computability.StateTransition

/-!
# Deterministic machines that never get stuck

A machine is a partial step function.  It is stuck in a state without a step
that is not one of the states it may end in.
-/

namespace Foundation

open StateTransition

universe u

variable {σ : Type u}

/-- Every reachable state may be an end or has a step. -/
def NeverStuck (step : σ → Option σ) (isEnd : σ → Prop) (s : σ) : Prop :=
  ∀ t, Reaches step s t → isEnd t ∨ ∃ u, step t = some u

theorem reaches_step {step : σ → Option σ} {s t u : σ} (hstep : step s = some t)
    (hrest : Reaches step t u) : Reaches step s u :=
  Relation.ReflTransGen.head hstep hrest

/-- A machine that runs to a state without a step never gets stuck exactly if
that state is an end. -/
theorem neverStuck_iff_of_reaches {step : σ → Option σ} {isEnd : σ → Prop}
    {s t : σ} (hreaches : Reaches step s t) (hstop : step t = none) :
    NeverStuck step isEnd s ↔ isEnd t := by
  constructor
  · intro hnever
    rcases hnever t hreaches with hend | ⟨u, hu⟩
    · exact hend
    · simp [hstop] at hu
  · intro hend u hu
    -- the run is one line: either `u` lies in front of `t`, or it is `t`
    rcases reaches_total hu hreaches with hut | htu
    · rcases Relation.ReflTransGen.cases_head hut with rfl | ⟨v, hv, -⟩
      · exact Or.inl hend
      · exact Or.inr ⟨v, hv⟩
    · rcases Relation.ReflTransGen.cases_head htu with rfl | ⟨v, hv, -⟩
      · exact Or.inl hend
      · simp [hstop] at hv

end Foundation

import Mathlib.Data.List.Infix

/-!
# Interleavings

Several activities share a state and take their steps in any order: an
interleaving is a list of labels, and a label that has no step in a state
cannot be taken there.  What holds throughout an interleaving is brought back
to its single steps.
-/

namespace Foundation

universe u v

variable {σ : Type u} {α : Type v}

/-- The state that an interleaving ends in, if each of its steps is there. -/
def runFrom (step : σ → α → Option σ) (s : σ) : List α → Option σ
  | [] => some s
  | a :: as => (step s a).bind fun t => runFrom step t as

/-- The states that are reached on the way. -/
def Throughout (step : σ → α → Option σ) (P : σ → Prop) (s : σ)
    (as : List α) : Prop :=
  ∀ pre t, pre <+: as → runFrom step s pre = some t → P t

/-- The steps that are taken on the way. -/
def EveryStep (step : σ → α → Option σ) (Q : σ → α → Prop) (s : σ)
    (as : List α) : Prop :=
  ∀ pre a t u, pre ++ [a] <+: as → runFrom step s pre = some t →
    step t a = some u → Q t a

variable {step : σ → α → Option σ} {P I : σ → Prop} {Q : σ → α → Prop} {s : σ}

theorem runFrom_cons_eq_some {a : α} {as : List α} {u : σ} :
    runFrom step s (a :: as) = some u ↔
      ∃ t, step s a = some t ∧ runFrom step t as = some u :=
  Option.bind_eq_some_iff

theorem throughout_nil : Throughout step P s [] ↔ P s := by
  constructor
  · exact fun h => h [] s List.prefix_rfl rfl
  · intro h pre t hpre hrun
    rw [List.prefix_nil.mp hpre] at hrun
    obtain rfl : s = t := Option.some.inj hrun
    exact h

theorem throughout_cons {a : α} {as : List α} :
    Throughout step P s (a :: as) ↔
      P s ∧ ∀ t, step s a = some t → Throughout step P t as := by
  constructor
  · intro h
    refine ⟨h [] s List.nil_prefix rfl, fun t hstep pre u hpre hrun => ?_⟩
    exact h (a :: pre) u (List.cons_prefix_cons.mpr ⟨rfl, hpre⟩)
      (runFrom_cons_eq_some.mpr ⟨t, hstep, hrun⟩)
  · rintro ⟨hs, hrest⟩ pre u hpre hrun
    cases pre with
    | nil =>
        obtain rfl : s = u := Option.some.inj hrun
        exact hs
    | cons b pre =>
        obtain ⟨rfl, htail⟩ := List.cons_prefix_cons.mp hpre
        obtain ⟨t, hstep, hrun⟩ := runFrom_cons_eq_some.mp hrun
        exact hrest t hstep pre u htail hrun

theorem everyStep_nil : EveryStep step Q s [] := by
  intro pre a t u hpre
  simp at hpre

theorem everyStep_cons {a : α} {as : List α} :
    EveryStep step Q s (a :: as) ↔
      ∀ t, step s a = some t → Q s a ∧ EveryStep step Q t as := by
  constructor
  · intro h t hstep
    refine ⟨h [] a s t (List.cons_prefix_cons.mpr ⟨rfl, List.nil_prefix⟩) rfl
      hstep, fun pre b u v hpre hrun => ?_⟩
    exact h (a :: pre) b u v (List.cons_prefix_cons.mpr ⟨rfl, hpre⟩)
      (runFrom_cons_eq_some.mpr ⟨t, hstep, hrun⟩)
  · intro h pre b u v hpre hrun hlast
    cases pre with
    | nil =>
        obtain ⟨rfl, -⟩ := List.cons_prefix_cons.mp hpre
        obtain rfl : s = u := Option.some.inj hrun
        exact (h v hlast).1
    | cons c pre =>
        obtain ⟨rfl, htail⟩ := List.cons_prefix_cons.mp hpre
        obtain ⟨t, hstep, hrun⟩ := runFrom_cons_eq_some.mp hrun
        exact (h t hstep).2 pre b u v htail hrun hlast

/-- Once an invariant rests on a property, and one step keeps the property
exactly if it is taken under a condition, an interleaving has the property
throughout exactly if all its steps are taken under the condition. -/
theorem throughout_iff_everyStep {L : α → Prop}
    (hkeeps : ∀ s a t, L a → I s → P s → step s a = some t →
      (P t ↔ Q s a) ∧ (P t → I t))
    {as : List α} (hlabels : ∀ a ∈ as, L a) (hI : I s) (hP : P s) :
    Throughout step P s as ↔ EveryStep step Q s as := by
  induction as generalizing s with
  | nil => exact iff_of_true (throughout_nil.mpr hP) everyStep_nil
  | cons a as ih =>
      rw [throughout_cons, everyStep_cons]
      have ha := hlabels a List.mem_cons_self
      have has := fun b hb => hlabels b (List.mem_cons_of_mem a hb)
      constructor
      · rintro ⟨-, hrest⟩ t hstep
        have hthroughout := hrest t hstep
        have hPt : P t := hthroughout [] t List.nil_prefix rfl
        obtain ⟨hiff, hinv⟩ := hkeeps s a t ha hI hP hstep
        exact ⟨hiff.mp hPt, (ih has (hinv hPt) hPt).mp hthroughout⟩
      · intro hsteps
        refine ⟨hP, fun t hstep => ?_⟩
        obtain ⟨hQ, hrest⟩ := hsteps t hstep
        obtain ⟨hiff, hinv⟩ := hkeeps s a t ha hI hP hstep
        have hPt := hiff.mpr hQ
        exact (ih has (hinv hPt) hPt).mpr hrest

/-- What holds first and is kept by every step holds throughout. -/
theorem throughout_of_invariant
    (hkeeps : ∀ s a t, I s → step s a = some t → I t) (hI : I s)
    (as : List α) : Throughout step I s as := by
  induction as generalizing s with
  | nil => exact throughout_nil.mpr hI
  | cons a as ih =>
      exact throughout_cons.mpr
        ⟨hI, fun t hstep => ih (hkeeps s a t hI hstep)⟩

/-- The same where only some labels are taken. -/
theorem throughout_of_labels {L : α → Prop}
    (hkeeps : ∀ s a t, L a → I s → step s a = some t → I t) (hI : I s)
    {as : List α} (hlabels : ∀ a ∈ as, L a) : Throughout step I s as := by
  induction as generalizing s with
  | nil => exact throughout_nil.mpr hI
  | cons a as ih =>
      obtain ⟨ha, has⟩ := List.forall_mem_cons.mp hlabels
      exact throughout_cons.mpr
        ⟨hI, fun t hstep => ih (hkeeps s a t ha hI hstep) has⟩

/-- Where every state that is not at rest has an allowed step to a lower rank,
allowed steps lead to rest. -/
theorem exists_runFrom_of_rank {L : α → Prop} {rest : σ → Prop} (rank : σ → ℕ)
    (hnext : ∀ s, ¬rest s → ∃ a t, L a ∧ step s a = some t ∧ rank t < rank s)
    (s : σ) :
    ∃ as t, (∀ a ∈ as, L a) ∧ runFrom step s as = some t ∧ rest t := by
  induction hrank : rank s using Nat.strong_induction_on generalizing s with
  | _ n ih =>
      by_cases hrest : rest s
      · exact ⟨[], s, by simp, rfl, hrest⟩
      · obtain ⟨a, t, ha, hstep, hlower⟩ := hnext s hrest
        obtain ⟨as, u, has, hrun, hu⟩ := ih (rank t) (hrank ▸ hlower) t rfl
        exact ⟨a :: as, u, List.forall_mem_cons.mpr ⟨ha, has⟩,
          runFrom_cons_eq_some.mpr ⟨t, hstep, hrun⟩, hu⟩

theorem Throughout.mono {P' : σ → Prop} {as : List α}
    (h : Throughout step P s as) (himp : ∀ t, P t → P' t) :
    Throughout step P' s as :=
  fun pre t hpre hrun => himp t (h pre t hpre hrun)

end Foundation

import Mathlib.Data.List.Basic

/-!
# Chains of stages

An item passes a chain of stages, some of which drop it and others of which
change it.  Where no change has a say in what a later stage drops, the chain is
all of its guards followed by all of its changes.
-/

namespace Foundation

universe u

variable {α : Type u}

inductive Stage (α : Type u) where
  | guard (keep : α → Bool)
  | change (f : α → α)

namespace Stage

def apply : Stage α → α → Option α
  | guard keep, a => if keep a then some a else none
  | change f, a => some (f a)

def isGuard : Stage α → Bool
  | guard _ => true
  | change _ => false

end Stage

/-- The loop over the stages, which ends where the item is dropped. -/
def runStages : List (Stage α) → α → Option α
  | [], a => some a
  | stage :: stages, a => (stage.apply a).bind (runStages stages)

/-- All changes, one after the other. -/
def changed : List (Stage α) → α → α
  | [], a => a
  | .guard _ :: stages, a => changed stages a
  | .change f :: stages, a => changed stages (f a)

/-- The item as it is given passes every guard. -/
def PassesGuards (stages : List (Stage α)) (a : α) : Prop :=
  ∀ keep, .guard keep ∈ stages → keep a

/-- No guard sees a difference that a change makes. -/
def Separate (stages : List (Stage α)) : Prop :=
  ∀ keep, .guard keep ∈ stages → ∀ f, .change f ∈ stages →
    ∀ a, keep (f a) = keep a

theorem Separate.tail {stage : Stage α} {stages : List (Stage α)}
    (h : Separate (stage :: stages)) : Separate stages :=
  fun keep hkeep f hf =>
    h keep (List.mem_cons_of_mem _ hkeep) f (List.mem_cons_of_mem _ hf)

theorem passesGuards_guard {keep : α → Bool} {stages : List (Stage α)} {a : α} :
    PassesGuards (.guard keep :: stages) a ↔
      keep a ∧ PassesGuards stages a := by
  simp [PassesGuards, or_imp, forall_and]

/-- A guard later in the chain decides about the item as it was given. -/
theorem passesGuards_change {f : α → α} {stages : List (Stage α)}
    (h : Separate (.change f :: stages)) (a : α) :
    PassesGuards stages (f a) ↔ PassesGuards (.change f :: stages) a := by
  have hkeep : ∀ keep, .guard keep ∈ stages → keep (f a) = keep a :=
    fun keep hmem => h keep (List.mem_cons_of_mem _ hmem) f
      List.mem_cons_self a
  constructor
  · intro hpasses keep hmem
    have hmem' : .guard keep ∈ stages := by simpa using hmem
    rw [← hkeep keep hmem']
    exact hpasses keep hmem'
  · intro hpasses keep hmem
    rw [hkeep keep hmem]
    exact hpasses keep (List.mem_cons_of_mem _ hmem)

theorem runStages_of_passesGuards {stages : List (Stage α)}
    (h : Separate stages) {a : α} (hpasses : PassesGuards stages a) :
    runStages stages a = some (changed stages a) := by
  induction stages generalizing a with
  | nil => rfl
  | cons stage stages ih =>
      cases stage with
      | guard keep =>
          obtain ⟨hkeep, hrest⟩ := passesGuards_guard.mp hpasses
          rw [runStages, Stage.apply, if_pos hkeep]
          exact ih h.tail hrest
      | change f => exact ih h.tail ((passesGuards_change h a).mpr hpasses)

theorem runStages_of_not_passesGuards {stages : List (Stage α)}
    (h : Separate stages) {a : α} (hpasses : ¬ PassesGuards stages a) :
    runStages stages a = none := by
  induction stages generalizing a with
  | nil =>
      exact absurd (fun _ hmem => absurd hmem List.not_mem_nil) hpasses
  | cons stage stages ih =>
      cases stage with
      | guard keep =>
          rw [passesGuards_guard] at hpasses
          rw [runStages, Stage.apply]
          by_cases hkeep : keep a
          · rw [if_pos hkeep]
            exact ih h.tail fun hrest => hpasses ⟨hkeep, hrest⟩
          · rw [if_neg hkeep]
            rfl
      | change f =>
          apply ih h.tail
          rwa [passesGuards_change h a]

/-! ## Guards in front -/

def guardsFirst (stages : List (Stage α)) : List (Stage α) :=
  stages.filter Stage.isGuard ++ stages.filter fun stage => !stage.isGuard

theorem mem_guardsFirst {stages : List (Stage α)} {stage : Stage α} :
    stage ∈ guardsFirst stages ↔ stage ∈ stages := by
  cases hguard : stage.isGuard <;> simp [guardsFirst, hguard]

theorem Separate.guardsFirst {stages : List (Stage α)} (h : Separate stages) :
    Separate (guardsFirst stages) :=
  fun keep hkeep f hf =>
    h keep (mem_guardsFirst.mp hkeep) f (mem_guardsFirst.mp hf)

theorem changed_append (front back : List (Stage α)) (a : α) :
    changed (front ++ back) a = changed back (changed front a) := by
  induction front generalizing a with
  | nil => rfl
  | cons stage front ih =>
      cases stage with
      | guard keep => exact ih a
      | change f => exact ih (f a)

theorem changed_eq_self {stages : List (Stage α)}
    (h : ∀ stage ∈ stages, stage.isGuard) (a : α) : changed stages a = a := by
  induction stages with
  | nil => rfl
  | cons stage stages ih =>
      obtain ⟨hstage, hstages⟩ := List.forall_mem_cons.mp h
      cases stage with
      | guard keep => exact ih hstages
      | change f => cases hstage

theorem changed_filter_not_isGuard (stages : List (Stage α)) (a : α) :
    changed (stages.filter fun stage => !stage.isGuard) a =
      changed stages a := by
  induction stages generalizing a with
  | nil => rfl
  | cons stage stages ih =>
      cases stage with
      | guard keep => exact ih a
      | change f => exact ih (f a)

theorem changed_guardsFirst (stages : List (Stage α)) (a : α) :
    changed (guardsFirst stages) a = changed stages a := by
  have hguards : ∀ stage ∈ stages.filter Stage.isGuard, stage.isGuard :=
    fun _ hmem => (List.mem_filter.mp hmem).2
  rw [guardsFirst, changed_append, changed_eq_self hguards,
    changed_filter_not_isGuard]

/-- Moving the guards to the front makes no difference. -/
theorem runStages_guardsFirst {stages : List (Stage α)} (h : Separate stages)
    (a : α) : runStages (guardsFirst stages) a = runStages stages a := by
  have hiff : PassesGuards (guardsFirst stages) a ↔ PassesGuards stages a := by
    simp only [PassesGuards, mem_guardsFirst]
  by_cases hpasses : PassesGuards stages a
  · rw [runStages_of_passesGuards h hpasses,
      runStages_of_passesGuards h.guardsFirst (hiff.mpr hpasses),
      changed_guardsFirst]
  · rw [runStages_of_not_passesGuards h hpasses,
      runStages_of_not_passesGuards h.guardsFirst (mt hiff.mp hpasses)]

/-- What no change touches is as it was. -/
theorem changed_invariant {β : Type*} (observe : α → β)
    {stages : List (Stage α)}
    (h : ∀ f, .change f ∈ stages → ∀ a, observe (f a) = observe a) (a : α) :
    observe (changed stages a) = observe a := by
  induction stages generalizing a with
  | nil => rfl
  | cons stage stages ih =>
      have hrest := ih fun f hf => h f (List.mem_cons_of_mem _ hf)
      cases stage with
      | guard keep => exact hrest a
      | change f => exact (hrest (f a)).trans (h f List.mem_cons_self a)

end Foundation

import Mathlib.Algebra.BigOperators.Group.List.Basic
import Mathlib.Data.Nat.Find
import Mathlib.Tactic.Ring
import OpenCdc.Foundation.Outcome

/-!
# Attempts that are made again

An operation that fails is tried again after a pause, a limited number of times.
The attempt that decides is the first one that does not fail, or the last one.
-/

namespace Foundation

universe u v

variable {ε : Type v} {α : Type u}

/-- The attempts from number `i` on, of which some are left: the pauses between
them and the result.  A panic is not caught. -/
def retryFrom (attempt : ℕ → Outcome ε α) (pause : ℕ → ℕ) :
    ℕ → ℕ → ε → List ℕ × Outcome ε α
  | 0, _, last => ([], .error last)
  | left + 1, i, _ =>
      match attempt i with
      | .ok a => ([], .ok a)
      | .panicked => ([], .panicked)
      | .error e =>
          let (pauses, result) := retryFrom attempt pause left (i + 1) e
          (if left = 0 then pauses else pause i :: pauses, result)

/-- Attempts up to a number of them; `none` is for no attempt at all. -/
def retry (attempt : ℕ → Outcome ε α) (pause : ℕ → ℕ) (count : ℕ) (none : ε) :
    List ℕ × Outcome ε α :=
  retryFrom attempt pause count 0 none

/-- All attempts in front of this one fail, and it is the last one or does not
fail. -/
structure Decides (attempt : ℕ → Outcome ε α) (count k : ℕ) : Prop where
  lt : k < count
  fails : ∀ j < k, ∃ e, attempt j = .error e
  settles : k + 1 = count ∨ ∀ e, attempt k ≠ .error e

variable {attempt : ℕ → Outcome ε α} {pause : ℕ → ℕ}

theorem exists_decides (attempt : ℕ → Outcome ε α) {count : ℕ}
    (hcount : 0 < count) : ∃ k, Decides attempt count k := by
  classical
  by_cases h : ∃ k, k < count ∧ ∀ e, attempt k ≠ .error e
  · refine ⟨Nat.find h, (Nat.find_spec h).1, ?_, Or.inr (Nat.find_spec h).2⟩
    intro j hj
    by_contra hnot
    have hlt : j < count := hj.trans (Nat.find_spec h).1
    exact Nat.find_min h hj ⟨hlt, fun e he => hnot ⟨e, he⟩⟩
  · refine ⟨count - 1, by omega, ?_, Or.inl (by omega)⟩
    intro j hj
    by_contra hnot
    exact h ⟨j, by omega, fun e he => hnot ⟨e, he⟩⟩

theorem Decides.unique {count k l : ℕ} (hk : Decides attempt count k)
    (hl : Decides attempt count l) : k = l := by
  have hle : ∀ {k l}, Decides attempt count k → Decides attempt count l →
      ¬k < l := by
    intro k l hk hl hlt
    obtain ⟨e, he⟩ := hl.fails k hlt
    have hltCount := hl.lt
    rcases hk.settles with hlast | hsettles
    · omega
    · exact hsettles e he
  have hkl := hle hk hl
  have hlk := hle hl hk
  omega

/-- The result is that of the attempt that decides. -/
theorem retryFrom_eq {left i k : ℕ} (last : ε)
    (h : Decides (fun j => attempt (i + j)) left k) :
    retryFrom attempt pause left i last =
      ((List.range k).map fun j => pause (i + j), attempt (i + k)) := by
  induction left generalizing i k last with
  | zero => exact absurd h.lt (Nat.not_lt_zero k)
  | succ left ih =>
      cases k with
      | zero =>
          rcases hattempt : attempt i with a | e | _
          · simp [retryFrom, hattempt]
          · -- a failure decides only as the last attempt
            have hleft : left = 0 := by
              rcases h.settles with hlast | hsettles
              · omega
              · exact absurd hattempt (hsettles e)
            simp [retryFrom, hattempt, hleft]
          · simp [retryFrom, hattempt]
      | succ k =>
          obtain ⟨e, he⟩ := h.fails 0 (Nat.succ_pos k)
          have hlt := h.lt
          have hrest : Decides (fun j => attempt (i + 1 + j)) left k := by
            refine ⟨by omega, ?_, ?_⟩
            · intro j hj
              obtain ⟨e', he'⟩ := h.fails (j + 1) (by omega)
              exact ⟨e', by rw [← he']; congr 1; omega⟩
            · refine h.settles.imp (by omega) ?_
              intro hsettles e'
              have hat : i + 1 + k = i + (k + 1) := by omega
              rw [hat]
              exact hsettles e'
          rw [retryFrom, show attempt i = .error e from he]
          simp only [ih e hrest, if_neg (show left ≠ 0 by omega),
            List.range_succ_eq_map, List.map_cons, List.map_map, Nat.add_zero,
            Prod.mk.injEq, List.cons.injEq, true_and]
          constructor
          · apply List.map_congr_left
            intro j _
            exact congrArg pause (by simp; omega)
          · congr 1
            omega

theorem retry_eq {count k : ℕ} {none : ε} (h : Decides attempt count k) :
    retry attempt pause count none =
      ((List.range k).map pause, attempt k) := by
  have h' := @retryFrom_eq ε α attempt pause count 0 k none (by simpa using h)
  simpa [retry] using h'

/-- The pauses grow by one step from attempt to attempt. -/
theorem sum_pauses (step k : ℕ) :
    2 * ((List.range k).map fun i => step * (i + 1)).sum = step * k * (k + 1) := by
  induction k with
  | zero => simp
  | succ k ih =>
      rw [List.range_succ, List.map_append, List.sum_append, Nat.mul_add, ih]
      simp only [List.map_cons, List.map_nil, List.sum_cons, List.sum_nil]
      ring

end Foundation

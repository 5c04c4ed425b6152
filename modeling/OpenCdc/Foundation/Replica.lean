import OpenCdc.Foundation.Keyed
import Mathlib.Data.List.Induction
import Mathlib.Data.Multiset.MapFold
import Mathlib.Logic.Function.Basic

/-!
# Copies that follow a log

A source takes the steps of a log, and a copy takes steps of its own for the
same entries.  The copy follows the source if it shows the source's state after
every prefix of the log.

A copy that keeps the last write under every key also catches up with the
source from a state that was put together at different moments.
-/

namespace Foundation

universe u v w

/-! ## Step by step -/

section Follows

variable {σ : Type u} {τ : Type v} {ι : Type w}
variable {step : σ → ι → σ} {copyStep : τ → ι → τ} {shown : σ → τ}

theorem mem_of_split {log front behind : List ι} {entry : ι}
    (h : log = front ++ entry :: behind) : entry ∈ log := by
  rw [h]
  exact List.mem_append_right _ List.mem_cons_self

/-- After every prefix of the log the copy is what the source is shown as. -/
def Follows (step : σ → ι → σ) (copyStep : τ → ι → τ) (shown : σ → τ) (s : σ)
    (log : List ι) : Prop :=
  ∀ front, front <+: log →
    front.foldl copyStep (shown s) = shown (front.foldl step s)

/-- The copy follows exactly if it takes every step as the source does. -/
theorem follows_iff {s : σ} {log : List ι} :
    Follows step copyStep shown s log ↔
      ∀ front entry behind, log = front ++ entry :: behind →
        copyStep (shown (front.foldl step s)) entry =
          shown (step (front.foldl step s) entry) := by
  constructor
  · rintro hfollows front entry behind rfl
    have hbefore := hfollows front (List.prefix_append _ _)
    have hbehind := hfollows (front ++ [entry]) ⟨behind, by simp⟩
    rw [List.foldl_append, List.foldl_append, hbefore] at hbehind
    exact hbehind
  · intro hsteps front hfront
    obtain ⟨behind, rfl⟩ := hfront
    induction front using List.reverseRecOn generalizing behind with
    | nil => rfl
    | append_singleton front entry ih =>
        have hbefore := ih (entry :: behind) (by simpa using hsteps)
        rw [List.foldl_append, List.foldl_append, hbefore]
        exact hsteps front entry behind (by simp)

end Follows

/-! ## The last write under a key -/

section Keyed

variable {κ : Type u} {ν : Type v} [DecidableEq κ]

/-- A value is written under a key, or the key is taken away. -/
abbrev Write (κ : Type u) (ν : Type v) := κ × Option ν

def write (store : κ → Option ν) (entry : Write κ ν) : κ → Option ν :=
  Function.update store entry.1 entry.2

def replay (store : κ → Option ν) (log : List (Write κ ν)) : κ → Option ν :=
  log.foldl write store

theorem replay_append (store : κ → Option ν) (front back : List (Write κ ν)) :
    replay store (front ++ back) = replay (replay store front) back :=
  List.foldl_append

/-- A key shows its last write, or what it showed before. -/
theorem replay_apply (store : κ → Option ν) (log : List (Write κ ν)) (k : κ) :
    replay store log k =
      ((lastEntry Prod.fst k log).map Prod.snd).getD (store k) := by
  induction log using List.reverseRecOn with
  | nil => rfl
  | append_singleton log entry ih =>
      rw [replay_append, lastEntry_append_singleton]
      by_cases hkey : entry.1 = k
      · subst hkey
        simp [replay, write]
      · rw [if_neg hkey, ← ih]
        exact Function.update_of_ne (Ne.symm hkey) _ _

theorem lastEntry_append {key : Write κ ν → κ} {k : κ}
    (front back : List (Write κ ν)) :
    lastEntry key k (front ++ back) =
      (lastEntry key k back).or (lastEntry key k front) := by
  simp [lastEntry, List.find?_append]

/-- If every key shows some moment of the log, the log leads to where it leads
from its start. -/
theorem replay_eq_of_moments {start mixed : κ → Option ν}
    {log : List (Write κ ν)}
    (h : ∀ k, ∃ seen, seen <+: log ∧ mixed k = replay start seen k) :
    replay mixed log = replay start log := by
  funext k
  obtain ⟨seen, ⟨missed, rfl⟩, hmoment⟩ := h k
  rw [replay_apply mixed, hmoment, replay_apply start, replay_apply start,
    lastEntry_append]
  -- a write behind the moment decides, or else the moment itself does
  cases lastEntry Prod.fst k missed with
  | some entry => rfl
  | none =>
      cases lastEntry Prod.fst k seen with
      | some entry => rfl
      | none => rfl

/-! ## Stores of values with keys -/

variable {key : ν → κ} {store : κ → Option ν} {values : Multiset ν}

/-- The store has exactly these values, each under its key. -/
def Holds (key : ν → κ) (store : κ → Option ν) (values : Multiset ν) : Prop :=
  ∀ k v, store k = some v ↔ v ∈ values ∧ key v = k

omit [DecidableEq κ] in
/-- Stores with the same values under a key agree there. -/
theorem Holds.apply_eq {store' : κ → Option ν} {values' : Multiset ν}
    (h : Holds key store values) (h' : Holds key store' values') {k : κ}
    (hsame : ∀ v, key v = k → (v ∈ values ↔ v ∈ values')) :
    store k = store' k := by
  apply Option.ext
  intro v
  rw [h, h']
  exact and_congr_left fun hkey => hsame v hkey

theorem Holds.write_some (h : Holds key store values) {new : ν}
    (hdistinct : ((new ::ₘ values).map key).Nodup) :
    Holds key (write store (key new, some new)) (new ::ₘ values) := by
  have hfresh : key new ∉ values.map key := by
    rw [Multiset.map_cons] at hdistinct
    exact (Multiset.nodup_cons.mp hdistinct).1
  intro k v
  rw [Multiset.mem_cons, write]
  by_cases hk : k = key new
  · subst hk
    rw [Function.update_self, Option.some_inj]
    constructor
    · rintro rfl
      exact ⟨.inl rfl, rfl⟩
    · rintro ⟨rfl | hmem, hkey⟩
      · rfl
      · rw [← hkey] at hfresh
        exact absurd (Multiset.mem_map_of_mem key hmem) hfresh
  · rw [Function.update_of_ne hk, h]
    constructor
    · rintro ⟨hmem, hkey⟩
      exact ⟨.inr hmem, hkey⟩
    · rintro ⟨rfl | hmem, hkey⟩
      · exact absurd hkey.symm hk
      · exact ⟨hmem, hkey⟩

theorem Holds.write_none [DecidableEq ν] (h : Holds key store values) {old : ν}
    (hdistinct : (values.map key).Nodup) (hold : old ∈ values) :
    Holds key (write store (key old, none)) (values.erase old) := by
  obtain ⟨others, rfl⟩ := Multiset.exists_cons_of_mem hold
  have hfresh : key old ∉ others.map key := by
    rw [Multiset.map_cons] at hdistinct
    exact (Multiset.nodup_cons.mp hdistinct).1
  intro k v
  rw [Multiset.erase_cons_head, write]
  by_cases hk : k = key old
  · subst hk
    rw [Function.update_self]
    refine iff_of_false (by simp) ?_
    rintro ⟨hmem, hkey⟩
    rw [← hkey] at hfresh
    exact hfresh (Multiset.mem_map_of_mem key hmem)
  · rw [Function.update_of_ne hk, h, Multiset.mem_cons]
    constructor
    · rintro ⟨rfl | hmem, hkey⟩
      · exact absurd hkey.symm hk
      · exact ⟨hmem, hkey⟩
    · rintro ⟨hmem, hkey⟩
      exact ⟨.inr hmem, hkey⟩

/-- Writing values with different keys into an empty store. -/
theorem holds_replay {entries : List ν}
    (hdistinct : (entries.map key).Nodup) :
    Holds key
      (replay (fun _ => none) (entries.map fun v => (key v, some v)))
      (entries : Multiset ν) := by
  intro k v
  have hlast : lastEntry Prod.fst k (entries.map fun v => (key v, some v)) =
      (lastEntry key k entries).map fun v => (key v, some v) := by
    rw [lastEntry, lastEntry, ← List.map_reverse, List.find?_map]
    rfl
  rw [replay_apply, hlast, Multiset.mem_coe,
    ← lastEntry_eq_some_iff_of_nodup hdistinct]
  cases lastEntry key k entries <;> simp

theorem exists_holds (hdistinct : (values.map key).Nodup) :
    ∃ store, Holds key store values := by
  obtain ⟨entries, rfl⟩ := Quot.exists_rep values
  exact ⟨_, holds_replay (Multiset.coe_nodup.mp hdistinct)⟩

end Keyed
end Foundation

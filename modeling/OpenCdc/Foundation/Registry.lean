import Mathlib.Algebra.BigOperators.Group.List.Basic
import Mathlib.Algebra.GroupWithZero.Nat
import Mathlib.Data.List.AList
import Mathlib.Data.List.Induction
import OpenCdc.Foundation.Keyed

/-!
# Registries

A finite map whose entries are registered, changed in place and removed under
their keys, and the weight of all its entries together.
-/

namespace Foundation

universe u v

variable {κ : Type u} {α : Type v}

abbrev Registry (κ : Type u) (α : Type v) := AList fun _ : κ => α

namespace Registry

/-- Changes every entry. -/
def mapValues (f : α → α) (m : Registry κ α) : Registry κ α where
  entries := m.entries.map fun entry => ⟨entry.1, f entry.2⟩
  nodupKeys := by
    rw [List.NodupKeys, List.keys, List.map_map]
    exact m.nodupKeys

/-- The weights of the entries added up. -/
def total (weight : α → ℕ) (m : Registry κ α) : ℕ :=
  (m.entries.map fun entry => weight entry.2).sum

variable [DecidableEq κ]

/-- Adds an entry unless there is one under its key. -/
def register (key : κ) (a : α) (m : Registry κ α) : Registry κ α :=
  match m.lookup key with
  | some _ => m
  | none => m.insert key a

/-- Changes the entry under a key, if there is one. -/
def modify (key : κ) (f : α → α) (m : Registry κ α) : Registry κ α :=
  match m.lookup key with
  | some a => m.insert key (f a)
  | none => m

variable {m : Registry κ α} {key other : κ} {a b : α}

/-! ## Looking entries up -/

theorem lookup_insert_eq (key other : κ) (a : α) (m : Registry κ α) :
    (m.insert key a).lookup other =
      if other = key then some a else m.lookup other := by
  by_cases h : other = key
  · rw [if_pos h, h, AList.lookup_insert]
  · rw [if_neg h, AList.lookup_insert_ne h]

theorem lookup_erase_eq (key other : κ) (m : Registry κ α) :
    (m.erase key).lookup other =
      if other = key then none else m.lookup other := by
  by_cases h : other = key
  · rw [if_pos h, h, AList.lookup_erase]
  · rw [if_neg h, AList.lookup_erase_ne h]

theorem lookup_mapValues (f : α → α) (m : Registry κ α) (key : κ) :
    (mapValues f m).lookup key = (m.lookup key).map f :=
  List.dlookup_map₂ (f := fun _ a => f a) (l := m.entries) key

theorem lookup_register (key other : κ) (a : α) (m : Registry κ α) :
    (register key a m).lookup other =
      if other = key then some ((m.lookup key).getD a)
      else m.lookup other := by
  unfold register
  cases hkey : m.lookup key with
  | some b =>
      by_cases h : other = key
      · rw [if_pos h, h, hkey, Option.getD_some]
      · rw [if_neg h]
  | none => exact lookup_insert_eq key other a m

theorem lookup_modify (key other : κ) (f : α → α) (m : Registry κ α) :
    (modify key f m).lookup other =
      if other = key then (m.lookup key).map f else m.lookup other := by
  unfold modify
  cases hkey : m.lookup key with
  | some a => exact lookup_insert_eq key other (f a) m
  | none =>
      by_cases h : other = key
      · rw [if_pos h, h, hkey, Option.map_none]
      · rw [if_neg h]

theorem exists_lookup_of_ne_empty (h : m ≠ ∅) :
    ∃ key a, m.lookup key = some a := by
  cases hentries : m.entries with
  | nil => exact absurd (AList.ext hentries) h
  | cons entry entries =>
      refine ⟨entry.1, entry.2, ?_⟩
      rw [AList.lookup, hentries]
      exact List.dlookup_cons_eq _ _ _

/-! ## Registries of lists -/

/-- The entries of a list under their keys; the last one under a key stays. -/
def ofList (keyOf : α → κ) (xs : List α) : Registry κ α :=
  xs.foldl (fun m a => m.insert (keyOf a) a) ∅

theorem ofList_append_singleton (keyOf : α → κ) (xs : List α) (a : α) :
    ofList keyOf (xs ++ [a]) = (ofList keyOf xs).insert (keyOf a) a :=
  List.foldl_append

theorem lookup_ofList (keyOf : α → κ) (xs : List α) (key : κ) :
    (ofList keyOf xs).lookup key = lastEntry keyOf key xs := by
  induction xs using List.reverseRecOn with
  | nil => rfl
  | append_singleton xs a ih =>
      rw [ofList_append_singleton, lookup_insert_eq, lastEntry_append_singleton,
        ih]
      simp only [eq_comm]

/-! ## Weights -/

variable (weight : α → ℕ)

theorem total_erase (h : m.lookup key = some a) :
    total weight (m.erase key) + weight a = total weight m := by
  have hkey : key ∈ m.entries.keys := by
    rw [← List.dlookup_isSome]
    exact Option.isSome_of_eq_some h
  obtain ⟨b, front, back, hfresh, hentries, herase⟩ :=
    List.exists_of_kerase hkey
  have hlookup : m.entries.dlookup key = some b := by
    rw [hentries, List.dlookup_append,
      List.dlookup_eq_none.mpr hfresh, Option.none_or, List.dlookup_cons_eq]
  have hab : a = b := Option.some.inj (h.symm.trans hlookup)
  rw [total, total, hentries]
  change ((m.entries.kerase key).map _).sum + _ = _
  rw [herase, hab]
  simp only [List.map_append, List.sum_append, List.map_cons, List.sum_cons]
  omega

theorem total_erase_le (m : Registry κ α) (key : κ) :
    total weight (m.erase key) ≤ total weight m := by
  cases hkey : m.lookup key with
  | some a =>
      have herase := total_erase weight hkey
      omega
  | none =>
      have hfresh : key ∉ m.entries.keys := List.dlookup_eq_none.mp hkey
      rw [total]
      change ((m.entries.kerase key).map _).sum ≤ _
      rw [List.kerase_of_notMem_keys hfresh, total]

theorem total_insert (m : Registry κ α) (key : κ) (a : α) :
    total weight (m.insert key a) =
      weight a + total weight (m.erase key) := rfl

theorem total_insert_of_lookup (h : m.lookup key = some b) :
    total weight (m.insert key a) + weight b = total weight m + weight a := by
  have herase := total_erase weight h
  rw [total_insert]
  omega

theorem total_insert_le (m : Registry κ α) (key : κ) (a : α) :
    total weight (m.insert key a) ≤ total weight m + weight a := by
  have herase := total_erase_le weight m key
  rw [total_insert]
  omega

theorem total_insert_of_none (h : m.lookup key = none) :
    total weight (m.insert key a) = total weight m + weight a := by
  have hfresh : key ∉ m.entries.keys := List.dlookup_eq_none.mp h
  rw [total_insert, Nat.add_comm, total, total]
  change ((m.entries.kerase key).map _).sum + _ = _
  rw [List.kerase_of_notMem_keys hfresh]

variable {weight}

omit [DecidableEq κ] in
theorem total_mapValues {f : α → α} (h : ∀ a, weight (f a) = weight a)
    (m : Registry κ α) : total weight (mapValues f m) = total weight m := by
  simp [total, mapValues, Function.comp_def, h]

theorem total_modify {f : α → α} (h : ∀ a, weight (f a) = weight a)
    (m : Registry κ α) (key : κ) :
    total weight (modify key f m) = total weight m := by
  unfold modify
  cases hkey : m.lookup key with
  | none => rfl
  | some a =>
      have hinsert := total_insert_of_lookup weight (a := f a) hkey
      rw [h a] at hinsert
      exact Nat.add_right_cancel hinsert

/-- An entry that grows by at most an amount. -/
theorem total_modify_le {f : α → α} {amount : ℕ}
    (h : ∀ a, weight (f a) ≤ weight a + amount) (m : Registry κ α) (key : κ) :
    total weight (modify key f m) ≤ total weight m + amount := by
  unfold modify
  cases hkey : m.lookup key with
  | none => exact Nat.le_add_right _ _
  | some a =>
      have hinsert := total_insert_of_lookup weight (a := f a) hkey
      have ha := h a
      simp only
      omega

theorem total_register (h : weight a = 0) (m : Registry κ α) (key : κ) :
    total weight (register key a m) ≤ total weight m := by
  unfold register
  cases m.lookup key with
  | some b => exact Nat.le_refl _
  | none =>
      have hinsert := total_insert_le weight m key a
      rwa [h] at hinsert

end Registry
end Foundation

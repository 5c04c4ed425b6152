import Mathlib.Data.List.Nodup

/-!
# Logs of keyed entries

A log grows at its end.  A reader can look an entry up from the front, where it
finds the first entry written under a key, or from the back, where it finds the
last one.
-/

namespace Foundation

universe u v

variable {α : Type u} {κ : Type v}

/-- Lists with the same keys have the same images exactly if entries under one
key have the same image. -/
theorem map_eq_map_iff_of_map_key_eq {β : Type v} {key : α → κ} {f : α → β}
    {xs ys : List α} (hkeys : xs.map key = ys.map key)
    (hnodup : (xs.map key).Nodup) :
    xs.map f = ys.map f ↔
      ∀ x ∈ xs, ∀ y ∈ ys, key x = key y → f x = f y := by
  induction xs generalizing ys with
  | nil =>
      rw [List.map_eq_nil_iff.mp hkeys.symm]
      simp
  | cons x xs ih =>
      cases ys with
      | nil => simp at hkeys
      | cons y ys =>
          obtain ⟨hkey, hrest⟩ := List.cons.inj hkeys
          obtain ⟨hfresh, hnodup⟩ := List.nodup_cons.mp hnodup
          have hiff := ih hrest hnodup
          rw [List.map_cons, List.map_cons, List.cons.injEq, hiff]
          constructor
          · rintro ⟨hhead, htail⟩ x' hx' y' hy' hkey'
            rcases List.mem_cons.mp hx' with rfl | hx' <;>
              rcases List.mem_cons.mp hy' with rfl | hy'
            · exact hhead
            · rw [hrest, hkey'] at hfresh
              exact absurd (List.mem_map_of_mem hy') hfresh
            · rw [hkey, ← hkey'] at hfresh
              exact absurd (List.mem_map_of_mem hx') hfresh
            · exact htail x' hx' y' hy' hkey'
          · intro h
            refine ⟨h x List.mem_cons_self y List.mem_cons_self hkey, ?_⟩
            intro x' hx' y' hy'
            exact h x' (List.mem_cons_of_mem _ hx') y'
              (List.mem_cons_of_mem _ hy')

variable [DecidableEq κ]

/-- The first entry under `k`. -/
def firstEntry (key : α → κ) (k : κ) (log : List α) : Option α :=
  log.find? fun entry => key entry = k

/-- The last entry under `k`. -/
def lastEntry (key : α → κ) (k : κ) (log : List α) : Option α :=
  log.reverse.find? fun entry => key entry = k

theorem exists_firstEntry (key : α → κ) {log : List α} {a : α}
    (ha : a ∈ log) : ∃ b, firstEntry key (key a) log = some b := by
  cases hfound : firstEntry key (key a) log with
  | some b => exact ⟨b, rfl⟩
  | none =>
      have hnone := List.find?_eq_none.mp hfound a ha
      exact absurd (decide_eq_true rfl) hnone

/-- An entry that is found stays the first one when the log grows. -/
theorem firstEntry_of_isPrefix {key : α → κ} {k : κ} {pre log : List α}
    {a : α} (hpre : pre <+: log) (ha : firstEntry key k pre = some a) :
    firstEntry key k log = some a := by
  obtain ⟨post, rfl⟩ := hpre
  unfold firstEntry at ha ⊢
  rw [List.find?_append, ha, Option.some_or]

theorem lastEntry_append_singleton (key : α → κ) (k : κ) (log : List α)
    (a : α) :
    lastEntry key k (log ++ [a]) =
      if key a = k then some a else lastEntry key k log := by
  by_cases hk : key a = k
  · simp [lastEntry, hk]
  · simp [lastEntry, hk]

theorem mem_of_lastEntry {key : α → κ} {k : κ} {log : List α} {a : α}
    (h : lastEntry key k log = some a) : a ∈ log ∧ key a = k :=
  ⟨List.mem_reverse.mp (List.mem_of_find?_eq_some h),
    by simpa using List.find?_some h⟩

theorem exists_lastEntry {key : α → κ} {k : κ} {log : List α}
    (h : k ∈ log.map key) : ∃ a, lastEntry key k log = some a := by
  obtain ⟨a, ha, rfl⟩ := List.mem_map.mp h
  exact Option.isSome_iff_exists.mp (List.find?_isSome.mpr
    ⟨a, List.mem_reverse.mpr ha, decide_eq_true rfl⟩)

/-- Under keys that occur once there is no other entry. -/
theorem lastEntry_eq_some_iff_of_nodup {key : α → κ} {k : κ} {log : List α}
    (hnodup : (log.map key).Nodup) {a : α} :
    lastEntry key k log = some a ↔ a ∈ log ∧ key a = k := by
  constructor
  · exact mem_of_lastEntry
  · rintro ⟨ha, rfl⟩
    obtain ⟨b, hb⟩ := exists_lastEntry (List.mem_map_of_mem (f := key) ha)
    obtain ⟨hmem, hkey⟩ := mem_of_lastEntry hb
    rw [hb, List.inj_on_of_nodup_map hnodup hmem ha hkey]

/-- The prefixes of a filtered list are the filtered prefixes. -/
theorem forall_prefix_filterMap {β : Type v} {f : β → Option α} {xs : List β}
    {P : List α → Prop} :
    (∀ pre, pre <+: xs → P (pre.filterMap f)) ↔
      ∀ pre, pre <+: xs.filterMap f → P pre := by
  constructor
  · intro h pre hpre
    obtain ⟨pre', hpre', heq⟩ := List.prefix_filterMap_iff.mp hpre
    rw [heq]
    exact h pre' hpre'
  · intro h pre hpre
    exact h _ (hpre.filterMap f)

/-- The two lookups agree at every moment of a log's growth exactly when no key
is ever written with two different entries. -/
theorem firstEntry_eq_lastEntry_iff {key : α → κ} {log : List α} :
    (∀ pre, pre <+: log → ∀ k, firstEntry key k pre = lastEntry key k pre) ↔
      ∀ a ∈ log, ∀ b ∈ log, key a = key b → a = b := by
  constructor
  · intro hagree
    have hfirst : ∀ a ∈ log, firstEntry key (key a) log = some a := by
      intro a ha
      obtain ⟨pre, post, rfl⟩ := List.append_of_mem ha
      have hpre : pre ++ [a] <+: pre ++ a :: post := ⟨post, by simp⟩
      apply firstEntry_of_isPrefix hpre
      rw [hagree _ hpre, lastEntry_append_singleton, if_pos rfl]
    intro a ha b hb hkey
    have hsame := hfirst b hb
    rw [← hkey, hfirst a ha] at hsame
    exact Option.some_inj.mp hsame
  · intro hunique pre hpre k
    cases hfirst : firstEntry key k pre with
    | none =>
        have hnone := List.find?_eq_none.mp hfirst
        refine (List.find?_eq_none.mpr ?_).symm
        intro b hb
        exact hnone b (List.mem_reverse.mp hb)
    | some a =>
        have ha := List.mem_of_find?_eq_some hfirst
        have hka : key a = k := by simpa using List.find?_some hfirst
        cases hlast : lastEntry key k pre with
        | none =>
            have hnone := List.find?_eq_none.mp hlast
            exact absurd hka (by simpa using hnone a (by simpa using ha))
        | some b =>
            have hb : b ∈ pre := by
              simpa using List.mem_of_find?_eq_some hlast
            have hkb : key b = k := by simpa using List.find?_some hlast
            rw [hunique a (hpre.subset ha) b (hpre.subset hb)
              (hka.trans hkb.symm)]

end Foundation

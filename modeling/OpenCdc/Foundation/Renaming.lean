import Mathlib.Data.List.Perm.Basic

/-!
# Rules for names

A list of rules, each from one name to another, is applied rule by rule to a
changing name.  Each name goes to its own target, in whatever order the rules
stand, exactly if no rule changes the target of another.
-/

namespace Foundation

variable {α : Type*} [DecidableEq α]

/-- Every rule in turn is applied to what the rules before it have made. -/
def applyRules : List (α × α) → α → α
  | [], name => name
  | rule :: rules, name =>
      applyRules rules (if name = rule.1 then rule.2 else name)

/-- The target of the rule for a name, the name itself without one. -/
def targetOf (rules : List (α × α)) (name : α) : α :=
  (rules.lookup name).getD name

/-- No rule changes the target of a rule. -/
def Settled (rules : List (α × α)) : Prop :=
  ∀ rule ∈ rules, ∀ next ∈ rules, next.1 = rule.2 → next.2 = rule.2

theorem applyRules_append (front back : List (α × α)) (name : α) :
    applyRules (front ++ back) name =
      applyRules back (applyRules front name) := by
  induction front generalizing name with
  | nil => rfl
  | cons rule front ih => exact ih _

/-- The same loop over the name that is a part of something larger. -/
theorem foldl_eq_set_applyRules {β : Type*} (get : β → α) (set : β → α → β)
    (hget : ∀ b name, get (set b name) = name)
    (hset : ∀ b name name', set (set b name) name' = set b name')
    (hself : ∀ b, set b (get b) = b) (rules : List (α × α)) (b : β) :
    rules.foldl
        (fun b rule => if get b = rule.1 then set b rule.2 else b) b =
      set b (applyRules rules (get b)) := by
  induction rules generalizing b with
  | nil => exact (hself b).symm
  | cons rule rules ih =>
      rw [List.foldl_cons, ih, applyRules]
      split_ifs with hname
      · rw [hget, hset]
      · rfl

/-- A name that every rule for it keeps is kept. -/
theorem applyRules_eq_self {rules : List (α × α)} {name : α}
    (h : ∀ rule ∈ rules, rule.1 = name → rule.2 = name) :
    applyRules rules name = name := by
  induction rules with
  | nil => rfl
  | cons rule rules ih =>
      obtain ⟨hrule, hrules⟩ := List.forall_mem_cons.mp h
      rw [applyRules]
      split_ifs with hname
      · rw [hrule hname.symm]
        exact ih hrules
      · exact ih hrules

theorem targetOf_cons (rule : α × α) (rules : List (α × α)) (name : α) :
    targetOf (rule :: rules) name =
      if name = rule.1 then rule.2 else targetOf rules name := by
  unfold targetOf
  by_cases hname : name = rule.1
  · rw [if_pos hname, List.lookup_cons, beq_iff_eq.mpr hname]
    rfl
  · rw [if_neg hname, List.lookup_cons, beq_eq_false_iff_ne.mpr hname]

theorem applyRules_eq_targetOf {rules : List (α × α)} (h : Settled rules)
    (name : α) : applyRules rules name = targetOf rules name := by
  induction rules with
  | nil => rfl
  | cons rule rules ih =>
      have hrules : Settled rules := fun first hfirst next hnext =>
        h first (List.mem_cons_of_mem _ hfirst) next
          (List.mem_cons_of_mem _ hnext)
      rw [applyRules, targetOf_cons]
      split_ifs with hname
      · apply applyRules_eq_self
        intro next hnext
        exact h rule List.mem_cons_self next (List.mem_cons_of_mem _ hnext)
      · exact ih hrules

/-- With different names in front, the target is that of any rule for the
name. -/
theorem targetOf_eq_of_mem {rules : List (α × α)}
    (hnodup : (rules.map Prod.fst).Nodup) {rule : α × α}
    (hmem : rule ∈ rules) : targetOf rules rule.1 = rule.2 := by
  induction rules with
  | nil => cases hmem
  | cons first rules ih =>
      rw [List.map_cons, List.nodup_cons] at hnodup
      rw [targetOf_cons]
      rcases List.mem_cons.mp hmem with rfl | hmem
      · rw [if_pos rfl]
      · have hne : rule.1 ≠ first.1 := by
          intro heq
          apply hnodup.1
          rw [← heq]
          exact List.mem_map_of_mem hmem
        rw [if_neg hne, ih hnodup.2 hmem]

theorem targetOf_eq_self {rules : List (α × α)} {name : α}
    (h : name ∉ rules.map Prod.fst) : targetOf rules name = name := by
  induction rules with
  | nil => rfl
  | cons rule rules ih =>
      rw [List.map_cons, List.mem_cons, not_or] at h
      rw [targetOf_cons, if_neg h.1, ih h.2]

theorem targetOf_perm {rules rules' : List (α × α)}
    (hnodup : (rules.map Prod.fst).Nodup) (h : rules.Perm rules') (name : α) :
    targetOf rules' name = targetOf rules name := by
  have hkeys : (rules.map Prod.fst).Perm (rules'.map Prod.fst) := h.map _
  by_cases hname : name ∈ rules.map Prod.fst
  · obtain ⟨rule, hmem, rfl⟩ := List.mem_map.mp hname
    rw [targetOf_eq_of_mem hnodup hmem,
      targetOf_eq_of_mem (hkeys.nodup hnodup) (h.mem_iff.mp hmem)]
  · rw [targetOf_eq_self hname,
      targetOf_eq_self fun hmem => hname (hkeys.mem_iff.mpr hmem)]

omit [DecidableEq α] in
theorem Settled.perm {rules rules' : List (α × α)} (h : Settled rules)
    (hperm : rules.Perm rules') : Settled rules' := fun first hfirst next hnext =>
  h first (hperm.mem_iff.mpr hfirst) next (hperm.mem_iff.mpr hnext)

/-- Of two rules in a chain, the second one comes to act or not as they are
ordered. -/
theorem settled_of_applyRules_perm {rules : List (α × α)}
    (hnodup : (rules.map Prod.fst).Nodup)
    (h : ∀ rules', rules.Perm rules' → ∀ name,
      applyRules rules' name = applyRules rules name) :
    Settled rules := by
  intro rule hrule next hnext hchain
  by_contra hchanged
  have hne : next ≠ rule := by
    rintro rfl
    exact hchanged rfl
  have hnames : rule.1 ≠ next.1 := by
    intro heq
    have htarget := targetOf_eq_of_mem hnodup hnext
    rw [← heq, targetOf_eq_of_mem hnodup hrule] at htarget
    exact hchanged htarget.symm
  obtain ⟨others, hothers⟩ : ∃ others, rules.Perm (rule :: next :: others) := by
    have hfirst := List.perm_cons_erase hrule
    have hsecond := List.perm_cons_erase
      ((List.mem_erase_of_ne hne).mpr hnext)
    exact ⟨_, hfirst.trans (hsecond.cons rule)⟩
  have hfresh : applyRules others rule.1 = rule.1 := by
    have hkeys := (hothers.map Prod.fst).nodup hnodup
    simp only [List.map_cons, List.nodup_cons, List.mem_cons, not_or] at hkeys
    apply applyRules_eq_self
    intro other hmem heq
    exact absurd (List.mem_map.mpr ⟨other, hmem, heq⟩) hkeys.1.2
  have hforward : applyRules (others ++ [rule, next]) rule.1 = next.2 := by
    rw [applyRules_append, hfresh]
    simp [applyRules, hchain]
  have hbackward : applyRules (others ++ [next, rule]) rule.1 = rule.2 := by
    rw [applyRules_append, hfresh]
    simp [applyRules, hnames]
  have hmoved : ([rule, next] ++ others).Perm (others ++ [rule, next]) :=
    List.perm_append_comm
  have hperm : rules.Perm (others ++ [rule, next]) := hothers.trans hmoved
  have hperm' : rules.Perm (others ++ [next, rule]) :=
    hperm.trans ((List.Perm.swap next rule []).append_left others)
  rw [h _ hperm] at hforward
  rw [h _ hperm'] at hbackward
  exact hchanged (hforward.symm.trans hbackward)

/-- Names go to their targets, and no order of the rules makes a difference. -/
theorem settled_iff {rules : List (α × α)}
    (hnodup : (rules.map Prod.fst).Nodup) :
    ((∀ name, applyRules rules name = targetOf rules name) ∧
        ∀ rules', rules.Perm rules' → ∀ name,
          applyRules rules' name = applyRules rules name) ↔
      Settled rules := by
  constructor
  · rintro ⟨-, horder⟩
    exact settled_of_applyRules_perm hnodup horder
  · intro h
    refine ⟨applyRules_eq_targetOf h, fun rules' hperm name => ?_⟩
    rw [applyRules_eq_targetOf (h.perm hperm), targetOf_perm hnodup hperm,
      applyRules_eq_targetOf h]

end Foundation

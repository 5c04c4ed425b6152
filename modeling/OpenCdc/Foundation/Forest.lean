import Mathlib.Algebra.Order.BigOperators.Group.List
import Mathlib.Algebra.Order.Group.Nat
import Mathlib.Logic.Relation

/-!
# Forests that are compared at every depth

A forest is a list of nodes with children below them.  Two forests agree at
every depth if and only if no path leads to two different rows of labels.  What
a node and its children decide is a property of all nodes that are reached.
-/

namespace Foundation.Forest

universe u v

variable {α : Type u} {β : Type v}
variable (children : α → List α) (label : α → β) (opens : α → Bool)

/-- The nodes have the same labels, and what is below two open nodes agrees
again. -/
inductive Agree : List α → List α → Prop
  | nil : Agree [] []
  | cons {a b : α} {as bs : List α} (hlabel : label a = label b)
      (hbelow : opens a = true → opens b = true →
        Agree (children a) (children b))
      (hrest : Agree as bs) : Agree (a :: as) (b :: bs)

/-- The nodes below the end of a path of positions through open nodes. -/
def descend (forest : List α) : List ℕ → Option (List α)
  | [] => some forest
  | i :: path =>
      match forest[i]? with
      | some a => if opens a then descend (children a) path else none
      | none => none

/-- A path leads to different labels. -/
def DiffersBelow (as bs : List α) (path : List ℕ) : Prop :=
  ∃ as' bs', descend children opens as path = some as' ∧
    descend children opens bs path = some bs' ∧ as'.map label ≠ bs'.map label

variable {children} {label} {opens} {as bs : List α}

theorem Agree.map_label (h : Agree children label opens as bs) :
    as.map label = bs.map label := by
  induction h with
  | nil => rfl
  | cons hlabel _ _ _ ih => rw [List.map_cons, List.map_cons, hlabel, ih]

theorem Agree.children_of_getElem? (h : Agree children label opens as bs)
    {i : ℕ} {a b : α} (ha : as[i]? = some a) (hb : bs[i]? = some b)
    (hopenA : opens a = true) (hopenB : opens b = true) :
    Agree children label opens (children a) (children b) := by
  induction h generalizing i with
  | nil => simp at ha
  | cons _ hbelow _ _ ih =>
      cases i with
      | zero =>
          simp only [List.getElem?_cons_zero, Option.some.injEq] at ha hb
          subst ha hb
          exact hbelow hopenA hopenB
      | succ i => exact ih (by simpa using ha) (by simpa using hb)

theorem Agree.not_differsBelow (h : Agree children label opens as bs)
    (path : List ℕ) : ¬DiffersBelow children label opens as bs path := by
  rintro ⟨as', bs', has, hbs, hne⟩
  induction path generalizing as bs with
  | nil =>
      cases has
      cases hbs
      exact hne h.map_label
  | cons i path ih =>
      simp only [descend] at has hbs
      split at has
      · rename_i a ha
        split at hbs
        · rename_i b hb
          split_ifs at has hbs with hopenA hopenB
          exact ih (h.children_of_getElem? ha hb hopenA hopenB) has hbs
        · cases hbs
      · cases has

/-! ## Differences of a forest from those of its parts -/

theorem map_label_of_not_differsBelow
    (h : ¬DiffersBelow children label opens as bs []) :
    as.map label = bs.map label := by
  by_contra hne
  exact h ⟨as, bs, rfl, rfl, hne⟩

theorem DiffersBelow.of_children {a b : α} {path : List ℕ}
    (h : DiffersBelow children label opens (children a) (children b) path)
    (hopenA : opens a = true) (hopenB : opens b = true) :
    DiffersBelow children label opens (a :: as) (b :: bs) (0 :: path) := by
  obtain ⟨as', bs', has, hbs, hne⟩ := h
  exact ⟨as', bs', by simp [descend, hopenA, has],
    by simp [descend, hopenB, hbs], hne⟩

theorem DiffersBelow.of_tail {a b : α} {path : List ℕ}
    (h : DiffersBelow children label opens as bs path) :
    ∃ path', DiffersBelow children label opens (a :: as) (b :: bs) path' := by
  obtain ⟨as', bs', has, hbs, hne⟩ := h
  cases path with
  | nil =>
      cases has
      cases hbs
      refine ⟨[], a :: as, b :: bs, rfl, rfl, ?_⟩
      intro heq
      exact hne (List.cons.inj heq).2
  | cons i path =>
      exact ⟨(i + 1) :: path, as', bs', by simpa [descend] using has,
        by simpa [descend] using hbs, hne⟩

/-- Where every child is smaller than its node, forests of small nodes that do
not differ along any path agree. -/
theorem agree_of_size_lt {size : α → ℕ}
    (hsize : ∀ a, ∀ b ∈ children a, size b < size a) (n : ℕ) (as bs : List α)
    (hsmall : ∀ a ∈ as, size a < n)
    (h : ∀ path, ¬DiffersBelow children label opens as bs path) :
    Agree children label opens as bs := by
  induction n generalizing as bs with
  | zero =>
      have hnil : as = [] := List.eq_nil_iff_forall_not_mem.mpr
        fun a ha => Nat.not_lt_zero _ (hsmall a ha)
      have hlabels := map_label_of_not_differsBelow (h [])
      rw [hnil] at hlabels ⊢
      rw [List.map_eq_nil_iff.mp hlabels.symm]
      exact .nil
  | succ n ih =>
      induction as generalizing bs with
      | nil =>
          have hlabels := map_label_of_not_differsBelow (h [])
          rw [List.map_eq_nil_iff.mp hlabels.symm]
          exact .nil
      | cons a as ihTail =>
          have hlabels := map_label_of_not_differsBelow (h [])
          cases bs with
          | nil => simp at hlabels
          | cons b bs =>
              apply Agree.cons (List.cons.inj hlabels).1
              · intro hopenA hopenB
                apply ih
                · intro child hchild
                  have hlt := hsize a child hchild
                  have hroot := hsmall a List.mem_cons_self
                  omega
                · intro path hdiffers
                  exact h _ (hdiffers.of_children hopenA hopenB)
              · apply ihTail
                · exact fun child hchild =>
                    hsmall child (List.mem_cons_of_mem _ hchild)
                · intro path hdiffers
                  obtain ⟨path', hdiffers'⟩ := hdiffers.of_tail (a := a) (b := b)
                  exact h path' hdiffers'

theorem agree_of_not_differsBelow {size : α → ℕ}
    (hsize : ∀ a, ∀ b ∈ children a, size b < size a)
    (h : ∀ path, ¬DiffersBelow children label opens as bs path) :
    Agree children label opens as bs := by
  apply agree_of_size_lt hsize ((as.map size).sum + 1) as bs _ h
  intro a ha
  exact Nat.lt_succ_of_le
    (List.single_le_sum (by simp) _ (List.mem_map_of_mem ha))

theorem agree_iff {size : α → ℕ}
    (hsize : ∀ a, ∀ b ∈ children a, size b < size a) :
    Agree children label opens as bs ↔
      ∀ path, ¬DiffersBelow children label opens as bs path :=
  ⟨fun h path => h.not_differsBelow path, agree_of_not_differsBelow hsize⟩

/-! ## Reached nodes -/

variable (children) (opens) in
/-- The second node is the first one or lies below it, under open nodes
only. -/
def Reaches : α → α → Prop :=
  Relation.ReflTransGen fun a b => opens a = true ∧ b ∈ children a

theorem reaches_refl (a : α) : Reaches children opens a a :=
  Relation.ReflTransGen.refl

theorem reaches_iff {a b : α} :
    Reaches children opens a b ↔
      a = b ∨ opens a = true ∧ ∃ c ∈ children a,
        Reaches children opens c b := by
  constructor
  · intro h
    rcases Relation.ReflTransGen.cases_head h with heq | ⟨c, hc, hrest⟩
    · exact .inl heq
    · exact .inr ⟨hc.1, c, hc.2, hrest⟩
  · rintro (rfl | ⟨hopen, c, hc, hrest⟩)
    · exact reaches_refl a
    · exact Relation.ReflTransGen.head ⟨hopen, hc⟩ hrest

/-- A property that a node has if it passes a check of its own and its children
have the property: every node that is reached passes the check. -/
theorem iff_forall_reaches {size : α → ℕ}
    (hsize : ∀ a, ∀ b ∈ children a, size b < size a) {P Q : α → Prop}
    (hstep : ∀ a, P a ↔ Q a ∧ (opens a = true → ∀ c ∈ children a, P c))
    (a : α) : P a ↔ ∀ b, Reaches children opens a b → Q b := by
  induction hn : size a using Nat.strong_induction_on generalizing a with
  | _ n ih =>
      have hbelow : ∀ c ∈ children a,
          (P c ↔ ∀ b, Reaches children opens c b → Q b) := by
        intro c hc
        exact ih (size c) (hn ▸ hsize a c hc) c rfl
      rw [hstep a]
      constructor
      · rintro ⟨hroot, hchildren⟩ b hb
        rcases reaches_iff.mp hb with rfl | ⟨hopen, c, hc, hrest⟩
        · exact hroot
        · exact (hbelow c hc).mp (hchildren hopen c hc) b hrest
      · intro h
        refine ⟨h a (reaches_refl a), ?_⟩
        intro hopen c hc
        apply (hbelow c hc).mpr
        intro b hb
        exact h b (reaches_iff.mpr (.inr ⟨hopen, c, hc, hb⟩))

end Foundation.Forest

import Mathlib.Data.List.Basic

/-!
# Reading batches of inputs with a parser that remembers

Inputs arrive in batches.  A reader hands the inputs of a batch to a parser and
returns at the first one that is not passed over; what is left of the batch is
lost, and so is a batch that the reader skips.  The parser remembers some of
the inputs it delivered, so a loss can change what it makes of later inputs.
The main result says when a reader delivers just what the parser would deliver
from all inputs.
-/

namespace Foundation

/-- What a parser makes of one input. -/
inductive Verdict (Y : Type) where
  | passed
  | delivered (y : Y)
  | rejected
  | panicked

namespace Verdict

variable {Y : Type}

def toList : Verdict Y → List Y
  | delivered y => [y]
  | _ => []

end Verdict

/-- The verdict on an input and the memory after it. -/
abbrev Parser (S E Y : Type) := S → E → Verdict Y × S

/-- A batch of inputs, and whether the reader skips it. -/
structure Batch (E : Type) where
  skipped : Bool
  inputs : List E

namespace Parser

variable {S E Y : Type}

/-! ## All inputs, and the inputs a reader reads -/

/-- Everything that the parser delivers from the inputs, and its memory
afterwards. -/
def all (parse : Parser S E Y) (s : S) : List E → List Y × S
  | [] => ([], s)
  | e :: es =>
      let (verdict, s') := parse s e
      let (ys, final) := all parse s' es
      (verdict.toList ++ ys, final)

/-- The first verdict that is not `passed`, the memory after it, and the inputs
behind it. -/
def first (parse : Parser S E Y) (s : S) :
    List E → Verdict Y × S × List E
  | [] => (.passed, s, [])
  | e :: es =>
      match parse s e with
      | (.passed, s') => first parse s' es
      | (verdict, s') => (verdict, s', es)

/-- What the reader makes of a batch, and the inputs of the batch that are
lost. -/
def readBatch (parse : Parser S E Y) (s : S) (b : Batch E) :
    Verdict Y × S × List E :=
  if b.skipped then (.passed, s, b.inputs) else first parse s b.inputs

/-- What the reader delivers from the batches; a panic ends it. -/
def read (parse : Parser S E Y) (s : S) : List (Batch E) → List Y
  | [] => []
  | b :: batches =>
      match readBatch parse s b with
      | (.panicked, _, _) => []
      | (verdict, s', _) => verdict.toList ++ read parse s' batches

/-- The inputs of all batches. -/
def inputsOf (batches : List (Batch E)) : List E := batches.flatMap (·.inputs)

/-- Nothing is delivered from the inputs. -/
def Quiet (parse : Parser S E Y) (s : S) (es : List E) : Prop :=
  (all parse s es).1 = []

/-- Nothing deliverable is lost: not in a skipped batch, not behind the first
input of a batch that is not passed over, and not after a panic. -/
def Complete (parse : Parser S E Y) (s : S) : List (Batch E) → Prop
  | [] => True
  | b :: batches =>
      let (verdict, s', lost) := readBatch parse s b
      Quiet parse s' lost ∧
        (verdict = .panicked → Quiet parse s' (inputsOf batches)) ∧
        Complete parse s' batches

/-- The memory changes only with the deliveries marked by `mark`, and these do
not depend on the memory. -/
structure Remembers (parse : Parser S E Y) (mark : Y → Bool) : Prop where
  unmarked : ∀ s e, (∀ y, (parse s e).1 = .delivered y → mark y = false) →
    (parse s e).2 = s
  marked : ∀ s e y, (parse s e).1 = .delivered y → mark y = true →
    ∀ s', (parse s' e).1 = .delivered y

/-! ## What is made of all inputs -/

theorem all_append (parse : Parser S E Y) (s : S) (xs ys : List E) :
    all parse s (xs ++ ys) =
      ((all parse s xs).1 ++ (all parse (all parse s xs).2 ys).1,
        (all parse (all parse s xs).2 ys).2) := by
  induction xs generalizing s with
  | nil => rfl
  | cons x xs ih => simp [all, ih]

/-- The first verdict and what is delivered behind it make up everything. -/
theorem all_eq_first (parse : Parser S E Y) (s : S) (es : List E) :
    all parse s es =
      ((first parse s es).1.toList ++
          (all parse (first parse s es).2.1 (first parse s es).2.2).1,
        (all parse (first parse s es).2.1 (first parse s es).2.2).2) := by
  induction es generalizing s with
  | nil => rfl
  | cons e es ih =>
      rcases hparse : parse s e with ⟨verdict, s'⟩
      cases verdict with
      | passed =>
          have hall : all parse s (e :: es) = all parse s' es := by
            simp [all, hparse, Verdict.toList]
          have hfirst : first parse s (e :: es) = first parse s' es := by
            simp [first, hparse]
          rw [hall, hfirst]
          exact ih s'
      | delivered y => simp [all, first, hparse]
      | rejected => simp [all, first, hparse]
      | panicked => simp [all, first, hparse]

/-- The verdict on a batch and what is lost of it make up everything. -/
theorem all_eq_readBatch (parse : Parser S E Y) (s : S) (b : Batch E) :
    all parse s b.inputs =
      ((readBatch parse s b).1.toList ++
          (all parse (readBatch parse s b).2.1 (readBatch parse s b).2.2).1,
        (all parse (readBatch parse s b).2.1
          (readBatch parse s b).2.2).2) := by
  unfold readBatch
  by_cases hskip : b.skipped
  · simp [hskip, Verdict.toList]
  · rw [if_neg hskip]
    exact all_eq_first parse s b.inputs

theorem read_cons_of_panicked {parse : Parser S E Y} {s : S} {b : Batch E}
    {batches : List (Batch E)} (hstop : (readBatch parse s b).1 = .panicked) :
    read parse s (b :: batches) = [] := by
  rw [read]
  rcases hbatch : readBatch parse s b with ⟨verdict, s', lost⟩
  rw [hbatch] at hstop
  have hverdict : verdict = .panicked := hstop
  simp [hverdict]

theorem read_cons_of_not_panicked {parse : Parser S E Y} {s : S}
    {b : Batch E} {batches : List (Batch E)}
    (hstop : (readBatch parse s b).1 ≠ .panicked) :
    read parse s (b :: batches) =
      (readBatch parse s b).1.toList ++
        read parse (readBatch parse s b).2.1 batches := by
  rw [read]
  rcases hbatch : readBatch parse s b with ⟨verdict, s', lost⟩
  rw [hbatch] at hstop
  cases verdict with
  | panicked => exact absurd rfl hstop
  | passed => rfl
  | delivered y => rfl
  | rejected => rfl

theorem complete_cons (parse : Parser S E Y) (s : S) (b : Batch E)
    (batches : List (Batch E)) :
    Complete parse s (b :: batches) ↔
      Quiet parse (readBatch parse s b).2.1 (readBatch parse s b).2.2 ∧
        ((readBatch parse s b).1 = .panicked →
          Quiet parse (readBatch parse s b).2.1 (inputsOf batches)) ∧
        Complete parse (readBatch parse s b).2.1 batches :=
  Iff.rfl

theorem inputsOf_cons (b : Batch E) (batches : List (Batch E)) :
    inputsOf (b :: batches) = b.inputs ++ inputsOf batches :=
  rfl

variable {parse : Parser S E Y} {mark : Y → Bool}

theorem all_state_of_unmarked (h : Remembers parse mark) {s : S} {es : List E}
    (hes : ∀ y ∈ (all parse s es).1, mark y = false) :
    (all parse s es).2 = s := by
  induction es generalizing s with
  | nil => rfl
  | cons e es ih =>
      have hhead : (parse s e).2 = s := by
        apply h.unmarked
        intro y hy
        apply hes
        simp [all, hy, Verdict.toList]
      have htail : ∀ y ∈ (all parse s es).1, mark y = false := by
        intro y hy
        apply hes
        simp [all, hhead, hy]
      have hrest := ih htail
      simpa [all, hhead] using hrest

theorem all_state_of_quiet (h : Remembers parse mark) {s : S} {es : List E}
    (hes : Quiet parse s es) : (all parse s es).2 = s := by
  apply all_state_of_unmarked h
  rw [hes]
  simp

theorem quiet_append (h : Remembers parse mark) {s : S} {xs ys : List E} :
    Quiet parse s (xs ++ ys) ↔ Quiet parse s xs ∧ Quiet parse s ys := by
  unfold Quiet
  rw [all_append, List.append_eq_nil_iff]
  apply and_congr_right
  intro hxs
  rw [all_state_of_quiet h hxs]

/-! ## Complete reading -/

/-- Where nothing is delivered, nothing is lost. -/
theorem complete_of_quiet (h : Remembers parse mark) {s : S}
    {batches : List (Batch E)} (hquiet : Quiet parse s (inputsOf batches)) :
    Complete parse s batches := by
  induction batches generalizing s with
  | nil => exact trivial
  | cons b batches ih =>
      have hsplit : Quiet parse s b.inputs ∧ Quiet parse s (inputsOf batches) :=
        (quiet_append h).mp hquiet
      obtain ⟨hb, hbatches⟩ := hsplit
      have hstate := all_state_of_quiet h hb
      have hb' := hb
      unfold Quiet at hb'
      rw [all_eq_readBatch, List.append_eq_nil_iff] at hb'
      have hlost : Quiet parse (readBatch parse s b).2.1
          (readBatch parse s b).2.2 := hb'.2
      have hsame : (readBatch parse s b).2.1 = s := by
        rw [all_eq_readBatch] at hstate
        exact (all_state_of_quiet h hlost).symm.trans hstate
      rw [complete_cons]
      refine ⟨hlost, ?_, ?_⟩
      · intro _
        rw [hsame]
        exact hbatches
      · rw [hsame]
        exact ih hbatches

/-- A reader that loses nothing deliverable delivers everything. -/
theorem read_eq_of_complete (h : Remembers parse mark) {s : S}
    {batches : List (Batch E)} (hcomplete : Complete parse s batches) :
    read parse s batches = (all parse s (inputsOf batches)).1 := by
  induction batches generalizing s with
  | nil => rfl
  | cons b batches ih =>
      rw [complete_cons] at hcomplete
      obtain ⟨hlost, hpanic, hrest⟩ := hcomplete
      have hall : (all parse s (inputsOf (b :: batches))).1 =
          (readBatch parse s b).1.toList ++
            (all parse (readBatch parse s b).2.1 (inputsOf batches)).1 := by
        have hstate := all_state_of_quiet h hlost
        unfold Quiet at hlost
        rw [inputsOf_cons, all_append, all_eq_readBatch]
        simp only [hstate, hlost, List.append_nil]
      rw [hall]
      by_cases hstop : (readBatch parse s b).1 = .panicked
      · have hquiet := hpanic hstop
        unfold Quiet at hquiet
        rw [read_cons_of_panicked hstop, hquiet, hstop]
        rfl
      · rw [read_cons_of_not_panicked hstop, ih hrest]

/-! ## Counting the deliveries that change the memory -/

/-- The marked deliveries do not depend on the memory. -/
theorem countP_all (h : Remembers parse mark) (s s' : S) (es : List E) :
    (all parse s es).1.countP mark = (all parse s' es).1.countP mark := by
  have hhead : ∀ t t' e, (parse t e).1.toList.countP mark ≤
      (parse t' e).1.toList.countP mark := by
    intro t t' e
    rcases hverdict : (parse t e).1 with _ | y | _ | _
    · exact Nat.zero_le _
    · by_cases hy : mark y
      · exact Nat.le_of_eq (by rw [h.marked t e y hverdict hy t'])
      · simp [Verdict.toList, hy]
    · exact Nat.zero_le _
    · exact Nat.zero_le _
  induction es generalizing s s' with
  | nil => rfl
  | cons e es ih =>
      simp only [all, List.countP_append]
      rw [ih (parse s e).2 (parse s' e).2,
        Nat.le_antisymm (hhead s s' e) (hhead s' s e)]

/-- A reader delivers no more marked values than there are. -/
theorem countP_read_le (h : Remembers parse mark) (s : S)
    (batches : List (Batch E)) :
    (read parse s batches).countP mark ≤
      (all parse s (inputsOf batches)).1.countP mark := by
  induction batches generalizing s with
  | nil => exact Nat.le_refl _
  | cons b batches ih =>
      have hrest := ih (readBatch parse s b).2.1
      rw [countP_all h _ (all parse s b.inputs).2] at hrest
      have hb : (readBatch parse s b).1.toList.countP mark ≤
          (all parse s b.inputs).1.countP mark := by
        rw [all_eq_readBatch, List.countP_append]
        exact Nat.le_add_right _ _
      rw [inputsOf_cons, all_append, List.countP_append]
      by_cases hstop : (readBatch parse s b).1 = .panicked
      · rw [read_cons_of_panicked hstop]
        exact Nat.zero_le _
      · rw [read_cons_of_not_panicked hstop, List.countP_append]
        exact Nat.add_le_add hb hrest

/-- A reader that delivers every marked value has lost none of them with a
batch. -/
theorem unmarked_lost (h : Remembers parse mark) {s : S} {b : Batch E}
    {batches : List (Batch E)}
    (hstop : (readBatch parse s b).1 ≠ .panicked)
    (hcount : (read parse s (b :: batches)).countP mark =
      (all parse s (inputsOf (b :: batches))).1.countP mark) :
    (all parse (readBatch parse s b).2.1
        (readBatch parse s b).2.2).1.countP mark = 0 ∧
      (read parse (readBatch parse s b).2.1 batches).countP mark =
        (all parse (readBatch parse s b).2.1
          (inputsOf batches)).1.countP mark := by
  have hle := countP_read_le h (readBatch parse s b).2.1 batches
  rw [read_cons_of_not_panicked hstop, inputsOf_cons, all_append,
    all_eq_readBatch] at hcount
  simp only [List.countP_append] at hcount
  rw [countP_all h _ (readBatch parse s b).2.1 (inputsOf batches)] at hcount
  omega

/-- With every marked value delivered the memory is the right one throughout,
so that whatever else is lost is missing in the end. -/
theorem sublist_and_complete_of_countP (h : Remembers parse mark) {s : S}
    {batches : List (Batch E)}
    (hcount : (read parse s batches).countP mark =
      (all parse s (inputsOf batches)).1.countP mark) :
    (read parse s batches).Sublist (all parse s (inputsOf batches)).1 ∧
      (read parse s batches = (all parse s (inputsOf batches)).1 →
        Complete parse s batches) := by
  induction batches generalizing s with
  | nil => exact ⟨List.Sublist.refl _, fun _ => trivial⟩
  | cons b batches ih =>
      by_cases hstop : (readBatch parse s b).1 = .panicked
      · rw [read_cons_of_panicked hstop]
        exact ⟨List.nil_sublist _, fun hnil => complete_of_quiet h hnil.symm⟩
      · obtain ⟨hunmarked, hcount'⟩ := unmarked_lost h hstop hcount
        obtain ⟨hsub, hcomplete⟩ := ih hcount'
        have hstate : (all parse (readBatch parse s b).2.1
            (readBatch parse s b).2.2).2 = (readBatch parse s b).2.1 := by
          apply all_state_of_unmarked h
          intro y hy
          have hno := List.countP_eq_zero.mp hunmarked y hy
          simpa using hno
        rw [read_cons_of_not_panicked hstop, inputsOf_cons, all_append,
          all_eq_readBatch]
        simp only [hstate, List.append_assoc]
        constructor
        · apply (List.append_sublist_append_left _).mpr
          exact hsub.trans (List.sublist_append_right _ _)
        · intro heq
          have htail := List.append_cancel_left heq
          have hlength := congrArg List.length htail
          rw [List.length_append] at hlength
          have hlost : Quiet parse (readBatch parse s b).2.1
              (readBatch parse s b).2.2 := by
            apply List.eq_nil_of_length_eq_zero
            have hshort := hsub.length_le
            omega
          rw [complete_cons]
          refine ⟨hlost, fun hpanic => absurd hpanic hstop, hcomplete ?_⟩
          rw [htail, hlost, List.nil_append]

/-- A reader delivers what the parser delivers from all inputs exactly when it
loses nothing deliverable. -/
theorem read_eq_all_iff (h : Remembers parse mark) (s : S)
    (batches : List (Batch E)) :
    read parse s batches = (all parse s (inputsOf batches)).1 ↔
      Complete parse s batches := by
  constructor
  · intro heq
    exact (sublist_and_complete_of_countP h (by rw [heq])).2 heq
  · exact read_eq_of_complete h

end Parser
end Foundation

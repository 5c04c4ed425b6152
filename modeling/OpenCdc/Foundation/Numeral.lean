import Mathlib.Data.List.TakeWhile
import Mathlib.Data.Rat.Cast.Order
import Mathlib.Tactic.Positivity
import OpenCdc.Foundation.Ieee

/-!
# Decimal texts and what they denote

The characters of a text that is read as a decimal number, the rational number
that it denotes, and the rational number of a bit pattern.
-/

namespace Foundation.Ieee

/-! ## Characters of a decimal number -/

def isDecimalDigit (c : Char) : Bool := '0' ≤ c && c ≤ '9'

theorem toNat_lt_of_isDecimalDigit {c : Char} (h : isDecimalDigit c) :
    48 ≤ c.toNat ∧ c.toNat < 58 := by
  unfold isDecimalDigit at h
  rw [Bool.and_eq_true, decide_eq_true_eq, decide_eq_true_eq] at h
  have hlow : '0'.toNat ≤ c.toNat := h.1
  have hhigh : c.toNat ≤ '9'.toNat := h.2
  exact ⟨hlow, Nat.lt_succ_of_le hhigh⟩

theorem spanDigits_eq (text : List Char) :
    spanDigits text =
      (text.takeWhile isDecimalDigit, text.dropWhile isDecimalDigit) := by
  unfold spanDigits
  rw [List.span_eq_takeWhile_dropWhile]
  rfl

/-- A text that is split at its first other character. -/
theorem forall_of_spanDigits {text digits rest : List Char} {P : Char → Prop}
    (h : spanDigits text = (digits, rest))
    (hdigit : ∀ c, isDecimalDigit c → P c) (hrest : ∀ c ∈ rest, P c) :
    ∀ c ∈ text, P c := by
  rw [spanDigits_eq, Prod.mk.injEq] at h
  intro c hc
  rw [← List.takeWhile_append_dropWhile (p := isDecimalDigit) (l := text),
    List.mem_append, h.2] at hc
  rcases hc with hc | hc
  · exact hdigit c (List.mem_takeWhile_imp hc)
  · exact hrest c hc

theorem lt_of_isDecimalDigit {c : Char} (h : isDecimalDigit c) :
    c.toNat < 128 :=
  (toNat_lt_of_isDecimalDigit h).2.trans (by decide)

/-- The sign of an exponent and what stands behind it. -/
def exponentSign (cs : List Char) : Bool × List Char :=
  match cs with
  | '-' :: ds => (true, ds)
  | '+' :: ds => (false, ds)
  | ds => (false, ds)

theorem parseExponent_cons (c : Char) (cs : List Char) :
    parseExponent (c :: cs) =
      if c = 'e' ∨ c = 'E' then
        match spanDigits (exponentSign cs).2 with
        | ([], _) => none
        | (ds, []) =>
            some (if (exponentSign cs).1 then -(digitsToNat ds : ℤ)
              else digitsToNat ds)
        | _ => none
      else none := rfl

theorem mem_of_exponentSign {cs : List Char} {c : Char} (h : c ∈ cs) :
    c ∈ (exponentSign cs).2 ∨ c = '-' ∨ c = '+' := by
  unfold exponentSign
  split
  · exact (List.mem_cons.mp h).elim (fun hc => .inr (.inl hc)) .inl
  · exact (List.mem_cons.mp h).elim (fun hc => .inr (.inr hc)) .inl
  · exact .inl h

/-- An exponent has no character outside ASCII. -/
theorem lt_of_parseExponent {text : List Char} {e : ℤ}
    (h : parseExponent text = some e) : ∀ c ∈ text, c.toNat < 128 := by
  cases text with
  | nil => simp
  | cons c cs =>
      have he : c = 'e' ∨ c = 'E' := by
        by_contra hne
        rw [parseExponent_cons, if_neg hne] at h
        cases h
      rw [parseExponent_cons, if_pos he] at h
      rcases hspan : spanDigits (exponentSign cs).2 with
        ⟨_ | ⟨d, ds⟩, _ | ⟨r, rest⟩⟩
      · simp [hspan] at h
      · simp [hspan] at h
      · have hdigits : ∀ c ∈ (exponentSign cs).2, c.toNat < 128 :=
          forall_of_spanDigits hspan (fun _ => lt_of_isDecimalDigit) (by simp)
        intro c' hc'
        rcases List.mem_cons.mp hc' with rfl | hmem
        · rcases he with rfl | rfl <;> decide
        · rcases mem_of_exponentSign hmem with hin | rfl | rfl
          · exact hdigits c' hin
          · decide
          · decide
      · simp [hspan] at h

/-- The digits behind a point and what stands behind them. -/
def fractionPart (rest : List Char) : List Char × List Char :=
  match rest with
  | '.' :: cs => spanDigits cs
  | cs => ([], cs)

theorem parseDecimal_eq (text : List Char) :
    parseDecimal text =
      if (spanDigits text).1 = [] ∧ (fractionPart (spanDigits text).2).1 = []
      then none
      else (parseExponent (fractionPart (spanDigits text).2).2).map
        fun e : ℤ => (digitsToNat
          ((spanDigits text).1 ++ (fractionPart (spanDigits text).2).1),
          e - ((fractionPart (spanDigits text).2).1.length : ℤ)) := rfl

theorem eq_cons_of_fractionPart {rest : List Char}
    (h : (fractionPart rest).1 ≠ []) : ∃ cs, rest = '.' :: cs := by
  unfold fractionPart at h
  split at h
  · exact ⟨_, rfl⟩
  · exact absurd rfl h

theorem lt_of_fractionPart {rest : List Char}
    (h : ∀ c ∈ (fractionPart rest).2, c.toNat < 128) :
    ∀ c ∈ rest, c.toNat < 128 := by
  unfold fractionPart at h
  split at h
  · rw [List.forall_mem_cons]
    exact ⟨by decide,
      forall_of_spanDigits rfl (fun _ => lt_of_isDecimalDigit) h⟩
  · exact h

/-- A decimal number starts with a digit or a point and has no character outside
ASCII. -/
theorem chars_of_parseDecimal {text : List Char} {number : ℕ × ℤ}
    (h : parseDecimal text = some number) :
    (∃ c rest, text = c :: rest ∧ (isDecimalDigit c ∨ c = '.')) ∧
      ∀ c ∈ text, c.toNat < 128 := by
  rw [parseDecimal_eq] at h
  split_ifs at h with hempty
  obtain ⟨e, hexponent, -⟩ := Option.map_eq_some_iff.mp h
  have hrest := lt_of_fractionPart (lt_of_parseExponent hexponent)
  refine ⟨?_, forall_of_spanDigits rfl (fun _ => lt_of_isDecimalDigit) hrest⟩
  rw [spanDigits_eq] at hempty
  have hsplit : text.takeWhile isDecimalDigit ++
      text.dropWhile isDecimalDigit = text :=
    List.takeWhile_append_dropWhile
  cases hwhole : text.takeWhile isDecimalDigit with
  | cons d ds =>
      have hd : isDecimalDigit d := by
        apply List.mem_takeWhile_imp (l := text)
        rw [hwhole]
        exact List.mem_cons_self
      rw [hwhole] at hsplit
      exact ⟨d, _, hsplit.symm, .inl hd⟩
  | nil =>
      have hne : (fractionPart (text.dropWhile isDecimalDigit)).1 ≠ [] :=
        fun hnil => hempty ⟨hwhole, hnil⟩
      obtain ⟨cs, hcs⟩ := eq_cons_of_fractionPart hne
      rw [hwhole, List.nil_append] at hsplit
      exact ⟨'.', cs, hsplit.symm.trans hcs, .inr rfl⟩

/-! ## Values -/

/-- The rational number `n * 10 ^ e`. -/
def decimalValue (n : ℕ) (e : ℤ) : ℚ := n * (10 : ℚ) ^ e

theorem decimalValue_nonneg (n : ℕ) (e : ℤ) : 0 ≤ decimalValue n e := by
  unfold decimalValue
  exact mul_nonneg (Nat.cast_nonneg n) (zpow_nonneg (by norm_num) e)

/-- A signed decimal number and the number it denotes. -/
inductive IsNumeral : List Char → ℚ → Prop
  | unsigned {body : List Char} {n : ℕ} {e : ℤ}
      (h : parseDecimal body = some (n, e)) : IsNumeral body (decimalValue n e)
  | plus {body : List Char} {n : ℕ} {e : ℤ}
      (h : parseDecimal body = some (n, e)) :
      IsNumeral ('+' :: body) (decimalValue n e)
  | minus {body : List Char} {n : ℕ} {e : ℤ}
      (h : parseDecimal body = some (n, e)) :
      IsNumeral ('-' :: body) (-decimalValue n e)

theorem ascii_of_isNumeral {text : List Char} {q : ℚ} (h : IsNumeral text q) :
    ∀ c ∈ text, c.toNat < 128 := by
  cases h with
  | unsigned h => exact (chars_of_parseDecimal h).2
  | plus h =>
      have hbody := (chars_of_parseDecimal h).2
      rw [List.forall_mem_cons]
      exact ⟨by decide, hbody⟩
  | minus h =>
      have hbody := (chars_of_parseDecimal h).2
      rw [List.forall_mem_cons]
      exact ⟨by decide, hbody⟩

/-- A numeral of a negative number has a minus sign and something behind it. -/
theorem eq_minus_of_isNumeral {text : List Char} {q : ℚ} (h : IsNumeral text q)
    (hq : q < 0) : ∃ c rest, text = '-' :: c :: rest := by
  cases h with
  | unsigned h => exact absurd hq (not_lt.mpr (decimalValue_nonneg _ _))
  | plus h => exact absurd hq (not_lt.mpr (decimalValue_nonneg _ _))
  | minus h =>
      obtain ⟨⟨c, rest, rfl, -⟩, -⟩ := chars_of_parseDecimal h
      exact ⟨c, rest, rfl⟩

/-- A numeral starts with a sign, a digit or a point. -/
theorem head_of_isNumeral {text : List Char} {q : ℚ} (h : IsNumeral text q) :
    ∃ c rest, text = c :: rest ∧ c.toNat < 58 := by
  cases h with
  | unsigned h =>
      obtain ⟨⟨c, rest, rfl, hc⟩, -⟩ := chars_of_parseDecimal h
      refine ⟨c, rest, rfl, ?_⟩
      rcases hc with hdigit | rfl
      · exact (toNat_lt_of_isDecimalDigit hdigit).2
      · decide
  | plus h => exact ⟨_, _, rfl, by decide⟩
  | minus h => exact ⟨_, _, rfl, by decide⟩

/-- A sign alone is no numeral. -/
theorem not_isNumeral_minus (q : ℚ) : ¬ IsNumeral ['-'] q := by
  intro h
  cases h with
  | unsigned h =>
      obtain ⟨⟨c, rest, hc, hhead⟩, -⟩ := chars_of_parseDecimal h
      rw [← (List.cons.inj hc).1] at hhead
      exact absurd hhead (by decide)
  | minus h =>
      obtain ⟨⟨c, rest, hc, -⟩, -⟩ := chars_of_parseDecimal h
      cases hc

/-- The number that a finite pattern of precision `p` stands for. -/
def toRat (p : Precision) (pattern : ℕ) : ℚ :=
  let magnitude := pattern % p.signBit
  let field := magnitude / 2 ^ (p.digits - 1)
  let fraction := magnitude % 2 ^ (p.digits - 1)
  let value :=
    if field = 0 then fraction
    else (2 ^ (p.digits - 1) + fraction) * 2 ^ (field - 1)
  (if p.signBit ≤ pattern then -1 else 1) * (value / 2 ^ p.minScale)

/-- A pattern without the sign bit stands for no negative number. -/
theorem toRat_nonneg {p : Precision} {pattern : ℕ} (h : pattern < p.signBit) :
    0 ≤ toRat p pattern := by
  unfold toRat
  dsimp only
  rw [if_neg (Nat.not_le.mpr h), one_mul]
  positivity

end Foundation.Ieee

/-! ## Integers -/

namespace Foundation

/-- The digits of a text, appended to those of `acc`, are the digits of the
last number. -/
inductive Appends (radix : ℕ) : ℕ → List Char → ℕ → Prop
  | nil (acc : ℕ) : Appends radix acc [] acc
  | cons {acc d n : ℕ} {c : Char} {cs : List Char}
      (hc : digitValue radix c = some d)
      (hcs : Appends radix (acc * radix + d) cs n) :
      Appends radix acc (c :: cs) n

/-- The text of an integer: at least one digit, behind a plus sign if any, or
behind a minus sign if the type is signed. -/
inductive IsInteger (radix : ℕ) (signed : Prop) : List Char → ℤ → Prop
  | unsigned {c : Char} {cs : List Char} {n : ℕ}
      (h : Appends radix 0 (c :: cs) n) : IsInteger radix signed (c :: cs) n
  | plus {c : Char} {cs : List Char} {n : ℕ}
      (h : Appends radix 0 (c :: cs) n) :
      IsInteger radix signed ('+' :: c :: cs) n
  | minus {c : Char} {cs : List Char} {n : ℕ} (hsigned : signed)
      (h : Appends radix 0 (c :: cs) n) :
      IsInteger radix signed ('-' :: c :: cs) (-n)

theorem le_of_appends {radix acc n : ℕ} {text : List Char}
    (hradix : 0 < radix) (h : Appends radix acc text n) : acc ≤ n := by
  induction h with
  | nil acc => exact le_rfl
  | @cons acc d n c cs hc hcs ih =>
      have hgrow : acc ≤ acc * radix := Nat.le_mul_of_pos_right acc hradix
      omega

theorem accumulate_eq_ok_iff {radix limit acc n : ℕ}
    {overflow : ParseIntError} {text : List Char} (hradix : 0 < radix)
    (hacc : acc ≤ limit) :
    accumulate radix limit overflow acc text = .ok n ↔
      Appends radix acc text n ∧ n ≤ limit := by
  induction text generalizing acc with
  | nil =>
      rw [accumulate, Except.ok.injEq]
      constructor
      · rintro rfl
        exact ⟨.nil acc, hacc⟩
      · rintro ⟨h, -⟩
        cases h
        rfl
  | cons c cs ih =>
      rw [accumulate]
      split
      next hc =>
        constructor
        · intro h
          cases h
        · rintro ⟨h, -⟩
          cases h with
          | cons hc' _ => rw [hc] at hc'; cases hc'
      next d hc =>
        split
        next hfit =>
          rw [ih hfit]
          apply and_congr_left
          intro _
          constructor
          · exact .cons hc
          · intro h
            cases h with
            | cons hc' hcs =>
                obtain rfl := Option.some.inj (hc.symm.trans hc')
                exact hcs
        next hover =>
          constructor
          · intro h
            cases h
          · rintro ⟨h, hn⟩
            cases h with
            | cons hc' hcs =>
                obtain rfl := Option.some.inj (hc.symm.trans hc')
                have hle := le_of_appends hradix hcs
                omega

theorem parseDigits_eq_ok_iff {radix limit n : ℕ} {overflow : ParseIntError}
    {text : List Char} (hradix : 0 < radix) :
    parseDigits radix limit overflow text = .ok n ↔
      text ≠ [] ∧ Appends radix 0 text n ∧ n ≤ limit := by
  cases text with
  | nil => simp [parseDigits]
  | cons c cs =>
      rw [parseDigits, accumulate_eq_ok_iff hradix (Nat.zero_le limit)]
      · simp
      · simp

theorem exists_appends_of_isInteger {radix : ℕ} {signed : Prop}
    {text : List Char} {n : ℤ} (hplus : text.head? ≠ some '+')
    (hminus : text.head? ≠ some '-') :
    IsInteger radix signed text n ↔
      text ≠ [] ∧ ∃ m : ℕ, Appends radix 0 text m ∧ n = m := by
  constructor
  · intro h
    cases h with
    | unsigned h => exact ⟨List.cons_ne_nil _ _, _, h, rfl⟩
    | plus _ => exact absurd rfl hplus
    | minus _ _ => exact absurd rfl hminus
  · rintro ⟨hne, m, h, rfl⟩
    cases text with
    | nil => exact absurd rfl hne
    | cons c cs => exact .unsigned h

theorem not_appends_cons {radix acc n : ℕ} {c : Char} {cs : List Char}
    (hc : charDigit c = none) : ¬ Appends radix acc (c :: cs) n := by
  intro h
  cases h with
  | cons hdigit _ => simp [digitValue, hc] at hdigit

/-- An integer is read from its texts, as long as the type holds it. -/
theorem fromStrRadix_eq_ok_iff {radix below above : ℕ} {text : List Char}
    {n : ℤ} (hradix : 0 < radix) :
    fromStrRadix radix below above text = .ok n ↔
      IsInteger radix (0 < below) text n ∧ -(below : ℤ) ≤ n ∧ n ≤ above := by
  have hmap : ∀ {digits : List Char} {limit : ℕ} {overflow : ParseIntError}
      {f : ℤ → ℤ},
      Except.map f (do return ((← parseDigits radix limit overflow digits :) :
        ℤ)) = .ok n ↔
        ∃ m : ℕ, (digits ≠ [] ∧ Appends radix 0 digits m ∧ m ≤ limit) ∧
          f m = n := by
    intro digits limit overflow f
    have hdigits : ∀ m, parseDigits radix limit overflow digits = .ok m ↔
        digits ≠ [] ∧ Appends radix 0 digits m ∧ m ≤ limit :=
      fun m => parseDigits_eq_ok_iff hradix
    simp only [← hdigits]
    cases parseDigits radix limit overflow digits with
    | error e => simp [Except.map, bind, Except.bind]
    | ok m => simp [Except.map, bind, Except.bind, pure, Except.pure]
  unfold fromStrRadix
  split
  case h_1 =>
    constructor
    · intro h
      cases h
    · rintro ⟨h, -⟩
      cases h
  case h_2 cs =>
    rw [hmap]
    constructor
    · rintro ⟨m, ⟨hne, hm, hle⟩, rfl⟩
      obtain ⟨c, cs, rfl⟩ := List.exists_cons_of_ne_nil hne
      exact ⟨.plus hm, by omega, by omega⟩
    · rintro ⟨h, hlow, hhigh⟩
      cases h with
      | unsigned h => exact absurd h (not_appends_cons (by decide))
      | plus h => exact ⟨_, ⟨List.cons_ne_nil _ _, h, by omega⟩, rfl⟩
  case h_3 cs =>
    split
    next hbelow =>
      rw [hmap]
      constructor
      · rintro ⟨m, ⟨hne, hm, hle⟩, rfl⟩
        obtain ⟨c, cs, rfl⟩ := List.exists_cons_of_ne_nil hne
        exact ⟨.minus hbelow hm, by omega, by omega⟩
      · rintro ⟨h, hlow, hhigh⟩
        cases h with
        | unsigned h => exact absurd h (not_appends_cons (by decide))
        | minus _ h => exact ⟨_, ⟨List.cons_ne_nil _ _, h, by omega⟩, rfl⟩
    next hbelow =>
      constructor
      · intro h
        cases h
      · rintro ⟨h, -⟩
        cases h with
        | unsigned h => exact absurd h (not_appends_cons (by decide))
        | minus hsigned _ => exact absurd hsigned hbelow
  case h_4 hne hplus hminus =>
    rw [hmap, exists_appends_of_isInteger]
    · constructor
      · rintro ⟨m, ⟨hne, hm, hle⟩, rfl⟩
        exact ⟨⟨hne, m, hm, rfl⟩, by omega, by omega⟩
      · rintro ⟨⟨hne, m, hm, rfl⟩, -, hhigh⟩
        exact ⟨m, ⟨hne, hm, by omega⟩, rfl⟩
    · intro hhead
      obtain ⟨cs, rfl⟩ := List.head?_eq_some_iff.mp hhead
      exact hplus cs rfl
    · intro hhead
      obtain ⟨cs, rfl⟩ := List.head?_eq_some_iff.mp hhead
      exact hminus cs rfl

end Foundation

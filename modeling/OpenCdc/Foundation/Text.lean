import Mathlib.Data.UInt
import Mathlib.Data.Nat.Digits.Lemmas
import OpenCdc.Foundation.Bytes

/-!
# Numbers and bytes as text

Reading an integer in a radix follows the usual library function: an optional
sign, at least one digit, an error for a foreign character, and an error as
soon as the value leaves the range of the target type.  Bytes become text by
the lossy decoding of UTF-8, which puts one replacement character for every
maximal ill-formed part.
-/

namespace Foundation

/-! ## Integers in a radix -/

inductive ParseIntError where
  | empty
  | invalidDigit
  | posOverflow
  | negOverflow
deriving DecidableEq, Repr

def ParseIntError.message : ParseIntError → String
  | empty => "cannot parse integer from empty string"
  | invalidDigit => "invalid digit found in string"
  | posOverflow => "number too large to fit in target type"
  | negOverflow => "number too small to fit in target type"

/-- The digit a character stands for, in either letter case. -/
def charDigit (c : Char) : Option ℕ :=
  if '0' ≤ c ∧ c ≤ '9' then some (c.toNat - '0'.toNat)
  else if 'a' ≤ c ∧ c ≤ 'z' then some (c.toNat - 'a'.toNat + 10)
  else if 'A' ≤ c ∧ c ≤ 'Z' then some (c.toNat - 'A'.toNat + 10)
  else none

def digitValue (radix : ℕ) (c : Char) : Option ℕ :=
  (charDigit c).filter (· < radix)

/-- Append the digits of a text to the magnitude `acc`, which must stay at
most `limit`. -/
def accumulate (radix limit : ℕ) (overflow : ParseIntError) :
    ℕ → List Char → Except ParseIntError ℕ
  | acc, [] => .ok acc
  | acc, c :: cs =>
      match digitValue radix c with
      | none => .error .invalidDigit
      | some d =>
          if acc * radix + d ≤ limit then
            accumulate radix limit overflow (acc * radix + d) cs
          else .error overflow

/-- The digits of a text with at least one digit. -/
def parseDigits (radix limit : ℕ) (overflow : ParseIntError) :
    List Char → Except ParseIntError ℕ
  | [] => .error .invalidDigit
  | cs => accumulate radix limit overflow 0 cs

/-- Read an integer between `-below` and `above`; a minus sign is accepted
only by a signed type (`0 < below`). -/
def fromStrRadix (radix below above : ℕ) :
    List Char → Except ParseIntError ℤ
  | [] => .error .empty
  | '+' :: cs =>
      (parseDigits radix above .posOverflow cs).map fun n => (n : ℤ)
  | '-' :: cs =>
      if 0 < below then
        (parseDigits radix below .negOverflow cs).map fun n => -(n : ℤ)
      else .error .invalidDigit
  | cs =>
      (parseDigits radix above .posOverflow cs).map fun n => (n : ℤ)

def parseU32 (radix : ℕ) (text : List Char) : Except ParseIntError ℤ :=
  fromStrRadix radix 0 (2 ^ 32 - 1) text

def parseI32 (text : List Char) : Except ParseIntError ℤ :=
  fromStrRadix 10 (2 ^ 31) (2 ^ 31 - 1) text

def parseI64 (text : List Char) : Except ParseIntError ℤ :=
  fromStrRadix 10 (2 ^ 63) (2 ^ 63 - 1) text

/-- What the digits of `n` in base `base` denote when they are read in base
`radix`. -/
def reread (base radix n : ℕ) : ℕ := Nat.ofDigits radix (Nat.digits base n)

theorem reread_self (base n : ℕ) : reread base base n = n :=
  Nat.ofDigits_digits base n

theorem reread_of_lt {base radix n : ℕ} (hn : n < base) :
    reread base radix n = n := by
  rcases Nat.eq_zero_or_pos n with rfl | hpos
  · simp [reread]
  · rw [reread, Nat.digits_of_lt base n hpos.ne' hn, Nat.ofDigits_singleton]

theorem reread_step {base radix n : ℕ} (hbase : 1 < base) (hn : 0 < n) :
    reread base radix n = n % base + radix * reread base radix (n / base) := by
  rw [reread, Nat.digits_def' hbase hn, Nat.ofDigits_cons, reread]

theorem le_reread {base radix : ℕ} (hradix : base ≤ radix) (n : ℕ) :
    n ≤ reread base radix n := by
  have h := Nat.ofDigits_monotone (Nat.digits base n) hradix
  rwa [Nat.ofDigits_digits] at h

/-- A number of two or more digits grows when it is read in a larger base. -/
theorem lt_reread {base radix n : ℕ} (hbase : 1 < base)
    (hradix : base < radix) (hn : base ≤ n) : n < reread base radix n := by
  have hquot : 0 < n / base := Nat.div_pos hn (by omega)
  have hrest : n / base ≤ reread base radix (n / base) :=
    le_reread hradix.le _
  have hgrow : base * (n / base) < radix * reread base radix (n / base) :=
    Nat.mul_lt_mul_of_lt_of_le hradix hrest (hquot.trans_le hrest)
  calc
    n = n % base + base * (n / base) := (Nat.mod_add_div n base).symm
    _ < n % base + radix * reread base radix (n / base) := by omega
    _ = reread base radix n := (reread_step hbase (by omega)).symm

theorem accumulate_append {radix limit acc : ℕ} {overflow : ParseIntError}
    {xs ys : List Char} :
    accumulate radix limit overflow acc (xs ++ ys) =
      (accumulate radix limit overflow acc xs).bind fun acc' =>
        accumulate radix limit overflow acc' ys := by
  induction xs generalizing acc with
  | nil => rfl
  | cons c cs ih =>
      simp only [List.cons_append, accumulate]
      split
      · rfl
      · split
        · exact ih
        · rfl

theorem digitValue_eq_some {radix d : ℕ} {c : Char}
    (hc : charDigit c = some d) (hd : d < radix) :
    digitValue radix c = some d := by
  simp [digitValue, hc, hd]

theorem charDigit_digitChar :
    ∀ d < 16, charDigit (Nat.digitChar d) = some d := by
  decide

theorem charDigit_toUpper_digitChar :
    ∀ d < 16, charDigit (Nat.digitChar d).toUpper = some d := by
  decide

theorem exists_digit_of_mem_toDigits {base n : ℕ} {c : Char}
    (hbase : 1 < base) (hc : c ∈ Nat.toDigits base n) :
    ∃ d < base, c = Nat.digitChar d := by
  induction n using Nat.strong_induction_on with
  | _ n ih =>
      rw [Nat.toDigits_eq_if hbase] at hc
      split at hc
      next hlt => exact ⟨n, hlt, by simpa using hc⟩
      next hge =>
        rcases List.mem_append.mp hc with hleft | hlast
        · exact ih _ (Nat.div_lt_self (by omega) hbase) hleft
        · exact ⟨n % base, Nat.mod_lt n (by omega), by simpa using hlast⟩

/-- Reading in base `radix` the digits that `n` has in base `base`.  The digits
may be printed in any style `style` that keeps their value. -/
theorem accumulate_toDigits {base radix limit : ℕ} {overflow : ParseIntError}
    {style : Char → Char} (hbase : 1 < base) (hradix : base ≤ radix)
    (hstyle : ∀ d < base, charDigit (style (Nat.digitChar d)) = some d)
    (n : ℕ) :
    accumulate radix limit overflow 0 ((Nat.toDigits base n).map style) =
      if reread base radix n ≤ limit then .ok (reread base radix n)
      else .error overflow := by
  induction n using Nat.strong_induction_on with
  | _ n ih =>
      rcases Nat.lt_or_ge n base with hlt | hge
      · have hdigit := digitValue_eq_some (hstyle n hlt) (hlt.trans_le hradix)
        simp [Nat.toDigits_of_lt_base hlt, accumulate, hdigit,
          reread_of_lt hlt]
      · have hrem : n % base < base := Nat.mod_lt n (by omega)
        have hdigit := digitValue_eq_some (hstyle _ hrem)
          (hrem.trans_le hradix)
        have hstep : reread base radix n =
            n % base + radix * reread base radix (n / base) :=
          reread_step hbase (by omega)
        rw [Nat.toDigits_of_base_le hbase hge, List.map_append,
          accumulate_append, ih _ (Nat.div_lt_self (by omega) hbase)]
        by_cases hfit : reread base radix (n / base) ≤ limit
        · have hvalue : reread base radix (n / base) * radix + n % base =
              reread base radix n := by
            rw [hstep, Nat.mul_comm, Nat.add_comm]
          simp [if_pos hfit, Except.bind, accumulate, hdigit, hvalue]
        · have hgrow : reread base radix (n / base) ≤
              radix * reread base radix (n / base) :=
            Nat.le_mul_of_pos_left _ (by omega)
          rw [if_neg hfit, if_neg (by omega)]
          rfl

/-- Different numbers have different digits. -/
theorem toDigits_injective {m n : ℕ}
    (h : Nat.toDigits 10 m = Nat.toDigits 10 n) : m = n := by
  have hread : ∀ k ≤ max m n, accumulate 10 (max m n) .posOverflow 0
      ((Nat.toDigits 10 k).map id) = .ok k := by
    intro k hk
    rw [accumulate_toDigits (by decide) (Nat.le_refl 10)
      (fun d hd => charDigit_digitChar d (by omega)), reread_self, if_pos hk]
  have hm := hread m (Nat.le_max_left m n)
  rw [h, hread n (Nat.le_max_right m n)] at hm
  exact (Except.ok.inj hm).symm

/-- A text of digits has no sign, so it is read by its digits. -/
theorem fromStrRadix_toDigits {base radix below above : ℕ}
    {style : Char → Char} (hbase : 1 < base) (hradix : base ≤ radix)
    (hstyle : ∀ d < base, charDigit (style (Nat.digitChar d)) = some d)
    (n : ℕ) :
    fromStrRadix radix below above ((Nat.toDigits base n).map style) =
      if reread base radix n ≤ above then .ok (reread base radix n : ℤ)
      else .error .posOverflow := by
  have hacc : accumulate radix above .posOverflow 0
        ((Nat.toDigits base n).map style) =
      if reread base radix n ≤ above then .ok (reread base radix n)
      else .error .posOverflow :=
    accumulate_toDigits hbase hradix hstyle n
  cases htext : (Nat.toDigits base n).map style with
  | nil => simp [Nat.toDigits_ne_nil] at htext
  | cons c cs =>
      have hdigit : ∃ d, charDigit c = some d := by
        have hmem : c ∈ (Nat.toDigits base n).map style := by simp [htext]
        obtain ⟨e, he, rfl⟩ := List.mem_map.mp hmem
        obtain ⟨d, hd, rfl⟩ := exists_digit_of_mem_toDigits hbase he
        exact ⟨d, hstyle d hd⟩
      obtain ⟨d, hd⟩ := hdigit
      have hplus : c ≠ '+' := by
        rintro rfl
        simp [charDigit] at hd
      have hminus : c ≠ '-' := by
        rintro rfl
        simp [charDigit] at hd
      rw [htext] at hacc
      have hparse : fromStrRadix radix below above (c :: cs) =
          (accumulate radix above .posOverflow 0 (c :: cs)).map
            fun n => (n : ℤ) := by
        rw [fromStrRadix]
        · rfl
        all_goals simp_all
      rw [hparse, hacc]
      split <;> rfl

theorem parseDigits_toDigits {limit n : ℕ} {overflow : ParseIntError}
    (hn : n ≤ limit) :
    parseDigits 10 limit overflow (Nat.toDigits 10 n) = .ok n := by
  have hacc : accumulate 10 limit overflow 0 ((Nat.toDigits 10 n).map id) =
      .ok n := by
    rw [accumulate_toDigits (by decide) (Nat.le_refl 10)
      (fun d hd => charDigit_digitChar d (by omega)), reread_self, if_pos hn]
  rw [List.map_id] at hacc
  cases hdigits : Nat.toDigits 10 n with
  | nil => exact absurd hdigits Nat.toDigits_ne_nil
  | cons c cs =>
      rw [hdigits] at hacc
      exact hacc

/-- An integer in range is read back from its text. -/
theorem fromStrRadix_toString {below above : ℕ} {n : ℤ}
    (hlow : -(below : ℤ) ≤ n) (hhigh : n ≤ above) :
    fromStrRadix 10 below above (toString n).toList = .ok n := by
  cases n with
  | ofNat n =>
      have htext : (toString (Int.ofNat n)).toList =
          (Nat.toDigits 10 n).map id := by
        rw [List.map_id, ← Nat.toList_repr]
        rfl
      have hfit : n ≤ above := Int.ofNat_le.mp hhigh
      rw [htext, fromStrRadix_toDigits (by decide) (Nat.le_refl 10)
        (fun d hd => charDigit_digitChar d (by omega)), reread_self,
        if_pos hfit]
      rfl
  | negSucc n =>
      have htext : (toString (Int.negSucc n)).toList =
          '-' :: Nat.toDigits 10 (n + 1) := by
        rw [← Nat.toList_repr]
        exact String.toList_append
      have hfit : n + 1 ≤ below := by omega
      rw [htext, fromStrRadix, if_pos (by omega), parseDigits_toDigits hfit]
      rfl

/-! ## Lossy UTF-8 -/

/-- A continuation byte `10xxxxxx`. -/
def isContinuation (b : UInt8) : Bool := b &&& 192 == 128

/-- Whether `second` may follow the lead byte of a three-byte sequence. -/
def secondOfThree (lead second : UInt8) : Bool :=
  if lead = 0xE0 then 0xA0 ≤ second && second ≤ 0xBF
  else if lead = 0xED then 0x80 ≤ second && second ≤ 0x9F
  else 0x80 ≤ second && second ≤ 0xBF

/-- Whether `second` may follow the lead byte of a four-byte sequence. -/
def secondOfFour (lead second : UInt8) : Bool :=
  if lead = 0xF0 then 0x90 ≤ second && second ≤ 0xBF
  else if lead = 0xF4 then 0x80 ≤ second && second ≤ 0x8F
  else 0x80 ≤ second && second ≤ 0xBF

def replacementChar : Char := Char.ofNat 0xFFFD

/-- The low six bits of a continuation byte. -/
def payload (b : UInt8) : ℕ := b.toNat % 64

/-- Decode UTF-8, with a replacement character for every maximal ill-formed
part: a lead byte with those continuation bytes that may still follow it. -/
def utf8Lossy : Bytes → List Char
  | [] => []
  | b :: rest =>
      if b < 0x80 then b.toChar :: utf8Lossy rest
      else if 0xC2 ≤ b ∧ b ≤ 0xDF then
        match rest with
        | c :: rest' =>
            if isContinuation c then
              Char.ofNat (b.toNat % 32 * 64 + payload c) :: utf8Lossy rest'
            else replacementChar :: utf8Lossy (c :: rest')
        | [] => [replacementChar]
      else if 0xE0 ≤ b ∧ b ≤ 0xEF then
        match rest with
        | c :: rest' =>
            if secondOfThree b c then
              match rest' with
              | d :: rest'' =>
                  if isContinuation d then
                    Char.ofNat ((b.toNat % 16 * 64 + payload c) * 64
                      + payload d) :: utf8Lossy rest''
                  else replacementChar :: utf8Lossy (d :: rest'')
              | [] => [replacementChar]
            else replacementChar :: utf8Lossy (c :: rest')
        | [] => [replacementChar]
      else if 0xF0 ≤ b ∧ b ≤ 0xF4 then
        match rest with
        | c :: rest' =>
            if secondOfFour b c then
              match rest' with
              | d :: rest'' =>
                  if isContinuation d then
                    match rest'' with
                    | e :: rest''' =>
                        if isContinuation e then
                          Char.ofNat (((b.toNat % 8 * 64 + payload c) * 64
                            + payload d) * 64 + payload e)
                            :: utf8Lossy rest'''
                        else replacementChar :: utf8Lossy (e :: rest''')
                    | [] => [replacementChar]
                  else replacementChar :: utf8Lossy (d :: rest'')
              | [] => [replacementChar]
            else replacementChar :: utf8Lossy (c :: rest')
        | [] => [replacementChar]
      else replacementChar :: utf8Lossy rest

/-- `String::from_utf8_lossy` -/
def fromUtf8Lossy (bytes : Bytes) : String := String.ofList (utf8Lossy bytes)

example : utf8Lossy [0x61, 0xE2, 0x82, 0xAC, 0xE2, 0x82, 0x61, 0xFF] =
    ['a', '€', replacementChar, 'a', replacementChar] := by decide

/-! ## Joined names -/

/-- Names without the separator are read back from their joined form. -/
theorem intercalate_singleton_injective {c : Char} {names names' : List String}
    (hne : names ≠ []) (hne' : names' ≠ [])
    (hfree : ∀ name ∈ names, c ∉ name.toList)
    (hfree' : ∀ name ∈ names', c ∉ name.toList)
    (h : (String.singleton c).intercalate names =
      (String.singleton c).intercalate names') :
    names = names' := by
  have hchars := congrArg (fun s => s.toList.splitOn c) h
  simp only [String.toList_intercalate, String.toList_singleton] at hchars
  rw [List.splitOn_intercalate c (by simpa using hfree) (by simpa using hne),
    List.splitOn_intercalate c (by simpa using hfree') (by simpa using hne')]
    at hchars
  apply List.map_injective_iff.mpr _ hchars
  intro a b hab
  exact String.toList_inj.mp hab

end Foundation

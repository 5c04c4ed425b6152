import Mathlib.Data.Nat.Log
import OpenCdc.Foundation.Text

/-!
# Binary floating point as bit patterns

Single and double precision values are kept as their bit patterns.  A positive
rational is rounded to the nearest representable value, ties to even; decimal
text is read exactly and rounded once.
-/

namespace Foundation.Ieee

/-- The parameters of a binary interchange format. -/
structure Precision where
  /-- Bits of the significand, the implicit one included. -/
  digits : ℕ
  /-- The smallest positive value is `2 ^ (-minScale)`. -/
  minScale : ℕ
  /-- The bit pattern of positive infinity. -/
  infinity : ℕ
  /-- The weight of the sign bit. -/
  signBit : ℕ

def binary32 : Precision := ⟨24, 149, 0x7F800000, 2 ^ 31⟩

def binary64 : Precision := ⟨53, 1074, 0x7FF0000000000000, 2 ^ 63⟩

/-- `num / den` rounded to the nearest integer, ties to even. -/
def roundDiv (num den : ℕ) : ℕ :=
  let quot := num / den
  let twice := 2 * (num % den)
  if twice < den then quot
  else if den < twice then quot + 1
  else if quot % 2 = 0 then quot
  else quot + 1

/-- The pattern of `num / den` rounded to the precision `p`. -/
def ofRatio (p : Precision) (num den : ℕ) : ℕ :=
  -- in units of the smallest positive value
  let scaled := num * 2 ^ p.minScale
  let size := Nat.log 2 (scaled / den)
  let shift := size + 1 - p.digits
  let pattern := shift * 2 ^ (p.digits - 1) + roundDiv scaled (den * 2 ^ shift)
  min pattern p.infinity

def withSign (p : Precision) (negative : Bool) (pattern : ℕ) : ℕ :=
  if negative then p.signBit + pattern else pattern

/-- A pattern that is neither an infinity nor a NaN. -/
def isFinite (p : Precision) (pattern : ℕ) : Bool :=
  pattern % p.signBit < p.infinity

/-- The finite pattern of precision `p`, exact in the precision `q`. -/
def convert (p q : Precision) (pattern : ℕ) : ℕ :=
  let magnitude := pattern % p.signBit
  let field := magnitude / 2 ^ (p.digits - 1)
  let fraction := magnitude % 2 ^ (p.digits - 1)
  let value :=
    if field = 0 then fraction
    else (2 ^ (p.digits - 1) + fraction) * 2 ^ (field - 1)
  withSign q (p.signBit ≤ pattern) (ofRatio q value (2 ^ p.minScale))

/-! ## Decimal text -/

/-- The leading decimal digits of a text and what follows them. -/
def spanDigits (text : List Char) : List Char × List Char :=
  text.span fun c => '0' ≤ c && c ≤ '9'

def digitsToNat (digits : List Char) : ℕ :=
  digits.foldl (fun n c => n * 10 + (c.toNat - '0'.toNat)) 0

/-- The exponent part of a decimal number: nothing, or `e` with a signed
sequence of digits. -/
def parseExponent : List Char → Option ℤ
  | [] => some 0
  | c :: cs =>
      if c = 'e' ∨ c = 'E' then
        let (negative, digits) :=
          match cs with
          | '-' :: ds => (true, ds)
          | '+' :: ds => (false, ds)
          | ds => (false, ds)
        match spanDigits digits with
        | ([], _) => none
        | (ds, []) =>
            let n : ℤ := digitsToNat ds
            some (if negative then -n else n)
        | _ => none
      else none

/-- An unsigned decimal number, as significand and power of ten. -/
def parseDecimal (text : List Char) : Option (ℕ × ℤ) :=
  let (whole, rest) := spanDigits text
  let (fraction, rest) :=
    match rest with
    | '.' :: cs => spanDigits cs
    | cs => ([], cs)
  if whole = [] ∧ fraction = [] then none
  else
    (parseExponent rest).map fun e =>
      (digitsToNat (whole ++ fraction), e - fraction.length)

/-- Read a floating point number: a signed decimal, or an infinity or NaN in
any letter case. -/
def parse (p : Precision) (text : List Char) : Option ℕ :=
  let (negative, body) :=
    match text with
    | '-' :: cs => (true, cs)
    | '+' :: cs => (false, cs)
    | cs => (false, cs)
  let word := String.ofList (body.map Char.toLower)
  if word = "inf" ∨ word = "infinity" then
    some (withSign p negative p.infinity)
  else if word = "nan" then
    some (withSign p negative (p.infinity + 2 ^ (p.digits - 2)))
  else
    (parseDecimal body).map fun (n, e) =>
      withSign p negative
        (if 0 ≤ e then ofRatio p (n * 10 ^ e.toNat) 1
         else ofRatio p n (10 ^ (-e).toNat))

/-- `s.parse::<f32>()` -/
def parseF32 (text : List Char) : Option ℕ := parse binary32 text

/-- `s.parse::<f64>()` -/
def parseF64 (text : List Char) : Option ℕ := parse binary64 text

end Foundation.Ieee

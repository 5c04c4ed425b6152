import OpenCdc.Foundation.Numeral
import OpenCdc.Foundation.Utf8
import OpenCdc.Mysql.RowImage

/-!
# Decimal columns

The server packs the digits of a decimal into groups of nine, each a big-endian
number.  `decode_decimal` takes the bytes for a text.  The first bit of an image
is inverted, so that an image is never the text of a number that it stands for.
-/

namespace OpenCdc.Mysql

open Foundation Json

variable {ε : Type}

/-! ## The image -/

/-- The bytes that hold a group of decimal digits. -/
def dig2bytes (digits : ℕ) : ℕ := [0, 1, 1, 2, 2, 3, 3, 4, 4, 4].getD digits 0

/-- A number in groups of digits, the first group first. -/
def packDigits : List ℕ → ℕ → Bytes
  | [], _ => []
  | size :: sizes, n =>
      Bytes.toBe (dig2bytes size) (n / 10 ^ sizes.sum) ++
        packDigits sizes (n % 10 ^ sizes.sum)

/-- The type DECIMAL(p, s). -/
structure DecimalType where
  precision : ℕ
  scale : ℕ
  precision_pos : 1 ≤ precision
  precision_le : precision ≤ 65
  scale_le : scale ≤ 30
  scale_le_precision : scale ≤ precision

namespace DecimalType

/-- The digits of each group: those left over of the integer part, its full
groups, the full groups of the fraction, and those left over of it. -/
def groupSizes (type : DecimalType) : List ℕ :=
  (type.precision - type.scale) % 9 ::
    (List.replicate ((type.precision - type.scale) / 9) 9 ++
      (List.replicate (type.scale / 9) 9 ++ [type.scale % 9]))

def colMeta (type : DecimalType) : UInt16 :=
  UInt16.ofNat (type.precision + 256 * type.scale)

end DecimalType

/-- A value as an integer in units of the last digit. -/
structure DecimalValue (type : DecimalType) where
  unscaled : ℤ
  natAbs_lt : unscaled.natAbs < 10 ^ type.precision

def invertFirstBit : Bytes → Bytes
  | [] => []
  | b :: bs => (b ^^^ 0x80) :: bs

namespace DecimalValue

variable {type : DecimalType}

/-- The groups of the digits, before the sign is put in. -/
def magnitude (value : DecimalValue type) : Bytes :=
  packDigits type.groupSizes value.unscaled.natAbs

def image (value : DecimalValue type) : Bytes :=
  invertFirstBit (if value.unscaled < 0 then value.magnitude.map fun b => ~~~b
    else value.magnitude)

/-- The value as a rational number. -/
def toRat (value : DecimalValue type) : ℚ :=
  value.unscaled / 10 ^ type.scale

end DecimalValue

/-! ## What a JSON value denotes -/

/-- The JSON value is a number, or the text of one, and denotes `q`. -/
inductive Denotes : Value → ℚ → Prop
  | posInt (n : UInt64) : Denotes (.number (.posInt n)) n.toNat
  | negInt (n : Int64) : Denotes (.number (.negInt n)) n.toInt
  | float (bits : UInt64) :
      Denotes (.number (.float bits)) (Ieee.toRat Ieee.binary64 bits.toNat)
  | text {s : String} {q : ℚ} (h : Ieee.IsNumeral s.toList q) :
      Denotes (.string s) q

/-- A number between white space. -/
def IsJsonNumber (text : List Char) : Prop :=
  ∃ front body back q, text = front ++ body ++ back ∧
    (∀ c ∈ front, isJsonSpace c) ∧ (∀ c ∈ back, isJsonSpace c) ∧
    Ieee.IsNumeral body q

/-- The JSON library reads nothing but numbers as a double, and a number without
a minus sign as a double without the sign bit. -/
structure JsonParser.ReadsNumbers (json : JsonParser) : Prop where
  isNumber : ∀ {text : String} {pattern : ℕ},
    json.f64 text = some pattern → IsJsonNumber text.toList
  sign : ∀ {text : String} {pattern : ℕ},
    json.f64 text = some pattern → '-' ∉ text.toList → pattern < 2 ^ 63

/-- The image has the size that is expected and is decoded as its value. -/
def DecimalValue.IsExact {type : DecimalType} (value : DecimalValue type)
    (json : JsonParser) : Prop :=
  columnDataLength mysqlTypeNewdecimal type.colMeta = value.image.length ∧
    ∃ decoded, decodeBinlogValue (ε := String) json value.image
      mysqlTypeNewdecimal type.colMeta = .ok decoded ∧
      Denotes decoded value.toRat

/-! ## Bytes of the groups -/

/-- The first byte of a big-endian number. -/
theorem toBe_succ (width n : ℕ) :
    Bytes.toBe (width + 1) n =
      UInt8.ofNat (n / 256 ^ width) :: Bytes.toBe width n := by
  unfold Bytes.toBe
  induction width generalizing n with
  | zero => simp [Bytes.toLe]
  | succ width ih =>
      rw [Bytes.toLe, List.reverse_cons, ih, Bytes.toLe, List.reverse_cons,
        Nat.div_div_eq_div_mul, ← pow_succ']
      rfl

theorem head_toBe {width n : ℕ} {b : UInt8} {bs : Bytes}
    (h : Bytes.toBe (width + 1) n = b :: bs) :
    b.toNat = n / 256 ^ width % 256 ∧ bs = Bytes.toBe width n := by
  rw [toBe_succ] at h
  obtain ⟨hb, hbs⟩ := List.cons.inj h
  exact ⟨by rw [← hb, UInt8.toNat_ofNat'], hbs.symm⟩

/-- The first byte of a group is at most 99, and at most 59 in a group of more
than one byte. -/
theorem head_group {size n : ℕ} {b : UInt8} {bs : Bytes} (hsize : size ≤ 9)
    (hn : n < 10 ^ size) (h : Bytes.toBe (dig2bytes size) n = b :: bs) :
    b.toNat ≤ 99 ∧ (59 < b.toNat → bs = []) := by
  have hhead : ∀ width, dig2bytes size = width + 1 →
      b.toNat = n / 256 ^ width % 256 ∧ bs = Bytes.toBe width n := by
    intro width hwidth
    rw [hwidth] at h
    exact head_toBe h
  interval_cases size
  · cases h
  · obtain ⟨hb, hbs⟩ := hhead 0 rfl
    exact ⟨by omega, fun _ => hbs⟩
  · obtain ⟨hb, hbs⟩ := hhead 0 rfl
    exact ⟨by omega, fun _ => hbs⟩
  · have hb := (hhead 1 rfl).1
    omega
  · have hb := (hhead 1 rfl).1
    omega
  · have hb := (hhead 2 rfl).1
    omega
  · have hb := (hhead 2 rfl).1
    omega
  · have hb := (hhead 3 rfl).1
    omega
  · have hb := (hhead 3 rfl).1
    omega
  · have hb := (hhead 3 rfl).1
    omega

/-- The first byte of the groups is at most 99, and so is the second byte if the
first is more than 59. -/
theorem head_packDigits {sizes : List ℕ} {n : ℕ} {b : UInt8} {bs : Bytes}
    (hsizes : ∀ size ∈ sizes, size ≤ 9) (hn : n < 10 ^ sizes.sum)
    (h : packDigits sizes n = b :: bs) :
    b.toNat ≤ 99 ∧
      (59 < b.toNat → ∀ c cs, bs = c :: cs → c.toNat ≤ 99) := by
  induction sizes generalizing n b bs with
  | nil => cases h
  | cons size sizes ih =>
      rw [List.forall_mem_cons] at hsizes
      have hpos : 0 < 10 ^ sizes.sum := by positivity
      have hrest : n % 10 ^ sizes.sum < 10 ^ sizes.sum := Nat.mod_lt _ hpos
      have hfirst : n / 10 ^ sizes.sum < 10 ^ size := by
        rw [Nat.div_lt_iff_lt_mul hpos, ← pow_add]
        simpa using hn
      rw [packDigits] at h
      cases hgroup : Bytes.toBe (dig2bytes size) (n / 10 ^ sizes.sum) with
      | nil =>
          rw [hgroup, List.nil_append] at h
          exact ih hsizes.2 hrest h
      | cons g gs =>
          rw [hgroup, List.cons_append, List.cons.injEq] at h
          obtain ⟨rfl, rfl⟩ := h
          obtain ⟨hle, hone⟩ := head_group hsizes.1 hfirst hgroup
          refine ⟨hle, fun hlarge c cs hcs => ?_⟩
          rw [hone hlarge, List.nil_append] at hcs
          exact (ih hsizes.2 hrest hcs).1

theorem packDigits_ne_nil {sizes : List ℕ} (n : ℕ)
    (hsizes : ∀ size ∈ sizes, size ≤ 9) (hsum : sizes.sum ≠ 0) :
    packDigits sizes n ≠ [] := by
  induction sizes generalizing n with
  | nil => exact absurd rfl hsum
  | cons size sizes ih =>
      rw [List.forall_mem_cons] at hsizes
      rw [packDigits, ne_eq, List.append_eq_nil_iff, not_and_or]
      by_cases hzero : size = 0
      · right
        apply ih _ hsizes.2
        rw [List.sum_cons, hzero, Nat.zero_add] at hsum
        exact hsum
      · left
        intro hnil
        have hlength := congrArg List.length hnil
        rw [Bytes.length_toBe] at hlength
        have hsize := hsizes.1
        interval_cases size <;> contradiction

namespace DecimalType

variable (type : DecimalType)

theorem le_of_mem_groupSizes : ∀ size ∈ type.groupSizes, size ≤ 9 := by
  intro size hmem
  simp only [groupSizes, List.mem_cons, List.mem_append, List.mem_replicate,
    List.not_mem_nil, or_false] at hmem
  omega

theorem sum_groupSizes : type.groupSizes.sum = type.precision := by
  have hle := type.scale_le_precision
  simp only [groupSizes, List.sum_cons, List.sum_append,
    List.sum_replicate_nat, List.sum_nil]
  omega

end DecimalType

/-! ## The text of an image -/

theorem toNat_xor_of_lt {b : UInt8} (h : b.toNat < 128) :
    (b ^^^ 0x80).toNat = b.toNat + 128 := by
  have hbyte : ∀ k < 128, (UInt8.ofNat k ^^^ 0x80).toNat = k + 128 := by
    decide +kernel
  have hb := hbyte b.toNat h
  rwa [UInt8.ofNat_toNat] at hb

theorem toNat_not_xor_of_lt {b : UInt8} (h : b.toNat < 128) :
    (~~~b ^^^ 0x80).toNat = 127 - b.toNat := by
  have hbyte : ∀ k < 128, (~~~UInt8.ofNat k ^^^ 0x80).toNat = 127 - k := by
    decide +kernel
  have hb := hbyte b.toNat h
  rwa [UInt8.ofNat_toNat] at hb

theorem toNat_not (b : UInt8) : (~~~b).toNat = 255 - b.toNat := by
  have hbyte : ∀ k < 256, (~~~UInt8.ofNat k).toNat = 255 - k := by
    decide +kernel
  have hb := hbyte b.toNat b.toNat_lt
  rwa [UInt8.ofNat_toNat] at hb

namespace DecimalValue

variable {type : DecimalType} (value : DecimalValue type)

theorem exists_magnitude :
    ∃ b bs, value.magnitude = b :: bs ∧ b.toNat ≤ 99 ∧
      (59 < b.toNat → ∀ c cs, bs = c :: cs → c.toNat ≤ 99) := by
  have hsizes := type.le_of_mem_groupSizes
  have hsum := type.sum_groupSizes
  have hpos := type.precision_pos
  obtain ⟨b, bs, hbytes⟩ := List.exists_cons_of_ne_nil
    (packDigits_ne_nil value.unscaled.natAbs hsizes (by omega))
  refine ⟨b, bs, hbytes, head_packDigits hsizes ?_ hbytes⟩
  rw [hsum]
  exact value.natAbs_lt

/-- The text of a value that is not negative starts outside ASCII. -/
theorem text_of_nonneg (h : 0 ≤ value.unscaled) :
    ∃ c rest, utf8Lossy value.image = c :: rest ∧ 128 ≤ c.toNat := by
  obtain ⟨b, bs, hbytes, hle, -⟩ := value.exists_magnitude
  rw [image, if_neg (Int.not_lt.mpr h), hbytes, invertFirstBit]
  have hb := toNat_xor_of_lt (show b.toNat < 128 by omega)
  exact exists_utf8Lossy_of_le (by omega) bs

/-- The text of a negative value starts behind the digits, goes on outside ASCII
or has one character. -/
theorem text_of_neg (h : value.unscaled < 0) :
    ∃ c rest, utf8Lossy value.image = c :: rest ∧
      (68 ≤ c.toNat ∨ rest = [] ∨ ∃ d ∈ rest, 128 ≤ d.toNat) := by
  obtain ⟨b, bs, hbytes, hle, hsecond⟩ := value.exists_magnitude
  have hb := toNat_not_xor_of_lt (show b.toNat < 128 by omega)
  rw [image, if_pos h, hbytes, List.map_cons, invertFirstBit,
    utf8Lossy_cons_of_lt (by omega)]
  refine ⟨_, _, rfl, ?_⟩
  by_cases hlarge : 59 < b.toNat
  · right
    cases bs with
    | nil => exact .inl rfl
    | cons c cs =>
        have hc := hsecond hlarge c cs rfl
        have hnot := toNat_not c
        obtain ⟨d, text, htext, hd⟩ := exists_utf8Lossy_of_le
          (show 0x80 ≤ (~~~c).toNat by omega) (cs.map fun b => ~~~b)
        right
        rw [List.map_cons, htext]
        exact ⟨d, List.mem_cons_self, hd⟩
  · left
    have hchar : (~~~b ^^^ 0x80).toChar.toNat = (~~~b ^^^ 0x80).toNat := rfl
    omega

end DecimalValue

/-! ## Numbers -/

theorem lt_of_isJsonSpace {c : Char} (h : isJsonSpace c) : c.toNat < 58 := by
  simp only [isJsonSpace, Bool.or_eq_true, decide_eq_true_eq] at h
  rcases h with ((rfl | rfl) | rfl) | rfl <;> decide

theorem ascii_of_isJsonNumber {text : List Char} (h : IsJsonNumber text) :
    ∀ c ∈ text, c.toNat < 128 := by
  obtain ⟨front, body, back, q, rfl, hfront, hback, hbody⟩ := h
  intro c hc
  rw [List.mem_append, List.mem_append] at hc
  rcases hc with (hc | hc) | hc
  · exact (lt_of_isJsonSpace (hfront c hc)).trans (by decide)
  · exact Ieee.ascii_of_isNumeral hbody c hc
  · exact (lt_of_isJsonSpace (hback c hc)).trans (by decide)

theorem head_of_isJsonNumber {c : Char} {rest : List Char}
    (h : IsJsonNumber (c :: rest)) : c.toNat < 58 := by
  obtain ⟨front, body, back, q, hsplit, hfront, -, hbody⟩ := h
  cases front with
  | cons d front =>
      rw [(List.cons.inj hsplit).1]
      exact lt_of_isJsonSpace (hfront d List.mem_cons_self)
  | nil =>
      obtain ⟨d, body, rfl, hd⟩ := Ieee.head_of_isNumeral hbody
      rwa [(List.cons.inj hsplit).1]

theorem not_isJsonNumber_minus : ¬ IsJsonNumber ['-'] := by
  rintro ⟨front, body, back, q, hsplit, hfront, -, hbody⟩
  cases front with
  | cons d front =>
      have hspace := hfront d List.mem_cons_self
      rw [← (List.cons.inj hsplit).1] at hspace
      exact absurd hspace (by decide)
  | nil =>
      obtain ⟨d, body, rfl, -⟩ := Ieee.head_of_isNumeral hbody
      obtain ⟨rfl, hnil⟩ := List.cons.inj hsplit
      rw [(List.append_eq_nil_iff.mp hnil.symm).1] at hbody
      exact Ieee.not_isNumeral_minus q hbody

/-- A double that denotes a negative number has the sign bit. -/
theorem le_of_denotes_ofF64 {pattern : ℕ} {q : ℚ}
    (h : Denotes (.ofF64 pattern) q) (hq : q < 0) : 2 ^ 63 ≤ pattern := by
  by_contra hlt
  unfold Value.ofF64 at h
  split_ifs at h
  · cases h with
    | float =>
        have hnonneg : 0 ≤ Ieee.toRat Ieee.binary64
            (UInt64.ofNat pattern).toNat := by
          apply Ieee.toRat_nonneg
          rw [UInt64.toNat_ofNat']
          exact (Nat.mod_le _ _).trans_lt (Nat.not_le.mp hlt)
        exact absurd hq (not_lt.mpr hnonneg)
  · cases h

/-- What a decimal is decoded as. -/
def decimalOfText (json : JsonParser) (text : String) : Value :=
  match json.f64 text with
  | some pattern => .ofF64 pattern
  | none => .string text

/-- A text outside ASCII denotes no number. -/
theorem not_denotes_of_nonAscii {json : JsonParser} (hjson : json.ReadsNumbers)
    {text : String} {c : Char} (hmem : c ∈ text.toList) (hc : 128 ≤ c.toNat)
    (q : ℚ) : ¬ Denotes (decimalOfText json text) q := by
  unfold decimalOfText
  cases hread : json.f64 text with
  | some pattern =>
      have hascii := ascii_of_isJsonNumber (hjson.isNumber hread) c hmem
      omega
  | none =>
      intro h
      cases h with
      | text h =>
          have hascii := Ieee.ascii_of_isNumeral h c hmem
          omega

/-- A text of one character, or that starts behind the digits, denotes no
negative number. -/
theorem not_denotes_of_neg {json : JsonParser} (hjson : json.ReadsNumbers)
    {text : String} {c : Char} {rest : List Char} (htext : text.toList = c :: rest)
    (hc : 68 ≤ c.toNat ∨ rest = []) {q : ℚ} (hq : q < 0) :
    ¬ Denotes (decimalOfText json text) q := by
  unfold decimalOfText
  cases hread : json.f64 text with
  | some pattern =>
      intro h
      have hnumber := hjson.isNumber hread
      have hsign : '-' ∈ text.toList := by
        by_contra hfree
        exact absurd (hjson.sign hread hfree)
          (Nat.not_lt.mpr (le_of_denotes_ofF64 h hq))
      rw [htext] at hnumber hsign
      have hhead := head_of_isJsonNumber hnumber
      have hnil : rest = [] := hc.resolve_left (by omega)
      rw [hnil] at hnumber hsign
      rw [← List.mem_singleton.mp hsign] at hnumber
      exact not_isJsonNumber_minus hnumber
  | none =>
      intro h
      cases h with
      | text h =>
          obtain ⟨d, rest', hminus⟩ := Ieee.eq_minus_of_isNumeral h hq
          rw [htext, List.cons.injEq] at hminus
          obtain ⟨rfl, rfl⟩ := hminus
          rcases hc with hlarge | hnil
          · exact absurd hlarge (by decide)
          · cases hnil

namespace DecimalValue

variable {type : DecimalType}

theorem image_ne_nil (value : DecimalValue type) : value.image ≠ [] := by
  intro hnil
  rcases Int.lt_or_le value.unscaled 0 with hneg | hnonneg
  · obtain ⟨c, rest, htext, -⟩ := value.text_of_neg hneg
    rw [hnil] at htext
    cases htext
  · obtain ⟨c, rest, htext, -⟩ := value.text_of_nonneg hnonneg
    rw [hnil] at htext
    cases htext

theorem decode_image (value : DecimalValue type) (json : JsonParser)
    (colMeta : UInt16) :
    decodeBinlogValue (ε := ε) json value.image mysqlTypeNewdecimal colMeta =
      .ok (decimalOfText json (fromUtf8Lossy value.image)) := by
  have hdecimal : decodeBinlogValue (ε := ε) json value.image
      mysqlTypeNewdecimal colMeta = decodeDecimal json value.image := rfl
  rw [hdecimal, decodeDecimal, if_neg value.image_ne_nil]
  rfl

/-- No decimal is decoded as its value. -/
theorem not_denotes_image (value : DecimalValue type) {json : JsonParser}
    (hjson : json.ReadsNumbers) :
    ¬ Denotes (decimalOfText json (fromUtf8Lossy value.image)) value.toRat := by
  have htoList : (fromUtf8Lossy value.image).toList = utf8Lossy value.image :=
    String.toList_ofList
  rcases Int.lt_or_le value.unscaled 0 with hneg | hnonneg
  · have hq : value.toRat < 0 := by
      unfold toRat
      exact div_neg_of_neg_of_pos (by exact_mod_cast hneg) (by positivity)
    obtain ⟨c, rest, htext, hcase⟩ := value.text_of_neg hneg
    rw [htext] at htoList
    rcases hcase with hlarge | hnil | ⟨d, hmem, hd⟩
    · exact not_denotes_of_neg hjson htoList (.inl hlarge) hq
    · exact not_denotes_of_neg hjson htoList (.inr hnil) hq
    · apply not_denotes_of_nonAscii hjson _ hd
      rw [htoList]
      exact List.mem_cons_of_mem _ hmem
  · obtain ⟨c, rest, htext, hc⟩ := value.text_of_nonneg hnonneg
    apply not_denotes_of_nonAscii hjson _ hc
    rw [htoList, htext]
    exact List.mem_cons_self

theorem not_isExact_decimal (value : DecimalValue type) {json : JsonParser}
    (hjson : json.ReadsNumbers) : ¬ value.IsExact json := by
  rintro ⟨-, decoded, hdecode, hdenotes⟩
  rw [decode_image] at hdecode
  rw [← Outcome.ok.inj hdecode] at hdenotes
  exact value.not_denotes_image hjson hdenotes

/-- The value 1234.56 of a DECIMAL(10, 2) column. -/
def price : DecimalValue ⟨10, 2, by decide, by decide, by decide, by decide⟩ :=
  ⟨123456, by decide⟩

theorem readsNumbers_none : JsonParser.ReadsNumbers
    ⟨fun _ => none, fun _ => none⟩ :=
  ⟨fun h => (nomatch h), fun h => (nomatch h)⟩

theorem not_isExact_price :
    ¬ price.IsExact ⟨fun _ => none, fun _ => none⟩ :=
  not_isExact_decimal price readsNumbers_none

/-- The image of 1234.56 has five bytes where six are expected, and is decoded as
a text with a replacement character. -/
theorem decode_price :
    price.image = [0x80, 0, 4, 0xD2, 0x38] ∧
      columnDataLength mysqlTypeNewdecimal (10 + 256 * 2) = 6 ∧
      decodeBinlogValue (ε := String) ⟨fun _ => none, fun _ => none⟩ price.image
        mysqlTypeNewdecimal (10 + 256 * 2) =
          .ok (.string (String.ofList
            [replacementChar, '\x00', '\x04', replacementChar, '8'])) ∧
      ¬ price.IsExact ⟨fun _ => none, fun _ => none⟩ := by
  have himage : price.image = [0x80, 0, 4, 0xD2, 0x38] := by decide +kernel
  refine ⟨himage, by decide, ?_, ?_⟩
  · rw [decode_image, himage]
    rfl
  · intro h
    have hlength := h.1
    rw [himage] at hlength
    exact absurd hlength (by decide)

end DecimalValue
end OpenCdc.Mysql

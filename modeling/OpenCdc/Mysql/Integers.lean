import OpenCdc.Mysql.RowImage

/-!
# Signed and unsigned integer columns

The bytes of an integer column are read with or without a sign, as a flag of
the metadata says.  Only the two narrow types look at the flag.
-/

namespace OpenCdc.Mysql

open Foundation Json

/-- The integer types whose values may have a sign. -/
inductive SignedType where
  | tiny
  | short
  | long
  | int24
  | longlong
deriving DecidableEq, Repr

namespace SignedType

def colType : SignedType → UInt8
  | tiny => mysqlTypeTiny
  | short => mysqlTypeShort
  | long => mysqlTypeLong
  | int24 => mysqlTypeInt24
  | longlong => mysqlTypeLonglong

/-- The bytes that `decode_binlog_value` reads. -/
def width : SignedType → ℕ
  | tiny => 1
  | short => 2
  | long => 4
  | int24 => 4
  | longlong => 8

/-- The types that are decoded without a look at the flag. -/
def ignoresFlag : SignedType → Bool
  | tiny => false
  | short => false
  | _ => true

end SignedType

/-- An integer in the signed range of the type. -/
structure SignedValue (type : SignedType) where
  value : ℤ
  low : -(256 ^ type.width / 2) ≤ value
  high : value < 256 ^ type.width / 2

namespace SignedValue

variable {type : SignedType}

/-- What the two's complement of the value denotes without a sign. -/
def unsigned (v : SignedValue type) : ℕ :=
  (v.value % 256 ^ type.width).toNat

/-- The two's complement, least significant byte first. -/
def bytes (v : SignedValue type) : Bytes := Bytes.toLe type.width v.unsigned

/-- The integer that the column holds. -/
def stored (v : SignedValue type) (colMeta : UInt16) : ℤ :=
  if isSigned colMeta then v.value else v.unsigned

/-- The value is decoded as the integer that the column holds. -/
def IsExact (v : SignedValue type) (json : JsonParser) (colMeta : UInt16) :
    Prop :=
  decodeBinlogValue (ε := String) json v.bytes type.colType colMeta =
    .ok (if v.stored colMeta ≤ 2 ^ 63 - 1 then .ofInt (v.stored colMeta)
      else .string (toString (v.stored colMeta)))

/-! ## Two's complement -/

theorem unsigned_lt (v : SignedValue type) :
    v.unsigned < 256 ^ type.width := by
  have hpos : (0 : ℤ) < 256 ^ type.width := by positivity
  have hlt := Int.emod_lt_of_pos v.value hpos
  have hnonneg := Int.emod_nonneg v.value hpos.ne'
  unfold unsigned
  zify
  rwa [Int.toNat_of_nonneg hnonneg]

theorem unsigned_of_nonneg (v : SignedValue type) (h : 0 ≤ v.value) :
    (v.unsigned : ℤ) = v.value := by
  have hhigh := v.high
  have hmod : v.value % 256 ^ type.width = v.value :=
    Int.emod_eq_of_lt h (by omega)
  rw [unsigned, hmod, Int.toNat_of_nonneg h]

theorem unsigned_of_neg (v : SignedValue type) (h : v.value < 0) :
    (v.unsigned : ℤ) = v.value + 256 ^ type.width := by
  have hlow := v.low
  have hmod : v.value % 256 ^ type.width = v.value + 256 ^ type.width := by
    rw [← Int.add_emod_right, Int.emod_eq_of_lt (by omega) (by omega)]
  rw [unsigned, hmod, Int.toNat_of_nonneg (by omega)]

/-- The signed reading of the bytes. -/
theorem bmod_unsigned (v : SignedValue type) :
    (v.unsigned : ℤ).bmod (256 ^ type.width) = v.value := by
  have hlow := v.low
  have hhigh := v.high
  have hpos : 0 < 256 ^ type.width := by positivity
  rw [Int.bmod_eq_iff hpos]
  push_cast
  refine ⟨by omega, by omega, ?_⟩
  rcases Int.lt_or_le v.value 0 with hneg | hnonneg
  · rw [v.unsigned_of_neg hneg]
    exact ⟨-1, by ring⟩
  · rw [v.unsigned_of_nonneg hnonneg]
    exact ⟨0, by ring⟩

/-! ## Decoding -/

/-- What the decoder makes of the bytes. -/
theorem decode_bytes (v : SignedValue type) (json : JsonParser)
    (colMeta : UInt16) :
    decodeBinlogValue (ε := String) json v.bytes type.colType colMeta =
      .ok (if isSigned colMeta ∧ type.ignoresFlag = false then .ofInt v.value
        else unsignedToJson v.unsigned) := by
  have hlt := v.unsigned_lt
  have hsign := v.bmod_unsigned
  have hread : readLe (ε := String) type.width v.bytes = .ok v.unsigned :=
    readLe_toLe hlt
  cases type with
  | tiny =>
      have hbyte : (UInt8.ofNat v.unsigned).toNat = v.unsigned := by
        rw [UInt8.toNat_ofNat']
        exact Nat.mod_eq_of_lt hlt
      have hint : (v.unsigned : ℤ).bmod Int8.size = v.value := hsign
      have hat : Bytes.byteAt (ε := String) v.bytes 0 =
          .ok (UInt8.ofNat v.unsigned) := rfl
      rw [unsignedToJson_of_lt (lt_trans hlt (by decide))]
      simp [decodeBinlogValue, SignedType.colType, mysqlTypeTiny, hat, hbyte,
        hint, SignedType.ignoresFlag]
  | short =>
      have hint : (v.unsigned : ℤ).bmod Int16.size = v.value := hsign
      rw [unsignedToJson_of_lt (lt_trans hlt (by decide))]
      rw [SignedType.width] at hread
      simp [decodeBinlogValue, SignedType.colType, mysqlTypeTiny,
        mysqlTypeShort, hread, hint, SignedType.ignoresFlag]
  | long =>
      rw [unsignedToJson_of_lt (lt_trans hlt (by decide))]
      rw [SignedType.width] at hread
      simp [decodeBinlogValue, SignedType.colType, mysqlTypeTiny,
        mysqlTypeShort, mysqlTypeLong, hread, SignedType.ignoresFlag]
  | int24 =>
      rw [unsignedToJson_of_lt (lt_trans hlt (by decide))]
      rw [SignedType.width] at hread
      simp [decodeBinlogValue, SignedType.colType, mysqlTypeTiny,
        mysqlTypeShort, mysqlTypeInt24, hread, SignedType.ignoresFlag]
  | longlong =>
      rw [SignedType.width] at hread
      simp [decodeBinlogValue, SignedType.colType, mysqlTypeTiny,
        mysqlTypeShort, mysqlTypeLong, mysqlTypeInt24, mysqlTypeLonglong,
        hread, SignedType.ignoresFlag]

theorem ofInt_ne_of_neg_of_nonneg {m n : ℤ} (hm : m < 0) (hn : 0 ≤ n) :
    Value.ofInt m ≠ Value.ofInt n := by
  simp [Value.ofInt, Number.ofInt, Int.not_le.mpr hm, hn]

/-- An unsigned value is decoded as it is. -/
theorem unsignedToJson_eq (n : ℕ) :
    unsignedToJson n = if (n : ℤ) ≤ 2 ^ 63 - 1 then .ofInt n
      else .string (toString (n : ℤ)) := by
  unfold unsignedToJson
  by_cases hlarge : 2 ^ 63 - 1 < n
  · rw [if_pos hlarge, if_neg (by omega)]
    rfl
  · rw [if_neg hlarge, if_pos (by omega)]

theorem value_le (v : SignedValue type) : v.value ≤ 2 ^ 63 - 1 := by
  have hhigh := v.high
  cases type with
  | tiny => exact le_trans (Int.le_sub_one_of_lt hhigh) (by decide)
  | short => exact le_trans (Int.le_sub_one_of_lt hhigh) (by decide)
  | long => exact le_trans (Int.le_sub_one_of_lt hhigh) (by decide)
  | int24 => exact le_trans (Int.le_sub_one_of_lt hhigh) (by decide)
  | longlong => exact Int.le_sub_one_of_lt hhigh

/-- A negative value is not what its unsigned reading shows. -/
theorem unsignedToJson_ne (v : SignedValue type) (h : v.value < 0) :
    unsignedToJson v.unsigned ≠ .ofInt v.value := by
  unfold unsignedToJson
  by_cases hlarge : 2 ^ 63 - 1 < v.unsigned
  · rw [if_pos hlarge]
    unfold Value.ofInt
    exact nofun
  · rw [if_neg hlarge]
    exact (ofInt_ne_of_neg_of_nonneg h (Int.natCast_nonneg _)).symm

/-- A value is decoded exactly unless it is a negative one of a signed column
whose type is decoded without a look at the flag. -/
theorem isExact_iff (v : SignedValue type) (json : JsonParser)
    (colMeta : UInt16) :
    v.IsExact json colMeta ↔
      ¬ (isSigned colMeta ∧ v.value < 0 ∧ type.ignoresFlag) := by
  unfold IsExact stored
  rw [v.decode_bytes]
  by_cases hsigned : isSigned colMeta
  · simp only [hsigned, if_true, v.value_le, true_and, Outcome.ok.injEq]
    by_cases hignores : type.ignoresFlag
    · simp only [hignores, Bool.true_eq_false, if_false, and_true]
      constructor
      · intro heq hneg
        exact v.unsignedToJson_ne hneg heq
      · intro hnonneg
        have hvalue := v.unsigned_of_nonneg (Int.not_lt.mp hnonneg)
        have hle := v.value_le
        rw [unsignedToJson_eq, hvalue, if_pos hle]
    · simp [hignores]
  · simp [hsigned, unsignedToJson_eq]

/-- A signed `INT` of -1 is decoded as 4294967295. -/
theorem not_isExact_neg_one :
    ¬ (⟨-1, by decide, by decide⟩ : SignedValue .long).IsExact
      ⟨fun _ => none, fun _ => none⟩ 0x80 := by
  unfold IsExact
  rw [decode_bytes]
  simp [SignedType.ignoresFlag, unsignedToJson, unsigned, stored, isSigned,
    SignedType.width, Value.ofInt, Number.ofInt]

end SignedValue
end OpenCdc.Mysql

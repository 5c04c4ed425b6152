import Mathlib.Data.List.Forall2
import OpenCdc.Foundation.Format
import OpenCdc.Mysql.Binlog

/-!
# Row images of integer columns

The layout that the server gives the rows of integer columns: length-encoded
counts, bitmaps with one bit for each column, and for each row a null bitmap
and the values that are not NULL.  `read_row` reads such an image back as long
as the width it expects of a value is the one that the server writes.
-/

namespace OpenCdc.Mysql

open Foundation Json

variable {ε : Type}

/-! ## Counts and bitmaps -/

/-- `bytes` is a length-encoded form of `n`. -/
inductive LengthEncoded : ℕ → Bytes → Prop
  | one (n : ℕ) (h : n < 251) : LengthEncoded n [UInt8.ofNat n]
  | two (n : ℕ) (h : n < 256 ^ 2) : LengthEncoded n (252 :: Bytes.toLe 2 n)
  | three (n : ℕ) (h : n < 256 ^ 3) : LengthEncoded n (253 :: Bytes.toLe 3 n)
  | eight (n : ℕ) (h : n < 256 ^ 8) : LengthEncoded n (254 :: Bytes.toLe 8 n)

/-- A bitmap with the given bits in front; the padding is arbitrary. -/
def IsBitmap (bits : List Bool) (bytes : Bytes) : Prop :=
  bytes.length = (bits.length + 7) / 8 ∧
    (bitsOf bytes).take bits.length = bits

instance (bits : List Bool) (bytes : Bytes) : Decidable (IsBitmap bits bytes) :=
  inferInstanceAs (Decidable (_ ∧ _))

/-- A bitmap with the given bits, padded with zeros. -/
def bitmapOf (bits : List Bool) : Bytes :=
  (List.range ((bits.length + 7) / 8)).map fun k =>
    UInt8.ofNat (Nat.ofBits fun i : Fin 8 => bits.getD (8 * k + i) false)

theorem bytesAt_append {front bs rest : Bytes} {start width : ℕ}
    (hstart : front.length = start) (hwidth : bs.length = width) :
    Bytes.bytesAt (ε := ε) (front ++ (bs ++ rest)) start width = .ok bs := by
  rw [Bytes.bytesAt_eq_ok_iff]
  refine ⟨hwidth, ?_⟩
  rw [← hstart, List.drop_left]
  exact List.prefix_append bs rest

theorem packedAfterFirst_toLe {width n : ℕ} (b : UInt8) (rest : Bytes)
    (h : n < 256 ^ width) :
    packedAfterFirst (ε := ε) width (b :: (Bytes.toLe width n ++ rest)) =
      .ok (n, width + 1) := by
  have hbytes : Bytes.bytesAt (ε := ε)
      ([b] ++ (Bytes.toLe width n ++ rest)) 1 width =
        .ok (Bytes.toLe width n) :=
    bytesAt_append rfl (Bytes.length_toLe _ _)
  have hvalue : Bytes.ofLe (Bytes.toLe width n) = n := by
    rw [Bytes.ofLe_toLe, Nat.mod_eq_of_lt h]
  unfold packedAfterFirst
  rw [show b :: (Bytes.toLe width n ++ rest) =
    [b] ++ (Bytes.toLe width n ++ rest) from rfl, hbytes]
  simp [hvalue]

/-- A length-encoded count is read back. -/
theorem readPackedInt_eq {n : ℕ} {count : Bytes} (h : LengthEncoded n count)
    (rest : Bytes) :
    readPackedInt (ε := ε) (count ++ rest) = .ok (n, count.length) := by
  cases h with
  | one hn =>
      have hbyte : (UInt8.ofNat n).toNat = n := by
        rw [UInt8.toNat_ofNat']
        omega
      have hlt : UInt8.ofNat n < 251 := by
        rw [UInt8.lt_iff_toNat_lt, hbyte]
        exact hn
      simp [readPackedInt, hlt, hbyte]
  | two hn => exact packedAfterFirst_toLe 252 rest hn
  | three hn => exact packedAfterFirst_toLe 253 rest hn
  | eight hn => exact packedAfterFirst_toLe 254 rest hn

theorem exists_lengthEncoded {n : ℕ} (h : n < 2 ^ 64) :
    ∃ count, LengthEncoded n count :=
  ⟨_, .eight n h⟩

theorem lengthEncoded_length {n : ℕ} {count : Bytes}
    (h : LengthEncoded n count) : 0 < count.length ∧ count.length ≤ 9 := by
  cases h with
  | one => simp
  | two => simp
  | three => simp
  | eight => simp

/-- Bit `j` of the bytes stands in byte `j / 8`. -/
theorem getElem?_bitsOf (bytes : Bytes) {j : ℕ} (hj : j < 8 * bytes.length) :
    (bitsOf bytes)[j]? =
      some ((bytes.getD (j / 8) 0).toNat.testBit (j % 8)) := by
  induction bytes generalizing j with
  | nil => simp at hj
  | cons b bytes ih =>
      simp only [bitsOf, List.flatMap_cons] at ih ⊢
      by_cases hfirst : j < 8
      · rw [List.getElem?_append_left (by simpa using hfirst)]
        have hdiv : j / 8 = 0 := by omega
        have hmod : j % 8 = j := by omega
        simp [hdiv, hmod, hfirst]
      · rw [List.getElem?_append_right (by simpa using hfirst)]
        simp only [List.length_map, List.length_range, List.length_cons] at hj ⊢
        have hdiv : j / 8 = (j - 8) / 8 + 1 := by omega
        have hmod : (j - 8) % 8 = j % 8 := by omega
        rw [ih (by omega), hdiv, hmod, List.getD_cons_succ]

theorem isBitmap_bitmapOf (bits : List Bool) :
    IsBitmap bits (bitmapOf bits) := by
  have hlength : (bitmapOf bits).length = (bits.length + 7) / 8 := by
    simp [bitmapOf]
  refine ⟨hlength, ?_⟩
  apply List.ext_getElem?
  intro j
  by_cases hj : j < bits.length
  · have hbyte : j / 8 < (bits.length + 7) / 8 := by omega
    have hlt : ∀ f : Fin 8 → Bool, Nat.ofBits f < 256 :=
      fun f => Nat.ofBits_lt_two_pow f
    have hsame : 8 * (j / 8) + j % 8 = j := Nat.div_add_mod j 8
    rw [List.getElem?_take_of_lt hj,
      getElem?_bitsOf _ (by rw [hlength]; omega)]
    simp [bitmapOf, hbyte, Nat.mod_eq_of_lt (hlt _),
      Nat.testBit_ofBits_lt _ _ (Nat.mod_lt j (by decide : 0 < 8)), hsame, hj]
  · rw [List.getElem?_eq_none (by simp; omega),
      List.getElem?_eq_none (by omega)]

/-- The bits that `read_row` looks up are those of the bitmap. -/
theorem getD_bitsOf_of_isBitmap {bits : List Bool} {bytes : Bytes}
    (h : IsBitmap bits bytes) {i : ℕ} (hi : i < bits.length) :
    (bitsOf bytes).getD i false = bits.getD i false := by
  obtain ⟨-, htake⟩ := h
  rw [List.getD_eq_getElem?_getD, List.getD_eq_getElem?_getD,
    ← List.getElem?_take_of_lt hi, htake]

/-- Behind a positive count, the bits are those of as many bytes as they
take. -/
theorem readBitset_of_le {n : ℕ} {count rest : Bytes}
    (hcount : LengthEncoded n count) (hn : 0 < n)
    (hrest : (n + 7) / 8 ≤ rest.length) :
    readBitset (ε := ε) (count ++ rest) =
      .ok ((bitsOf (rest.take ((n + 7) / 8))).take n, n,
        count.length + (n + 7) / 8) := by
  have hlength := (lengthEncoded_length hcount).1
  have hlong : ¬(count ++ rest).length < count.length + (n + 7) / 8 := by
    rw [List.length_append]
    omega
  have hslice : Bytes.slice (ε := ε) (count ++ rest) count.length
      (count.length + (n + 7) / 8) = .ok (rest.take ((n + 7) / 8)) := by
    rw [Bytes.slice, if_pos (by omega), List.drop_left,
      Nat.add_sub_cancel_left]
  unfold readBitset
  rw [readPackedInt_eq hcount, Outcome.ok_bind]
  dsimp only
  rw [if_neg (by omega), if_neg hlong, hslice]
  rfl

/-- A positive count is passed over together with the bitmap behind it, whether
or not the data reaches that far. -/
theorem readBitset_eq {n : ℕ} {count : Bytes} (hcount : LengthEncoded n count)
    (hn : 0 < n) (rest : Bytes) :
    ∃ bits, readBitset (ε := ε) (count ++ rest) =
      .ok (bits, n, count.length + (n + 7) / 8) := by
  by_cases hrest : (n + 7) / 8 ≤ rest.length
  · exact ⟨_, readBitset_of_le hcount hn hrest⟩
  · have hlength := (lengthEncoded_length hcount).1
    have hshort : (count ++ rest).length < count.length + (n + 7) / 8 := by
      rw [List.length_append]
      omega
    unfold readBitset
    rw [readPackedInt_eq hcount, Outcome.ok_bind]
    dsimp only
    rw [if_neg (by omega)]
    exact ⟨[], if_pos hshort⟩

/-- A bitmap behind the number of its bits is read back. -/
theorem readBitset_of_isBitmap {bits : List Bool} {count bytes : Bytes}
    (hcount : LengthEncoded bits.length count) (hne : bits ≠ [])
    (h : IsBitmap bits bytes) (rest : Bytes) :
    readBitset (ε := ε) (count ++ (bytes ++ rest)) =
      .ok (bits, bits.length, count.length + bytes.length) := by
  obtain ⟨hlength, htake⟩ := h
  have hrest : (bits.length + 7) / 8 ≤ (bytes ++ rest).length := by
    rw [← hlength, List.length_append]
    exact Nat.le_add_right _ _
  rw [readBitset_of_le hcount (List.length_pos_iff.mpr hne) hrest, ← hlength,
    List.take_left, htake]

/-! ## Integer columns and their rows -/

/-- The column types that hold an integer of a fixed width. -/
inductive IntegerType where
  | tiny
  | short
  | int24
  | long
  | longlong
  | timestamp
deriving DecidableEq, Repr

namespace IntegerType

def colType : IntegerType → UInt8
  | tiny => mysqlTypeTiny
  | short => mysqlTypeShort
  | int24 => mysqlTypeInt24
  | long => mysqlTypeLong
  | longlong => mysqlTypeLonglong
  | timestamp => mysqlTypeTimestamp

/-- The bytes that the server writes for a value. -/
def width : IntegerType → ℕ
  | tiny => 1
  | short => 2
  | int24 => 3
  | long => 4
  | longlong => 8
  | timestamp => 4

end IntegerType

/-- The values of a row, NULL or an unsigned integer of the column's width. -/
inductive IntegerRow : List IntegerType → Type
  | nil : IntegerRow []
  | cons {type : IntegerType} {types : List IntegerType}
      (cell : Option (Fin (256 ^ type.width))) (row : IntegerRow types) :
      IntegerRow (type :: types)

namespace IntegerRow

variable {type : IntegerType} {types : List IntegerType}

/-- The null bits, one for each column. -/
def nulls : {types : List IntegerType} → IntegerRow types → List Bool
  | _, nil => []
  | _, cons cell row => cell.isNone :: row.nulls

/-- The values that are not NULL, one behind the other. -/
def valueBytes : {types : List IntegerType} → IntegerRow types → Bytes
  | _, nil => []
  | _, cons none row => row.valueBytes
  | type :: _, cons (some n) row =>
      Bytes.toLe type.width n ++ row.valueBytes

/-- The row as JSON values: a decimal text where the integer exceeds a signed
64-bit one. -/
def values : {types : List IntegerType} → IntegerRow types → List Value
  | _, nil => []
  | _, cons none row => .null :: row.values
  | _, cons (some n) row => unsignedToJson n :: row.values

/-- The row as the parser returns it. -/
def event (row : IntegerRow types) : RowEvent := ⟨row.values⟩

/-- No value of the row is of the type that the parser takes to be wider than
it is. -/
def Readable : {types : List IntegerType} → IntegerRow types → Prop
  | _, nil => True
  | type :: _, cons cell row =>
      (cell ≠ none → type ≠ .int24) ∧ row.Readable

@[simp] theorem length_nulls (row : IntegerRow types) :
    row.nulls.length = types.length := by
  induction row with
  | nil => rfl
  | cons cell row ih => simp [nulls, ih]

@[simp] theorem length_values (row : IntegerRow types) :
    row.values.length = types.length := by
  induction row with
  | nil => rfl
  | cons cell row ih => cases cell <;> simp [values, ih]

theorem readable_of_not_mem (row : IntegerRow types)
    (h : IntegerType.int24 ∉ types) : row.Readable := by
  induction row with
  | nil => trivial
  | cons cell row ih =>
      rw [List.mem_cons, not_or] at h
      exact ⟨fun _ => Ne.symm h.1, ih h.2⟩

/-- The row without a value. -/
def null : (types : List IntegerType) → IntegerRow types
  | [] => nil
  | _ :: types => cons none (null types)

theorem readable_null (types : List IntegerType) : (null types).Readable := by
  induction types with
  | nil => trivial
  | cons type types ih => exact ⟨fun hcell => absurd rfl hcell, ih⟩

@[simp] theorem valueBytes_null (types : List IntegerType) :
    (null types).valueBytes = [] := by
  induction types with
  | nil => rfl
  | cons type types ih => exact ih

theorem nulls_null (types : List IntegerType) :
    (null types).nulls = List.replicate types.length true := by
  induction types with
  | nil => rfl
  | cons type types ih => simp [null, nulls, ih, List.replicate_succ]

/-- JSON shows which values are NULL. -/
theorem eq_null_of_values_eq {row : IntegerRow types}
    (h : row.values = (null types).values) : row = null types := by
  induction row with
  | nil => rfl
  | cons cell row ih =>
      cases cell with
      | none =>
          rw [ih (by simpa [values, null] using h)]
          rfl
      | some n =>
          have hhead : unsignedToJson n = .null := by
            simp only [values, null, List.cons.injEq] at h
            exact h.1
          unfold unsignedToJson Value.ofInt at hhead
          split at hhead <;> cases hhead

/-- What the column loop goes over: the null bit, the type and the metadata of
each column. -/
def columns : {types : List IntegerType} → IntegerRow types →
    List (Bool × UInt8 × UInt16)
  | _, nil => []
  | type :: _, cons cell row => (cell.isNone, type.colType, 0) :: row.columns

end IntegerRow

/-- The image of a row: its null bitmap, then its values. -/
def IsRowImage {types : List IntegerType} : Format (IntegerRow types) :=
  fun row image => ∃ bitmap, IsBitmap row.nulls bitmap ∧
    image = bitmap ++ row.valueBytes

theorem exists_isRowImage {types : List IntegerType} (row : IntegerRow types) :
    ∃ image, IsRowImage row image :=
  ⟨_, bitmapOf row.nulls, isBitmap_bitmapOf row.nulls, rfl⟩

/-! ## Reading a row -/

theorem columnDataLength_colType {type : IntegerType} (h : type ≠ .int24) :
    columnDataLength type.colType 0 = type.width := by
  cases type with
  | int24 => exact absurd rfl h
  | _ => rfl

theorem readLe_toLe {width n : ℕ} (h : n < 256 ^ width) :
    readLe (ε := ε) width (Bytes.toLe width n) = .ok n := by
  have hbytes : Bytes.bytesAt (ε := ε) (Bytes.toLe width n) 0 width =
      .ok (Bytes.toLe width n) := by
    rw [Bytes.bytesAt_eq_ok_iff]
    exact ⟨Bytes.length_toLe _ _, List.prefix_refl _⟩
  simp [readLe, hbytes, Bytes.ofLe_toLe, Nat.mod_eq_of_lt h]

theorem unsignedToJson_of_lt {n : ℕ} (h : n < 2 ^ 63) :
    unsignedToJson n = Value.ofInt n := by
  unfold unsignedToJson
  rw [if_neg (by omega)]

/-- A value in the width that the parser expects is decoded as the integer it
stands for. -/
theorem decodeBinlogValue_toLe (json : JsonParser) {type : IntegerType}
    (htype : type ≠ .int24) {n : ℕ} (hn : n < 256 ^ type.width) :
    decodeBinlogValue (ε := ε) json (Bytes.toLe type.width n) type.colType 0 =
      .ok (unsignedToJson n) := by
  cases type with
  | int24 => exact absurd rfl htype
  | tiny =>
      have hlt : n < 256 := hn
      have hbyte : (UInt8.ofNat n).toNat = n := by
        rw [UInt8.toNat_ofNat']
        omega
      rw [unsignedToJson_of_lt (by omega)]
      nth_rewrite 2 [← hbyte]
      rfl
  | short =>
      have hlt : n < 65536 := hn
      have hread : readLe (ε := ε) 2 (Bytes.toLe 2 n) = .ok n := readLe_toLe hn
      simp [decodeBinlogValue, IntegerType.colType, IntegerType.width,
        mysqlTypeTiny, mysqlTypeShort, hread, isSigned,
        unsignedToJson_of_lt (show n < 2 ^ 63 by omega)]
  | long =>
      have hlt : n < 4294967296 := hn
      have hread : readLe (ε := ε) 4 (Bytes.toLe 4 n) = .ok n := readLe_toLe hn
      simp [decodeBinlogValue, IntegerType.colType, IntegerType.width,
        mysqlTypeTiny, mysqlTypeShort, mysqlTypeLong, hread,
        unsignedToJson_of_lt (show n < 2 ^ 63 by omega)]
  | longlong =>
      have hread : readLe (ε := ε) 8 (Bytes.toLe 8 n) = .ok n := readLe_toLe hn
      simp [decodeBinlogValue, IntegerType.colType, IntegerType.width,
        mysqlTypeTiny, mysqlTypeShort, mysqlTypeLong, mysqlTypeInt24,
        mysqlTypeLonglong, hread]
  | timestamp =>
      have hlt : n < 4294967296 := hn
      have hread : readLe (ε := ε) 4 (Bytes.toLe 4 n) = .ok n := readLe_toLe hn
      simp [decodeBinlogValue, IntegerType.colType, IntegerType.width,
        mysqlTypeTiny, mysqlTypeShort, mysqlTypeLong, mysqlTypeInt24,
        mysqlTypeLonglong, mysqlTypeFloat, mysqlTypeDouble, mysqlTypeDate,
        mysqlTypeDatetime, mysqlTypeDatetime2, mysqlTypeTimestamp, hread,
        unsignedToJson_of_lt (show n < 2 ^ 63 by omega)]

theorem width_pos (type : IntegerType) : 0 < type.width := by
  cases type <;> decide

/-- The column loop reads the values of a row where they stand. -/
theorem readColumns_eq (json : JsonParser) {types : List IntegerType}
    {row : IntegerRow types} (hreadable : row.Readable) {data : Bytes}
    {pos : ℕ} (hpos : pos ≤ data.length)
    (hvalues : row.valueBytes <+: data.drop pos) :
    readColumns (ε := ε) json data row.columns pos =
      .ok (row.values, pos + row.valueBytes.length) := by
  induction row generalizing pos with
  | nil => rfl
  | @cons type types cell row ih =>
      cases cell with
      | none =>
          have hrest := ih hreadable.2 hpos hvalues
          simp only [IntegerRow.columns, readColumns, Option.isNone_none,
            if_true, Outcome.pure_eq, Outcome.ok_bind, hrest]
          rfl
      | some n =>
          have htype : type ≠ .int24 := hreadable.1 (by simp)
          simp only [IntegerRow.valueBytes,
            Bytes.append_isPrefix_drop_iff, Bytes.length_toLe] at hvalues
          obtain ⟨hvalue, hrow⟩ := hvalues
          have hend := end_le_of_isPrefix_drop hpos hvalue
          rw [Bytes.length_toLe] at hend
          have hslice := Bytes.slice_eq_ok (ε := ε) hpos hvalue
          rw [Bytes.length_toLe] at hslice
          have hrest := ih hreadable.2 hend hrow
          simp only [IntegerRow.columns, readColumns, Option.isNone_some,
            Bool.false_eq_true, if_false, columnDataLength_colType htype]
          rw [if_pos ⟨width_pos type, hend⟩, hslice]
          simp only [Outcome.ok_bind, decodeBinlogValue_toLe json htype n.isLt,
            Outcome.pure_eq, hrest, IntegerRow.values, IntegerRow.valueBytes,
            List.length_append, Bytes.length_toLe, Nat.add_assoc]

namespace IntegerRow

theorem length_columns {types : List IntegerType} (row : IntegerRow types) :
    row.columns.length = types.length := by
  induction row with
  | nil => rfl
  | cons cell row ih => simp [columns, ih]

theorem getElem_columns {types : List IntegerType} (row : IntegerRow types)
    {i : ℕ} (hi : i < types.length) (hcolumns : i < row.columns.length) :
    row.columns[i] = (row.nulls.getD i false, types[i].colType, 0) := by
  induction row generalizing i with
  | nil => simp at hi
  | cons cell row ih =>
      cases i with
      | zero => rfl
      | succ i => exact ih (by simpa using hi) (by simpa [columns] using hcolumns)

end IntegerRow

theorem getD_eq_zero {metas : List UInt16} (h : ∀ m ∈ metas, m = 0) (i : ℕ) :
    metas.getD i 0 = 0 := by
  by_cases hi : i < metas.length
  · have hmem := h _ (List.getElem_mem hi)
    simp [hi, hmem]
  · simp [hi]

/-- What the reader of a row makes of the null bitmap and the types. -/
theorem columns_eq_of_isBitmap {types : List IntegerType}
    {metas : List UInt16} (hmetas : ∀ m ∈ metas, m = 0)
    (row : IntegerRow types) {bitmap : Bytes}
    (hbitmap : IsBitmap row.nulls bitmap) :
    ((types.map IntegerType.colType).zipIdx.map fun (colType, i) =>
      ((bitsOf bitmap).getD i false, colType, metas.getD i 0)) =
      row.columns := by
  apply List.ext_getElem (by simp [row.length_columns])
  intro i hleft hright
  have hi : i < types.length := by simpa using hleft
  have hnull := getD_bitsOf_of_isBitmap hbitmap
    (by rw [row.length_nulls]; exact hi)
  rw [row.getElem_columns hi]
  simp only [List.getElem_map, List.getElem_zipIdx, Nat.zero_add, hnull,
    getD_eq_zero hmetas]

/-- The image of a row is read back, and no byte more is consumed. -/
theorem readRow_eq (json : JsonParser) {types : List IntegerType}
    (htypes : types ≠ []) {metas : List UInt16} (hmetas : ∀ m ∈ metas, m = 0)
    {row : IntegerRow types} (hreadable : row.Readable) {image data : Bytes}
    (himage : IsRowImage row image) (hpre : image <+: data) :
    readRow (ε := ε) json data (types.map IntegerType.colType) metas =
      .ok (row.values, image.length) := by
  obtain ⟨bitmap, hbitmap, rfl⟩ := himage
  obtain ⟨rest, rfl⟩ := hpre
  have hlength : bitmap.length = (types.length + 7) / 8 := by
    rw [hbitmap.1, row.length_nulls]
  have hpos : 0 < types.length := List.length_pos_iff.mpr htypes
  have hdata : bitmap ++ row.valueBytes ++ rest ≠ [] := by
    intro hnil
    have hlen := congrArg List.length hnil
    simp only [List.length_append, List.length_nil] at hlen
    omega
  have htake : (bitmap ++ row.valueBytes ++ rest).take bitmap.length =
      bitmap := by
    rw [List.append_assoc, List.take_left]
  have hvalues : row.valueBytes <+:
      (bitmap ++ row.valueBytes ++ rest).drop bitmap.length := by
    rw [List.append_assoc, List.drop_left]
    exact List.prefix_append _ _
  unfold readRow
  rw [if_neg (not_or.mpr ⟨hdata, by simpa using htypes⟩)]
  simp only [List.length_map, ← hlength]
  rw [if_neg (by simp), htake, columns_eq_of_isBitmap hmetas row hbitmap,
    readColumns_eq json hreadable (by simp) hvalues, List.length_append]

end OpenCdc.Mysql

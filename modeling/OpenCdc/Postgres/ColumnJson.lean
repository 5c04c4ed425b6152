import Mathlib.Data.List.DropRight
import OpenCdc.Core.Record
import OpenCdc.Foundation.Numeral
import OpenCdc.Postgres.Streamer

/-!
# Null in the image of a row

A column of a row image is null for three reasons: the row holds NULL, the
server did not send the value again, or the conversion of the text has no value
for it.  A consumer of the image cannot tell them apart.
-/

namespace OpenCdc.Postgres

open Foundation Json

/-! ## The property -/

/-- The value that a row image gives to a column. -/
def imageField (name : String) : Value → Option Value
  | .object map => Map.get map name
  | _ => none

/-- Only a NULL of the row is null in its image. -/
def NullOnlyForNull (parseJson : String → Option Value)
    (columns : List RelationColumn) (tuple : List TupleColumn) : Prop :=
  ∀ pair ∈ columns.zip tuple,
    imageField pair.1.name (columnsToJson parseJson columns tuple) =
      some .null →
    pair.2 = nullColumn

/-! ## Texts without a value -/

/-- The conversions that `pg_type_to_json` chooses from. -/
inductive Conversion where
  | bool
  | i32
  | i64
  | f32
  | f64
  | json
  | u32
  | string
deriving DecidableEq

def conversionOf (typeOid : UInt32) : Conversion :=
  if typeOid = boolOid then .bool
  else if typeOid = int2Oid ∨ typeOid = int4Oid then .i32
  else if typeOid = int8Oid ∨ typeOid = xidOid then .i64
  else if typeOid = float4Oid then .f32
  else if typeOid = float8Oid then .f64
  else if typeOid = jsonOid ∨ typeOid = jsonbOid then .json
  else if typeOid = oidOid then .u32
  else .string

/-- The JSON text of the value null. -/
def IsJsonNull (text : List Char) : Prop :=
  ∃ front back, text = front ++ ['n', 'u', 'l', 'l'] ++ back ∧
    (∀ c ∈ front, isJsonSpace c) ∧ ∀ c ∈ back, isJsonSpace c

theorem isJsonNull_iff {text : List Char} :
    IsJsonNull text ↔
      (text.dropWhile isJsonSpace).rdropWhile isJsonSpace =
        ['n', 'u', 'l', 'l'] := by
  constructor
  · rintro ⟨front, back, rfl, hfront, hback⟩
    have hback' : ∀ c ∈ back.reverse, isJsonSpace c := by simpa using hback
    rw [List.append_assoc, List.dropWhile_append_of_pos hfront]
    have hnull : (['n', 'u', 'l', 'l'] ++ back).dropWhile isJsonSpace =
        ['n', 'u', 'l', 'l'] ++ back := rfl
    rw [hnull, List.rdropWhile, List.reverse_append,
      List.dropWhile_append_of_pos hback']
    rfl
  · intro htrim
    refine ⟨text.takeWhile isJsonSpace,
      (text.dropWhile isJsonSpace).rtakeWhile isJsonSpace, ?_, ?_, ?_⟩
    · rw [← htrim, List.append_assoc, List.rdropWhile_append_rtakeWhile,
        List.takeWhile_append_dropWhile]
    · intro c hc
      exact List.mem_takeWhile_imp hc
    · intro c hc
      exact List.mem_rtakeWhile_imp hc

instance : DecidablePred IsJsonNull := fun _ =>
  decidable_of_iff _ isJsonNull_iff.symm

/-- Reading a JSON text gives null exactly for the texts of null. -/
def ReadsNull (parseJson : String → Option Value) : Prop :=
  ∀ s, parseJson s = some .null ↔ IsJsonNull s.toList

/-- The text is an integer from `low` to `high`. -/
def IsIntegerIn (low high : ℤ) (text : List Char) : Prop :=
  ∃ n, IsInteger 10 (low < 0) text n ∧ low ≤ n ∧ n ≤ high

/-- The text is a number that is finite as a float of precision `p`. -/
def IsFiniteIn (p : Ieee.Precision) (text : List Char) : Prop :=
  ∃ pattern, Ieee.parse p text = some pattern ∧ Ieee.isFinite p pattern

/-- The texts that a conversion has a value other than null for. -/
def Conversion.HasValue : Conversion → List Char → Prop
  | bool, _ => True
  | i32, text => IsIntegerIn (-2 ^ 31) (2 ^ 31 - 1) text
  | i64, text => IsIntegerIn (-2 ^ 63) (2 ^ 63 - 1) text
  | f32, text => IsFiniteIn Ieee.binary32 text
  | f64, text => IsFiniteIn Ieee.binary64 text
  | json, text => ¬ IsJsonNull text
  | u32, text => IsIntegerIn 0 (2 ^ 32 - 1) text
  | string, _ => True

/-- The column is sent with its value, and the text of a value is one that the
conversion of the type has a value for. -/
def KeepsValue (typeOid : UInt32) (column : TupleColumn) : Prop :=
  column ≠ unchangedColumn ∧ ∀ raw, column = textColumn raw →
    (conversionOf typeOid).HasValue (fromUtf8Lossy raw).toList

/-! ## Conversions -/

theorem getD_eq_null_iff {parsed : Option Value} {s : String} :
    parsed.getD (.string s) = .null ↔ parsed = some .null := by
  cases parsed with
  | none => simp
  | some value => simp

theorem intOrNull_eq_null_iff {parsed : Except ParseIntError ℤ} :
    intOrNull parsed = .null ↔ ∀ n, parsed ≠ .ok n := by
  cases parsed with
  | error e => simp [intOrNull]
  | ok n => simp [intOrNull, Value.ofInt]

/-- An integer conversion gives null for everything but the integers of its
type. -/
theorem intOrNull_fromStrRadix_eq_null_iff {below above : ℕ}
    {text : List Char} :
    intOrNull (fromStrRadix 10 below above text) = .null ↔
      ¬ IsIntegerIn (-below) above text := by
  have hread : ∀ n, fromStrRadix 10 below above text = .ok n ↔
      IsInteger 10 (0 < below) text n ∧ -(below : ℤ) ≤ n ∧ n ≤ above :=
    fun n => fromStrRadix_eq_ok_iff (by decide)
  simp only [intOrNull_eq_null_iff, ne_eq, hread, IsIntegerIn,
    Int.neg_neg_iff_pos, Nat.cast_pos, not_exists]

theorem ofF32_eq_null_iff {pattern : ℕ} :
    Value.ofF32 pattern = .null ↔ ¬ Ieee.isFinite Ieee.binary32 pattern := by
  unfold Value.ofF32
  split <;> simp_all

theorem ofF64_eq_null_iff {pattern : ℕ} :
    Value.ofF64 pattern = .null ↔ ¬ Ieee.isFinite Ieee.binary64 pattern := by
  unfold Value.ofF64
  split <;> simp_all

/-- The texts that become null. -/
theorem pgTypeToJson_eq_null_iff {parseJson : String → Option Value}
    (hjson : ReadsNull parseJson) (raw : Bytes) (typeOid : UInt32) :
    pgTypeToJson parseJson raw typeOid = .null ↔
      ¬ (conversionOf typeOid).HasValue (fromUtf8Lossy raw).toList := by
  simp only [pgTypeToJson, conversionOf]
  split_ifs
  · simp [Conversion.HasValue]
  · exact intOrNull_fromStrRadix_eq_null_iff
  · exact intOrNull_fromStrRadix_eq_null_iff
  · simp only [Conversion.HasValue, IsFiniteIn, Ieee.parseF32]
    cases Ieee.parse Ieee.binary32 (fromUtf8Lossy raw).toList with
    | none => simp
    | some pattern => simp [ofF32_eq_null_iff]
  · simp only [Conversion.HasValue, IsFiniteIn, Ieee.parseF64]
    cases Ieee.parse Ieee.binary64 (fromUtf8Lossy raw).toList with
    | none => simp
    | some pattern => simp [ofF64_eq_null_iff]
  · rw [getD_eq_null_iff, hjson, Conversion.HasValue, not_not]
  · exact intOrNull_fromStrRadix_eq_null_iff
  · simp [Conversion.HasValue]

/-- A decoded column that is not NULL becomes null exactly if its value is not
kept. -/
theorem columnToJson_column_eq_null_iff {parseJson : String → Option Value}
    (hjson : ReadsNull parseJson) (typeOid : UInt32) (w : WireColumn) :
    (columnToJson parseJson typeOid w.column = .null →
        w.column = nullColumn) ↔
      KeepsValue typeOid w.column := by
  cases w with
  | null => simp [WireColumn.column, KeepsValue, nullColumn, unchangedColumn,
      textColumn]
  | unchanged => simp [WireColumn.column, KeepsValue, columnToJson,
      nullColumn, unchangedColumn]
  | text value hlength =>
      have hconvert : columnToJson parseJson typeOid (textColumn value) =
          pgTypeToJson parseJson value typeOid := rfl
      rw [WireColumn.column, hconvert, pgTypeToJson_eq_null_iff hjson]
      simp [KeepsValue, textColumn, nullColumn, unchangedColumn]

/-! ## Rows -/

theorem fst_zip_isPrefix {α β : Type} (xs : List α) (ys : List β) :
    (xs.zip ys).map Prod.fst <+: xs := by
  induction xs generalizing ys with
  | nil => exact List.prefix_rfl
  | cons x xs ih =>
      cases ys with
      | nil => exact List.nil_prefix
      | cons y ys => exact List.cons_prefix_cons.mpr ⟨rfl, ih ys⟩

/-- With columns of different names, the image gives every column its own
value. -/
theorem imageField_columnsToJson (parseJson : String → Option Value)
    {columns : List RelationColumn} {tuple : List TupleColumn}
    (hnodup : (columns.map (·.name)).Nodup)
    {pair : RelationColumn × TupleColumn} (hpair : pair ∈ columns.zip tuple) :
    imageField pair.1.name (columnsToJson parseJson columns tuple) =
      some (columnToJson parseJson pair.1.typeOid pair.2) := by
  let entry : RelationColumn × TupleColumn → String × Value := fun pair =>
    (pair.1.name, columnToJson parseJson pair.1.typeOid pair.2)
  have hkeys : (((columns.zip tuple).map entry).map Prod.fst).Nodup := by
    have hprefix := (fst_zip_isPrefix columns tuple).map (·.name)
    rw [List.map_map] at hprefix ⊢
    exact List.Nodup.sublist hprefix.sublist hnodup
  have himage : columnsToJson parseJson columns tuple =
      .object ((columns.zip tuple).map entry) := by
    rw [columnsToJson, ← Map.foldl_insert hkeys, List.foldl_map]
  rw [himage]
  exact (Map.get_eq_some_iff hkeys).mpr (List.mem_map_of_mem hpair)

/-- A row image shows nothing but NULL as null exactly if the server has sent
every value and every text has a value in the JSON type of its column. -/
theorem nullOnlyForNull_iff {parseJson : String → Option Value}
    (hjson : ReadsNull parseJson) (columns : List RelationColumn)
    (hnodup : (columns.map (·.name)).Nodup) {data : Bytes}
    {tuple : List TupleColumn} {offset : ℕ}
    (hdecode : (decodeTupleData data).run 0 = .ok (tuple, offset)) :
    NullOnlyForNull parseJson columns tuple ↔
      ∀ pair ∈ columns.zip tuple, KeepsValue pair.1.typeOid pair.2 := by
  obtain ⟨_, ⟨w, rfl, rfl⟩, -, -⟩ :=
    (recognises_decodeTupleData data 0 (Nat.zero_le _) _ _).mp hdecode
  apply forall₂_congr
  intro pair hpair
  obtain ⟨sent, -, hsent⟩ : ∃ sent ∈ w.columns, sent.column = pair.2 :=
    List.mem_map.mp (List.of_mem_zip hpair).2
  rw [imageField_columnsToJson parseJson hnodup hpair, Option.some.injEq,
    ← hsent]
  exact columnToJson_column_eq_null_iff hjson pair.1.typeOid sent

theorem nullOnlyForNull_document :
    NullOnlyForNull
      (fun s => if IsJsonNull s.toList then some .null
        else if s = "[]" then some (.array []) else none)
      [⟨1, "id", 23, -1⟩, ⟨0, "doc", 3802, -1⟩, ⟨0, "note", 25, -1⟩]
      [textColumn [55], textColumn [91, 93], nullColumn] := by
  have hdecode : (decodeTupleData
      [0, 3, 116, 0, 0, 0, 1, 55, 116, 0, 0, 0, 2, 91, 93, 110]).run 0 =
        .ok ([textColumn [55], textColumn [91, 93], nullColumn], 16) := by
    decide
  refine (nullOnlyForNull_iff ?_ _ (by decide) hdecode).mpr ?_
  · intro s
    dsimp only
    split_ifs with hnull hempty
    · simp [hnull]
    · simp [hnull]
    · simp [hnull]
  · have hid : KeepsValue 23 (textColumn [55]) := by
      refine ⟨by decide, ?_⟩
      rintro _ ⟨⟩
      exact ⟨7, .unsigned (.cons (d := 7) (by decide) (.nil 7)), by decide,
        by decide⟩
    have hdoc : KeepsValue 3802 (textColumn [91, 93]) := by
      refine ⟨by decide, ?_⟩
      rintro _ ⟨⟩
      exact (by decide : ¬ IsJsonNull ['[', ']'])
    have hnote : KeepsValue 25 nullColumn := by
      refine ⟨by decide, ?_⟩
      rintro _ ⟨⟩
    simp only [List.zip_cons_cons, List.zip_nil_left, List.forall_mem_cons]
    exact ⟨hid, hdoc, hnote, fun _ h => (nomatch h)⟩

/-- A value that the server did not send again is shown as null. -/
theorem not_nullOnlyForNull_unchanged :
    (decodeTupleData [0, 1, 117]).run 0 = .ok ([unchangedColumn], 3) ∧
      ¬ NullOnlyForNull (fun _ => none) [⟨0, "body", 25, -1⟩]
        [unchangedColumn] := by
  refine ⟨by decide, ?_⟩
  intro h
  have hnull := h (⟨0, "body", 25, -1⟩, unchangedColumn) (by decide) rfl
  exact absurd hnull (by decide)

example : pgTypeToJson (fun _ => none) [78, 97, 78] float8Oid = .null := by
  rfl

end OpenCdc.Postgres

import Mathlib.Data.List.Forall2

/-!
# Columns and batches

The part of the Arrow library that tables are exchanged with.  Schemas are
plain data.  Arrays and record batches are given by their operations, with
what the library documents of them; `plain` is an implementation over lists.
-/

namespace Foundation.Arrow

universe u

/-! ## Schemas -/

inductive TimeUnit where
  | second
  | millisecond
  | microsecond
  | nanosecond
deriving DecidableEq, Repr

mutual

/-- The types of columns; `other` is one that has no case of its own. -/
inductive DataType where
  | int8
  | int16
  | int32
  | int64
  | uint8
  | uint16
  | uint32
  | uint64
  | float16
  | float32
  | float64
  | boolean
  | utf8
  | utf8View
  | largeUtf8
  | binary
  | largeBinary
  | fixedSizeBinary (width : Int32)
  | decimal128 (precision : UInt8) (scale : Int8)
  | decimal256 (precision : UInt8) (scale : Int8)
  | timestamp (unit : TimeUnit) (zone : Option String)
  | date32
  | date64
  | time32 (unit : TimeUnit)
  | time64 (unit : TimeUnit)
  | struct (fields : List Field)
  | list (item : Field)
  | largeList (item : Field)
  | fixedSizeList (item : Field) (size : Int32)
  | map (entries : Field) (sorted : Bool)
  | other (debug : String)
deriving Repr

structure Field where
  name : String
  dataType : DataType
  nullable : Bool
  metadata : List (String × String) := []
deriving Repr

end

structure Schema where
  fields : List Field
  metadata : List (String × String) := []
deriving Repr

/-! ## Arrays -/

/-- What an array is made of. -/
inductive Cells where
  | strings (values : List (Option String))
  | int64s (values : List (Option Int64))
deriving DecidableEq, Repr

namespace Cells

def length : Cells → ℕ
  | strings values => values.length
  | int64s values => values.length

def dataType : Cells → DataType
  | strings _ => .utf8
  | int64s _ => .int64

def isOf : Cells → DataType → Bool
  | strings _, .utf8 => true
  | int64s _, .int64 => true
  | _, _ => false

theorem isOf_iff {cells : Cells} {type : DataType} :
    cells.isOf type = true ↔ cells.dataType = type := by
  cases cells <;> cases type <;> simp [isOf, dataType]

instance (cells : Cells) (type : DataType) :
    Decidable (cells.dataType = type) :=
  decidable_of_iff _ isOf_iff

def isNull : Cells → ℕ → Bool
  | strings values, i => values[i]?.join.isNone
  | int64s values, i => values[i]?.join.isNone

/-- One value, null if there is none. -/
inductive Cell where
  | string (value : Option String)
  | int64 (value : Option Int64)
deriving DecidableEq, Repr

def cell? : Cells → ℕ → Option Cell
  | strings values, i => values[i]?.map .string
  | int64s values, i => values[i]?.map .int64

/-- The cells fit the field. -/
def FitsField (cells : Cells) (field : Field) : Prop :=
  cells.dataType = field.dataType ∧
    (field.nullable = false → ∀ i < cells.length, cells.isNull i = false)

theorem cell?_strings_map {α : Type u} (f : α → Option String) {xs : List α}
    {row : ℕ} {x : α} (h : xs[row]? = some x) :
    (strings (xs.map f)).cell? row = some (.string (f x)) := by
  simp [cell?, h]

theorem cell?_int64s_map {α : Type u} (f : α → Option Int64) {xs : List α}
    {row : ℕ} {x : α} (h : xs[row]? = some x) :
    (int64s (xs.map f)).cell? row = some (.int64 (f x)) := by
  simp [cell?, h]

theorem isNull_map_some {α : Type u} (f : α → String) {xs : List α} {i : ℕ}
    (hi : i < xs.length) :
    (strings (xs.map fun x => some (f x))).isNull i = false := by
  simp [isNull, hi]

instance (cells : Cells) (field : Field) : Decidable (cells.FitsField field) :=
  inferInstanceAs (Decidable (_ ∧ _))

end Cells

/-- The operations on arrays and batches; a downcast gives the values of an
array by row. -/
structure Arrays where
  ArrayRef : Type
  RecordBatch : Type
  build : Cells → ArrayRef
  dataType : ArrayRef → DataType
  len : ArrayRef → ℕ
  isNull : ArrayRef → ℕ → Bool
  downcastString : ArrayRef → Option (ℕ → String)
  downcastInt64 : ArrayRef → Option (ℕ → Int64)
  tryNew : Schema → List ArrayRef → Except String RecordBatch
  numRows : RecordBatch → ℕ
  columnByName : RecordBatch → String → Option ArrayRef

namespace Arrays

/-- The column is of the type of the field, and has no null if the field may
not be null. -/
structure Fits (lib : Arrays) (field : Field) (column : lib.ArrayRef) :
    Prop where
  dataType : lib.dataType column = field.dataType
  nullable : field.nullable = false →
    ∀ i < lib.len column, lib.isNull column i = false

/-- The columns of a batch. -/
structure Accepts (lib : Arrays) (schema : Schema)
    (columns : List lib.ArrayRef) : Prop where
  nonempty : columns ≠ []
  fits : List.Forall₂ lib.Fits schema.fields columns
  sameLength : ∀ column ∈ columns, ∀ column' ∈ columns,
    lib.len column = lib.len column'

/-- The value of a column of a batch in a row. -/
def readCell (lib : Arrays) (batch : lib.RecordBatch) (name : String)
    (row : ℕ) : Option Cells.Cell :=
  (lib.columnByName batch name).bind fun column =>
    match lib.downcastString column with
    | some value => some (.string
        (if lib.isNull column row then none else some (value row)))
    | none => (lib.downcastInt64 column).map fun value => .int64
        (if lib.isNull column row then none else some (value row))

/-- What the library documents. -/
structure Documented (lib : Arrays) : Prop where
  len_build : ∀ cells, lib.len (lib.build cells) = cells.length
  dataType_build : ∀ cells, lib.dataType (lib.build cells) = cells.dataType
  isNull_build : ∀ cells i, i < cells.length →
    lib.isNull (lib.build cells) i = cells.isNull i
  /-- A string array reads as the empty string where it is null. -/
  downcastString_strings : ∀ values, ∃ value,
    lib.downcastString (lib.build (.strings values)) = some value ∧
      ∀ i < values.length, value i = values[i]?.join.getD ""
  downcastString_int64s : ∀ values,
    lib.downcastString (lib.build (.int64s values)) = none
  downcastInt64_strings : ∀ values,
    lib.downcastInt64 (lib.build (.strings values)) = none
  downcastInt64_int64s : ∀ values, ∃ value,
    lib.downcastInt64 (lib.build (.int64s values)) = some value ∧
      ∀ i n, values[i]? = some (some n) → value i = n
  tryNew_isOk_iff : ∀ schema columns,
    (∃ batch, lib.tryNew schema columns = .ok batch) ↔
      lib.Accepts schema columns
  numRows_of_tryNew : ∀ {schema columns batch},
    lib.tryNew schema columns = .ok batch →
      ∀ column ∈ columns, lib.len column = lib.numRows batch
  columnByName_of_tryNew : ∀ {schema columns batch},
    lib.tryNew schema columns = .ok batch →
      ∀ name, lib.columnByName batch name =
        ((schema.fields.map (·.name)).zip columns).lookup name

/-! ## Batches whose columns are made by name -/

theorem lookup_zip_map {α : Type u} (f : String → α) (names : List String)
    {name : String} (h : name ∈ names) :
    (names.zip (names.map f)).lookup name = some (f name) := by
  induction names with
  | nil => simp at h
  | cons head names ih =>
      rw [List.map_cons, List.zip_cons_cons, List.lookup_cons]
      by_cases hname : name = head
      · rw [hname, beq_self_eq_true]
      · rw [beq_false_of_ne hname]
        exact ih (List.mem_of_ne_of_mem hname h)

namespace Documented

variable {lib : Arrays} {schema : Schema} {cells : String → Cells}
  {batch : lib.RecordBatch}

theorem fits_build_iff (hlib : lib.Documented) {field : Field} {cells : Cells} :
    lib.Fits field (lib.build cells) ↔ cells.FitsField field := by
  constructor
  · intro h
    refine ⟨?_, ?_⟩
    · rw [← h.dataType, hlib.dataType_build]
    · intro hnullable i hi
      rw [← hlib.isNull_build cells i hi]
      exact h.nullable hnullable i (by rwa [hlib.len_build])
  · rintro ⟨htype, hnull⟩
    refine ⟨?_, ?_⟩
    · rw [hlib.dataType_build, htype]
    · intro hnullable i hi
      rw [hlib.len_build] at hi
      rw [hlib.isNull_build cells i hi]
      exact hnull hnullable i hi

/-- A value is read as it was built in. -/
theorem readCell_eq (hlib : lib.Documented) {name : String} {cells : Cells}
    (hcolumn : lib.columnByName batch name = some (lib.build cells))
    {row : ℕ} {cell : Cells.Cell} (hcell : cells.cell? row = some cell) :
    lib.readCell batch name row = some cell := by
  rw [readCell, hcolumn, Option.bind_some]
  cases cells with
  | strings values =>
      obtain ⟨read, hread, hvalue⟩ := hlib.downcastString_strings values
      obtain ⟨value, hrow, rfl⟩ := Option.map_eq_some_iff.mp hcell
      have hlt := (List.getElem?_eq_some_iff.mp hrow).1
      rw [hread, hlib.isNull_build _ _ hlt]
      cases value <;> simp [Cells.isNull, hrow, hvalue row hlt]
  | int64s values =>
      obtain ⟨read, hread, hvalue⟩ := hlib.downcastInt64_int64s values
      obtain ⟨value, hrow, rfl⟩ := Option.map_eq_some_iff.mp hcell
      have hlt := (List.getElem?_eq_some_iff.mp hrow).1
      rw [hlib.downcastString_int64s, hread, hlib.isNull_build _ _ hlt]
      cases value with
      | none => simp [Cells.isNull, hrow]
      | some n => simp [Cells.isNull, hrow, hvalue row n hrow]

theorem columnByName_of_map (hlib : lib.Documented)
    (h : lib.tryNew schema
      (schema.fields.map fun field => lib.build (cells field.name)) =
        .ok batch)
    {name : String} (hname : name ∈ schema.fields.map (·.name)) :
    lib.columnByName batch name = some (lib.build (cells name)) := by
  rw [hlib.columnByName_of_tryNew h]
  have hcolumns : schema.fields.map (fun field => lib.build (cells field.name)) =
      (schema.fields.map (·.name)).map fun name => lib.build (cells name) := by
    rw [List.map_map]
    rfl
  rw [hcolumns]
  exact lookup_zip_map (fun name => lib.build (cells name)) _ hname

theorem numRows_of_map (hlib : lib.Documented)
    (h : lib.tryNew schema
      (schema.fields.map fun field => lib.build (cells field.name)) =
        .ok batch)
    {n : ℕ} (hn : ∀ name, (cells name).length = n) :
    lib.numRows batch = n := by
  have haccepts := (hlib.tryNew_isOk_iff _ _).mp ⟨batch, h⟩
  obtain ⟨column, hcolumn⟩ := List.exists_mem_of_ne_nil _ haccepts.nonempty
  rw [← hlib.numRows_of_tryNew h column hcolumn]
  obtain ⟨field, -, rfl⟩ := List.mem_map.mp hcolumn
  rw [hlib.len_build]
  exact hn field.name

end Documented
end Arrays

/-! ## An implementation over lists -/

namespace Cells

def stringAt : Cells → Option (ℕ → String)
  | strings values => some fun i => values[i]?.join.getD ""
  | int64s _ => none

def int64At : Cells → Option (ℕ → Int64)
  | strings _ => none
  | int64s values => some fun i => values[i]?.join.getD 0

end Cells

def plain : Arrays where
  ArrayRef := Cells
  RecordBatch := Schema × List Cells
  build := id
  dataType := Cells.dataType
  len := Cells.length
  isNull := Cells.isNull
  downcastString := Cells.stringAt
  downcastInt64 := Cells.int64At
  tryNew schema columns :=
    if columns = [] then .error "at least one column is needed"
    else if schema.fields.length ≠ columns.length then
      .error "number of columns must match number of fields"
    else if ∀ pair ∈ schema.fields.zip columns, pair.2.FitsField pair.1 then
      if ∀ column ∈ columns, ∀ column' ∈ columns,
          column.length = column'.length then .ok (schema, columns)
      else .error "all columns must have the same length"
    else .error "column does not match its field"
  numRows batch := (batch.2.head?.map Cells.length).getD 0
  columnByName batch name :=
    ((batch.1.fields.map (·.name)).zip batch.2).lookup name

theorem plain_tryNew_eq_ok_iff {schema : Schema} {columns : List Cells}
    {batch : Schema × List Cells} :
    plain.tryNew schema columns = .ok batch ↔
      plain.Accepts schema columns ∧ batch = (schema, columns) := by
  have hfits : (∀ pair ∈ schema.fields.zip columns, pair.2.FitsField pair.1) ↔
      ∀ {field column}, (field, column) ∈ schema.fields.zip columns →
        plain.Fits field column := by
    constructor
    · intro h field column hmem
      exact ⟨(h _ hmem).1, (h _ hmem).2⟩
    · intro h pair hmem
      exact ⟨(h hmem).dataType, (h hmem).nullable⟩
  have haccepts : plain.Accepts schema columns ↔ columns ≠ [] ∧
      schema.fields.length = columns.length ∧
      (∀ pair ∈ schema.fields.zip columns, pair.2.FitsField pair.1) ∧
      ∀ column ∈ columns, ∀ column' ∈ columns,
        column.length = column'.length := by
    rw [hfits]
    constructor
    · intro h
      obtain ⟨hlength, hmem⟩ := List.forall₂_iff_zip.mp h.fits
      exact ⟨h.nonempty, hlength, hmem, h.sameLength⟩
    · rintro ⟨hne, hlength, hmem, hsame⟩
      exact ⟨hne, List.forall₂_iff_zip.mpr ⟨hlength, hmem⟩, hsame⟩
  rw [haccepts]
  simp only [plain]
  split_ifs with hnil hlength hzip hsame
  · apply iff_of_false (fun h => nomatch h)
    rintro ⟨⟨hne, -⟩, -⟩
    exact hne hnil
  · apply iff_of_false (fun h => nomatch h)
    rintro ⟨⟨-, hsameLength, -⟩, -⟩
    exact hlength hsameLength
  · constructor
    · intro h
      exact ⟨⟨hnil, not_not.mp hlength, hzip, hsame⟩, (Except.ok.inj h).symm⟩
    · rintro ⟨-, hbatch⟩
      rw [hbatch]
  · apply iff_of_false (fun h => nomatch h)
    rintro ⟨⟨-, -, -, hlengths⟩, -⟩
    exact hsame hlengths
  · apply iff_of_false (fun h => nomatch h)
    rintro ⟨⟨-, -, hmem, -⟩, -⟩
    exact hzip hmem

/-- It does what the library documents. -/
theorem documented_plain : plain.Documented where
  len_build _ := rfl
  dataType_build _ := rfl
  isNull_build _ _ _ := rfl
  downcastString_strings values := ⟨_, rfl, fun _ _ => rfl⟩
  downcastString_int64s _ := rfl
  downcastInt64_strings _ := rfl
  downcastInt64_int64s values := by
    refine ⟨_, rfl, ?_⟩
    intro i n h
    simp only [h, Option.join_some, Option.getD_some]
  tryNew_isOk_iff schema columns := by
    constructor
    · rintro ⟨batch, hbatch⟩
      exact (plain_tryNew_eq_ok_iff.mp hbatch).1
    · intro haccepts
      exact ⟨_, plain_tryNew_eq_ok_iff.mpr ⟨haccepts, rfl⟩⟩
  numRows_of_tryNew {schema columns batch} hbatch column hcolumn := by
    obtain ⟨haccepts, rfl⟩ := plain_tryNew_eq_ok_iff.mp hbatch
    cases columns with
    | nil => exact absurd hcolumn List.not_mem_nil
    | cons head columns =>
        exact haccepts.sameLength _ hcolumn _ List.mem_cons_self
  columnByName_of_tryNew {schema columns batch} hbatch name := by
    obtain ⟨-, rfl⟩ := plain_tryNew_eq_ok_iff.mp hbatch
    rfl

end Foundation.Arrow

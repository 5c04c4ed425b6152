import OpenCdc.Mysql.Binlog

/-!
# The bytes that a row takes

`read_row` never fails: what does not fit is null.  Only the length of a BLOB
counts with its full width where the data end inside it, so that a row can take
more bytes than there are.  The second image of an update is then cut off behind
the end of the data.
-/

namespace OpenCdc.Mysql

open Foundation Json

variable {ε : Type}

/-! ## Bytes taken -/

/-- The bytes of the length in front of a BLOB. -/
def blobWidth (colType : UInt8) : ℕ :=
  if colType = mysqlTypeTinyBlob then 1
  else if colType = mysqlTypeBlob then 2
  else if colType = mysqlTypeMediumBlob then 3
  else 4

def blobSpan (colType : UInt8) (ahead : Bytes) : ℕ :=
  let width := blobWidth colType
  let size := if width = 4 then 0 else Bytes.ofLe (ahead.take width)
  if width + size ≤ ahead.length then width + size else width

/-- The bytes that a value without a fixed length takes of those ahead. -/
def variableSpan (colType : UInt8) : Bytes → ℕ
  | [] => 0
  | first :: rest =>
      if isStringType colType then
        if first.toNat ≤ rest.length then 1 + first.toNat else 1
      else if isBlobType colType then blobSpan colType (first :: rest)
      else 1

/-- The bytes that a column takes: a null flag, a type and metadata. -/
def columnSpan : Bool × UInt8 × UInt16 → Bytes → ℕ
  | (true, _, _), _ => 0
  | (false, colType, colMeta), ahead =>
      let width := columnDataLength colType colMeta
      if width = 0 then variableSpan colType ahead
      else if width ≤ ahead.length then width
      else 0

def columnsSpan : List (Bool × UInt8 × UInt16) → Bytes → ℕ
  | [], _ => 0
  | column :: columns, ahead =>
      columnSpan column ahead +
        columnsSpan columns (ahead.drop (columnSpan column ahead))

/-- The columns of a row, with the null flags of its bitmap. -/
def rowColumns (columnTypes : List UInt8) (columnMetas : List UInt16)
    (data : Bytes) : List (Bool × UInt8 × UInt16) :=
  let nullBits := bitsOf (data.take ((columnTypes.length + 7) / 8))
  columnTypes.zipIdx.map fun (colType, i) =>
    (nullBits.getD i false, colType, columnMetas.getD i 0)

/-- The bytes that a row image takes, 0 if there is none. -/
def imageSpan (columnTypes : List UInt8) (columnMetas : List UInt16)
    (data : Bytes) : ℕ :=
  let nullBytes := (columnTypes.length + 7) / 8
  if data = [] ∨ columnTypes = [] then 0
  else if data.length < nullBytes then 0
  else nullBytes + columnsSpan (rowColumns columnTypes columnMetas data)
    (data.drop nullBytes)

/-! ## Where rows run over the end -/

/-- One of the columns is a BLOB, and the data end inside its length. -/
inductive CutColumns : List (Bool × UInt8 × UInt16) → Bytes → Prop
  | blob {colType : UInt8} {colMeta : UInt16}
      {columns : List (Bool × UInt8 × UInt16)} {ahead : Bytes}
      (hblob : isBlobType colType) (hne : ahead ≠ [])
      (hshort : ahead.length < blobWidth colType) :
      CutColumns ((false, colType, colMeta) :: columns) ahead
  | behind {column : Bool × UInt8 × UInt16}
      {columns : List (Bool × UInt8 × UInt16)} {ahead : Bytes}
      (h : CutColumns columns (ahead.drop (columnSpan column ahead))) :
      CutColumns (column :: columns) ahead

/-- The data end inside the length of a BLOB of the row image. -/
def CutImage (columnTypes : List UInt8) (columnMetas : List UInt16)
    (data : Bytes) : Prop :=
  (columnTypes.length + 7) / 8 ≤ data.length ∧
    CutColumns (rowColumns columnTypes columnMetas data)
      (data.drop ((columnTypes.length + 7) / 8))

/-- The image in front of one of the pairs of an update is cut. -/
inductive CutPairs (columnTypes : List UInt8) (columnMetas : List UInt16) :
    Bytes → Prop
  | before {data : Bytes} (h : CutImage columnTypes columnMetas data) :
      CutPairs columnTypes columnMetas data
  | behind {data : Bytes} {before after : ℕ}
      (hbefore : before = imageSpan columnTypes columnMetas data)
      (hafter : after = imageSpan columnTypes columnMetas (data.drop before))
      (hbeforePos : 0 < before) (hafterPos : 0 < after)
      (h : CutPairs columnTypes columnMetas (data.drop (before + after))) :
      CutPairs columnTypes columnMetas data

/-! ## Values -/

theorem exists_bind {α β : Type} {x : Outcome ε α} {f : α → Outcome ε β}
    (hx : ∃ a, x = .ok a) (hf : ∀ a, ∃ b, f a = .ok b) :
    ∃ b, (x >>= f) = .ok b := by
  obtain ⟨a, rfl⟩ := hx
  exact hf a

theorem exists_ite {α : Type} {c : Prop} [Decidable c] {x y : Outcome ε α}
    (hx : c → ∃ a, x = .ok a) (hy : ¬ c → ∃ a, y = .ok a) :
    ∃ a, (if c then x else y) = .ok a := by
  split_ifs with hc
  · exact hx hc
  · exact hy hc

theorem exists_byteAt {data : Bytes} {i : ℕ} (h : i < data.length) :
    ∃ b, Bytes.byteAt (ε := ε) data i = .ok b := by
  unfold Bytes.byteAt
  rw [List.getElem?_eq_getElem h]
  exact ⟨_, rfl⟩

theorem exists_readLe {width : ℕ} {data : Bytes} (h : width ≤ data.length) :
    ∃ n, readLe (ε := ε) width data = .ok n := by
  unfold readLe
  rw [Bytes.bytesAt_of_le (by omega)]
  exact ⟨_, rfl⟩

theorem exists_decodeDate {data : Bytes} (h : 4 ≤ data.length) :
    ∃ val, decodeDate (ε := ε) data = .ok val := by
  apply exists_bind (exists_readLe h)
  intro days
  split_ifs
  · exact ⟨_, rfl⟩
  · exact ⟨_, rfl⟩

theorem exists_decodeDatetime (data : Bytes) :
    ∃ val, decodeDatetime (ε := ε) data = .ok val := by
  unfold decodeDatetime
  split_ifs with hshort
  · exact ⟨_, rfl⟩
  · apply exists_bind (exists_readLe (Nat.not_lt.mp hshort))
    intro raw
    dsimp only
    split_ifs
    · exact ⟨_, rfl⟩
    · exact ⟨_, rfl⟩

theorem exists_decodeDatetime2 (data : Bytes) (fracSec : ℕ) :
    ∃ val, decodeDatetime2 (ε := ε) data fracSec = .ok val := by
  unfold decodeDatetime2
  split_ifs with hshort
  · exact ⟨_, rfl⟩
  · rw [Bytes.bytesAt_of_le (by omega), Outcome.ok_bind]
    dsimp only
    split_ifs with hfraction
    · unfold Bytes.slice
      rw [if_pos ⟨Nat.le_add_right _ _, hfraction.2⟩]
      exact ⟨_, rfl⟩
    · exact ⟨_, rfl⟩

theorem exists_decodeTimestamp2 (data : Bytes) :
    ∃ val, decodeTimestamp2 (ε := ε) data = .ok val := by
  unfold decodeTimestamp2
  split_ifs with hshort
  · exact ⟨_, rfl⟩
  · exact exists_bind (exists_readLe (Nat.not_lt.mp hshort)) fun _ => ⟨_, rfl⟩

theorem exists_decodeDecimal (json : JsonParser) (data : Bytes) :
    ∃ val, decodeDecimal (ε := ε) json data = .ok val := by
  unfold decodeDecimal
  split_ifs
  · exact ⟨_, rfl⟩
  · exact ⟨_, rfl⟩

/-- A value is decoded from the bytes that its type is expected to have. -/
theorem exists_decodeBinlogValue (json : JsonParser) {data : Bytes}
    {colType : UInt8} {colMeta : UInt16}
    (hlength : data.length = columnDataLength colType colMeta)
    (hpos : 0 < data.length) :
    ∃ val, decodeBinlogValue (ε := ε) json data colType colMeta = .ok val := by
  have hword : ∀ {width : ℕ} {f : ℕ → Value}, width ≤ data.length →
      ∃ val, (readLe (ε := ε) width data >>= fun n => pure (f n)) =
        .ok val :=
    fun hwidth => exists_bind (exists_readLe hwidth) fun n => ⟨_, rfl⟩
  have hbyte : ∀ {f : UInt8 → Value},
      ∃ val, (Bytes.byteAt (ε := ε) data 0 >>= fun b => pure (f b)) =
        .ok val :=
    exists_bind (exists_byteAt hpos) fun b => ⟨_, rfl⟩
  have hwidth : ∀ {type : UInt8}, colType = type →
      columnDataLength type colMeta ≤ data.length := by
    rintro _ rfl
    exact hlength.ge
  unfold decodeBinlogValue
  refine exists_ite (fun _ => hbyte) fun _ => ?_
  refine exists_ite (fun h => hword (hwidth h)) fun _ => ?_
  refine exists_ite (fun h => hword ?_) fun _ => ?_
  · rcases h with rfl | rfl
    · exact hlength.ge
    · exact hlength.ge
  refine exists_ite (fun h => hword (hwidth h)) fun _ => ?_
  refine exists_ite (fun h => hword (hwidth h)) fun _ => ?_
  refine exists_ite (fun h => hword (hwidth h)) fun _ => ?_
  refine exists_ite (fun h => exists_decodeDate (hwidth h)) fun _ => ?_
  refine exists_ite (fun _ => exists_decodeDatetime data) fun _ => ?_
  refine exists_ite (fun _ => exists_decodeDatetime2 data _) fun _ => ?_
  refine exists_ite (fun h => hword (hwidth h)) fun _ => ?_
  refine exists_ite (fun _ => exists_decodeTimestamp2 data) fun _ => ?_
  refine exists_ite (fun _ => ⟨_, rfl⟩) fun _ => ?_
  refine exists_ite (fun _ => ⟨_, rfl⟩) fun _ => ?_
  refine exists_ite (fun _ => ⟨_, rfl⟩) fun _ => ?_
  refine exists_ite (fun _ => ⟨_, rfl⟩) fun _ => ?_
  refine exists_ite (fun _ => hbyte) fun _ => ?_
  refine exists_ite (fun _ => exists_decodeDecimal json data) fun _ => ?_
  exact exists_ite (fun _ => hbyte) fun _ => ⟨_, rfl⟩

/-! ## Columns -/

theorem columnDataLength_eq_zero {colType : UInt8} (h : isBlobType colType)
    (colMeta : UInt16) : columnDataLength colType colMeta = 0 := by
  simp only [isBlobType, Bool.or_eq_true, beq_iff_eq] at h
  rcases h with ((rfl | rfl) | rfl) | rfl <;> rfl

theorem isStringType_eq_false {colType : UInt8} (h : isBlobType colType) :
    isStringType colType = false := by
  simp only [isBlobType, Bool.or_eq_true, beq_iff_eq] at h
  rcases h with ((rfl | rfl) | rfl) | rfl <;> rfl

theorem blobWidth_pos (colType : UInt8) : 0 < blobWidth colType := by
  unfold blobWidth
  split_ifs <;> decide

theorem exists_readBlob (colType : UInt8) (data : Bytes) (pos : ℕ) :
    ∃ val, readBlob (ε := ε) data colType pos =
      .ok (val, blobSpan colType (data.drop pos)) := by
  have hlength : (data.drop pos).length = data.length - pos :=
    List.length_drop
  have hpositive := blobWidth_pos colType
  have hunfold : readBlob (ε := ε) data colType pos =
      if pos + blobWidth colType ≤ data.length then do
        let prefixBytes ← Bytes.bytesAt data pos (blobWidth colType)
        let size := if blobWidth colType = 4 then 0
          else Bytes.ofLe prefixBytes
        let start := pos + blobWidth colType
        if start + size ≤ data.length then
          let content ← Bytes.slice data start (start + size)
          return (.string (fromUtf8Lossy content), blobWidth colType + size)
        else return (.null, blobWidth colType)
      else return (.null, blobWidth colType) := rfl
  rw [hunfold]
  unfold blobSpan
  dsimp only
  by_cases hwidth : pos + blobWidth colType ≤ data.length
  · rw [if_pos hwidth, Bytes.bytesAt_of_le hwidth, Outcome.ok_bind]
    obtain ⟨size, hsize⟩ : ∃ size, (if blobWidth colType = 4 then 0
      else Bytes.ofLe ((data.drop pos).take (blobWidth colType))) = size :=
        ⟨_, rfl⟩
    rw [hsize]
    by_cases hfits : pos + blobWidth colType + size ≤ data.length
    · rw [if_pos hfits, if_pos (by omega), Bytes.slice,
        if_pos ⟨Nat.le_add_right _ _, hfits⟩]
      exact ⟨_, rfl⟩
    · rw [if_neg hfits, if_neg (by omega)]
      exact ⟨_, rfl⟩
  · rw [if_neg hwidth, if_neg (by omega)]
    exact ⟨_, rfl⟩

theorem exists_readVariable (colType : UInt8) {data : Bytes} {pos : ℕ}
    (hpos : pos < data.length) :
    ∃ val, readVariable (ε := ε) data colType pos =
      .ok (val, variableSpan colType (data.drop pos)) := by
  obtain ⟨first, rest, hahead⟩ := List.exists_cons_of_ne_nil
    (show data.drop pos ≠ [] by simpa using hpos)
  obtain ⟨blob, hblob⟩ := exists_readBlob (ε := ε) colType data pos
  unfold readVariable Bytes.sliceFrom
  rw [hblob, hahead, if_pos hpos.le, Outcome.ok_bind, variableSpan]
  by_cases hstring : isStringType colType
  · obtain ⟨text, htext⟩ : ∃ text, decodeLengthEncodedString (first :: rest) =
        (if first.toNat ≤ rest.length then 1 + first.toNat else 1, text) := by
      simp only [decodeLengthEncodedString, List.length_cons]
      by_cases hfits : first.toNat ≤ rest.length
      · rw [if_neg (by omega), if_pos hfits]
        exact ⟨_, rfl⟩
      · rw [if_pos (by omega), if_neg hfits]
        exact ⟨_, rfl⟩
    have hpositive : 0 < if first.toNat ≤ rest.length then 1 + first.toNat
        else 1 := by
      split_ifs <;> omega
    rw [if_pos hstring, if_pos hstring, htext]
    dsimp only
    rw [if_pos hpositive]
    exact ⟨_, rfl⟩
  · rw [if_neg hstring, if_neg hstring]
    by_cases htype : isBlobType colType
    · rw [if_pos htype, if_pos htype]
      exact ⟨_, rfl⟩
    · rw [if_neg htype, if_neg htype]
      exact ⟨_, rfl⟩

/-- A column is always read, and the next one behind its bytes. -/
theorem exists_readColumns_cons (json : JsonParser) (data : Bytes)
    (column : Bool × UInt8 × UInt16) (columns : List (Bool × UInt8 × UInt16))
    (pos : ℕ) :
    ∃ val, readColumns (ε := ε) json data (column :: columns) pos = (do
      let rest ← readColumns json data columns
        (pos + columnSpan column (data.drop pos))
      return (val :: rest.1, rest.2)) := by
  obtain ⟨isNull, colType, colMeta⟩ := column
  rw [readColumns]
  cases isNull with
  | true => exact ⟨.null, rfl⟩
  | false =>
      have hlength : (data.drop pos).length = data.length - pos :=
        List.length_drop
      simp only [Bool.false_eq_true, if_false]
      by_cases hwidth : columnDataLength colType colMeta = 0
      · have hspan : columnSpan (false, colType, colMeta) (data.drop pos) =
            variableSpan colType (data.drop pos) := by
          simp [columnSpan, hwidth]
        rw [if_neg (by omega), hspan]
        by_cases hpos : pos < data.length
        · obtain ⟨val, hval⟩ := exists_readVariable (ε := ε) colType hpos
          rw [if_pos ⟨hwidth, hpos⟩, hval]
          exact ⟨val, rfl⟩
        · rw [if_neg fun h => hpos h.2,
            List.drop_eq_nil_of_le (Nat.not_lt.mp hpos)]
          exact ⟨.null, rfl⟩
      · rw [columnSpan, if_neg hwidth]
        by_cases hfits : pos + columnDataLength colType colMeta ≤ data.length
        · have hslice : Bytes.slice (ε := ε) data pos
              (pos + columnDataLength colType colMeta) =
              .ok ((data.drop pos).take
                (columnDataLength colType colMeta)) := by
            rw [Bytes.slice, if_pos ⟨Nat.le_add_right _ _, hfits⟩,
              Nat.add_sub_cancel_left]
          have htake : ((data.drop pos).take
              (columnDataLength colType colMeta)).length =
              columnDataLength colType colMeta :=
            List.length_take_of_le (by omega)
          obtain ⟨val, hval⟩ := exists_decodeBinlogValue (ε := ε) json
            htake (by omega)
          rw [if_pos ⟨by omega, hfits⟩, hslice, Outcome.ok_bind, hval,
            if_pos (by omega)]
          exact ⟨val, rfl⟩
        · rw [if_neg (by omega), if_neg (by omega), if_neg (by omega)]
          exact ⟨.null, rfl⟩

theorem exists_readColumns (json : JsonParser) (data : Bytes)
    (columns : List (Bool × UInt8 × UInt16)) (pos : ℕ) :
    ∃ values, readColumns (ε := ε) json data columns pos =
      .ok (values, pos + columnsSpan columns (data.drop pos)) := by
  induction columns generalizing pos with
  | nil => exact ⟨[], rfl⟩
  | cons column columns ih =>
      obtain ⟨val, hval⟩ :=
        exists_readColumns_cons (ε := ε) json data column columns pos
      obtain ⟨values, hvalues⟩ :=
        ih (pos + columnSpan column (data.drop pos))
      rw [hval, hvalues, columnsSpan, List.drop_drop, ← Nat.add_assoc]
      exact ⟨val :: values, rfl⟩

/-- A row is always read, and takes the bytes of its columns. -/
theorem exists_readRow (json : JsonParser) (data : Bytes)
    (columnTypes : List UInt8) (columnMetas : List UInt16) :
    ∃ values, readRow (ε := ε) json data columnTypes columnMetas =
      .ok (values, imageSpan columnTypes columnMetas data) := by
  unfold readRow imageSpan
  dsimp only
  split_ifs
  · exact ⟨[], rfl⟩
  · exact ⟨[], rfl⟩
  · exact exists_readColumns json data
      (rowColumns columnTypes columnMetas data) _

/-! ## Spans and the end of the data -/

theorem length_lt_blobSpan_iff {colType : UInt8} {ahead : Bytes} :
    ahead.length < blobSpan colType ahead ↔
      ahead.length < blobWidth colType := by
  unfold blobSpan
  obtain ⟨size, hsize⟩ : ∃ size, (if blobWidth colType = 4 then 0
    else Bytes.ofLe (ahead.take (blobWidth colType))) = size := ⟨_, rfl⟩
  dsimp only
  rw [hsize]
  by_cases hfits : blobWidth colType + size ≤ ahead.length
  · rw [if_pos hfits]
    omega
  · rw [if_neg hfits]

/-- Only a BLOB takes more bytes than there are. -/
theorem length_lt_columnSpan_iff {column : Bool × UInt8 × UInt16}
    {ahead : Bytes} :
    ahead.length < columnSpan column ahead ↔
      column.1 = false ∧ isBlobType column.2.1 ∧ ahead ≠ [] ∧
        ahead.length < blobWidth column.2.1 := by
  obtain ⟨isNull, colType, colMeta⟩ := column
  cases isNull with
  | true => simp [columnSpan]
  | false =>
      dsimp only [columnSpan]
      by_cases hblob : isBlobType colType
      · have hstring := isStringType_eq_false hblob
        rw [columnDataLength_eq_zero hblob, if_pos rfl]
        cases ahead with
        | nil => simp [variableSpan]
        | cons first rest =>
            rw [variableSpan, hstring, if_neg Bool.false_ne_true, if_pos hblob,
              length_lt_blobSpan_iff]
            simp [hblob]
      · have hle : ¬ ahead.length <
            if columnDataLength colType colMeta = 0 then
              variableSpan colType ahead
            else if columnDataLength colType colMeta ≤ ahead.length then
              columnDataLength colType colMeta else 0 := by
          cases ahead with
          | nil => 
              simp only [variableSpan, List.length_nil]
              split_ifs <;> omega
          | cons first rest =>
              simp only [variableSpan, List.length_cons, if_neg hblob]
              split_ifs <;> omega
        simp [hblob, hle]

theorem columnsSpan_nil (columns : List (Bool × UInt8 × UInt16)) :
    columnsSpan columns [] = 0 := by
  induction columns with
  | nil => rfl
  | cons column columns ih =>
      obtain ⟨isNull, colType, colMeta⟩ := column
      have hspan : columnSpan (isNull, colType, colMeta) [] = 0 := by
        cases isNull with
        | true => rfl
        | false =>
            dsimp only [columnSpan, variableSpan, List.length_nil]
            split_ifs <;> omega
      rw [columnsSpan, hspan, List.drop_nil, ih]

theorem length_lt_columnsSpan_iff {columns : List (Bool × UInt8 × UInt16)}
    {ahead : Bytes} :
    ahead.length < columnsSpan columns ahead ↔ CutColumns columns ahead := by
  induction columns generalizing ahead with
  | nil =>
      constructor
      · intro h
        cases h
      · intro h
        cases h
  | cons column columns ih =>
      have hcolumn := @length_lt_columnSpan_iff column ahead
      have hbehind := @ih (ahead.drop (columnSpan column ahead))
      rw [List.length_drop] at hbehind
      rw [columnsSpan]
      constructor
      · intro h
        by_cases hcut : ahead.length < columnSpan column ahead
        · obtain ⟨isNull, colType, colMeta⟩ := column
          obtain ⟨hnull, hblob, hne, hshort⟩ := hcolumn.mp hcut
          obtain rfl : isNull = false := hnull
          exact .blob hblob hne hshort
        · exact .behind (hbehind.mp (by omega))
      · intro h
        cases h with
        | blob hblob hne hshort =>
            have hcut := hcolumn.mpr ⟨rfl, hblob, hne, hshort⟩
            omega
        | behind h =>
            have hrest := hbehind.mpr h
            omega

theorem not_cutColumns_nil {columns : List (Bool × UInt8 × UInt16)} :
    ¬ CutColumns columns [] := by
  rw [← length_lt_columnsSpan_iff, columnsSpan_nil]
  exact Nat.not_lt_zero _

theorem rowColumns_nil (columnMetas : List UInt16) (data : Bytes) :
    rowColumns [] columnMetas data = [] := rfl

/-- A row image that takes more bytes than there are is cut. -/
theorem length_lt_imageSpan_iff {columnTypes : List UInt8}
    {columnMetas : List UInt16} {data : Bytes} :
    data.length < imageSpan columnTypes columnMetas data ↔
      CutImage columnTypes columnMetas data := by
  have hcolumns := @length_lt_columnsSpan_iff
    (rowColumns columnTypes columnMetas data)
    (data.drop ((columnTypes.length + 7) / 8))
  rw [List.length_drop] at hcolumns
  unfold imageSpan CutImage
  dsimp only
  split_ifs with hnone hshort
  · refine iff_of_false (Nat.not_lt_zero _) ?_
    rintro ⟨hbitmap, hcut⟩
    rcases hnone with rfl | rfl
    · rw [List.drop_nil] at hcut
      exact not_cutColumns_nil hcut
    · rw [rowColumns_nil] at hcut
      cases hcut
  · refine iff_of_false (Nat.not_lt_zero _) ?_
    rintro ⟨hbitmap, -⟩
    omega
  · rw [← hcolumns]
    omega

/-! ## Loops over rows -/

theorem exists_readRows (json : JsonParser) (data : Bytes)
    (columnTypes : List UInt8) (columnMetas : List UInt16) (pos : ℕ) :
    ∃ rows, readRows (ε := ε) json data columnTypes columnMetas pos =
      .ok rows := by
  induction hn : data.length - pos using Nat.strong_induction_on
    generalizing pos with
  | _ m ih =>
      rw [readRows]
      by_cases hpos : pos < data.length
      · obtain ⟨row, hrow⟩ := exists_readRow (ε := ε) json (data.drop pos)
          columnTypes columnMetas
        rw [dif_pos hpos, Bytes.sliceFrom, if_pos hpos.le, Outcome.ok_bind,
          hrow, Outcome.ok_bind]
        dsimp only
        split_ifs with hzero
        · exact ⟨[], rfl⟩
        · exact exists_bind (ih _ (by omega) _ rfl) fun _ => ⟨_, rfl⟩
      · rw [dif_neg hpos]
        exact ⟨[], rfl⟩

theorem not_cutPairs_of_imageSpan_eq_zero {columnTypes : List UInt8}
    {columnMetas : List UInt16} {data : Bytes}
    (h : imageSpan columnTypes columnMetas data = 0) :
    ¬ CutPairs columnTypes columnMetas data := by
  intro hcut
  cases hcut with
  | before himage =>
      rw [← length_lt_imageSpan_iff, h] at himage
      exact absurd himage (Nat.not_lt_zero _)
  | behind hbefore _ hpos _ _ => omega

/-- Where the first image of the first pair is not cut, one of the later pairs
is. -/
theorem cutPairs_iff_of_not_cutImage {columnTypes : List UInt8}
    {columnMetas : List UInt16} {data : Bytes} {before after : ℕ}
    (hbefore : imageSpan columnTypes columnMetas data = before)
    (hafter : imageSpan columnTypes columnMetas (data.drop before) = after)
    (hpos : 0 < before) (hcut : ¬ CutImage columnTypes columnMetas data) :
    CutPairs columnTypes columnMetas data ↔
      0 < after ∧ CutPairs columnTypes columnMetas
        (data.drop (before + after)) := by
  constructor
  · intro h
    cases h with
    | before himage => exact absurd himage hcut
    | behind hbefore' hafter' _ hafterPos h =>
        obtain rfl := hbefore'.trans hbefore
        obtain rfl := hafter'.trans hafter
        exact ⟨hafterPos, h⟩
  · rintro ⟨hafterPos, h⟩
    exact .behind hbefore.symm hafter.symm hpos hafterPos h

/-- The loop over the pairs of an update panics where the first image of a pair
is cut. -/
theorem readRowPairs_eq_panicked_iff (json : JsonParser) (data : Bytes)
    (columnTypes : List UInt8) (columnMetas : List UInt16) (pos : ℕ) :
    readRowPairs (ε := ε) json data columnTypes columnMetas pos = .panicked ↔
      CutPairs columnTypes columnMetas (data.drop pos) := by
  induction hn : data.length - pos using Nat.strong_induction_on
    generalizing pos with
  | _ m ih =>
      rw [readRowPairs]
      by_cases hpos : pos < data.length
      · obtain ⟨valuesBefore, hvaluesBefore⟩ := exists_readRow (ε := ε) json
          (data.drop pos) columnTypes columnMetas
        have hcut := @length_lt_imageSpan_iff columnTypes columnMetas
          (data.drop pos)
        rw [dif_pos hpos, Bytes.sliceFrom, if_pos hpos.le, Outcome.ok_bind,
          hvaluesBefore, Outcome.ok_bind]
        dsimp only
        generalize hbefore : imageSpan columnTypes columnMetas
          (data.drop pos) = before at hcut ⊢
        rw [List.length_drop] at hcut
        by_cases hzero : before = 0
        · rw [dif_pos hzero]
          exact iff_of_false (Outcome.ok_ne_panicked _)
            (not_cutPairs_of_imageSpan_eq_zero (hbefore.trans hzero))
        · rw [dif_neg hzero, Bytes.sliceFrom]
          by_cases hend : pos + before ≤ data.length
          · obtain ⟨valuesAfter, hvaluesAfter⟩ := exists_readRow (ε := ε) json
              (data.drop (pos + before)) columnTypes columnMetas
            rw [if_pos hend, Outcome.ok_bind, hvaluesAfter, Outcome.ok_bind]
            dsimp only
            generalize hafter : imageSpan columnTypes columnMetas
              (data.drop (pos + before)) = after
            rw [← List.drop_drop] at hafter
            rw [cutPairs_iff_of_not_cutImage hbefore hafter
              (Nat.pos_of_ne_zero hzero) fun h => by
                have hlt := hcut.mpr h
                omega]
            by_cases hnone : after = 0
            · rw [if_pos hnone]
              exact iff_of_false (Outcome.ok_ne_panicked _)
                fun h => h.1.ne' hnone
            · have hrest := ih _ (by omega) (pos + before + after) rfl
              rw [Nat.add_assoc, ← List.drop_drop] at hrest
              rw [if_neg hnone, Outcome.bind_eq_panicked, Nat.add_assoc, hrest,
                and_iff_right (Nat.pos_of_ne_zero hnone)]
              apply or_iff_left
              rintro ⟨rows, -, h⟩
              cases h
          · rw [if_neg hend]
            exact iff_of_true rfl (.before (hcut.mp (by omega)))
      · have hnil : data.drop pos = [] :=
          List.drop_eq_nil_of_le (Nat.not_lt.mp hpos)
        rw [dif_neg hpos, hnil]
        exact iff_of_false (Outcome.ok_ne_panicked _)
          (not_cutPairs_of_imageSpan_eq_zero (by simp [imageSpan]))

end OpenCdc.Mysql

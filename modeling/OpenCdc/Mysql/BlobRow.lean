import OpenCdc.Foundation.Utf8
import OpenCdc.Mysql.RowImage

/-!
# Row images of BLOB columns

A value of a BLOB column stands behind its length, in one to four bytes.  The
reader of a row takes the length of the largest type for zero, and turns the
bytes into text, in which every ill-formed part is the same character.
-/

namespace OpenCdc.Mysql

open Foundation Json

variable {ε : Type}

/-! ## Columns and rows -/

/-- The four BLOB types, by the bytes of their lengths. -/
inductive BlobType where
  | tiny
  | blob
  | medium
  | long
deriving DecidableEq, Repr

namespace BlobType

def colType : BlobType → UInt8
  | tiny => mysqlTypeTinyBlob
  | blob => mysqlTypeBlob
  | medium => mysqlTypeMediumBlob
  | long => mysqlTypeLongBlob

/-- The bytes of the length in front of a value. -/
def width : BlobType → ℕ
  | tiny => 1
  | blob => 2
  | medium => 3
  | long => 4

/-- The length that the reader takes from its bytes. -/
def sizeOf (type : BlobType) (lengthBytes : Bytes) : ℕ :=
  if type = long then 0 else Bytes.ofLe lengthBytes

end BlobType

/-- A byte string whose length fits the type. -/
structure Payload (type : BlobType) where
  bytes : Bytes
  length_lt : bytes.length < 256 ^ type.width

/-- The values of a row, NULL or a payload. -/
inductive BlobRow : List BlobType → Type
  | nil : BlobRow []
  | cons {type : BlobType} {types : List BlobType}
      (cell : Option (Payload type)) (row : BlobRow types) :
      BlobRow (type :: types)

namespace BlobRow

variable {type : BlobType} {types : List BlobType}

/-- The null bits, one for each column. -/
def nulls : {types : List BlobType} → BlobRow types → List Bool
  | _, nil => []
  | _, cons cell row => cell.isNone :: row.nulls

/-- The lengths and payloads that are not NULL, one behind the other. -/
def valueBytes : {types : List BlobType} → BlobRow types → Bytes
  | _, nil => []
  | _, cons none row => row.valueBytes
  | type :: _, cons (some payload) row =>
      Bytes.toLe type.width payload.bytes.length ++
        (payload.bytes ++ row.valueBytes)

/-- No value of the largest type, and each payload a text without the
replacement character. -/
def IsPlain : {types : List BlobType} → BlobRow types → Prop
  | _, nil => True
  | type :: _, cons cell row =>
      (∀ payload, cell = some payload → type ≠ .long ∧
        ∃ text, replacementChar ∉ text ∧ payload.bytes = encodeUtf8 text) ∧
      row.IsPlain

@[simp] theorem length_nulls (row : BlobRow types) :
    row.nulls.length = types.length := by
  induction row with
  | nil => rfl
  | cons cell row ih => simp [nulls, ih]

/-- The null bit and the type of each column. -/
def columns : {types : List BlobType} → BlobRow types → List (Bool × BlobType)
  | _, nil => []
  | type :: _, cons cell row => (cell.isNone, type) :: row.columns

theorem length_columns (row : BlobRow types) :
    row.columns.length = types.length := by
  induction row with
  | nil => rfl
  | cons cell row ih => simp [columns, ih]

theorem getElem_columns (row : BlobRow types) {i : ℕ} (hi : i < types.length)
    (hcolumns : i < row.columns.length) :
    row.columns[i] = (row.nulls.getD i false, types[i]) := by
  induction row generalizing i with
  | nil => simp at hi
  | cons cell row ih =>
      cases i with
      | zero => rfl
      | succ i => exact ih (by simpa using hi) (by simpa [columns] using hcolumns)

end BlobRow

/-- The image of a row: its null bitmap, then its values. -/
def IsBlobImage {types : List BlobType} : Format (BlobRow types) :=
  fun row image => ∃ bitmap, IsBitmap row.nulls bitmap ∧
    image = bitmap ++ row.valueBytes

/-! ## Reading values -/

/-- A value and the bytes it takes, read from the data ahead. -/
def blobAhead (type : BlobType) (ahead : Bytes) : Value × ℕ :=
  if ahead = [] then (.null, 0)
  else if type.width ≤ ahead.length ∧
      type.width + type.sizeOf (ahead.take type.width) ≤ ahead.length then
    (.string (fromUtf8Lossy ((ahead.drop type.width).take
      (type.sizeOf (ahead.take type.width)))),
      type.width + type.sizeOf (ahead.take type.width))
  else (.null, type.width)

/-- The values of the columns and the bytes they take, read from the data
ahead. -/
def blobsAhead : List (Bool × BlobType) → Bytes → List Value × ℕ
  | [], _ => ([], 0)
  | (isNull, type) :: columns, ahead =>
      let first := if isNull then (.null, 0) else blobAhead type ahead
      let others := blobsAhead columns (ahead.drop first.2)
      (first.1 :: others.1, first.2 + others.2)

theorem columnDataLength_blob (type : BlobType) (colMeta : UInt16) :
    columnDataLength type.colType colMeta = 0 := by
  cases type <;> rfl

theorem readVariable_blob (type : BlobType) (data : Bytes) (pos : ℕ) :
    readVariable (ε := ε) data type.colType pos =
      readBlob data type.colType pos := by
  cases type <;> rfl

theorem width_colType (type : BlobType) :
    (if type.colType = mysqlTypeTinyBlob then 1
      else if type.colType = mysqlTypeBlob then 2
      else if type.colType = mysqlTypeMediumBlob then 3
      else 4) = type.width := by
  cases type <;> rfl

theorem sizeOf_eq (type : BlobType) (lengthBytes : Bytes) :
    (if type.width = 4 then 0 else Bytes.ofLe lengthBytes) =
      type.sizeOf lengthBytes := by
  cases type <;> rfl

/-- Reading one value. -/
theorem readBlob_eq (type : BlobType) {data : Bytes} {pos : ℕ}
    (hpos : pos < data.length) :
    readBlob (ε := ε) data type.colType pos =
      .ok (blobAhead type (data.drop pos)) := by
  have hne : data.drop pos ≠ [] := by simpa using hpos
  have hlength : (data.drop pos).length = data.length - pos :=
    List.length_drop
  unfold readBlob blobAhead
  dsimp only
  rw [width_colType, if_neg hne]
  by_cases hwidth : pos + type.width ≤ data.length
  · obtain ⟨lengthBytes, hbytes⟩ :
        ∃ bs, (data.drop pos).take type.width = bs := ⟨_, rfl⟩
    have hread : Bytes.bytesAt (ε := ε) data pos type.width =
        .ok lengthBytes := by
      rw [Bytes.bytesAt_eq_ok_iff, ← hbytes]
      exact ⟨List.length_take_of_le (by omega), List.take_prefix _ _⟩
    rw [if_pos hwidth, hread, Outcome.ok_bind, sizeOf_eq, hbytes]
    by_cases hsize : pos + type.width + type.sizeOf lengthBytes ≤ data.length
    · rw [if_pos hsize, if_pos ⟨by omega, by omega⟩, Bytes.slice,
        if_pos ⟨Nat.le_add_right _ _, hsize⟩, Nat.add_sub_cancel_left,
        ← List.drop_drop]
      rfl
    · rw [if_neg hsize, if_neg (fun h => hsize (by omega))]
      rfl
  · rw [if_neg hwidth, if_neg (fun h => hwidth (by omega))]
    rfl

/-- The column loop over BLOB columns. -/
theorem readColumns_blobs (json : JsonParser) {data : Bytes}
    {columns : List (Bool × BlobType)} {described : List (Bool × UInt8 × UInt16)}
    {pos : ℕ}
    (h : described.map (fun c => (c.1, c.2.1)) =
      columns.map fun c => (c.1, c.2.colType)) :
    readColumns (ε := ε) json data described pos =
      .ok ((blobsAhead columns (data.drop pos)).1,
        pos + (blobsAhead columns (data.drop pos)).2) := by
  induction columns generalizing described pos with
  | nil =>
      have hnil : described = [] := by simpa using h
      rw [hnil]
      rfl
  | cons column columns ih =>
      obtain ⟨isNull, type⟩ := column
      obtain ⟨head, described, rfl⟩ : ∃ head described', described =
          head :: described' := by
        apply List.exists_cons_of_ne_nil
        intro hnil
        rw [hnil] at h
        cases h
      obtain ⟨isNull', colType, colMeta⟩ := head
      simp only [List.map_cons, List.cons.injEq, Prod.mk.injEq] at h
      obtain ⟨⟨rfl, rfl⟩, hrest⟩ := h
      unfold readColumns blobsAhead
      cases isNull' with
      | true =>
          simp only [if_true, Outcome.pure_eq, Outcome.ok_bind, ih hrest,
            List.drop_zero, Nat.zero_add]
      | false =>
          simp only [Bool.false_eq_true, if_false, columnDataLength_blob,
            Nat.lt_irrefl, false_and, true_and, readVariable_blob]
          by_cases hpos : pos < data.length
          · rw [if_pos hpos, readBlob_eq type hpos]
            simp only [Outcome.ok_bind, Outcome.pure_eq, ih hrest,
              List.drop_drop, Nat.add_assoc]
          · have hnil : data.drop pos = [] :=
              List.drop_eq_nil_of_le (Nat.not_lt.mp hpos)
            rw [if_neg hpos]
            simp only [Outcome.ok_bind, Outcome.pure_eq, ih hrest, hnil,
              blobAhead, if_true, List.drop_nil, Nat.zero_add]

namespace BlobRow

variable {types : List BlobType}

/-- What the reader of a row makes of the null bitmap and the types. -/
theorem described_eq (row : BlobRow types) {bitmap : Bytes}
    (hbitmap : IsBitmap row.nulls bitmap) (metas : List UInt16) :
    (((types.map BlobType.colType).zipIdx.map fun (colType, i) =>
      ((bitsOf bitmap).getD i false, colType, metas.getD i 0)).map
        fun c => (c.1, c.2.1)) =
      row.columns.map fun c => (c.1, c.2.colType) := by
  apply List.ext_getElem (by simp [row.length_columns])
  intro i hleft hright
  have hi : i < types.length := by simpa using hleft
  have hnull := getD_bitsOf_of_isBitmap hbitmap
    (by rw [row.length_nulls]; exact hi)
  simp only [List.getElem_map, List.getElem_zipIdx, Nat.zero_add, hnull,
    row.getElem_columns hi]

/-- The reader of a row sees the null bitmap and the data ahead of the values. -/
theorem readRow_blobs (json : JsonParser) (htypes : types ≠ [])
    (row : BlobRow types) {bitmap : Bytes} (hbitmap : IsBitmap row.nulls bitmap)
    (metas : List UInt16) (ahead : Bytes) :
    readRow (ε := ε) json (bitmap ++ ahead) (types.map BlobType.colType) metas =
      .ok ((blobsAhead row.columns ahead).1,
        bitmap.length + (blobsAhead row.columns ahead).2) := by
  have hlength : bitmap.length = (types.length + 7) / 8 := by
    rw [hbitmap.1, row.length_nulls]
  have hpos : 0 < types.length := List.length_pos_iff.mpr htypes
  have hdata : bitmap ++ ahead ≠ [] := by
    intro hnil
    have hlen := congrArg List.length hnil
    simp only [List.length_append, List.length_nil] at hlen
    omega
  have htake : (bitmap ++ ahead).take ((types.length + 7) / 8) = bitmap := by
    rw [← hlength, List.take_left]
  have hdrop : (bitmap ++ ahead).drop ((types.length + 7) / 8) = ahead := by
    rw [← hlength, List.drop_left]
  have hshort : ¬ (bitmap ++ ahead).length < (types.length + 7) / 8 := by
    rw [List.length_append]
    omega
  unfold readRow
  simp only [hdata, List.map_eq_nil_iff, htypes, or_self, if_false,
    List.length_map, hshort, htake]
  rw [readColumns_blobs json (row.described_eq hbitmap metas), hdrop, hlength]

end BlobRow

/-! ## Aligned values -/

/-- A value is read where its length is what the reader takes. -/
theorem blobAhead_append {type : BlobType} {lengthBytes : Bytes}
    (content : Bytes)
    (hwidth : lengthBytes.length = type.width)
    (hcontent : content.length = type.sizeOf lengthBytes) (rest : Bytes) :
    blobAhead type (lengthBytes ++ (content ++ rest)) =
      (.string (fromUtf8Lossy content), type.width + content.length) := by
  have hpos : 0 < type.width := by cases type <;> decide
  have hne : lengthBytes ++ (content ++ rest) ≠ [] := by
    intro hnil
    have hlength := congrArg List.length hnil
    simp only [List.length_append, List.length_nil] at hlength
    omega
  have htake : (lengthBytes ++ (content ++ rest)).take type.width = lengthBytes :=
    List.take_left' hwidth
  have hdrop : (lengthBytes ++ (content ++ rest)).drop type.width =
      content ++ rest := List.drop_left' hwidth
  unfold blobAhead
  rw [if_neg hne, htake, hdrop, ← hcontent, List.take_left, if_pos]
  simp only [List.length_append]
  omega

theorem sizeOf_toLe {type : BlobType} (htype : type ≠ .long)
    (payload : Payload type) :
    type.sizeOf (Bytes.toLe type.width payload.bytes.length) =
      payload.bytes.length := by
  rw [BlobType.sizeOf, if_neg htype, Bytes.ofLe_toLe,
    Nat.mod_eq_of_lt payload.length_lt]

/-- The length of a value of the largest type is passed over. -/
theorem blobAhead_long {lengthBytes : Bytes}
    (hwidth : lengthBytes.length = BlobType.long.width) (rest : Bytes) :
    blobAhead .long (lengthBytes ++ rest) = (.string "", 4) :=
  blobAhead_append [] hwidth rfl rest

namespace BlobRow

variable {type : BlobType} {types : List BlobType}

/-- No value of the largest type. -/
def HasNoLong : {types : List BlobType} → BlobRow types → Prop
  | _, nil => True
  | type :: _, cons cell row => (type = .long → cell = none) ∧ row.HasNoLong

/-- The payloads as text. -/
def texts : {types : List BlobType} → BlobRow types → List Value
  | _, nil => []
  | _, cons none row => .null :: row.texts
  | _, cons (some payload) row =>
      .string (fromUtf8Lossy payload.bytes) :: row.texts

theorem hasNoLong_of_isPlain {row : BlobRow types} (h : row.IsPlain) :
    row.HasNoLong := by
  induction row with
  | nil => trivial
  | cons cell row ih =>
      refine ⟨fun htype => ?_, ih h.2⟩
      cases cell with
      | none => rfl
      | some payload => exact absurd htype (h.1 payload rfl).1

theorem map_fst_columns (row : BlobRow types) :
    row.columns.map Prod.fst = row.nulls := by
  induction row with
  | nil => rfl
  | cons cell row ih => simp [columns, nulls, ih]

/-- The values of a row are read where they stand. -/
theorem blobsAhead_valueBytes {row : BlobRow types} (h : row.HasNoLong)
    (rest : Bytes) :
    blobsAhead row.columns (row.valueBytes ++ rest) =
      (row.texts, row.valueBytes.length) := by
  induction row with
  | nil => rfl
  | @cons type types cell row ih =>
      cases cell with
      | none =>
          simp only [columns, valueBytes, blobsAhead, Option.isNone_none,
            if_true, List.drop_zero, ih h.2, texts, Nat.zero_add]
      | some payload =>
          have htype : type ≠ .long := by
            intro hlong
            cases h.1 hlong
          have hread := blobAhead_append _ (Bytes.length_toLe _ _)
            (sizeOf_toLe htype payload).symm (row.valueBytes ++ rest)
          have hdrop : (Bytes.toLe type.width payload.bytes.length ++
              (payload.bytes ++ (row.valueBytes ++ rest))).drop
                (type.width + payload.bytes.length) =
              row.valueBytes ++ rest := by
            rw [← List.append_assoc]
            exact List.drop_left' (by simp)
          simp only [columns, valueBytes, blobsAhead, Option.isNone_some,
            Bool.false_eq_true, if_false, List.append_assoc, hread, hdrop,
            ih h.2, texts, List.length_append, Bytes.length_toLe,
            Nat.add_assoc]

/-! ## Which row is read -/

theorem payload_ext {a b : Payload type} (h : a.bytes = b.bytes) : a = b := by
  cases a
  cases b
  cases h
  rfl

/-- A value that is not NULL is read as a text. -/
theorem exists_blobAhead_eq_string (payload : Payload type) (rest : Bytes) :
    ∃ text, (blobAhead type (Bytes.toLe type.width payload.bytes.length ++
      (payload.bytes ++ rest))).1 = .string text := by
  by_cases htype : type = .long
  · cases htype
    rw [blobAhead_long (Bytes.length_toLe _ _)]
    exact ⟨_, rfl⟩
  · rw [blobAhead_append _ (Bytes.length_toLe _ _)
      (sizeOf_toLe htype payload).symm]
    exact ⟨_, rfl⟩

/-- The column loop at a value of another type than the largest. -/
theorem blobsAhead_cons_some (htype : type ≠ .long) (payload : Payload type)
    (columns : List (Bool × BlobType)) (ahead : Bytes) :
    blobsAhead ((false, type) :: columns)
        (Bytes.toLe type.width payload.bytes.length ++
          (payload.bytes ++ ahead)) =
      (.string (fromUtf8Lossy payload.bytes) :: (blobsAhead columns ahead).1,
        type.width + payload.bytes.length + (blobsAhead columns ahead).2) := by
  have hread := blobAhead_append _ (Bytes.length_toLe _ _)
    (sizeOf_toLe htype payload).symm ahead
  have hdrop : (Bytes.toLe type.width payload.bytes.length ++
      (payload.bytes ++ ahead)).drop (type.width + payload.bytes.length) =
        ahead := by
    rw [← List.append_assoc]
    exact List.drop_left' (by simp)
  simp only [blobsAhead, Bool.false_eq_true, if_false, hread, hdrop]

/-- The column loop at a value of the largest type. -/
theorem blobsAhead_cons_long {lengthBytes : Bytes}
    (hwidth : lengthBytes.length = BlobType.long.width)
    (columns : List (Bool × BlobType)) (ahead : Bytes) :
    blobsAhead ((false, .long) :: columns) (lengthBytes ++ ahead) =
      (.string "" :: (blobsAhead columns ahead).1,
        4 + (blobsAhead columns ahead).2) := by
  have hdrop : (lengthBytes ++ ahead).drop 4 = ahead :=
    List.drop_left' hwidth
  simp only [blobsAhead, Bool.false_eq_true, if_false, blobAhead_long hwidth,
    hdrop]

/-- A plain payload is determined by its text. -/
theorem bytes_eq_of_fromUtf8Lossy {bytes bytes' : Bytes}
    (hplain : ∃ text, replacementChar ∉ text ∧ bytes = encodeUtf8 text)
    (h : fromUtf8Lossy bytes' = fromUtf8Lossy bytes) : bytes' = bytes := by
  obtain ⟨text, hfree, rfl⟩ := hplain
  have hread : utf8Lossy bytes' = text := by
    have hlists := congrArg String.toList h
    simpa only [fromUtf8Lossy, String.toList_ofList, utf8Lossy_encodeUtf8]
      using hlists
  have hback := encodeUtf8_utf8Lossy bytes' (by rw [hread]; exact hfree)
  rw [← hback, hread]

/-- A plain row is the only one that is read with its texts. -/
theorem eq_of_blobsAhead {row row' : BlobRow types} (hrow : row.IsPlain)
    {rest' : Bytes}
    (h : (blobsAhead row'.columns (row'.valueBytes ++ rest')).1 = row.texts) :
    row' = row := by
  induction row with
  | nil =>
      cases row'
      rfl
  | @cons type types cell row ih =>
      rcases row' with _ | ⟨cell', row'⟩
      rcases cell' with _ | payload'
      · rcases cell with _ | payload
        · simp only [columns, valueBytes, blobsAhead, Option.isNone_none,
            if_true, List.drop_zero, texts, List.cons.injEq, true_and] at h
          rw [ih hrow.2 h]
        · simp [columns, blobsAhead, texts] at h
      · rcases cell with _ | payload
        · obtain ⟨text, htext⟩ := exists_blobAhead_eq_string payload'
            (row'.valueBytes ++ rest')
          simp only [columns, valueBytes, blobsAhead, Option.isNone_some,
            Bool.false_eq_true, if_false, List.append_assoc, htext, texts,
            List.cons.injEq] at h
          cases h.1
        · obtain ⟨htype, hplain⟩ := hrow.1 payload rfl
          simp only [columns, valueBytes, Option.isNone_some,
            List.append_assoc, blobsAhead_cons_some htype payload', texts,
            List.cons.injEq, Value.string.injEq] at h
          have hbytes := bytes_eq_of_fromUtf8Lossy hplain h.1
          rw [payload_ext hbytes, ih hrow.2 h.2]

/-! ## Rows that are read alike -/

theorem cons_some_ne {a b : Payload type} {row row' : BlobRow types}
    (h : a.bytes ≠ b.bytes) : cons (some a) row ≠ cons (some b) row' := by
  intro heq
  injection heq with _ _ hcell
  exact h (congrArg Payload.bytes (Option.some.inj hcell))

theorem cons_ne_cons {cell : Option (Payload type)} {row row' : BlobRow types}
    (h : row ≠ row') : cons cell row ≠ cons cell row' := by
  intro heq
  injection heq with _ _ _ hrows
  exact h hrows

/-- The bytes that a value takes at most. -/
def valueBound : ℕ := 4 + 256 ^ 4

theorem width_add_le (type : BlobType) :
    type.width + 256 ^ type.width ≤ valueBound := by
  cases type <;> simp [BlobType.width, valueBound]

/-- Every byte string that is long enough starts with the values of a row that
has the columns of `row`. -/
theorem exists_row_like (row : BlobRow types) (ahead : Bytes)
    (h : types.length * valueBound ≤ ahead.length) :
    ∃ (row' : BlobRow types) (rest : Bytes),
      row'.columns = row.columns ∧ ahead = row'.valueBytes ++ rest := by
  induction row generalizing ahead with
  | nil => exact ⟨nil, ahead, rfl, rfl⟩
  | @cons type types cell row ih =>
      rw [List.length_cons, Nat.succ_mul] at h
      cases cell with
      | none =>
          obtain ⟨row', rest, hcolumns, hahead⟩ := ih ahead (by omega)
          refine ⟨cons none row', rest, ?_, hahead⟩
          rw [columns, columns, hcolumns]
      | some _ =>
          have hbound := width_add_le type
          have hpos : 0 < 256 ^ type.width := by positivity
          let lengthBytes := ahead.take type.width
          have hlengthBytes : lengthBytes.length = type.width :=
            List.length_take_of_le (by omega)
          have hsize : Bytes.ofLe lengthBytes < 256 ^ type.width := by
            rw [← hlengthBytes]
            exact Bytes.ofLe_lt _
          let tail := ahead.drop type.width
          have htail : tail.length = ahead.length - type.width :=
            List.length_drop
          let payload : Payload type :=
            ⟨tail.take (Bytes.ofLe lengthBytes),
              (List.length_take_le _ _).trans_lt hsize⟩
          have hpayload : payload.bytes.length = Bytes.ofLe lengthBytes :=
            List.length_take_of_le (by omega)
          obtain ⟨row', rest, hcolumns, hahead⟩ :=
            ih (tail.drop (Bytes.ofLe lengthBytes))
              (by rw [List.length_drop]; omega)
          refine ⟨cons (some payload) row', rest, ?_, ?_⟩
          · rw [columns, columns, hcolumns]
            rfl
          · have htoLe : Bytes.toLe type.width payload.bytes.length =
                lengthBytes := by
              rw [hpayload, ← hlengthBytes, Bytes.toLe_ofLe]
            rw [valueBytes, htoLe, List.append_assoc, List.append_assoc,
              ← hahead, List.take_append_drop, List.take_append_drop]

/-- Of the bytes ahead another payload takes one, or none. -/
theorem exists_short_payload (payload : Payload .long) {ahead : Bytes}
    (h : 0 < ahead.length) :
    ∃ payload' : Payload .long, payload'.bytes ≠ payload.bytes ∧
      payload'.bytes.length ≤ 1 ∧ payload'.bytes <+: ahead := by
  by_cases hempty : payload.bytes = []
  · refine ⟨⟨ahead.take 1, ?_⟩, ?_, List.length_take_le _ _,
      List.take_prefix _ _⟩
    · exact (List.length_take_le _ _).trans_lt (by decide)
    · rw [hempty]
      intro hnil
      have hlength := congrArg List.length hnil
      rw [List.length_take_of_le h] at hlength
      cases hlength
  · exact ⟨⟨[], by decide⟩, Ne.symm hempty, by decide, List.nil_prefix⟩

/-- A row with a value of the largest type is read, in front of enough further
bytes, like another row. -/
theorem exists_alike_of_long (row : BlobRow types) (h : ¬ row.HasNoLong) :
    ∃ (row' : BlobRow types) (rest rest' : Bytes), row' ≠ row ∧
      row'.columns = row.columns ∧
      (blobsAhead row.columns (row'.valueBytes ++ rest')).1 =
        (blobsAhead row.columns (row.valueBytes ++ rest)).1 := by
  induction row with
  | nil => exact absurd trivial h
  | @cons type types cell row ih =>
      by_cases hhead : type = .long ∧ cell ≠ none
      · obtain ⟨hlong, hsome⟩ := hhead
        cases hlong
        obtain ⟨payload, rfl⟩ := Option.ne_none_iff_exists'.mp hsome
        let zeros := List.replicate (types.length * valueBound + 1) (0 : UInt8)
        let ahead := payload.bytes ++ (row.valueBytes ++ zeros)
        have hzeros : zeros.length = types.length * valueBound + 1 :=
          List.length_replicate
        have hahead : types.length * valueBound + 1 ≤ ahead.length := by
          simp only [ahead, List.length_append, hzeros]
          omega
        have hpos : 0 < ahead.length := by omega
        obtain ⟨payload', hne, hlength, tail, htail⟩ :=
          exists_short_payload payload hpos
        have hlengths := congrArg List.length htail
        rw [List.length_append] at hlengths
        obtain ⟨row', rest', hcolumns, hrow'⟩ :=
          exists_row_like row tail (by omega)
        refine ⟨cons (some payload') row', zeros, rest', cons_some_ne hne,
          ?_, ?_⟩
        · rw [columns, columns, hcolumns]
          rfl
        · simp only [columns, valueBytes, Option.isNone_some,
            List.append_assoc]
          rw [← hrow', htail, blobsAhead_cons_long (Bytes.length_toLe _ _),
            blobsAhead_cons_long (Bytes.length_toLe _ _)]
      · have hrow : ¬ row.HasNoLong := by
          intro hrow
          apply h
          refine ⟨fun htype => ?_, hrow⟩
          by_contra hsome
          exact hhead ⟨htype, hsome⟩
        obtain ⟨row', rest, rest', hne, hcolumns, hsame⟩ := ih hrow
        refine ⟨cons cell row', rest, rest', cons_ne_cons hne, ?_, ?_⟩
        · rw [columns, columns, hcolumns]
        · cases cell with
          | none =>
              simp only [columns, valueBytes, blobsAhead, Option.isNone_none,
                if_true, List.drop_zero, hsame]
          | some payload =>
              have htype : type ≠ .long := fun htype => hhead ⟨htype, by simp⟩
              simp only [columns, valueBytes, Option.isNone_some,
                List.append_assoc, blobsAhead_cons_some htype payload, hsame]

/-- A payload with an ill-formed part, or with the character that stands for one,
has the text of another payload. -/
theorem exists_payload_alike (payload : Payload type)
    (h : ¬ ∃ text, replacementChar ∉ text ∧ payload.bytes = encodeUtf8 text) :
    ∃ payload' : Payload type, payload'.bytes ≠ payload.bytes ∧
      fromUtf8Lossy payload'.bytes = fromUtf8Lossy payload.bytes := by
  have hmem : replacementChar ∈ utf8Lossy payload.bytes := by
    by_contra hfree
    exact h ⟨_, hfree, (encodeUtf8_utf8Lossy _ hfree).symm⟩
  obtain ⟨other, hne, hle, hsame⟩ := exists_utf8Lossy_eq payload.bytes hmem
  refine ⟨⟨other, hle.trans_lt payload.length_lt⟩, hne, ?_⟩
  unfold fromUtf8Lossy
  rw [hsame]

/-- A row with such a payload has the texts of another row. -/
theorem exists_alike_of_text (row : BlobRow types) (hlong : row.HasNoLong)
    (h : ¬ row.IsPlain) :
    ∃ row' : BlobRow types, row' ≠ row ∧ row'.columns = row.columns ∧
      row'.HasNoLong ∧ row'.texts = row.texts := by
  induction row with
  | nil => exact absurd trivial h
  | @cons type types cell row ih =>
      by_cases hrow : row.IsPlain
      · cases cell with
        | none => exact absurd ⟨fun _ heq => (nomatch heq), hrow⟩ h
        | some payload =>
            have htype : type ≠ .long := fun htype => nomatch hlong.1 htype
            have htext : ¬ ∃ text, replacementChar ∉ text ∧
                payload.bytes = encodeUtf8 text := by
              intro htext
              apply h
              refine ⟨fun payload' heq => ?_, hrow⟩
              rw [← Option.some.inj heq]
              exact ⟨htype, htext⟩
            obtain ⟨payload', hne, hsame⟩ := exists_payload_alike payload htext
            refine ⟨cons (some payload') row, cons_some_ne hne, rfl,
              ⟨fun hlong => absurd hlong htype, hlong.2⟩, ?_⟩
            rw [texts, texts, hsame]
      · obtain ⟨row', hne, hcolumns, hlong', hsame⟩ := ih hlong.2 hrow
        refine ⟨cons cell row', cons_ne_cons hne, ?_, ⟨hlong.1, hlong'⟩, ?_⟩
        · rw [columns, columns, hcolumns]
        · cases cell with
          | none => rw [texts, texts, hsame]
          | some payload => rw [texts, texts, hsame]

/-- The row is read without its bytes being left over or others being taken, and
no other row is read with the same values. -/
def IsIdentified (row : BlobRow types) : Prop :=
  ∀ (json : JsonParser) (metas : List UInt16) (image rest : Bytes),
    IsBlobImage row image →
      ∃ values, readRow (ε := String) json (image ++ rest)
          (types.map BlobType.colType) metas = .ok (values, image.length) ∧
        ∀ (row' : BlobRow types) (image' rest' : Bytes) (n : ℕ),
          IsBlobImage row' image' →
          readRow (ε := String) json (image' ++ rest')
            (types.map BlobType.colType) metas = .ok (values, n) → row' = row

/-- Rows with the same columns that are read alike are not identified. -/
theorem not_isIdentified_of_alike {row row' : BlobRow types}
    (htypes : types ≠ []) (hne : row' ≠ row)
    (hcolumns : row'.columns = row.columns) (rest rest' : Bytes)
    (hsame : (blobsAhead row.columns (row'.valueBytes ++ rest')).1 =
      (blobsAhead row.columns (row.valueBytes ++ rest)).1) :
    ¬ row.IsIdentified := by
  intro h
  have hnulls : row'.nulls = row.nulls := by
    rw [← map_fst_columns, ← map_fst_columns, hcolumns]
  have hbitmap := isBitmap_bitmapOf row.nulls
  obtain ⟨values, hread, hunique⟩ := h ⟨fun _ => none, fun _ => none⟩ []
    (bitmapOf row.nulls ++ row.valueBytes) rest ⟨_, hbitmap, rfl⟩
  rw [List.append_assoc, row.readRow_blobs _ htypes hbitmap, ← hsame] at hread
  have hvalues : (blobsAhead row.columns (row'.valueBytes ++ rest')).1 =
      values := congrArg Prod.fst (Outcome.ok.inj hread)
  apply hne
  apply hunique row' (bitmapOf row.nulls ++ row'.valueBytes) rest' _
    ⟨_, hnulls ▸ hbitmap, rfl⟩
  rw [List.append_assoc, row'.readRow_blobs _ htypes (hnulls ▸ hbitmap),
    hcolumns, hvalues]

theorem isIdentified_of_isPlain {row : BlobRow types} (htypes : types ≠ [])
    (h : row.IsPlain) : row.IsIdentified := by
  rintro json metas image rest ⟨bitmap, hbitmap, rfl⟩
  refine ⟨row.texts, ?_, ?_⟩
  · rw [List.append_assoc, row.readRow_blobs json htypes hbitmap,
      blobsAhead_valueBytes (hasNoLong_of_isPlain h), List.length_append]
  · rintro row' image' rest' n ⟨bitmap', hbitmap', rfl⟩ hread
    rw [List.append_assoc, row'.readRow_blobs json htypes hbitmap'] at hread
    exact eq_of_blobsAhead h (congrArg Prod.fst (Outcome.ok.inj hread))

theorem isIdentified_nil : nil.IsIdentified := by
  rintro json metas image rest ⟨bitmap, hbitmap, rfl⟩
  have hnil : bitmap = [] := List.eq_nil_of_length_eq_zero hbitmap.1
  refine ⟨[], ?_, ?_⟩
  · rw [hnil]
    simp [readRow, valueBytes]
  · intro row' _ _ _ _ _
    cases row'
    rfl

/-- A row is identified exactly when it has no value of the largest type and its
payloads are texts without the replacement character. -/
theorem isIdentified_iff (row : BlobRow types) :
    row.IsIdentified ↔ row.IsPlain := by
  by_cases htypes : types = []
  · cases htypes
    cases row
    exact iff_of_true isIdentified_nil trivial
  · constructor
    · intro h
      by_contra hplain
      by_cases hlong : row.HasNoLong
      · obtain ⟨row', hne, hcolumns, hlong', htexts⟩ :=
          row.exists_alike_of_text hlong hplain
        apply not_isIdentified_of_alike htypes hne hcolumns [] [] _ h
        rw [← hcolumns, blobsAhead_valueBytes hlong', hcolumns,
          blobsAhead_valueBytes hlong, htexts]
      · obtain ⟨row', rest, rest', hne, hcolumns, hsame⟩ :=
          row.exists_alike_of_long hlong
        exact not_isIdentified_of_alike htypes hne hcolumns rest rest' hsame h
    · exact isIdentified_of_isPlain htypes

/-- The row of one payload. -/
def single (payload : Payload type) : BlobRow [type] := cons (some payload) nil

/-- The byte 255 of a TINYBLOB is read like the byte 254, and the byte 1 of a
LONGBLOB like no byte. -/
theorem not_isIdentified_single :
    ¬ (single ⟨[255], by decide⟩ : BlobRow [.tiny]).IsIdentified ∧
      ¬ (single ⟨[1], by decide⟩ : BlobRow [.long]).IsIdentified := by
  constructor
  · have h254 : (single ⟨[254], by decide⟩ : BlobRow [.tiny]) ≠
        single ⟨[255], by decide⟩ := cons_some_ne (by decide)
    exact not_isIdentified_of_alike (by decide) h254 rfl [] [] rfl
  · have hempty : (single ⟨[], by decide⟩ : BlobRow [.long]) ≠
        single ⟨[1], by decide⟩ := cons_some_ne (by decide)
    exact not_isIdentified_of_alike (by decide) hempty rfl [] [] rfl

end BlobRow
end OpenCdc.Mysql

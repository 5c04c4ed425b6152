import OpenCdc.Foundation.Utf8
import OpenCdc.Mysql.RowImage

/-!
# Table maps

The layout in which the server announces a table, and what `parse_table_map`
records of it.  A name is written behind its length and in front of a zero byte;
the parser stops at the zero byte and does not look for a length.  The metadata
of the columns stand one behind the other, each in a size that its type
determines; the parser has sizes of its own.
-/

namespace OpenCdc.Mysql

open Foundation Json

/-! ## Names -/

/-- A name without zero bytes is read up to the zero byte behind it. -/
theorem readName_eq (what : String) {data name : Bytes} {p : ℕ}
    (hfree : 0 ∉ name) (hp : p ≤ data.length)
    (h : name ++ [0] <+: data.drop p) :
    readName what data p = .ok (fromUtf8Lossy name, p + name.length + 1) := by
  obtain ⟨rest, hrest⟩ := h
  rw [List.append_assoc, List.singleton_append] at hrest
  have hfind : (data.drop p).findIdx? (· == 0) = some name.length := by
    rw [← hrest, List.findIdx?_append, List.findIdx?_eq_none_iff.mpr]
    · simp [List.findIdx?_cons]
    · intro b hb
      have hne : b ≠ 0 := fun heq => hfree (heq ▸ hb)
      simp [hne]
  have htake : (data.drop p).take name.length = name := by
    rw [← hrest, List.take_left]
  unfold readName Bytes.sliceFrom
  rw [if_pos hp, Outcome.ok_bind, hfind]
  dsimp only
  rw [htake]
  rfl

/-- What `parse_table_map` does behind the names. -/
def parseTableColumns (data : Bytes) (tableId : UInt64)
    (database table : String) (p : ℕ) : Outcome String TableMapEvent := do
  let (columnCount, n) ← readPackedInt (← Bytes.sliceFrom data p)
  let p := p + n
  let columnTypes ← Bytes.slice data p (p + columnCount)
  let p := p + columnCount
  let (_, metaN) ← readPackedInt (← Bytes.sliceFrom data p)
  let (columnMetas, p) ← readMetas data columnTypes (p + metaN)
  let nullBytes := (columnCount + 7) / 8
  let nullBits ←
    if p + nullBytes ≤ data.length then do
      let bytes ← Bytes.slice data p (p + nullBytes)
      pure ((bitsOf bytes).take columnCount)
    else pure (List.replicate columnCount false)
  return ⟨tableId, database, table, columnTypes, columnMetas, nullBits⟩

/-- The part of a table map in front of its columns: the table id, the flags and
the two names as the parser reads them. -/
structure TableMapHead where
  tableId : Bytes
  flags : Bytes
  database : Bytes
  table : Bytes
  length_tableId : tableId.length = 6
  length_flags : flags.length = 2
  zero_notMem_database : 0 ∉ database
  zero_notMem_table : 0 ∉ table

namespace TableMapHead

def encode (head : TableMapHead) : Bytes :=
  head.tableId ++ head.flags ++ (head.database ++ [0]) ++ (head.table ++ [0])

/-- The table id as a number. -/
def id (head : TableMapHead) : UInt64 := UInt64.ofNat (Bytes.ofLe head.tableId)

/-- The names are read as they stand. -/
theorem parseTableMap_append (head : TableMapHead) (rest : Bytes) :
    parseTableMap (head.encode ++ rest) =
      parseTableColumns (head.encode ++ rest) head.id
        (fromUtf8Lossy head.database) (fromUtf8Lossy head.table)
        head.encode.length := by
  have hid := head.length_tableId
  have hflags := head.length_flags
  have hlength : head.encode.length =
      8 + head.database.length + 1 + head.table.length + 1 := by
    simp only [encode, List.length_append, List.length_singleton]
    omega
  have hparts : (head.encode ++ rest) = head.tableId ++ (head.flags ++
      ((head.database ++ [0]) ++ ((head.table ++ [0]) ++ rest))) := by
    simp [encode]
  have hpacked : readPackedU48 (head.encode ++ rest) = (head.id, 6) := by
    unfold readPackedU48
    rw [if_neg (by rw [List.length_append]; omega), hparts,
      List.take_left' hid]
    rfl
  have hread : Bytes.bytesAt (ε := String) (head.encode ++ rest) 6 2 =
      .ok head.flags := by
    rw [hparts]
    exact bytesAt_append hid hflags
  have hdatabase : readName "database" (head.encode ++ rest) (6 + 2) =
      .ok (fromUtf8Lossy head.database, 6 + 2 + head.database.length + 1) := by
    apply readName_eq _ head.zero_notMem_database
    · rw [List.length_append]
      omega
    · rw [hparts, ← List.append_assoc, List.drop_left' (by simp; omega)]
      exact List.prefix_append _ _
  have htable : readName "table" (head.encode ++ rest)
      (6 + 2 + head.database.length + 1) =
        .ok (fromUtf8Lossy head.table, head.encode.length) := by
    have hend : head.encode.length =
        6 + 2 + head.database.length + 1 + head.table.length + 1 := by omega
    rw [hend]
    apply readName_eq _ head.zero_notMem_table
    · rw [List.length_append]
      omega
    · rw [hparts, ← List.append_assoc, ← List.append_assoc,
        List.drop_left' (by simp; omega)]
      exact List.prefix_append _ _
  unfold parseTableMap
  rw [hpacked]
  dsimp only
  rw [hread, Outcome.ok_bind, hdatabase, Outcome.ok_bind]
  dsimp only
  rw [htable]
  rfl

/-- The names that are recorded are those that are read. -/
theorem recorded_of_parseTableMap (head : TableMapHead) {rest : Bytes}
    {event : TableMapEvent}
    (h : parseTableMap (head.encode ++ rest) = .ok event) :
    event.tableId = head.id ∧ event.database = fromUtf8Lossy head.database ∧
      event.table = fromUtf8Lossy head.table := by
  rw [parseTableMap_append] at h
  obtain ⟨tail, -, h⟩ := Outcome.bind_eq_ok.mp h
  obtain ⟨count, -, h⟩ := Outcome.bind_eq_ok.mp h
  obtain ⟨columnTypes, -, h⟩ := Outcome.bind_eq_ok.mp h
  obtain ⟨tail', -, h⟩ := Outcome.bind_eq_ok.mp h
  obtain ⟨metaCount, -, h⟩ := Outcome.bind_eq_ok.mp h
  obtain ⟨columnMetas, -, h⟩ := Outcome.bind_eq_ok.mp h
  dsimp only at h
  split_ifs at h
  · obtain ⟨bytes, -, h⟩ := Outcome.bind_eq_ok.mp h
    rw [← Outcome.ok.inj h]
    exact ⟨rfl, rfl, rfl⟩
  · rw [← Outcome.ok.inj h]
    exact ⟨rfl, rfl, rfl⟩

end TableMapHead

/-- A name of a database or table. -/
structure SentName where
  text : String
  nonempty : text ≠ ""
  length_le : (encodeUtf8 text.toList).length ≤ 255
  no_nul : ∀ c ∈ text.toList, c.toNat ≠ 0

namespace SentName

/-- The name behind its length, without the zero byte that ends it. -/
def bytes (name : SentName) : Bytes :=
  UInt8.ofNat (encodeUtf8 name.text.toList).length :: encodeUtf8 name.text.toList

theorem zero_notMem_bytes (name : SentName) : 0 ∉ name.bytes := by
  have hle := name.length_le
  have htext : encodeUtf8 name.text.toList ≠ [] := by
    intro hnil
    apply name.nonempty
    rw [← fromUtf8Lossy_encodeUtf8 name.text, hnil]
    rfl
  have hpos := List.length_pos_of_ne_nil htext
  unfold bytes
  rw [List.mem_cons, not_or]
  constructor
  · intro hzero
    have hnat := congrArg UInt8.toNat hzero
    rw [UInt8.toNat_ofNat', Nat.mod_eq_of_lt (by omega)] at hnat
    simp only [UInt8.toNat_zero] at hnat
    omega
  · exact zero_notMem_encodeUtf8 name.no_nul

/-- The length is read as one character more. -/
theorem fromUtf8Lossy_bytes (name : SentName) :
    (fromUtf8Lossy name.bytes).toList =
      strayChar (UInt8.ofNat (encodeUtf8 name.text.toList).length) ::
        name.text.toList := by
  rw [fromUtf8Lossy, String.toList_ofList, bytes, utf8Lossy_cons_encodeUtf8]

theorem fromUtf8Lossy_bytes_ne (name : SentName) :
    fromUtf8Lossy name.bytes ≠ name.text := by
  intro heq
  have hlength := congrArg List.length name.fromUtf8Lossy_bytes
  rw [heq, List.length_cons] at hlength
  omega

end SentName

/-- A table as the server announces it, up to its columns. -/
structure SentTable where
  tableId : Bytes
  flags : Bytes
  database : SentName
  table : SentName
  length_tableId : tableId.length = 6
  length_flags : flags.length = 2

namespace SentTable

/-- The announcement as the parser divides it. -/
def head (sent : SentTable) : TableMapHead where
  tableId := sent.tableId
  flags := sent.flags
  database := sent.database.bytes
  table := sent.table.bytes
  length_tableId := sent.length_tableId
  length_flags := sent.length_flags
  zero_notMem_database := sent.database.zero_notMem_bytes
  zero_notMem_table := sent.table.zero_notMem_bytes

/-- The announcement, each name between its length and a zero byte. -/
def encode (sent : SentTable) : Bytes :=
  sent.tableId ++ sent.flags ++ (sent.database.bytes ++ [0]) ++
    (sent.table.bytes ++ [0])

/-- The names are remembered under the table id. -/
def IsRecorded (sent : SentTable) (state : ParserState) : Prop :=
  ∃ event, state.tables (UInt64.ofNat (Bytes.ofLe sent.tableId)) = some event ∧
    event.database = sent.database.text ∧ event.table = sent.table.text

/-- What is remembered under the table id has the lengths in front of the
names. -/
theorem names_of_parseEvent {sent : SentTable} {rest : Bytes}
    {event : TableMapEvent}
    (h : parseTableMap (sent.encode ++ rest) = .ok event) (json : JsonParser)
    (state : ParserState) {header : EventHeader}
    (htype : header.eventType = 0x13) :
    (parseEvent json state header (sent.encode ++ rest)).2.tables
        (UInt64.ofNat (Bytes.ofLe sent.tableId)) = some event ∧
      event.database = fromUtf8Lossy sent.database.bytes ∧
      event.table = fromUtf8Lossy sent.table.bytes := by
  obtain ⟨hid, hdatabase, htable⟩ :=
    sent.head.recorded_of_parseTableMap h
  refine ⟨?_, hdatabase, htable⟩
  have hid' : event.tableId = UInt64.ofNat (Bytes.ofLe sent.tableId) := hid
  rw [parseEvent_tableMap json state _ htype, h, ← hid']
  exact Function.update_self _ _ _

/-- No announced table is remembered under its names. -/
theorem not_isRecorded {sent : SentTable} {rest : Bytes}
    {event : TableMapEvent}
    (h : parseTableMap (sent.encode ++ rest) = .ok event) (json : JsonParser)
    (state : ParserState) {header : EventHeader}
    (htype : header.eventType = 0x13) :
    ¬ sent.IsRecorded (parseEvent json state header (sent.encode ++ rest)).2 := by
  rintro ⟨event', hevent', hname, -⟩
  obtain ⟨hevent, hdatabase, -⟩ := names_of_parseEvent h json state htype
  have hsame : event = event' := by
    rw [hevent] at hevent'
    exact Option.some.inj hevent'
  rw [← hsame, hdatabase] at hname
  exact sent.database.fromUtf8Lossy_bytes_ne hname

/-- The table orders of the database shop. -/
def orders : SentTable where
  tableId := [7, 0, 0, 0, 0, 0]
  flags := [1, 0]
  database := ⟨"shop", by decide, by decide, by simp⟩
  table := ⟨"orders", by decide, by decide, by simp⟩
  length_tableId := rfl
  length_flags := rfl

/-- One integer column, not NULL. -/
def oneColumn : Bytes := [1, 3, 0, 0]

def tableMapHeader : EventHeader := ⟨0, 0x13, 1, 42, 0, 0⟩

theorem parseTableMap_orders :
    ∃ event, parseTableMap (orders.encode ++ oneColumn) = .ok event := by
  rw [show orders.encode = orders.head.encode from rfl,
    TableMapHead.parseTableMap_append]
  exact ⟨_, rfl⟩

theorem not_isRecorded_oneColumn :
    ∃ event, parseTableMap (orders.encode ++ oneColumn) = .ok event ∧
      ¬ orders.IsRecorded (parseEvent ⟨fun _ => none, fun _ => none⟩ {}
        tableMapHeader (orders.encode ++ oneColumn)).2 := by
  obtain ⟨event, hparse⟩ := parseTableMap_orders
  exact ⟨event, hparse, not_isRecorded hparse _ _ rfl⟩

/-- The database shop is remembered with a character in front that its length
stands for. -/
theorem names_orders :
    (∃ event, (parseEvent ⟨fun _ => none, fun _ => none⟩ {} tableMapHeader
        (orders.encode ++ oneColumn)).2.tables 7 = some event ∧
      event.database = "\u0004shop") ∧
    ¬ orders.IsRecorded (parseEvent ⟨fun _ => none, fun _ => none⟩ {}
      tableMapHeader (orders.encode ++ oneColumn)).2 := by
  obtain ⟨event, hparse⟩ := parseTableMap_orders
  obtain ⟨hevent, hdatabase, -⟩ :=
    names_of_parseEvent hparse ⟨fun _ => none, fun _ => none⟩ {}
      (show tableMapHeader.eventType = 0x13 from rfl)
  have hbytes : orders.database.bytes = encodeUtf8 "\u0004shop".toList := by
    decide
  have hshop : fromUtf8Lossy orders.database.bytes = "\u0004shop" := by
    rw [hbytes, fromUtf8Lossy_encodeUtf8]
  refine ⟨⟨event, hevent, hdatabase.trans hshop⟩, ?_⟩
  rintro ⟨event', hevent', hname, -⟩
  rw [hevent] at hevent'
  rw [← Option.some.inj hevent', hdatabase, hshop] at hname
  exact absurd hname (by decide)

end SentTable

/-! ## Metadata -/

def mysqlTypeGeometry : UInt8 := 255

/-- The bytes of metadata that the server writes for a column type. -/
def sentMetaLength (colType : UInt8) : ℕ :=
  if colType ∈ [mysqlTypeVarchar, mysqlTypeBit, mysqlTypeNewdecimal,
      mysqlTypeEnum, mysqlTypeSet, mysqlTypeVarString, mysqlTypeString] then 2
  else if colType ∈ [mysqlTypeFloat, mysqlTypeDouble, mysqlTypeTimestamp2,
      mysqlTypeDatetime2, mysqlTypeTime2, mysqlTypeJson, mysqlTypeTinyBlob,
      mysqlTypeMediumBlob, mysqlTypeLongBlob, mysqlTypeBlob,
      mysqlTypeGeometry] then 1
  else 0

/-- The bytes of metadata that the parser takes for a column type inside the
data. -/
def takenMetaLength (colType : UInt8) : ℕ :=
  if colType = 0 ∨ colType = mysqlTypeNewdecimal ∨ colType = mysqlTypeBit then 2
  else if 249 ≤ colType then 1
  else 0

/-- The types whose metadata the parser takes in another size. -/
def misreadTypes : List UInt8 :=
  [0, mysqlTypeFloat, mysqlTypeDouble, mysqlTypeVarchar, mysqlTypeTimestamp2,
    mysqlTypeDatetime2, mysqlTypeTime2, mysqlTypeJson, mysqlTypeEnum,
    mysqlTypeSet, mysqlTypeVarString, mysqlTypeString]

theorem takenMetaLength_eq_iff (colType : UInt8) :
    takenMetaLength colType = sentMetaLength colType ↔
      colType ∉ misreadTypes := by
  have h : ∀ k < 256, takenMetaLength (UInt8.ofNat k) =
      sentMetaLength (UInt8.ofNat k) ↔ UInt8.ofNat k ∉ misreadTypes := by
    decide +kernel
  have htype := h colType.toNat colType.toNat_lt
  rwa [UInt8.ofNat_toNat] at htype

theorem metaLength_of_lt (colType : UInt8) {p : ℕ} {data : Bytes}
    (h : p < data.length) :
    metaLength colType p data = takenMetaLength colType := by
  unfold metaLength takenMetaLength
  split_ifs <;> simp_all

theorem metaLength_eq_zero {colType : UInt8} (p : ℕ) (data : Bytes)
    (h : takenMetaLength colType = 0) : metaLength colType p data = 0 := by
  unfold takenMetaLength at h
  unfold metaLength
  split_ifs at h ⊢ <;> simp_all

/-- The metadata as a number, 0 without metadata. -/
def metaOf (metaBytes : Bytes) : UInt16 := UInt16.ofNat (Bytes.ofLe metaBytes)

/-- The metadata of a column stand where the parser takes them. -/
theorem readMetas_cons {data metaBytes : Bytes} {colType : UInt8}
    {columnTypes : List UInt8} {p : ℕ} {metas : List UInt16} {p' : ℕ}
    (hlength : metaBytes.length = takenMetaLength colType)
    (hp : p ≤ data.length) (h : metaBytes <+: data.drop p)
    (hrest : readMetas data columnTypes (p + metaBytes.length) =
      .ok (metas, p')) :
    readMetas data (colType :: columnTypes) p =
      .ok (metaOf metaBytes :: metas, p') := by
  have hle := h.length_le
  rw [List.length_drop] at hle
  unfold readMetas
  by_cases hzero : metaBytes.length = 0
  · have hnil : metaBytes = [] := List.eq_nil_of_length_eq_zero hzero
    rw [hzero] at hlength hrest
    dsimp only
    rw [metaLength_eq_zero p data hlength.symm, if_pos (.inl rfl)]
    rw [Nat.add_zero] at hrest
    rw [hrest, Outcome.ok_bind, hnil]
    rfl
  · have hmeta := metaLength_of_lt colType (show p < data.length by omega)
    have hread : Bytes.bytesAt (ε := String) data p metaBytes.length =
        .ok metaBytes := Bytes.bytesAt_eq_ok_iff.mpr ⟨rfl, h⟩
    dsimp only
    rw [hmeta, ← hlength, if_neg (by omega), hread, Outcome.ok_bind, hrest]
    rfl

/-- The metadata of all columns stand where the parser takes them. -/
theorem readMetas_eq {data : Bytes} {columnTypes : List UInt8}
    {metaBytes : List Bytes} {p : ℕ}
    (hlengths : metaBytes.map List.length = columnTypes.map takenMetaLength)
    (hp : p ≤ data.length) (h : metaBytes.flatten <+: data.drop p) :
    readMetas data columnTypes p =
      .ok (metaBytes.map metaOf, p + metaBytes.flatten.length) := by
  induction columnTypes generalizing metaBytes p with
  | nil =>
      have hnil : metaBytes = [] := by simpa using hlengths
      rw [hnil]
      rfl
  | cons colType columnTypes ih =>
      obtain ⟨bytes, metaBytes, rfl⟩ : ∃ bytes metaBytes', metaBytes =
          bytes :: metaBytes' := by
        apply List.exists_cons_of_ne_nil
        intro hnil
        rw [hnil] at hlengths
        cases hlengths
      simp only [List.map_cons, List.cons.injEq] at hlengths
      rw [List.flatten_cons, Bytes.append_isPrefix_drop_iff] at h
      obtain ⟨hbytes, hflatten⟩ := h
      have hle := hbytes.length_le
      rw [List.length_drop] at hle
      have hrest := ih hlengths.2 (by omega) hflatten
      rw [readMetas_cons hlengths.1 hp hbytes hrest, List.flatten_cons,
        List.length_append, Nat.add_assoc]
      rfl

/-- A table map up to its metadata: its names, its column types and the two
length-encoded counts. -/
structure TableMapLayout where
  head : TableMapHead
  columnTypes : List UInt8
  count : Bytes
  metaCount : Bytes
  lengthEncoded_count : LengthEncoded columnTypes.length count
  lengthEncoded_metaCount :
    LengthEncoded (columnTypes.map sentMetaLength).sum metaCount

/-- What stands behind the counts: the metadata of each column, the null bitmap
and any further bytes. -/
structure TableMapContent (columnTypes : List UInt8) where
  metaBytes : List Bytes
  bitmap : Bytes
  rest : Bytes
  length_metaBytes :
    metaBytes.map List.length = columnTypes.map sentMetaLength
  length_bitmap : bitmap.length = (columnTypes.length + 7) / 8

namespace TableMapLayout

variable (layout : TableMapLayout) (content : TableMapContent layout.columnTypes)

def encode : Bytes :=
  layout.head.encode ++ (layout.count ++ (layout.columnTypes ++
    (layout.metaCount ++ (content.metaBytes.flatten ++
      (content.bitmap ++ content.rest)))))

/-- Where the metadata start. -/
def metaStart : ℕ :=
  layout.head.encode.length + layout.count.length +
    layout.columnTypes.length + layout.metaCount.length

/-- Each column's own metadata are recorded, and the null bits are those behind
the metadata. -/
def IsFaithful : Prop :=
  ∀ content : TableMapContent layout.columnTypes, ∃ event,
    parseTableMap (layout.encode content) = .ok event ∧
      event.columnTypes = layout.columnTypes ∧
      event.columnMetas = content.metaBytes.map metaOf ∧
      event.nullBits = (bitsOf content.bitmap).take layout.columnTypes.length

theorem drop_metaStart :
    (layout.encode content).drop layout.metaStart =
      content.metaBytes.flatten ++ (content.bitmap ++ content.rest) := by
  unfold encode metaStart
  rw [← List.append_assoc, ← List.append_assoc, ← List.append_assoc]
  apply List.drop_left'
  simp only [List.length_append]

theorem metaStart_le : layout.metaStart ≤ (layout.encode content).length := by
  unfold encode metaStart
  simp only [List.length_append]
  omega

/-- What the parser makes of the metadata decides what is recorded. -/
theorem parseTableMap_encode {metas : List UInt16} {p : ℕ}
    (h : readMetas (layout.encode content) layout.columnTypes
      layout.metaStart = .ok (metas, p)) :
    ∃ event, parseTableMap (layout.encode content) = .ok event ∧
      event.columnTypes = layout.columnTypes ∧ event.columnMetas = metas ∧
      event.nullBits =
        if p + (layout.columnTypes.length + 7) / 8 ≤
            (layout.encode content).length then
          (bitsOf (((layout.encode content).drop p).take
            ((layout.columnTypes.length + 7) / 8))).take
              layout.columnTypes.length
        else List.replicate layout.columnTypes.length false := by
  have hparse : parseTableMap (layout.encode content) =
      parseTableColumns (layout.encode content) _ _ _ _ :=
    layout.head.parseTableMap_append _
  have hcount : (layout.encode content).drop layout.head.encode.length =
      layout.count ++ (layout.columnTypes ++ (layout.metaCount ++
        (content.metaBytes.flatten ++ (content.bitmap ++ content.rest)))) := by
    unfold encode
    exact List.drop_left
  have htypes : (layout.encode content).drop
      (layout.head.encode.length + layout.count.length) =
        layout.columnTypes ++ (layout.metaCount ++
          (content.metaBytes.flatten ++ (content.bitmap ++ content.rest))) := by
    rw [← List.drop_drop, hcount, List.drop_left]
  have hmetaCount : (layout.encode content).drop
      (layout.head.encode.length + layout.count.length +
        layout.columnTypes.length) =
        layout.metaCount ++
          (content.metaBytes.flatten ++ (content.bitmap ++ content.rest)) := by
    rw [← List.drop_drop, htypes, List.drop_left]
  have hle := layout.metaStart_le content
  unfold metaStart at hle h
  have hslice : Bytes.slice (ε := String) (layout.encode content)
      (layout.head.encode.length + layout.count.length)
      (layout.head.encode.length + layout.count.length +
        layout.columnTypes.length) = .ok layout.columnTypes := by
    apply Bytes.slice_eq_ok (by omega)
    rw [htypes]
    exact List.prefix_append _ _
  rw [hparse]
  unfold parseTableColumns
  rw [Bytes.sliceFrom, if_pos (by omega), Outcome.ok_bind, hcount,
    readPackedInt_eq layout.lengthEncoded_count, Outcome.ok_bind]
  dsimp only
  rw [hslice, Outcome.ok_bind, Bytes.sliceFrom, if_pos (by omega),
    Outcome.ok_bind, hmetaCount,
    readPackedInt_eq layout.lengthEncoded_metaCount, Outcome.ok_bind]
  dsimp only
  rw [h, Outcome.ok_bind]
  by_cases hfit : p + (layout.columnTypes.length + 7) / 8 ≤
      (layout.encode content).length
  · rw [if_pos hfit, if_pos hfit, Bytes.slice,
      if_pos ⟨Nat.le_add_right _ _, hfit⟩, Nat.add_sub_cancel_left]
    exact ⟨_, rfl, rfl, rfl, rfl⟩
  · rw [if_neg hfit, if_neg hfit]
    exact ⟨_, rfl, rfl, rfl, rfl⟩

/-- Where no size differs, everything is recorded as it was sent. -/
theorem isFaithful_of_notMem
    (h : ∀ colType ∈ layout.columnTypes, colType ∉ misreadTypes) :
    layout.IsFaithful := by
  intro content
  have hsizes : layout.columnTypes.map sentMetaLength =
      layout.columnTypes.map takenMetaLength := by
    apply List.map_congr_left
    intro colType hmem
    exact ((takenMetaLength_eq_iff colType).mpr (h colType hmem)).symm
  have hdrop := layout.drop_metaStart content
  have hread := readMetas_eq (content.length_metaBytes.trans hsizes)
    (layout.metaStart_le content) (hdrop ▸ List.prefix_append _ _)
  obtain ⟨event, hparse, htypes, hmetas, hbits⟩ :=
    layout.parseTableMap_encode content hread
  refine ⟨event, hparse, htypes, hmetas, ?_⟩
  have hbitmap : ((layout.encode content).drop
      (layout.metaStart + content.metaBytes.flatten.length)) =
        content.bitmap ++ content.rest := by
    rw [← List.drop_drop, hdrop, List.drop_left]
  have hlength := congrArg List.length hbitmap
  rw [List.length_drop, List.length_append, content.length_bitmap] at hlength
  have hstart := layout.metaStart_le content
  have htake : (content.bitmap ++ content.rest).take
      ((layout.columnTypes.length + 7) / 8) = content.bitmap :=
    List.take_left' content.length_bitmap
  rw [hbits, hbitmap, htake]
  by_cases hnone : layout.columnTypes.length = 0
  · rw [hnone]
    simp
  · rw [if_pos (by omega)]

/-- Metadata of ones and enough further ones. -/
def onesContent (columnTypes : List UInt8) : TableMapContent columnTypes where
  metaBytes := columnTypes.map fun colType =>
    List.replicate (sentMetaLength colType) 255
  bitmap := List.replicate ((columnTypes.length + 7) / 8) 255
  rest := List.replicate (columnTypes.map takenMetaLength).sum 255
  length_metaBytes := by simp
  length_bitmap := by simp

theorem flatten_map_replicate (sizes : List ℕ) (b : UInt8) :
    (sizes.map fun n => List.replicate n b).flatten =
      List.replicate sizes.sum b := by
  induction sizes with
  | nil => rfl
  | cons n sizes ih =>
      rw [List.map_cons, List.flatten_cons, ih, List.sum_cons,
        List.replicate_append_replicate]

/-- Ones are recorded in the number of bytes that the parser takes. -/
theorem readMetas_onesContent (layout : TableMapLayout) :
    ∃ p, readMetas (layout.encode (onesContent layout.columnTypes))
      layout.columnTypes layout.metaStart =
        .ok (layout.columnTypes.map fun colType =>
          metaOf (List.replicate (takenMetaLength colType) 255), p) := by
  let taken := layout.columnTypes.map fun colType =>
    List.replicate (takenMetaLength colType) (255 : UInt8)
  have hlengths : taken.map List.length =
      layout.columnTypes.map takenMetaLength := by
    simp [taken]
  have htaken : taken.flatten =
      List.replicate (layout.columnTypes.map takenMetaLength).sum 255 := by
    rw [← flatten_map_replicate, List.map_map]
    rfl
  have hsent : (onesContent layout.columnTypes).metaBytes.flatten =
      List.replicate (layout.columnTypes.map sentMetaLength).sum 255 := by
    rw [← flatten_map_replicate, List.map_map]
    rfl
  have hprefix : taken.flatten <+:
      (layout.encode (onesContent layout.columnTypes)).drop
        layout.metaStart := by
    rw [drop_metaStart, hsent, htaken]
    simp only [onesContent, List.replicate_append_replicate]
    rw [← Nat.add_assoc, Nat.add_comm, ← List.replicate_append_replicate]
    exact List.prefix_append _ _
  have hread := readMetas_eq hlengths (layout.metaStart_le _) hprefix
  rw [List.map_map] at hread
  exact ⟨_, hread⟩

/-- Ones in another number of bytes are another number. -/
theorem metaOf_ones_inj {m n : ℕ} (hm : m ≤ 2) (hn : n ≤ 2)
    (h : metaOf (List.replicate m 255) = metaOf (List.replicate n 255)) :
    m = n := by
  interval_cases m <;> interval_cases n <;> first | rfl | exact absurd h (by decide)

theorem sentMetaLength_le (colType : UInt8) : sentMetaLength colType ≤ 2 := by
  unfold sentMetaLength
  split_ifs <;> omega

theorem takenMetaLength_le (colType : UInt8) :
    takenMetaLength colType ≤ 2 := by
  unfold takenMetaLength
  split_ifs <;> omega

/-- Whatever the metadata and the bitmap are, they are recorded as they were
sent exactly when no column has one of the types whose size differs. -/
theorem isFaithful_iff :
    layout.IsFaithful ↔
      ∀ colType ∈ layout.columnTypes, colType ∉ misreadTypes := by
  constructor
  · intro h colType hmem
    obtain ⟨event, hparse, -, hmetas, -⟩ := h (onesContent layout.columnTypes)
    obtain ⟨p, hread⟩ := layout.readMetas_onesContent
    obtain ⟨event', hparse', -, hmetas', -⟩ :=
      layout.parseTableMap_encode _ hread
    rw [hparse] at hparse'
    rw [← Outcome.ok.inj hparse', hmetas] at hmetas'
    have hmaps : layout.columnTypes.map (fun colType =>
        metaOf (List.replicate (sentMetaLength colType) 255)) =
          layout.columnTypes.map fun colType =>
            metaOf (List.replicate (takenMetaLength colType) 255) := by
      simpa [onesContent] using hmetas'
    have hvalue := List.map_inj_left.mp hmaps colType hmem
    have hsize := metaOf_ones_inj (sentMetaLength_le colType)
      (takenMetaLength_le colType) hvalue
    exact (takenMetaLength_eq_iff colType).mp hsize.symm
  · exact layout.isFaithful_of_notMem

/-- A table with one VARCHAR column. -/
def varcharLayout : TableMapLayout where
  head := SentTable.orders.head
  columnTypes := [mysqlTypeVarchar]
  count := [1]
  metaCount := [2]
  lengthEncoded_count := .one 1 (by decide)
  lengthEncoded_metaCount := .one 2 (by decide)

/-- The column holds up to 255 bytes and is not NULL. -/
def varcharContent : TableMapContent varcharLayout.columnTypes where
  metaBytes := [[255, 0]]
  bitmap := [0]
  rest := []
  length_metaBytes := by decide
  length_bitmap := rfl

/-- The length of the VARCHAR column is not recorded, and its first byte is taken
for the null bitmap. -/
theorem not_isFaithful_varchar :
    (∃ event, parseTableMap (varcharLayout.encode varcharContent) = .ok event ∧
      event.columnMetas = [0] ∧ event.nullBits = [true]) ∧
    ¬ varcharLayout.IsFaithful := by
  have hread : readMetas (varcharLayout.encode varcharContent)
      varcharLayout.columnTypes varcharLayout.metaStart =
        .ok ([0], varcharLayout.metaStart) := rfl
  obtain ⟨event, hparse, -, hmetas, hbits⟩ :=
    varcharLayout.parseTableMap_encode varcharContent hread
  refine ⟨⟨event, hparse, hmetas, hbits.trans (by decide)⟩, fun h => ?_⟩
  obtain ⟨event', hparse', -, hmetas', -⟩ := h varcharContent
  rw [hparse] at hparse'
  rw [← Outcome.ok.inj hparse', hmetas] at hmetas'
  exact absurd hmetas' (by decide)

end TableMapLayout
end OpenCdc.Mysql

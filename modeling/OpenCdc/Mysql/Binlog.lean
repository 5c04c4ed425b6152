import Mathlib.Logic.Function.Basic
import OpenCdc.Mysql.Column

/-!
# Binlog events

The parser of event bodies.  It remembers the table maps it has read, because
a rows event only names a table, and the last transaction identifier.
-/

namespace OpenCdc.Mysql

open Foundation Json

/-! ## Events -/

structure EventHeader where
  timestamp : UInt32
  eventType : UInt8
  serverId : UInt32
  eventSize : UInt32
  logPos : UInt32
  flags : UInt16
deriving DecidableEq, Repr

structure TableMapEvent where
  tableId : UInt64
  database : String
  table : String
  columnTypes : List UInt8
  columnMetas : List UInt16
  nullBits : List Bool
deriving DecidableEq, Repr

structure RowEvent where
  columns : List Value

/-- A transaction: the bytes of its UUID and its number. -/
structure Gtid where
  uuid : Bytes
  gno : UInt64
deriving DecidableEq, Repr

inductive BinlogEvent where
  | rotate (filename : String) (position : UInt64)
  | formatDescription
  | tableMap (event : TableMapEvent)
  | gtid (event : Gtid)
  | xid (xid : UInt64)
  | writeRows (tableId : UInt64) (rows : List RowEvent)
  | updateRows (tableId : UInt64) (rows : List (RowEvent × RowEvent))
  | deleteRows (tableId : UInt64) (rows : List RowEvent)
  | heartbeat
  | unknown (eventType : UInt8)

/-- What the parser remembers. -/
structure ParserState where
  currentGtid : Option Gtid := none
  tables : UInt64 → Option TableMapEvent := fun _ => none

/-! ## Packed numbers and bit sets -/

variable {ε : Type}

/-- `read_packed_u48` -/
def readPackedU48 (data : Bytes) : UInt64 × ℕ :=
  if data.length < 6 then (0, data.length)
  else (UInt64.ofNat (Bytes.ofLe (data.take 6)), 6)

/-- The value of a packed integer with `width` bytes behind its first byte. -/
def packedAfterFirst (width : ℕ) (data : Bytes) : Outcome ε (ℕ × ℕ) := do
  let bs ← Bytes.bytesAt data 1 width
  return (Bytes.ofLe bs, width + 1)

/-- `read_packed_int` -/
def readPackedInt (data : Bytes) : Outcome ε (ℕ × ℕ) :=
  match data with
  | [] => return (0, 0)
  | b :: _ =>
      if b < 251 then return (b.toNat, 1)
      else if b = 251 then return (0, 1)
      else if b = 252 then packedAfterFirst 2 data
      else if b = 253 then packedAfterFirst 3 data
      else if b = 254 then packedAfterFirst 8 data
      else return (0, 0)

/-- The bits of the bytes, least significant first. -/
def bitsOf (bytes : Bytes) : List Bool :=
  bytes.flatMap fun b => (List.range 8).map fun i => b.toNat.testBit i

/-- `read_bitset` -/
def readBitset (data : Bytes) : Outcome ε (List Bool × ℕ × ℕ) := do
  let (colCount, n) ← readPackedInt data
  if colCount = 0 ∨ n = 0 then return ([], 0, 0)
  else
    let total := n + (colCount + 7) / 8
    if data.length < total then return ([], colCount, total)
    else
      let bytes ← Bytes.slice data n total
      return ((bitsOf bytes).take colCount, colCount, total)

/-! ## Rows -/

/-- A value of one of the BLOB types, with the bytes it takes. -/
def readBlob (data : Bytes) (colType : UInt8) (pos : ℕ) :
    Outcome ε (Value × ℕ) :=
  let blobLen :=
    if colType = mysqlTypeTinyBlob then 1
    else if colType = mysqlTypeBlob then 2
    else if colType = mysqlTypeMediumBlob then 3
    else 4
  if pos + blobLen ≤ data.length then do
    -- the four-byte length of the largest type is not read
    let prefixBytes ← Bytes.bytesAt data pos blobLen
    let size := if blobLen = 4 then 0 else Bytes.ofLe prefixBytes
    let start := pos + blobLen
    if start + size ≤ data.length then
      let content ← Bytes.slice data start (start + size)
      return (.string (fromUtf8Lossy content), blobLen + size)
    else return (.null, blobLen)
  else return (.null, blobLen)

/-- A value of a type without a fixed length, with the bytes it takes. -/
def readVariable (data : Bytes) (colType : UInt8) (pos : ℕ) :
    Outcome ε (Value × ℕ) :=
  if isStringType colType then do
    let rest ← Bytes.sliceFrom data pos
    let (len, s) := decodeLengthEncodedString rest
    return if 0 < len then (.string s, len) else (.null, 1)
  else if isBlobType colType then readBlob data colType pos
  else return (.null, 1)

/-- The column loop of `read_row`, over the null bit, the type and the metadata
of each column. -/
def readColumns (json : JsonParser) (data : Bytes) :
    List (Bool × UInt8 × UInt16) → ℕ → Outcome ε (List Value × ℕ)
  | [], pos => return ([], pos)
  | (isNull, colType, colMeta) :: columns, pos => do
      let (val, pos) ←
        if isNull then pure (Value.null, pos)
        else
          let byteLen := columnDataLength colType colMeta
          if 0 < byteLen ∧ pos + byteLen ≤ data.length then do
            let bytes ← Bytes.slice data pos (pos + byteLen)
            let val ← decodeBinlogValue json bytes colType colMeta
            pure (val, pos + byteLen)
          else if byteLen = 0 ∧ pos < data.length then do
            let (val, n) ← readVariable data colType pos
            pure (val, pos + n)
          else pure (Value.null, pos)
      let (values, pos) ← readColumns json data columns pos
      return (val :: values, pos)

/-- `read_row`: the values of one row and the bytes they take, 0 if there is no
row. -/
def readRow (json : JsonParser) (data : Bytes) (columnTypes : List UInt8)
    (columnMetas : List UInt16) : Outcome ε (List Value × ℕ) :=
  if data = [] ∨ columnTypes = [] then return ([], 0)
  else
    let nullBytes := (columnTypes.length + 7) / 8
    if data.length < nullBytes then return ([], 0)
    else
      let nullBits := bitsOf (data.take nullBytes)
      let columns := columnTypes.zipIdx.map fun (colType, i) =>
        (nullBits.getD i false, colType, columnMetas.getD i 0)
      readColumns json data columns nullBytes

/-- The row loop of an event whose rows have one image. -/
def readRows (json : JsonParser) (data : Bytes) (columnTypes : List UInt8)
    (columnMetas : List UInt16) (pos : ℕ) : Outcome ε (List RowEvent) :=
  if _hpos : pos < data.length then do
    let rest ← Bytes.sliceFrom data pos
    let (row, n) ← readRow json rest columnTypes columnMetas
    if _hn : n = 0 then return []
    else
      let rows ← readRows json data columnTypes columnMetas (pos + n)
      return ⟨row⟩ :: rows
  else return []
termination_by data.length - pos

/-- The row loop of an update, whose rows have two images. -/
def readRowPairs (json : JsonParser) (data : Bytes)
    (columnTypes : List UInt8) (columnMetas : List UInt16) (pos : ℕ) :
    Outcome ε (List (RowEvent × RowEvent)) :=
  if _hpos : pos < data.length then do
    let rest ← Bytes.sliceFrom data pos
    let (before, n1) ← readRow json rest columnTypes columnMetas
    if _hn1 : n1 = 0 then return []
    else
      let rest ← Bytes.sliceFrom data (pos + n1)
      let (after, n2) ← readRow json rest columnTypes columnMetas
      if n2 = 0 then return []
      else
        let rows ←
          readRowPairs json data columnTypes columnMetas (pos + n1 + n2)
        return (⟨before⟩, ⟨after⟩) :: rows
  else return []
termination_by data.length - pos

/-- Without columns there are no rows. -/
theorem readRows_noColumns (json : JsonParser) (data : Bytes)
    (metas : List UInt16) (pos : ℕ) :
    readRows (ε := ε) json data [] metas pos = .ok [] := by
  rw [readRows]
  by_cases hpos : pos < data.length
  · rw [dif_pos hpos]
    simp [Bytes.sliceFrom, Nat.le_of_lt hpos, readRow]
  · rw [dif_neg hpos]
    rfl

theorem readRowPairs_noColumns (json : JsonParser) (data : Bytes)
    (metas : List UInt16) (pos : ℕ) :
    readRowPairs (ε := ε) json data [] metas pos = .ok [] := by
  rw [readRowPairs]
  by_cases hpos : pos < data.length
  · rw [dif_pos hpos]
    simp [Bytes.sliceFrom, Nat.le_of_lt hpos, readRow]
  · rw [dif_neg hpos]
    rfl

/-! ## Event bodies -/

/-- The head of a rows event: the table id and where the rows start. -/
def rowsHead (data : Bytes) (version : ℕ) : Outcome String (UInt64 × ℕ) := do
  let (tableId, pos) := readPackedU48 data
  let _flags ← Bytes.bytesAt data pos 2
  let pos := if version = 2 then pos + 2 + 2 else pos + 2
  let rest ← Bytes.sliceFrom data pos
  let (_, _, n) ← readBitset rest
  return (tableId, pos + n)

def columnTypesOf (state : ParserState) (tableId : UInt64) : List UInt8 :=
  ((state.tables tableId).map (·.columnTypes)).getD []

def columnMetasOf (state : ParserState) (tableId : UInt64) : List UInt16 :=
  ((state.tables tableId).map (·.columnMetas)).getD []

/-- The common body of `parse_write_rows` and `parse_delete_rows`. -/
def parseRows (json : JsonParser) (state : ParserState) (data : Bytes)
    (version : ℕ) : Outcome String (UInt64 × List RowEvent) := do
  let (tableId, pos) ← rowsHead data version
  let rows ← readRows json data (columnTypesOf state tableId)
    (columnMetasOf state tableId) pos
  return (tableId, rows)

def parseWriteRows (json : JsonParser) (state : ParserState) (data : Bytes)
    (version : ℕ) : Outcome String (Option BinlogEvent) := do
  let (tableId, rows) ← parseRows json state data version
  return some (.writeRows tableId rows)

def parseDeleteRows (json : JsonParser) (state : ParserState) (data : Bytes)
    (version : ℕ) : Outcome String (Option BinlogEvent) := do
  let (tableId, rows) ← parseRows json state data version
  return some (.deleteRows tableId rows)

def parseUpdateRows (json : JsonParser) (state : ParserState) (data : Bytes)
    (version : ℕ) : Outcome String (Option BinlogEvent) := do
  let (tableId, pos) ← rowsHead data version
  let rows ← readRowPairs json data (columnTypesOf state tableId)
    (columnMetasOf state tableId) pos
  return some (.updateRows tableId rows)

/-- `trim_end_matches('\0')` -/
def trimEndZeros (text : List Char) : List Char :=
  (text.reverse.dropWhile fun c => c = Char.ofNat 0).reverse

def parseRotate (data : Bytes) : Outcome String (Option BinlogEvent) :=
  if data.length < 8 then return some (.rotate "" 0)
  else return some (.rotate
    (String.ofList (trimEndZeros (utf8Lossy (data.drop 8))))
    (UInt64.ofNat (Bytes.ofLe (data.take 8))))

def parseXid (data : Bytes) : Outcome String (Option BinlogEvent) :=
  if data.length < 8 then return some (.xid 0)
  else return some (.xid (UInt64.ofNat (Bytes.ofLe (data.take 8))))

/-- `parse_gtid`: the number is read from the eight bytes behind the UUID. -/
def parseGtid (data : Bytes) : Outcome String (Option Gtid) :=
  if data.length < 20 then return none
  else do
    let uuidBytes ← Bytes.slice data 1 17
    let gnoBytes ← Bytes.bytesAt data 17 8
    return some ⟨uuidBytes, UInt64.ofNat (Bytes.ofLe gnoBytes)⟩

/-- A name up to its zero byte, and the offset behind that. -/
def readName (what : String) (data : Bytes) (p : ℕ) :
    Outcome String (String × ℕ) := do
  let rest ← Bytes.sliceFrom data p
  match rest.findIdx? (· == 0) with
  | none => throw ("missing null terminator for " ++ what ++
      " name in table map at offset " ++ toString p)
  | some stop => return (fromUtf8Lossy (rest.take stop), p + stop + 1)

/-- The bytes of metadata that the parser expects for a column type. -/
def metaLength (colType : UInt8) (p : ℕ) (data : Bytes) : ℕ :=
  if colType = 0 ∨ colType = mysqlTypeNewdecimal then 2
  else if colType = mysqlTypeBit then (if p < data.length then 2 else 0)
  else if 249 ≤ colType then 1
  else 0

/-- The metadata loop of `parse_table_map`. -/
def readMetas (data : Bytes) :
    List UInt8 → ℕ → Outcome String (List UInt16 × ℕ)
  | [], p => return ([], p)
  | colType :: columnTypes, p => do
      let metaLen := metaLength colType p data
      if metaLen = 0 ∨ data.length < p + metaLen then
        let (metas, p) ← readMetas data columnTypes p
        return (0 :: metas, p)
      else
        let bytes ← Bytes.bytesAt data p metaLen
        let (metas, p) ← readMetas data columnTypes (p + metaLen)
        return (UInt16.ofNat (Bytes.ofLe bytes) :: metas, p)

def parseTableMap (data : Bytes) : Outcome String TableMapEvent := do
  let (tableId, pos) := readPackedU48 data
  let _flags ← Bytes.bytesAt data pos 2
  let (database, p) ← readName "database" data (pos + 2)
  let (table, p) ← readName "table" data p
  let (columnCount, n) ← readPackedInt (← Bytes.sliceFrom data p)
  let p := p + n
  let columnTypes ← Bytes.slice data p (p + columnCount)
  let p := p + columnCount
  let (_, metaN) ← readPackedInt (← Bytes.sliceFrom data p)
  let (columnMetas, p) ← readMetas data columnTypes (p + metaN)
  let nullBytes := (columnCount + 7) / 8
  let nullBits ←
    if p + nullBytes ≤ data.length then do
      let bytes ← Bytes.slice data p (p + nullBytes)
      pure ((bitsOf bytes).take columnCount)
    else pure (List.replicate columnCount false)
  return ⟨tableId, database, table, columnTypes, columnMetas, nullBits⟩

/-- `parse_event`: its result, and the parser's state after it. -/
def parseEvent (json : JsonParser) (state : ParserState)
    (header : EventHeader) (data : Bytes) :
    Outcome String (Option BinlogEvent) × ParserState :=
  let eventType := header.eventType
  if eventType = 0x0f then (.ok (some .formatDescription), state)
  else if eventType = 0x04 then (parseRotate data, state)
  else if eventType = 0x13 then
    match parseTableMap data with
    | .ok event => (.ok (some (.tableMap event)), { state with
        tables := Function.update state.tables event.tableId (some event) })
    | .error e => (.error e, state)
    | .panicked => (.panicked, state)
  else if eventType = 0x17 then (parseWriteRows json state data 1, state)
  else if eventType = 0x18 then (parseUpdateRows json state data 1, state)
  else if eventType = 0x19 then (parseDeleteRows json state data 1, state)
  else if eventType = 0x1e then (parseWriteRows json state data 2, state)
  else if eventType = 0x1f then (parseUpdateRows json state data 2, state)
  else if eventType = 0x20 then (parseDeleteRows json state data 2, state)
  else if eventType = 0x21 then
    match parseGtid data with
    | .ok (some gtid) =>
        (.ok (some (.gtid gtid)), { state with currentGtid := some gtid })
    | .ok none => (.ok none, state)
    | .error e => (.error e, state)
    | .panicked => (.panicked, state)
  else if eventType = 0x10 then (parseXid data, state)
  else if eventType = 0x1b then (.ok (some .heartbeat), state)
  else (.ok (some (.unknown eventType)), state)

/-! ## What the parser remembers -/

/-- The events that change the state of the parser. -/
def BinlogEvent.isRemembered : BinlogEvent → Bool
  | tableMap _ => true
  | gtid _ => true
  | _ => false

/-- An event made from what was read is remembered only if its constructor
is. -/
theorem isRemembered_of_bind {α : Type} {read : Outcome String α}
    {event : BinlogEvent} (make : α → BinlogEvent)
    (hmake : ∀ a, (make a).isRemembered = false)
    (h : (do let a ← read; return some (make a)) = .ok (some event)) :
    event.isRemembered = false := by
  obtain ⟨a, -, hevent⟩ := Outcome.bind_eq_ok.mp h
  have heq : make a = event := by simpa using hevent
  rw [← heq]
  exact hmake a

theorem isRemembered_of_parseWriteRows {json : JsonParser}
    {state : ParserState} {data : Bytes} {version : ℕ} {event : BinlogEvent}
    (h : parseWriteRows json state data version = .ok (some event)) :
    event.isRemembered = false :=
  isRemembered_of_bind
    (fun head : UInt64 × List RowEvent => .writeRows head.1 head.2)
    (fun _ => rfl) h

theorem isRemembered_of_parseDeleteRows {json : JsonParser}
    {state : ParserState} {data : Bytes} {version : ℕ} {event : BinlogEvent}
    (h : parseDeleteRows json state data version = .ok (some event)) :
    event.isRemembered = false :=
  isRemembered_of_bind
    (fun head : UInt64 × List RowEvent => .deleteRows head.1 head.2)
    (fun _ => rfl) h

theorem isRemembered_of_parseUpdateRows {json : JsonParser}
    {state : ParserState} {data : Bytes} {version : ℕ} {event : BinlogEvent}
    (h : parseUpdateRows json state data version = .ok (some event)) :
    event.isRemembered = false := by
  obtain ⟨head, -, hrows⟩ := Outcome.bind_eq_ok.mp h
  exact isRemembered_of_bind (.updateRows head.1) (fun _ => rfl) hrows

/-- Both results of a parser that looks only at the length of the body. -/
theorem isRemembered_of_ite {c : Prop} [Decidable c] {short long : BinlogEvent}
    {event : BinlogEvent} (hshort : short.isRemembered = false)
    (hlong : long.isRemembered = false)
    (h : (if c then .ok (some short) else .ok (some long) :
      Outcome String (Option BinlogEvent)) = .ok (some event)) :
    event.isRemembered = false := by
  by_cases hc : c
  · have heq : short = event := by simpa [hc] using h
    rwa [← heq]
  · have heq : long = event := by simpa [hc] using h
    rwa [← heq]

theorem isRemembered_of_parseRotate {data : Bytes} {event : BinlogEvent}
    (h : parseRotate data = .ok (some event)) : event.isRemembered = false :=
  isRemembered_of_ite rfl rfl h

theorem isRemembered_of_parseXid {data : Bytes} {event : BinlogEvent}
    (h : parseXid data = .ok (some event)) : event.isRemembered = false :=
  isRemembered_of_ite rfl rfl h

/-- The call keeps the state and returns no event that is remembered. -/
def KeepsState (state : ParserState)
    (result : Outcome String (Option BinlogEvent) × ParserState) : Prop :=
  result.2 = state ∧
    ∀ event, result.1 = .ok (some event) → event.isRemembered = false

theorem keepsState_ite {state : ParserState} {c : Prop} [Decidable c]
    {yes no : Outcome String (Option BinlogEvent) × ParserState}
    (hyes : KeepsState state yes) (hno : KeepsState state no) :
    KeepsState state (if c then yes else no) := by
  by_cases hc : c
  · rwa [if_pos hc]
  · rwa [if_neg hc]

theorem keepsState_ok {state : ParserState} {event : BinlogEvent}
    (hevent : event.isRemembered = false) :
    KeepsState state (.ok (some event), state) := by
  refine ⟨rfl, fun event' heq => ?_⟩
  have hsame : event = event' := by simpa using heq
  rwa [← hsame]

theorem parseEvent_tableMap (json : JsonParser) (state : ParserState)
    {header : EventHeader} (data : Bytes) (htype : header.eventType = 0x13) :
    parseEvent json state header data =
      match parseTableMap data with
      | .ok event => (.ok (some (.tableMap event)), { state with
          tables := Function.update state.tables event.tableId (some event) })
      | .error e => (.error e, state)
      | .panicked => (.panicked, state) := by
  unfold parseEvent
  rw [htype]
  rfl

theorem parseEvent_gtid (json : JsonParser) (state : ParserState)
    {header : EventHeader} (data : Bytes) (htype : header.eventType = 0x21) :
    parseEvent json state header data =
      match parseGtid data with
      | .ok (some gtid) =>
          (.ok (some (.gtid gtid)), { state with currentGtid := some gtid })
      | .ok none => (.ok none, state)
      | .error e => (.error e, state)
      | .panicked => (.panicked, state) := by
  unfold parseEvent
  rw [htype]
  rfl

theorem keepsState_parseEvent (json : JsonParser) (state : ParserState)
    {header : EventHeader} (data : Bytes) (htable : header.eventType ≠ 0x13)
    (hgtid : header.eventType ≠ 0x21) :
    KeepsState state (parseEvent json state header data) := by
  unfold parseEvent
  dsimp only
  rw [if_neg htable, if_neg hgtid]
  apply keepsState_ite (keepsState_ok rfl)
  refine keepsState_ite ⟨rfl, fun _ => isRemembered_of_parseRotate⟩ ?_
  refine keepsState_ite ⟨rfl, fun _ => isRemembered_of_parseWriteRows⟩ ?_
  refine keepsState_ite ⟨rfl, fun _ => isRemembered_of_parseUpdateRows⟩ ?_
  refine keepsState_ite ⟨rfl, fun _ => isRemembered_of_parseDeleteRows⟩ ?_
  refine keepsState_ite ⟨rfl, fun _ => isRemembered_of_parseWriteRows⟩ ?_
  refine keepsState_ite ⟨rfl, fun _ => isRemembered_of_parseUpdateRows⟩ ?_
  refine keepsState_ite ⟨rfl, fun _ => isRemembered_of_parseDeleteRows⟩ ?_
  refine keepsState_ite ⟨rfl, fun _ => isRemembered_of_parseXid⟩ ?_
  exact keepsState_ite (keepsState_ok rfl) (keepsState_ok rfl)

/-- Whatever the state is, a call keeps it and returns no event that is
remembered; or it returns the same remembered event in every state. -/
theorem parseEvent_memory (json : JsonParser) (header : EventHeader)
    (data : Bytes) :
    (∀ state, KeepsState state (parseEvent json state header data)) ∨
    ∃ event, event.isRemembered = true ∧
      ∀ state, (parseEvent json state header data).1 = .ok (some event) := by
  by_cases htable : header.eventType = 0x13
  · rcases hparse : parseTableMap data with event | e | _
    · right
      refine ⟨.tableMap event, rfl, fun state => ?_⟩
      rw [parseEvent_tableMap json state data htable, hparse]
    · left
      intro state
      rw [parseEvent_tableMap json state data htable, hparse]
      exact ⟨rfl, by simp⟩
    · left
      intro state
      rw [parseEvent_tableMap json state data htable, hparse]
      exact ⟨rfl, by simp⟩
  · by_cases hgtid : header.eventType = 0x21
    · rcases hparse : parseGtid data with (_ | gtid) | e | _
      · left
        intro state
        rw [parseEvent_gtid json state data hgtid, hparse]
        exact ⟨rfl, by simp⟩
      · right
        refine ⟨.gtid gtid, rfl, fun state => ?_⟩
        rw [parseEvent_gtid json state data hgtid, hparse]
      · left
        intro state
        rw [parseEvent_gtid json state data hgtid, hparse]
        exact ⟨rfl, by simp⟩
      · left
        intro state
        rw [parseEvent_gtid json state data hgtid, hparse]
        exact ⟨rfl, by simp⟩
    · left
      intro state
      exact keepsState_parseEvent json state data htable hgtid

end OpenCdc.Mysql

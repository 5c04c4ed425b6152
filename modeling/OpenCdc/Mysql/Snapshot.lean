import OpenCdc.Core.Offset
import OpenCdc.Foundation.Utf8
import OpenCdc.Mysql.Greeting
import OpenCdc.Mysql.Stream

/-!
# The MySQL snapshotter

A snapshot reads the rows of its tables by queries of the text protocol.  If it
is given no tables, it asks the server for those of the database and looks the
names up in the rows of the answer.
-/

namespace OpenCdc.Mysql

open Foundation Json

/-! ## Packets and rows -/

/-- `read_mysql_packet`: the packet and the bytes behind it. -/
def readMysqlPacket (stream : Bytes) : Outcome Error (Bytes × Bytes) :=
  match stream with
  | a :: b :: c :: _seq :: rest =>
      let len := Bytes.ofLe [a, b, c, 0]
      if rest.length < len then
        .error (.other "read packet body: early eof")
      else .ok (rest.take len, rest.drop len)
  | _ => .error (.other "read packet header: early eof")

/-- The snapshotter reads the same packets as the binlog client. -/
theorem readMysqlPacket_eq_ok_iff {stream packet rest : Bytes} :
    readMysqlPacket stream = .ok (packet, rest) ↔
      readPacket stream = (.ok packet, rest) := by
  unfold readMysqlPacket readPacket
  split
  · dsimp only
    split_ifs <;> simp
  · simp

def decodeLengthStr (data : Bytes) : ℕ × String :=
  match data with
  | [] => (0, "")
  | first :: rest =>
      let len := first.toNat
      if len < data.length then (1 + len, fromUtf8Lossy (rest.take len))
      else (1, "")

/-- The columns of a row from the one with number `i` on; `count` are left. -/
def decodeColumns (rowPacket : Bytes) : ℕ → ℕ → ℕ → Map → Map
  | 0, _, _, row => row
  | count + 1, i, pos, row =>
      match rowPacket.drop pos with
      | [] => row
      | first :: rest =>
          if first = 0xfb then
            decodeColumns rowPacket count (i + 1) (pos + 1)
              (Map.insert row (columnKey i) .null)
          else
            let cell := decodeLengthStr (first :: rest)
            decodeColumns rowPacket count (i + 1) (pos + cell.1)
              (Map.insert row (columnKey i) (.string cell.2))

/-- The packet behind the last row. -/
def EndsRows (rowPacket : Bytes) : Prop :=
  rowPacket = [] ∨ rowPacket.head? = some 0xfe

instance (rowPacket : Bytes) : Decidable (EndsRows rowPacket) :=
  inferInstanceAs (Decidable (_ ∨ _))

/-- The loop over the rows of a result. -/
def readResultRows (colCount : ℕ) (stream : Bytes) :
    Outcome Error (List Map × Bytes) :=
  match _hread : readMysqlPacket stream with
  | .error e => .error e
  | .panicked => .panicked
  | .ok (rowPacket, stream') =>
      if EndsRows rowPacket then .ok ([], stream')
      else
        match readResultRows colCount stream' with
        | .error e => .error e
        | .panicked => .panicked
        | .ok (rows, stream'') =>
            .ok (decodeColumns rowPacket colCount 0 0 [] :: rows, stream'')
termination_by stream.length
decreasing_by
  exact length_lt_of_readPacket_eq_ok (readMysqlPacket_eq_ok_iff.mp _hread)

def skipPackets : ℕ → Bytes → Outcome Error Bytes
  | 0, stream => .ok stream
  | n + 1, stream => do
      let (_, stream) ← readMysqlPacket stream
      skipPackets n stream

/-- `query_table` behind the writing of the query. -/
def queryTable (stream : Bytes) : Outcome Error (List Map × Bytes) := do
  let (resp, stream) ← readMysqlPacket stream
  match resp with
  | [] => return ([], stream)
  | first :: _ =>
      if first = 0xff then
        let err ← Bytes.sliceFrom resp 3
        throw (.other ("mysql query error: " ++ fromUtf8Lossy err))
      else
        let colCount := first.toNat
        let stream ← skipPackets colCount stream
        let (_, stream) ← readMysqlPacket stream
        readResultRows colCount stream

/-! ## Sessions -/

/-- What a server sends: its greeting, its reply to the authentication, and
its answers to queries. -/
structure Server where
  greeting : Bytes
  authReply : Bytes
  answer : String → Bytes

/-- `read_ok_packet` -/
def readOkPacket (stream : Bytes) : Outcome Error Bytes := do
  let (resp, stream) ← readMysqlPacket stream
  match resp with
  | [] => throw (.other "empty auth response")
  | first :: _ =>
      if first = 0x00 ∨ first = 0xfe then return stream
      else if first = 0xff then
        let err ← Bytes.sliceFrom resp 3
        throw (.other ("auth failed: " ++ fromUtf8Lossy err))
      else
        throw (.other ("unexpected auth response: " ++ hexEncode [first]))

namespace Server

/-- A connection up to the first query; what the server has sent and nobody
has read is left. -/
def connect (server : Server) : Outcome Error Bytes := do
  let (handshake, stream) ← readMysqlPacket server.greeting
  let _authData ← parseGreeting handshake
  readOkPacket (stream ++ server.authReply)

def query (server : Server) (stream : Bytes) (text : String) :
    Outcome Error (List Map × Bytes) :=
  queryTable (stream ++ server.answer text)

end Server

/-! ## The snapshotter -/

def discoverQuery (database : String) : String :=
  "SELECT TABLE_SCHEMA, TABLE_NAME FROM information_schema.TABLES " ++
    "WHERE TABLE_SCHEMA = '" ++ database ++ "' AND TABLE_TYPE = 'BASE TABLE'"

/-- The entry of a row, if it has both names. -/
def discoveredTable (row : Map) : Option String := do
  let schema ← (Map.get row "TABLE_SCHEMA").bind Value.asStr
  let name ← (Map.get row "TABLE_NAME").bind Value.asStr
  return schema ++ "." ++ name

def discoverTables (server : Server) (database : String) :
    Outcome Error (List String) := do
  let stream ← server.connect
  let (rows, _) ← server.query stream (discoverQuery database)
  return rows.filterMap discoveredTable

/-- A table's database and name: `splitn(2, '.')`. -/
def splitTable (database table : String) : String × String :=
  match table.toList.dropWhile (· ≠ '.') with
  | [] => (database, table)
  | _ :: name =>
      (String.ofList (table.toList.takeWhile (· ≠ '.')), String.ofList name)

def selectQuery (db tbl : String) : String :=
  "SELECT * FROM `" ++ db ++ "`.`" ++ tbl ++ "`"

/-- The query for the rows of an entry of the table list. -/
def tableQuery (database table : String) : String :=
  selectQuery (splitTable database table).1 (splitTable database table).2

def rowDraft (db tbl : String) (row : Map) : Draft := fun clock =>
  ChangeEvent.snapshot (.object row)
    (SourceInfo.new .mysql db none tbl clock.source) clock.event

/-- What a snapshot has done: the queries for rows that it sent, the events
that the sink took, and its result. -/
structure SnapshotRun where
  queries : List String
  sent : List Draft
  result : Outcome Error ConnectorOffset

/-- The loop over the tables. -/
def snapshotTables (server : Server) (database : String) :
    List String → Room → Bytes → SnapshotRun
  | [], _, _ => ⟨[], [], .ok .snapshotDone⟩
  | table :: tables, room, stream =>
      -- the sink is closed
      if room = some 0 then ⟨[], [], .ok .snapshotDone⟩
      else
        let (db, tbl) := splitTable database table
        let text := tableQuery database table
        match server.query stream text with
        | .error e => ⟨[text], [], .error e⟩
        | .panicked => ⟨[text], [], .panicked⟩
        | .ok (rows, stream') =>
            let (seen, room', refused) :=
              Room.sendWhile (ι := String) room (rows.map (rowDraft db tbl))
            if refused then
              ⟨[text], sentOf seen, .error (.other "snapshot sink closed")⟩
            else
              let rest := snapshotTables server database tables room' stream'
              ⟨text :: rest.queries, sentOf seen ++ rest.sent, rest.result⟩

/-- `MySqlSnapshotter::run` -/
def snapshot (server : Server) (database : String) (tables : List String)
    (room : Room) : SnapshotRun :=
  let tableList :=
    if tables = [] then discoverTables server database else .ok tables
  match tableList with
  | .error e => ⟨[], [], .error e⟩
  | .panicked => ⟨[], [], .panicked⟩
  | .ok tableList =>
      match server.connect with
      | .error e => ⟨[], [], .error e⟩
      | .panicked => ⟨[], [], .panicked⟩
      | .ok stream => snapshotTables server database tableList room stream

/-! ## What is sent -/

theorem exists_rowDraft_of_mem_snapshotTables {server : Server}
    {database : String} {tables : List String} {room : Room} {stream : Bytes}
    {draft : Draft}
    (h : draft ∈ (snapshotTables server database tables room stream).sent) :
    ∃ db tbl row, draft = rowDraft db tbl row := by
  induction tables generalizing room stream with
  | nil => cases h
  | cons table tables ih =>
      rw [snapshotTables] at h
      split_ifs at h
      · cases h
      · rcases hquery : server.query stream (tableQuery database table) with
          ⟨rows, stream'⟩ | e | _
        · have hrow : ∀ db tbl, draft ∈ sentOf (Room.sendWhile (ι := String)
              room (rows.map (rowDraft db tbl))).1 →
                ∃ db tbl row, draft = rowDraft db tbl row := by
            intro db tbl hsent
            obtain ⟨row, -, hdraft⟩ := List.mem_map.mp
              (Room.mem_of_sent_mem_sendWhile (mem_sentOf_iff.mp hsent))
            exact ⟨db, tbl, row, hdraft.symm⟩
          simp only [hquery] at h
          split_ifs at h
          · exact hrow _ _ h
          · rcases List.mem_append.mp h with hsent | hrest
            · exact hrow _ _ hsent
            · exact ih hrest
        · simp only [hquery] at h
          cases h
        · simp only [hquery] at h
          cases h

/-- A snapshot sends rows of tables, whatever the server answers. -/
theorem exists_rowDraft_of_mem_snapshot {server : Server} {database : String}
    {tables : List String} {room : Room} {draft : Draft}
    (h : draft ∈ (snapshot server database tables room).sent) :
    ∃ db tbl row, draft = rowDraft db tbl row := by
  simp only [snapshot] at h
  split at h
  · cases h
  · cases h
  · split at h
    · cases h
    · cases h
    · exact exists_rowDraft_of_mem_snapshotTables h

/-! ## The keys of a row -/

theorem columnKey_ne {key : String} (h : key.toList.head? ≠ some 'c')
    (i : ℕ) : columnKey i ≠ key := by
  rintro rfl
  apply h
  rw [columnKey_toList]
  rfl

/-- The columns from a number on put no key but theirs into the row. -/
theorem get_decodeColumns {rowPacket : Bytes} {key : String} {i : ℕ}
    (h : ∀ j, i ≤ j → columnKey j ≠ key) (count pos : ℕ) (row : Map) :
    Map.get (decodeColumns rowPacket count i pos row) key =
      Map.get row key := by
  induction count generalizing i pos row with
  | zero => rfl
  | succ count ih =>
      have hkey := h i (Nat.le_refl i)
      have hrest : ∀ j, i + 1 ≤ j → columnKey j ≠ key := fun j hj =>
        h j (Nat.le_of_succ_le hj)
      unfold decodeColumns
      split
      · rfl
      · split_ifs
        · rw [ih hrest, Map.get_insert_of_ne _ hkey]
        · dsimp only
          rw [ih hrest, Map.get_insert_of_ne _ hkey]

theorem discoveredTable_decodeColumns (rowPacket : Bytes) (count : ℕ) :
    discoveredTable (decodeColumns rowPacket count 0 0 []) = none := by
  have hkey : ∀ i, 0 ≤ i → columnKey i ≠ "TABLE_SCHEMA" := fun i _ =>
    columnKey_ne (by decide) i
  have hget : Map.get (decodeColumns rowPacket count 0 0 []) "TABLE_SCHEMA" =
      none := get_decodeColumns hkey count 0 []
  rw [discoveredTable, hget]
  rfl

/-- The loop over the rows, read as a sequence of steps. -/
theorem readResultRows_eq (colCount : ℕ) (stream : Bytes) :
    readResultRows colCount stream = (do
      let (rowPacket, stream') ← readMysqlPacket stream
      if EndsRows rowPacket then return ([], stream')
      else
        let (rows, last) ← readResultRows colCount stream'
        return (decodeColumns rowPacket colCount 0 0 [] :: rows, last)) := by
  rw [readResultRows]
  split
  next e hread => rw [hread]; rfl
  next hread => rw [hread]; rfl
  next rowPacket stream' hread =>
    rw [hread, Outcome.ok_bind]
    dsimp only
    split_ifs
    · rfl
    · rcases readResultRows colCount stream' with ⟨rows, last⟩ | e | _
      · rfl
      · rfl
      · rfl

theorem readResultRows_eq_ok_iff {colCount : ℕ} {stream last : Bytes}
    {rows : List Map} :
    readResultRows colCount stream = .ok (rows, last) ↔
      ∃ rowPacket stream',
        readMysqlPacket stream = .ok (rowPacket, stream') ∧
          (EndsRows rowPacket ∧ rows = [] ∧ last = stream' ∨
            ¬EndsRows rowPacket ∧ ∃ rest,
              readResultRows colCount stream' = .ok (rest, last) ∧
                rows = decodeColumns rowPacket colCount 0 0 [] :: rest) := by
  rw [readResultRows_eq, Outcome.bind_eq_ok]
  simp only [Prod.exists]
  refine exists₂_congr fun rowPacket stream' => and_congr_right fun _ => ?_
  split_ifs with hends
  · simp [hends, Outcome.pure_eq, eq_comm]
  · simp only [hends, Outcome.bind_eq_ok, Prod.exists, Outcome.pure_eq,
      Outcome.ok.injEq, Prod.mk.injEq]
    simp [eq_comm, and_comm]

theorem discoveredTable_of_mem_readResultRows {colCount : ℕ}
    {stream last : Bytes} {rows : List Map}
    (h : readResultRows colCount stream = .ok (rows, last)) :
    ∀ row ∈ rows, discoveredTable row = none := by
  induction rows generalizing stream with
  | nil => simp
  | cons row rows ih =>
      obtain ⟨rowPacket, stream', -, ⟨-, hnil, -⟩ | ⟨-, rest, hrest, hcons⟩⟩ :=
        readResultRows_eq_ok_iff.mp h
      · cases hnil
      · obtain ⟨rfl, rfl⟩ := List.cons.inj hcons
        exact List.forall_mem_cons.mpr
          ⟨discoveredTable_decodeColumns rowPacket colCount, ih hrest⟩

/-- Whatever the server answers, no row has an entry. -/
theorem discoveredTable_of_mem_queryTable {stream last : Bytes}
    {rows : List Map} (h : queryTable stream = .ok (rows, last)) :
    ∀ row ∈ rows, discoveredTable row = none := by
  obtain ⟨⟨resp, behind⟩, -, h⟩ := Outcome.bind_eq_ok.mp h
  dsimp only at h
  split at h
  next =>
    obtain ⟨rfl, -⟩ := Prod.mk.inj (Outcome.ok.inj h)
    simp
  next first _ =>
    split_ifs at h with herror
    · obtain ⟨err, -, h⟩ := Outcome.bind_eq_ok.mp h
      cases h
    · obtain ⟨columns, -, h⟩ := Outcome.bind_eq_ok.mp h
      obtain ⟨⟨_, eof⟩, -, h⟩ := Outcome.bind_eq_ok.mp h
      exact discoveredTable_of_mem_readResultRows h

/-- No table is ever discovered. -/
theorem eq_nil_of_discoverTables_eq_ok {server : Server} {database : String}
    {tables : List String}
    (h : discoverTables server database = .ok tables) : tables = [] := by
  obtain ⟨stream, -, h⟩ := Outcome.bind_eq_ok.mp h
  obtain ⟨⟨rows, last⟩, hrows, h⟩ := Outcome.bind_eq_ok.mp h
  obtain rfl : rows.filterMap discoveredTable = tables := Outcome.ok.inj h
  exact List.filterMap_eq_nil_iff.mpr (discoveredTable_of_mem_queryTable hrows)

/-! ## Answers to the query for tables -/

/-- A text with its length in one byte. -/
def encodeText (s : String) : Bytes :=
  UInt8.ofNat (encodeUtf8 s.toList).length :: encodeUtf8 s.toList

/-- A name of a database or of a table. -/
structure Name where
  text : String
  hlength : (encodeUtf8 text.toList).length < 251

/-- Packets with consecutive sequence numbers. -/
def frames (seq : UInt8) : List Bytes → Bytes
  | [] => []
  | body :: bodies => frame seq body ++ frames (seq + 1) bodies

/-- The result set of the query for tables. -/
structure TableListing where
  /-- the definitions of the two columns, and the packet behind them -/
  schemaColumn : Bytes
  nameColumn : Bytes
  behindColumns : Bytes
  rows : List (Name × Name)
  behindRows : Bytes
  schemaColumn_lt : schemaColumn.length < 2 ^ 24
  nameColumn_lt : nameColumn.length < 2 ^ 24
  behindColumns_lt : behindColumns.length < 2 ^ 24
  behindRows_lt : (0xfe :: behindRows).length < 2 ^ 24

namespace TableListing

def rowPacket (row : Name × Name) : Bytes :=
  encodeText row.1.text ++ encodeText row.2.text

def bodies (listing : TableListing) : List Bytes :=
  [2] :: listing.schemaColumn :: listing.nameColumn ::
    listing.behindColumns :: (listing.rows.map rowPacket ++
      [0xfe :: listing.behindRows])

def encode (listing : TableListing) : Bytes := frames 1 listing.bodies

/-- The entries that the rows stand for. -/
def tables (listing : TableListing) : List String :=
  listing.rows.map fun row => row.1.text ++ "." ++ row.2.text

end TableListing

theorem readMysqlPacket_frame {seq : UInt8} {body rest : Bytes}
    (h : body.length < 2 ^ 24) :
    readMysqlPacket (frame seq body ++ rest) = .ok (body, rest) :=
  readMysqlPacket_eq_ok_iff.mpr (readPacket_frame h)

/-- The byte in front of a name is its length. -/
theorem toNat_lengthByte (name : Name) :
    (UInt8.ofNat (encodeUtf8 name.text.toList).length).toNat =
      (encodeUtf8 name.text.toList).length := by
  have hlength := name.hlength
  rw [UInt8.toNat_ofNat', Nat.mod_eq_of_lt (by omega)]

/-- It is neither the mark of a null nor that of the end. -/
theorem lengthByte_ne (name : Name) {b : UInt8} (hb : 251 ≤ b.toNat) :
    UInt8.ofNat (encodeUtf8 name.text.toList).length ≠ b := by
  have hlength := name.hlength
  rintro rfl
  rw [toNat_lengthByte] at hb
  omega

theorem decodeLengthStr_encodeText (name : Name) (rest : Bytes) :
    decodeLengthStr (encodeText name.text ++ rest) =
      ((encodeText name.text).length, name.text) := by
  rw [encodeText, List.cons_append, decodeLengthStr, toNat_lengthByte, if_pos,
    List.take_left, fromUtf8Lossy_encodeUtf8, List.length_cons, Nat.add_comm]
  simp only [List.length_cons, List.length_append]
  omega

/-- One column of a row, where its text stands. -/
theorem decodeColumns_text {rowPacket rest : Bytes} {pos : ℕ} {name : Name}
    (h : rowPacket.drop pos = encodeText name.text ++ rest) (count i : ℕ)
    (row : Map) :
    decodeColumns rowPacket (count + 1) i pos row =
      decodeColumns rowPacket count (i + 1)
        (pos + (encodeText name.text).length)
        (Map.insert row (columnKey i) (.string name.text)) := by
  have hcell := decodeLengthStr_encodeText name rest
  have hcons : encodeText name.text ++ rest =
      UInt8.ofNat (encodeUtf8 name.text.toList).length ::
        (encodeUtf8 name.text.toList ++ rest) := rfl
  rw [hcons] at h hcell
  rw [decodeColumns, h]
  dsimp only
  rw [if_neg (lengthByte_ne name (by decide)), hcell]

/-- A row is read column by column, under the numbers of the columns. -/
theorem decodeColumns_rowPacket (row : Name × Name) :
    decodeColumns (TableListing.rowPacket row) 2 0 0 [] =
      [(columnKey 0, .string row.1.text),
        (columnKey 1, .string row.2.text)] := by
  have hfirst : (TableListing.rowPacket row).drop 0 =
      encodeText row.1.text ++ encodeText row.2.text := rfl
  have hsecond : (TableListing.rowPacket row).drop
      (0 + (encodeText row.1.text).length) =
        encodeText row.2.text ++ [] := by
    rw [Nat.zero_add, TableListing.rowPacket, List.drop_left, List.append_nil]
  have hkeys : columnKey 0 ≠ columnKey 1 := by decide
  rw [decodeColumns_text hfirst 1 0, decodeColumns_text hsecond 0 1]
  simp [decodeColumns, Map.insert, hkeys]

theorem not_endsRows_rowPacket (row : Name × Name) :
    ¬EndsRows (TableListing.rowPacket row) := by
  rintro (hnil | hhead)
  · cases hnil
  · exact lengthByte_ne row.1 (by decide) (Option.some.inj hhead)

theorem length_rowPacket_lt (row : Name × Name) :
    (TableListing.rowPacket row).length < 2 ^ 24 := by
  have hschema := row.1.hlength
  have hname := row.2.hlength
  simp only [TableListing.rowPacket, encodeText, List.length_append,
    List.length_cons]
  omega

/-- What `query_table` makes of a row. -/
def rowMap (row : Name × Name) : Map :=
  [(columnKey 0, .string row.1.text), (columnKey 1, .string row.2.text)]

theorem readResultRows_frames {closing : Bytes} (hends : EndsRows closing)
    (hclosing : closing.length < 2 ^ 24) (seq : UInt8)
    (rows : List (Name × Name)) :
    readResultRows 2
        (frames seq (rows.map TableListing.rowPacket ++ [closing])) =
      .ok (rows.map rowMap, []) := by
  induction rows generalizing seq with
  | nil =>
      apply readResultRows_eq_ok_iff.mpr
      exact ⟨closing, [], readMysqlPacket_frame hclosing,
        .inl ⟨hends, rfl, rfl⟩⟩
  | cons row rows ih =>
      apply readResultRows_eq_ok_iff.mpr
      refine ⟨TableListing.rowPacket row, _,
        readMysqlPacket_frame (length_rowPacket_lt row),
        .inr ⟨not_endsRows_rowPacket row, _, ih (seq + 1), ?_⟩⟩
      rw [decodeColumns_rowPacket]
      rfl

/-- A listing is read whole. -/
theorem queryTable_encode (listing : TableListing) :
    queryTable listing.encode = .ok (listing.rows.map rowMap, []) := by
  have hends : EndsRows (0xfe :: listing.behindRows) := .inr rfl
  have hcount : ([2] : Bytes).length < 2 ^ 24 := by decide
  have hnot : ¬(2 : UInt8) = 0xff := by decide
  simp only [queryTable, TableListing.encode, TableListing.bodies, frames,
    readMysqlPacket_frame hcount, Outcome.ok_bind, if_neg hnot]
  simp only [UInt8.reduceToNat, skipPackets, Outcome.ok_bind,
    readMysqlPacket_frame listing.schemaColumn_lt,
    readMysqlPacket_frame listing.nameColumn_lt,
    readMysqlPacket_frame listing.behindColumns_lt]
  exact readResultRows_frames hends listing.behindRows_lt _ listing.rows

/-- No table is discovered, whatever the listing says. -/
theorem discoverTables_eq {server : Server} {database : String}
    {listing : TableListing} (hconnect : server.connect = .ok [])
    (hanswer : server.answer (discoverQuery database) = listing.encode) :
    discoverTables server database = .ok [] := by
  have hread : discoverTables server database =
      .ok ((listing.rows.map rowMap).filterMap discoveredTable) := by
    rw [discoverTables, hconnect, Outcome.ok_bind, Server.query, hanswer,
      List.nil_append, queryTable_encode, Outcome.ok_bind]
    rfl
  rw [hread, eq_nil_of_discoverTables_eq_ok hread]

/-- A snapshot without a list of tables reads none of them and reports that it
is complete. -/
theorem snapshot_nil {server : Server} {database : String}
    {listing : TableListing} (hconnect : server.connect = .ok [])
    (hanswer : server.answer (discoverQuery database) = listing.encode)
    (room : Room) :
    snapshot server database [] room = ⟨[], [], .ok .snapshotDone⟩ := by
  simp only [snapshot, if_true, discoverTables_eq hconnect hanswer, hconnect,
    snapshotTables]

/-- Only of a database without tables every table is discovered, and its rows
are asked for. -/
theorem discoversEveryTable_iff {server : Server} {database : String}
    {listing : TableListing} (hconnect : server.connect = .ok [])
    (hanswer : server.answer (discoverQuery database) = listing.encode) :
    (discoverTables server database = .ok listing.tables ∧
        (snapshot server database [] none).queries =
          listing.tables.map (tableQuery database)) ↔
      listing.rows = [] := by
  rw [discoverTables_eq hconnect hanswer, snapshot_nil hconnect hanswer]
  constructor
  · rintro ⟨htables, -⟩
    exact List.map_eq_nil_iff.mp (Outcome.ok.inj htables).symm
  · intro hrows
    simp [TableListing.tables, hrows]

/-! ## A server -/

/-- A listing with the given rows, as servers frame it. -/
def listingOf (rows : List (Name × Name)) : TableListing where
  schemaColumn := []
  nameColumn := []
  behindColumns := [0xfe, 0, 0, 2, 0]
  rows := rows
  behindRows := [0, 0, 2, 0]
  schemaColumn_lt := by decide
  nameColumn_lt := by decide
  behindColumns_lt := by decide
  behindRows_lt := by decide

/-- A server that lets everybody in and has the tables of a listing. -/
def Server.ofListing (listing : TableListing) : Server where
  greeting := frame 0 Greeting.usual.encode
  authReply := frame 2 [0, 0, 0, 2, 0, 0, 0]
  answer := fun _ => listing.encode

theorem Server.connect_ofListing (listing : TableListing) :
    (Server.ofListing listing).connect = .ok [] := rfl

theorem Server.answer_ofListing (listing : TableListing) (text : String) :
    (Server.ofListing listing).answer text = listing.encode := rfl

theorem discoversEveryTable_empty :
    (discoverTables (.ofListing (listingOf [])) "shop" = .ok [] ∧
        (snapshot (.ofListing (listingOf [])) "shop" [] none).queries = []) ↔
      (listingOf []).rows = [] :=
  discoversEveryTable_iff (Server.connect_ofListing (listingOf []))
    (Server.answer_ofListing _ _)

def shopUsers : Name × Name := (⟨"shop", by decide⟩, ⟨"users", by decide⟩)

theorem not_discovered_shopUsers :
    discoverTables (.ofListing (listingOf [shopUsers])) "shop" ≠
      .ok ["shop.users"] := by
  rw [discoverTables_eq (Server.connect_ofListing _)
    (Server.answer_ofListing _ _)]
  simp

end OpenCdc.Mysql

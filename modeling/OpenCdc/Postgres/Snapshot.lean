import OpenCdc.Foundation.Feed
import OpenCdc.Foundation.Utf8
import OpenCdc.Postgres.Lsn
import OpenCdc.Postgres.Streamer

/-!
# The Postgres snapshotter

A snapshot asks for the current LSN, for the tables if it is given none, and
then for the columns and the rows of one table after the other.  Every row is
sent as a change event whose source is marked as a snapshot.
-/

namespace OpenCdc.Postgres

open Foundation Json

/-! ## What the server answers -/

/-- A row of an answer: what `row.get` gives for the name of a column, or
`none` if it panics. -/
structure Row where
  get : String → Option (Option String)

/-- The answers to the queries of a snapshot; an error is the driver's text. -/
structure SnapshotClient where
  currentWalLsn : Except String String
  publicTables : Except String (List String)
  columnInfo : String → Except String (List (String × UInt32))
  query : String → Except String (List Row)

/-! ## Rows -/

def pgValueToJson (parseJson : String → Option Value) (row : Row)
    (col : String) (typeOid : UInt32) : Outcome Error Value :=
  match row.get col with
  | none => .panicked
  | some none => .ok .null
  | some (some s) =>
      .ok (pgTypeToJson parseJson (encodeUtf8 s.toList) typeOid)

def rowToJson (parseJson : String → Option Value) (row : Row)
    (columns : List (String × UInt32)) : Outcome Error Value := do
  let map ← columns.foldlM (fun map column => do
    let val ← pgValueToJson parseJson row column.1 column.2
    return Map.insert map column.1 val) []
  return .object map

def rowDraft (database table : String) (rowJson : Value) : Draft := fun clock =>
  ChangeEvent.snapshot rowJson
    ((SourceInfo.new .postgres database (some "public") table
      clock.source).withSnapshot .true) clock.event

/-! ## Tables -/

/-- The query for the rows of a table. -/
def rowsQuery (table : String) (columns : List (String × UInt32)) : String :=
  if columns = [] then "SELECT * FROM \"" ++ table ++ "\""
  else
    "SELECT " ++ String.intercalate ", " (columns.map Prod.fst) ++
      " FROM \"" ++ table ++ "\""

/-- The rows of a table, each as its event. -/
def tableRows (client : SnapshotClient) (config : StreamerConfig)
    (table : String) : Outcome Error (List (Outcome Error Draft)) := do
  let columns ← orOther ("failed to get columns for '" ++ table ++ "'")
    (client.columnInfo table)
  let rows ← orOther ("failed to snapshot table '" ++ table ++ "'")
    (client.query (rowsQuery table columns))
  return rows.map fun row => do
    let rowJson ← rowToJson config.parseJson row columns
    return rowDraft config.database table rowJson

/-- `snapshot_table`: the events that the sink takes, the room after them and
the result. -/
def snapshotTable (client : SnapshotClient) (config : StreamerConfig)
    (table : String) (room : Room) : List Draft × Room × Outcome Error Unit :=
  match tableRows client config table with
  | .error e => ([], room, .error e)
  | .panicked => ([], room, .panicked)
  | .ok rows => room.sendResults (.other "snapshot sink closed") rows

/-- The LSN of a snapshot and its tables. -/
def snapshotPlan (client : SnapshotClient) (tables : List String) :
    Outcome Error (Int64 × List String) := do
  let text ← orOther "failed to get current WAL LSN" client.currentWalLsn
  let snapshotLsn ← Outcome.ofExcept (parseLsn text)
  let tableList ←
    if tables = [] then orOther "failed to list tables" client.publicTables
    else .ok tables
  return (snapshotLsn, tableList)

/-- `Snapshotter::run`: the events that the sink takes, and the result. -/
def snapshot (client : SnapshotClient) (config : StreamerConfig)
    (tables : List String) (room : Room) :
    List Draft × Outcome Error ConnectorOffset :=
  match snapshotPlan client tables with
  | .error e => ([], .error e)
  | .panicked => ([], .panicked)
  | .ok (snapshotLsn, tableList) =>
      let (sent, result) := Room.sendGroups (fun _ => false)
        (snapshotTable client config) tableList room
      (sent, do
        result
        return ConnectorOffset.fromLsn snapshotLsn)

/-! ## What is sent -/

theorem exists_rowDraft_of_mem_snapshotTable {client : SnapshotClient}
    {config : StreamerConfig} {table : String} {room : Room} {draft : Draft}
    (h : draft ∈ (snapshotTable client config table room).1) :
    ∃ rowJson, draft = rowDraft config.database table rowJson := by
  unfold snapshotTable at h
  split at h
  · cases h
  · cases h
  · next rows hrows =>
      have hmem := Room.ok_mem_of_mem_sendResults h
      obtain ⟨columns, -, hread⟩ := Outcome.bind_eq_ok.mp hrows
      obtain ⟨found, -, hmap⟩ := Outcome.bind_eq_ok.mp hread
      rw [← Outcome.ok.inj hmap] at hmem
      obtain ⟨row, -, hrow⟩ := List.mem_map.mp hmem
      obtain ⟨rowJson, -, hdraft⟩ := Outcome.bind_eq_ok.mp hrow
      exact ⟨rowJson, (Outcome.ok.inj hdraft).symm⟩

/-- A snapshot sends rows of tables, whatever the server answers. -/
theorem exists_rowDraft_of_mem_snapshot {client : SnapshotClient}
    {config : StreamerConfig} {tables : List String} {room : Room}
    {draft : Draft} (h : draft ∈ (snapshot client config tables room).1) :
    ∃ table rowJson, draft = rowDraft config.database table rowJson := by
  unfold snapshot at h
  split at h
  · cases h
  · cases h
  · obtain ⟨table, -, room', hsent⟩ := Room.exists_of_mem_sendGroups h
    exact ⟨table, exists_rowDraft_of_mem_snapshotTable hsent⟩

end OpenCdc.Postgres

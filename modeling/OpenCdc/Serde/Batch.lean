import OpenCdc.Core.Error
import OpenCdc.Core.EventJson
import OpenCdc.Foundation.Arrow

/-!
# Batches of change events

`BatchConverter` writes change events as the rows of a record batch and reads
events from one.  The writer makes a string array for every column; the reader
looks for its numbers in integer arrays.
-/

namespace OpenCdc

open Foundation.Arrow

/-- `Default for SourceInfo`; `now` is the clock in milliseconds. -/
def SourceInfo.ofDefault (now : Int64) : SourceInfo where
  version := defaultVersion
  connector := defaultConnector
  name := defaultName
  tsMs := some now
  snapshot := .false
  db := ""
  schema := defaultSchema
  table := ""
  txId := none
  lsn := none
  xmin := none
  file := none
  pos := none
  gtid := none
  sequence := none
  rsId := none
  resumeToken := none
  extra := none

namespace BatchConverter

/-! ## Writing and reading -/

/-- What an event has in the column of this name. -/
def cell (event : ChangeEvent) : String → Option String
  | "op" => some event.payload.op.asStr
  | "ts_ms" => event.payload.tsMs.map fun v => toString v.toInt
  | "db" => some event.payload.source.db
  | "schema" => event.payload.source.schema
  | "table" => some event.payload.source.table
  | "connector" => some event.payload.source.connector
  | "lsn" => event.payload.source.lsn.map fun v => toString v.toInt
  | "txId" => event.payload.source.txId.map fun v => toString v.toInt
  | "snapshot" => some event.payload.source.snapshot.asStr
  | _ => none

def column (events : List ChangeEvent) (name : String) : Cells :=
  .strings (events.map fun event => cell event name)

variable (lib : Arrays)

def eventsToBatch (events : List ChangeEvent) (schema : Schema) :
    Except Error lib.RecordBatch :=
  if events.length = 0 then .error (.conversion "empty events slice")
  else
    match lib.tryNew schema (schema.fields.map fun field =>
        lib.build (column events field.name)) with
    | .ok batch => .ok batch
    | .error e => .error (.arrow e)

variable (batch : lib.RecordBatch)

def extractStringCol (name : String) (row : ℕ) : Option String :=
  ((lib.columnByName batch name).bind lib.downcastString).map (· row)

def extractIntCol (name : String) (row : ℕ) : Option Int64 :=
  ((lib.columnByName batch name).bind lib.downcastInt64).map (· row)

/-- The event that is read from a row. -/
def eventAt (row : ℕ) (now : Int64) : ChangeEvent :=
  .new {
    before := none
    after := none
    source := { SourceInfo.ofDefault now with
      db := (extractStringCol lib batch "db" row).getD ""
      schema := extractStringCol lib batch "schema" row
      table := (extractStringCol lib batch "table" row).getD ""
      connector := (extractStringCol lib batch "connector" row).getD ""
      lsn := extractIntCol lib batch "lsn" row
      txId := extractIntCol lib batch "txId" row }
    op := (((lib.columnByName batch "op").bind lib.downcastString).bind
      fun value => Operation.fromStr (value row)).getD .read
    tsMs := ((lib.columnByName batch "ts_ms").bind lib.downcastInt64).map
      (· row)
    transaction := none }

/-- `batch_to_events`; `clock` is what the clock shows at each row. -/
def batchToEvents (clock : ℕ → Int64) : Except Error (List ChangeEvent) :=
  .ok ((List.range (lib.numRows batch)).map fun row =>
    eventAt lib batch row (clock row))

/-! ## What is accepted -/

variable {lib} {batch} {events : List ChangeEvent} {schema : Schema}

theorem length_column (events : List ChangeEvent) (name : String) :
    (column events name).length = events.length :=
  List.length_map _

theorem isNull_column {events : List ChangeEvent} {i : ℕ} {event : ChangeEvent}
    (h : events[i]? = some event) (name : String) :
    (column events name).isNull i = (cell event name).isNone := by
  simp [column, Cells.isNull, h]

theorem fitsField_column_iff {field : Field} :
    (column events field.name).FitsField field ↔
      field.dataType = .utf8 ∧ (field.nullable = false →
        ∀ event ∈ events, (cell event field.name).isSome) := by
  unfold Cells.FitsField
  rw [length_column]
  refine and_congr eq_comm (imp_congr_right fun _ => ?_)
  constructor
  · intro h event hmem
    obtain ⟨i, hi⟩ := List.mem_iff_getElem?.mp hmem
    have hnull := h i (List.getElem?_eq_some_iff.mp hi).1
    rw [isNull_column hi] at hnull
    simpa using hnull
  · intro h i hi
    rw [isNull_column (List.getElem?_eq_getElem hi)]
    simpa using h _ (List.getElem_mem hi)

theorem eventsToBatch_eq_ok_iff {batch : lib.RecordBatch} :
    eventsToBatch lib events schema = .ok batch ↔
      events ≠ [] ∧ lib.tryNew schema (schema.fields.map fun field =>
        lib.build (column events field.name)) = .ok batch := by
  unfold eventsToBatch
  split_ifs with hempty
  · simp [List.length_eq_zero_iff.mp hempty]
  · have hne : events ≠ [] := fun h => hempty (by rw [h]; rfl)
    cases lib.tryNew schema (schema.fields.map fun field =>
      lib.build (column events field.name)) <;> simp [hne]

/-- Only columns of strings are accepted, and a column that is not nullable
only if every event has a value for it. -/
theorem exists_eventsToBatch_iff (hlib : lib.Documented) :
    (∃ batch, eventsToBatch lib events schema = .ok batch) ↔
      events ≠ [] ∧ schema.fields ≠ [] ∧ ∀ field ∈ schema.fields,
        field.dataType = .utf8 ∧ (field.nullable = false →
          ∀ event ∈ events, (cell event field.name).isSome) := by
  simp only [eventsToBatch_eq_ok_iff, exists_and_left, hlib.tryNew_isOk_iff]
  apply and_congr_right
  intro _
  constructor
  · intro h
    have hfits := h.fits
    rw [List.forall₂_map_right_iff, List.forall₂_same] at hfits
    refine ⟨fun hnil => h.nonempty (by rw [hnil]; rfl), ?_⟩
    intro field hfield
    exact fitsField_column_iff.mp (hlib.fits_build_iff.mp (hfits field hfield))
  · rintro ⟨hne, hfields⟩
    refine ⟨fun hnil => hne (List.map_eq_nil_iff.mp hnil), ?_, ?_⟩
    · rw [List.forall₂_map_right_iff, List.forall₂_same]
      intro field hfield
      exact hlib.fits_build_iff.mpr
        (fitsField_column_iff.mpr (hfields field hfield))
    · intro a ha b hb
      obtain ⟨field, -, rfl⟩ := List.mem_map.mp ha
      obtain ⟨field', -, rfl⟩ := List.mem_map.mp hb
      rw [hlib.len_build, hlib.len_build, length_column, length_column]

/-- One column of strings that has no nulls. -/
def requiredColumn (name : String) : Schema := ⟨[⟨name, .utf8, false, []⟩], []⟩

/-- A row of MySQL has an operation and no LSN. -/
theorem exists_eventsToBatch_iff_users :
    (∃ batch, eventsToBatch plain
        [.create .null (SourceInfo.new .mysql "shop" none "users" 0) 0]
        (requiredColumn "op") = .ok batch) ∧
      ¬∃ batch, eventsToBatch plain
        [.create .null (SourceInfo.new .mysql "shop" none "users" 0) 0]
        (requiredColumn "lsn") = .ok batch := by
  rw [exists_eventsToBatch_iff documented_plain,
    exists_eventsToBatch_iff documented_plain]
  constructor
  · exact ⟨List.cons_ne_nil _ _, List.cons_ne_nil _ _, by
      simp [requiredColumn, cell]⟩
  · rintro ⟨-, -, hfields⟩
    have hsome := (hfields _ List.mem_cons_self).2 rfl _ List.mem_cons_self
    cases hsome

/-! ## What is read back -/

/-- The columns that the reader or the writer knows. -/
def columnNames : List String :=
  ["op", "ts_ms", "db", "schema", "table", "connector", "lsn", "txId",
    "snapshot"]

/-- What is read back of an event: no number, and a schema in any case. -/
def readBack (event : ChangeEvent) (now : Int64) : ChangeEvent :=
  .new {
    before := none
    after := none
    source := { SourceInfo.ofDefault now with
      db := event.payload.source.db
      schema := some (event.payload.source.schema.getD "")
      table := event.payload.source.table
      connector := event.payload.source.connector }
    op := event.payload.op
    tsMs := none
    transaction := none }

section Rows

variable (hlib : lib.Documented)
  (hnames : ∀ name ∈ columnNames, name ∈ schema.fields.map (·.name))
  (hbatch : eventsToBatch lib events schema = .ok batch)

include hlib hbatch

theorem numRows_eventsToBatch : lib.numRows batch = events.length :=
  hlib.numRows_of_map (eventsToBatch_eq_ok_iff.mp hbatch).2
    (length_column events)

include hnames

theorem columnByName_eventsToBatch {name : String}
    (hname : name ∈ columnNames) :
    lib.columnByName batch name = some (lib.build (column events name)) :=
  hlib.columnByName_of_map (eventsToBatch_eq_ok_iff.mp hbatch).2
    (hnames name hname)

/-- A string column reads as it was written, with the empty string for what an
event does not have. -/
theorem downcastString_eventsToBatch {name : String}
    (hname : name ∈ columnNames) :
    ∃ value, (lib.columnByName batch name).bind lib.downcastString =
        some value ∧ ∀ (row : ℕ) (event : ChangeEvent),
          events[row]? = some event → value row = (cell event name).getD "" := by
  rw [columnByName_eventsToBatch hlib hnames hbatch hname, Option.bind_some]
  obtain ⟨value, hvalue, hread⟩ := hlib.downcastString_strings
    (events.map fun event => cell event name)
  refine ⟨value, hvalue, ?_⟩
  intro row event hrow
  rw [hread row (by
    rw [List.length_map]
    exact (List.getElem?_eq_some_iff.mp hrow).1)]
  simp [hrow]

theorem downcastInt64_eventsToBatch {name : String}
    (hname : name ∈ columnNames) :
    (lib.columnByName batch name).bind lib.downcastInt64 = none := by
  rw [columnByName_eventsToBatch hlib hnames hbatch hname, Option.bind_some]
  exact hlib.downcastInt64_strings _

theorem eventAt_eventsToBatch {row : ℕ} {event : ChangeEvent}
    (hrow : events[row]? = some event) (now : Int64) :
    eventAt lib batch row now = readBack event now := by
  have hstring : ∀ name ∈ columnNames,
      extractStringCol lib batch name row = some ((cell event name).getD "") := by
    intro name hname
    obtain ⟨value, hvalue, hread⟩ :=
      downcastString_eventsToBatch hlib hnames hbatch hname
    rw [extractStringCol, hvalue, Option.map_some, hread row event hrow]
  have hint : ∀ name ∈ columnNames, extractIntCol lib batch name row = none := by
    intro name hname
    rw [extractIntCol, downcastInt64_eventsToBatch hlib hnames hbatch hname]
    rfl
  have hop : (((lib.columnByName batch "op").bind lib.downcastString).bind
      fun value => Operation.fromStr (value row)) = some event.payload.op := by
    have hmem : "op" ∈ columnNames := by decide
    obtain ⟨value, hvalue, hread⟩ :=
      downcastString_eventsToBatch hlib hnames hbatch hmem
    rw [hvalue, Option.bind_some, hread row event hrow]
    exact Operation.ofJson_toJson event.payload.op
  rw [eventAt, hop, downcastInt64_eventsToBatch hlib hnames hbatch (by decide),
    hstring "db" (by decide), hstring "schema" (by decide),
    hstring "table" (by decide), hstring "connector" (by decide),
    hint "lsn" (by decide), hint "txId" (by decide)]
  rfl

theorem batchToEvents_eventsToBatch (clock : ℕ → Int64) :
    batchToEvents lib batch clock =
      .ok (events.mapIdx fun row event => readBack event (clock row)) := by
  rw [batchToEvents, numRows_eventsToBatch hlib hbatch]
  congr 1
  apply List.ext_getElem
  · simp
  · intro row hrange hevents
    have hrow : row < events.length := by simpa using hrange
    simp only [List.getElem_map, List.getElem_range, List.getElem_mapIdx]
    exact eventAt_eventsToBatch hlib hnames hbatch
      (List.getElem?_eq_getElem hrow) (clock row)

end Rows

/-! ## The round trip -/

/-- Two events agree in what the nine columns hold. -/
structure SameColumns (original recovered : ChangeEvent) : Prop where
  op : original.payload.op = recovered.payload.op
  tsMs : original.payload.tsMs = recovered.payload.tsMs
  db : original.payload.source.db = recovered.payload.source.db
  schema : original.payload.source.schema = recovered.payload.source.schema
  table : original.payload.source.table = recovered.payload.source.table
  connector :
    original.payload.source.connector = recovered.payload.source.connector
  lsn : original.payload.source.lsn = recovered.payload.source.lsn
  txId : original.payload.source.txId = recovered.payload.source.txId
  snapshot :
    original.payload.source.snapshot = recovered.payload.source.snapshot

/-- As many events are read as were written, each with its columns. -/
def RoundTrips (lib : Arrays) (events : List ChangeEvent)
    (batch : lib.RecordBatch) (clock : ℕ → Int64) : Prop :=
  ∃ recovered, batchToEvents lib batch clock = .ok recovered ∧
    List.Forall₂ SameColumns events recovered

/-- An event that has no number in its columns, is not of a snapshot and has a
schema. -/
structure Survives (event : ChangeEvent) : Prop where
  tsMs : event.payload.tsMs = none
  lsn : event.payload.source.lsn = none
  txId : event.payload.source.txId = none
  snapshot : event.payload.source.snapshot = .false
  schema : event.payload.source.schema.isSome

theorem sameColumns_readBack_iff {event : ChangeEvent} {now : Int64} :
    SameColumns event (readBack event now) ↔ Survives event := by
  constructor
  · intro h
    refine ⟨h.tsMs, h.lsn, h.txId, h.snapshot, ?_⟩
    rw [h.schema]
    rfl
  · intro h
    obtain ⟨schema, hschema⟩ := Option.isSome_iff_exists.mp h.schema
    refine ⟨rfl, h.tsMs, rfl, ?_, rfl, rfl, h.lsn, h.txId, h.snapshot⟩
    rw [hschema]
    simp [readBack, ChangeEvent.new, hschema]

/-- The nine columns, all of strings. -/
def stringSchema : Schema :=
  ⟨columnNames.map fun name => ⟨name, .utf8, true, []⟩, []⟩

/-- The event of the round-trip test, with an LSN. -/
def userRow : ChangeEvent :=
  .create (.object [("id", .ofInt 1)])
    { SourceInfo.new .postgres "testdb" (some "public") "users" 0 with
      lsn := some 7 } 0

theorem not_roundTrips_userRow :
    ¬∀ batch, eventsToBatch plain [userRow] stringSchema = .ok batch →
      RoundTrips plain [userRow] batch fun _ => 0 := by
  intro h
  obtain ⟨recovered, hread, hsame⟩ := h (stringSchema,
    stringSchema.fields.map fun field => column [userRow] field.name) rfl
  cases hread
  cases hsame with
  | cons hfirst _ => exact absurd hfirst.lsn (by decide)

/-- The events are read back exactly if every one of them survives. -/
theorem roundTrips_iff_survives (hlib : lib.Documented)
    (hnames : ∀ name ∈ columnNames, name ∈ schema.fields.map (·.name))
    (hbatch : eventsToBatch lib events schema = .ok batch)
    (clock : ℕ → Int64) :
    RoundTrips lib events batch clock ↔ ∀ event ∈ events, Survives event := by
  unfold RoundTrips
  rw [batchToEvents_eventsToBatch hlib hnames hbatch clock]
  simp only [Except.ok.injEq, exists_eq_left', List.forall₂_iff_get,
    List.length_mapIdx, true_and]
  constructor
  · intro h event hmem
    obtain ⟨row, hrow, rfl⟩ := List.mem_iff_getElem.mp hmem
    have hsame := h row hrow (by simpa using hrow)
    simpa [sameColumns_readBack_iff] using hsame
  · intro h row hrow hread
    simpa [sameColumns_readBack_iff] using h _ (List.getElem_mem hrow)

/-- A heartbeat without a time. -/
def timelessRow : ChangeEvent :=
  .new {
    before := none
    after := none
    source := SourceInfo.new .postgres "testdb" (some "public") "users" 0
    op := .message
    tsMs := none
    transaction := none }

theorem roundTrips_timelessRow :
    RoundTrips plain [timelessRow] (stringSchema, stringSchema.fields.map
      fun field => column [timelessRow] field.name) fun _ => 0 := by
  have hbatch : eventsToBatch plain [timelessRow] stringSchema =
      .ok (stringSchema, stringSchema.fields.map
        fun field => column [timelessRow] field.name) := rfl
  apply (roundTrips_iff_survives documented_plain (by decide) hbatch fun _ => 0).mpr
  intro event hmem
  rw [List.mem_singleton.mp hmem]
  exact ⟨rfl, rfl, rfl, rfl, rfl⟩

end BatchConverter
end OpenCdc

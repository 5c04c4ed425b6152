import OpenCdc.Mongodb.Snapshot
import OpenCdc.Mysql.Snapshot
import OpenCdc.Postgres.Snapshot
import OpenCdc.Postgres.Stream

/-!
# The two marks of a snapshot row

A row of a snapshot is to be marked in two places: its operation is a read, and
its source block names a phase of the snapshot.  The constructor of the event
sets the first mark, and a call on the source block the second; two of the
three snapshotters leave that call out.
-/

namespace OpenCdc

open Foundation

/-! ## Marks -/

namespace ChangeEvent

def MarksAgree (event : ChangeEvent) : Prop :=
  event.payload.op = .read ↔ event.payload.source.snapshot.isSnapshot = true

structure MarkedTwice (event : ChangeEvent) : Prop where
  op : event.payload.op = .read
  source : event.payload.source.snapshot.isSnapshot = true

structure Unmarked (event : ChangeEvent) : Prop where
  op : event.payload.op ≠ .read
  source : event.payload.source.snapshot.isSnapshot = false

theorem MarkedTwice.marksAgree {event : ChangeEvent} (h : event.MarkedTwice) :
    event.MarksAgree :=
  iff_of_true h.op h.source

theorem Unmarked.marksAgree {event : ChangeEvent} (h : event.Unmarked) :
    event.MarksAgree := by
  apply iff_of_false h.op
  rw [h.source]
  exact Bool.false_ne_true

theorem not_marksAgree {event : ChangeEvent} (hop : event.payload.op = .read)
    (hsource : event.payload.source.snapshot.isSnapshot = false) :
    ¬event.MarksAgree := by
  intro h
  have hmarked := h.mp hop
  rw [hsource] at hmarked
  cases hmarked

section Constructors

variable {source : SourceInfo} (h : source.snapshot = .false)
include h

theorem unmarked_create (after : Json.Value) (now : Int64) :
    (create after source now).Unmarked :=
  ⟨by simp [create, new], by rw [create, new, h]; rfl⟩

theorem unmarked_update (before : Option Json.Value) (after : Json.Value)
    (now : Int64) : (update before after source now).Unmarked :=
  ⟨by simp [update, new], by rw [update, new, h]; rfl⟩

theorem unmarked_delete (before : Json.Value) (now : Int64) :
    (delete before source now).Unmarked :=
  ⟨by simp [delete, new], by rw [delete, new, h]; rfl⟩

end Constructors

end ChangeEvent

/-! ## Runs of the connectors -/

/-- A run of a snapshotter or of a streamer: what it is given, and what the
server and the receiver of its events do. -/
inductive ConnectorRun where
  | postgresSnapshot (client : Postgres.SnapshotClient)
      (config : Postgres.StreamerConfig) (tables : List String) (room : Room)
  | postgresStream (config : Postgres.StreamerConfig) (ended : Bool)
      (state : Postgres.StreamerState) (room : Room)
      (items : List Postgres.StreamItem)
  | mysqlSnapshot (server : Mysql.Server) (database : String)
      (tables : List String) (room : Room)
  | mysqlStream (json : Mysql.JsonParser) (client : Mysql.BinlogClient)
      (room : Room)
  | mongodbSnapshot (server : Mongodb.Server) (config : Mongodb.SnapshotConfig)
      (tables : List String) (room : Room)
  | mongodbStream (config : Mongodb.StreamerConfig) (ended : Bool)
      (room : Room) (items : List (Except String Mongodb.ChangeStreamEvent))

namespace ConnectorRun

/-- What the run sends and the receiver takes. -/
def sent : ConnectorRun → List Draft
  | postgresSnapshot client config tables room =>
      (Postgres.snapshot client config tables room).1
  | postgresStream config ended state room items =>
      (sentOf (Postgres.processStream config ended state room items).1).map
        fun event _ => event
  | mysqlSnapshot server database tables room =>
      (Mysql.snapshot server database tables room).sent
  | mysqlStream json client room => sentOf (Mysql.stream json client room).1
  | mongodbSnapshot server config tables room =>
      (Mongodb.snapshot server config tables room).1
  | mongodbStream config ended room items =>
      sentOf (Mongodb.run config ended room items).1

/-- The run emits the event, at some time. -/
def Emits (run : ConnectorRun) (event : ChangeEvent) : Prop :=
  ∃ draft ∈ run.sent, ∃ clock, draft clock = event

def IsSnapshot : ConnectorRun → Prop
  | postgresSnapshot .. => True
  | mysqlSnapshot .. => True
  | mongodbSnapshot .. => True
  | _ => False

/-- The run is one of a snapshotter that builds the source block of a row
without its phase. -/
def LeavesPhaseOut : ConnectorRun → Prop
  | mysqlSnapshot .. => True
  | mongodbSnapshot .. => True
  | _ => False

/-- An event of a snapshot is marked in both places, and one of a stream in
neither. -/
structure WellMarked (run : ConnectorRun) (event : ChangeEvent) : Prop where
  marksAgree : event.MarksAgree
  snapshot : run.IsSnapshot → event.MarkedTwice
  stream : ¬run.IsSnapshot → event.Unmarked

theorem wellMarked_of_markedTwice {run : ConnectorRun} {event : ChangeEvent}
    (hrun : run.IsSnapshot) (h : event.MarkedTwice) : run.WellMarked event :=
  ⟨h.marksAgree, fun _ => h, fun hnot => absurd hrun hnot⟩

theorem wellMarked_of_unmarked {run : ConnectorRun} {event : ChangeEvent}
    (hrun : ¬run.IsSnapshot) (h : event.Unmarked) : run.WellMarked event :=
  ⟨h.marksAgree, fun hsnapshot => absurd hsnapshot hrun, fun _ => h⟩

end ConnectorRun

/-! ## Streamed changes -/

theorem Postgres.unmarked_of_rowEvent {config : StreamerConfig}
    {clock : ClockReading} {decoder : PgOutputDecoder} {msg : PgOutputMessage}
    {event : ChangeEvent} (h : rowEvent config clock decoder msg = some event) :
    event.Unmarked := by
  cases msg with
  | insert msg =>
      obtain ⟨rel, -, rfl⟩ := Option.map_eq_some_iff.mp h
      exact ChangeEvent.unmarked_create rfl _ _
  | update msg =>
      obtain ⟨rel, -, rfl⟩ := Option.map_eq_some_iff.mp h
      exact ChangeEvent.unmarked_update rfl _ _ _
  | delete msg =>
      obtain ⟨rel, -, rfl⟩ := Option.map_eq_some_iff.mp h
      exact ChangeEvent.unmarked_delete rfl _ _
  | _ => cases h

theorem Postgres.unmarked_of_mem_processChunk {config : StreamerConfig}
    {clock : ClockReading} {state : StreamerState} {data : Bytes}
    {event : ChangeEvent}
    (h : event ∈ (processChunk config clock state data).sent) :
    event.Unmarked := by
  rcases data with _ | ⟨tag, rest⟩
  · cases h
  · simp only [processChunk] at h
    split_ifs at h
    · cases h
    · split at h
      · exact unmarked_of_rowEvent (Option.mem_toList.mp h)
      · cases h
      · cases h
      · cases h

theorem Postgres.unmarked_of_sent_mem_processStream {config : StreamerConfig}
    {ended : Bool} {state : StreamerState} {room : Room}
    {items : List StreamItem} {event : ChangeEvent}
    (h : .sent event ∈ (processStream config ended state room items).1) :
    event.Unmarked := by
  rw [processStream_eq_run] at h
  obtain ⟨state', item, -, hevent⟩ := Feed.exists_handle_of_sent_mem_run h
  simp only [streamFeed] at hevent
  split at hevent
  · cases hevent
  · split at hevent
    · exact unmarked_of_mem_processChunk hevent
    · exact unmarked_of_mem_processChunk hevent
    · exact unmarked_of_mem_processChunk hevent

theorem Mysql.unmarked_of_mem_changesOf {tables : UInt64 → Option TableMapEvent}
    {event : BinlogEvent} {draft : Draft} (h : draft ∈ changesOf tables event)
    (clock : ClockReading) : (draft clock).Unmarked := by
  cases event with
  | writeRows tableId rows =>
      simp only [changesOf] at h
      split at h
      · obtain ⟨row, -, rfl⟩ := List.mem_map.mp h
        exact ChangeEvent.unmarked_create rfl _ _
      · cases h
  | updateRows tableId rows =>
      simp only [changesOf] at h
      split at h
      · obtain ⟨row, -, rfl⟩ := List.mem_map.mp h
        exact ChangeEvent.unmarked_update rfl _ _ _
      · cases h
  | deleteRows tableId rows =>
      simp only [changesOf] at h
      split at h
      · obtain ⟨row, -, rfl⟩ := List.mem_map.mp h
        exact ChangeEvent.unmarked_delete rfl _ _
      · cases h
  | _ => cases h

/-- The step of the loop, along the packets that are left. -/
theorem Mysql.exists_changesOf_of_sent_mem_stream {json : JsonParser}
    {client : BinlogClient} {room : Room} {draft : Draft}
    (h : .sent draft ∈ (stream json client room).1) :
    ∃ tables event, draft ∈ changesOf tables event := by
  induction hn : client.stream.length using Nat.strong_induction_on
    generalizing client room with
  | _ n ih =>
      subst hn
      rw [stream_eq] at h
      rcases hnext : nextEvent json client with ⟨result, client'⟩
      rw [hnext] at h
      rcases result with (_ | ⟨header, event⟩) | message | _
      · exact ih _ (length_lt_of_nextEvent_eq_ok hnext) h rfl
      · rcases List.mem_append.mp
          ((List.mem_cons.mp h).resolve_left (by simp)) with hsent | hrest
        · exact ⟨_, event, Room.mem_of_sent_mem_sendWhile hsent⟩
        · exact ih _ (length_lt_of_nextEvent_eq_ok hnext) hrest rfl
      · cases h
      · cases h

theorem Mongodb.unmarked_of_changeOf {config : StreamerConfig}
    {event : ChangeStreamEvent} {draft : Draft}
    (h : changeOf config event = some draft) (clock : ClockReading) :
    (draft clock).Unmarked := by
  unfold changeOf at h
  split at h
  · cases h
  · split at h
    · cases h
    · split_ifs at h
      unfold operationDraft at h
      split at h
      · obtain ⟨doc, -, rfl⟩ := Option.map_eq_some_iff.mp h
        exact ChangeEvent.unmarked_create rfl _ _
      · rw [← Option.some.inj h]
        exact ChangeEvent.unmarked_update rfl _ _ _
      · rw [← Option.some.inj h]
        exact ChangeEvent.unmarked_update rfl _ _ _
      · rw [← Option.some.inj h]
        exact ChangeEvent.unmarked_delete rfl _ _
      · cases h

theorem Mongodb.exists_changeOf_of_sent_mem_run {config : StreamerConfig}
    {ended : Bool} {room : Room}
    {items : List (Except String ChangeStreamEvent)} {draft : Draft}
    (h : .sent draft ∈ (run config ended room items).1) :
    ∃ event, changeOf config event = some draft := by
  rw [run_eq_run] at h
  obtain ⟨_, item, -, hdraft⟩ := Feed.exists_handle_of_sent_mem_run h
  rcases item with e | event
  · cases hdraft
  · exact ⟨event, Option.mem_toList.mp hdraft⟩

/-! ## All runs -/

namespace ConnectorRun

/-- Whatever is read, the events of a run are marked as they should be unless
its snapshotter leaves the phase out; then none of them is. -/
theorem wellMarked_iff {run : ConnectorRun} {event : ChangeEvent}
    (h : run.Emits event) : run.WellMarked event ↔ ¬run.LeavesPhaseOut := by
  obtain ⟨draft, hdraft, clock, rfl⟩ := h
  cases run with
  | postgresSnapshot client config tables room =>
      obtain ⟨table, rowJson, rfl⟩ :=
        Postgres.exists_rowDraft_of_mem_snapshot hdraft
      apply iff_of_true _ not_false
      exact wellMarked_of_markedTwice trivial ⟨rfl, rfl⟩
  | postgresStream config ended state room items =>
      obtain ⟨event, hevent, rfl⟩ := List.mem_map.mp hdraft
      apply iff_of_true _ not_false
      exact wellMarked_of_unmarked not_false
        (Postgres.unmarked_of_sent_mem_processStream (mem_sentOf_iff.mp hevent))
  | mysqlSnapshot server database tables room =>
      obtain ⟨db, tbl, row, rfl⟩ := Mysql.exists_rowDraft_of_mem_snapshot hdraft
      apply iff_of_false _ (not_not_intro trivial)
      exact fun hmarked => ChangeEvent.not_marksAgree rfl rfl hmarked.marksAgree
  | mysqlStream json client room =>
      obtain ⟨tables, event, hchange⟩ :=
        Mysql.exists_changesOf_of_sent_mem_stream (mem_sentOf_iff.mp hdraft)
      apply iff_of_true _ not_false
      exact wellMarked_of_unmarked not_false
        (Mysql.unmarked_of_mem_changesOf hchange clock)
  | mongodbSnapshot server config tables room =>
      obtain ⟨collectionName, doc, rfl⟩ :=
        Mongodb.exists_documentDraft_of_mem_snapshot hdraft
      apply iff_of_false _ (not_not_intro trivial)
      exact fun hmarked => ChangeEvent.not_marksAgree rfl rfl hmarked.marksAgree
  | mongodbStream config ended room items =>
      obtain ⟨event, hchange⟩ :=
        Mongodb.exists_changeOf_of_sent_mem_run (mem_sentOf_iff.mp hdraft)
      apply iff_of_true _ not_false
      exact wellMarked_of_unmarked not_false
        (Mongodb.unmarked_of_changeOf hchange clock)

/-- A Postgres table with one row and a column of type `text`. -/
def postgresUsers : ConnectorRun :=
  .postgresSnapshot
    { currentWalLsn := .ok "0/16B3748"
      publicTables := .ok ["users"]
      columnInfo := fun _ => .ok [("name", 25)]
      query := fun _ => .ok [⟨fun _ => some (some "Ada")⟩] }
    ⟨"shop", fun _ => none⟩ [] none

theorem wellMarked_postgresUsers :
    ∃ event, postgresUsers.Emits event ∧ postgresUsers.WellMarked event := by
  have hemits : postgresUsers.Emits (Postgres.rowDraft "shop" "users"
      (.object [("name", .string "Ada")]) ⟨0, 0⟩) :=
    ⟨_, List.mem_singleton_self _, ⟨0, 0⟩, rfl⟩
  exact ⟨_, hemits, (wellMarked_iff hemits).mpr not_false⟩

/-- A MongoDB collection with one document. -/
def mongodbUsers : ConnectorRun :=
  .mongodbSnapshot
    { connect := .ok ()
      collectionNames := .ok ["users"]
      find := fun _ => .ok [.ok [("_id", .int32 1)]] }
    ⟨"shop", fun _ => ""⟩ ["users"] none

/-- Its row is a read that no snapshot took. -/
theorem not_marksAgree_mongodbUsers :
    ∃ event, mongodbUsers.Emits event ∧ ¬event.MarksAgree :=
  ⟨_, ⟨_, List.mem_singleton_self _, ⟨0, 0⟩, rfl⟩,
    ChangeEvent.not_marksAgree rfl rfl⟩

end ConnectorRun

end OpenCdc

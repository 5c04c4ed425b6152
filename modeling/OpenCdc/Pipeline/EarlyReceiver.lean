import OpenCdc.Foundation.Groups
import OpenCdc.Mysql.SnapshotRows
import OpenCdc.Pipeline.Markers

/-!
# Receivers that go early

The receiver of a snapshot's or a stream's events may go away at any moment.
The six loops differ in what they do about it; what the receiver has got by
then is in every case the beginning of what it would have got.  A snapshot
that returns without an error tells more about what was sent.
-/

namespace OpenCdc

open Foundation

/-! ## The beginning of the events -/

theorem Postgres.snapshotTable_eq (client : SnapshotClient)
    (config : StreamerConfig) :
    snapshotTable client config =
      Room.sendRead (.other "snapshot sink closed")
        (tableRows client config) := by
  funext table room
  unfold snapshotTable Room.sendRead
  rcases tableRows client config table with rows | e | _
  · rfl
  · rfl
  · rfl

theorem Mongodb.snapshotCollection_eq (server : Server)
    (config : SnapshotConfig) :
    snapshotCollection server config =
      Room.sendRead (.other "snapshot sink closed")
        (collectionRows server config) := by
  funext collectionName room
  unfold snapshotCollection Room.sendRead
  rcases collectionRows server config collectionName with rows | e | _
  · rfl
  · rfl
  · rfl

theorem Postgres.sent_snapshot (client : SnapshotClient)
    (config : StreamerConfig) (tables : List String) (room : Room) :
    (snapshot client config tables room).1 =
      room.taken (snapshot client config tables none).1 := by
  unfold snapshot
  split
  · exact (Room.taken_of_fits room.fits_zero).symm
  · exact (Room.taken_of_fits room.fits_zero).symm
  · rw [snapshotTable_eq]
    apply Room.fst_sendGroups rfl
    intro room hleave
    cases hleave

theorem Mongodb.sent_snapshot (server : Server) (config : SnapshotConfig)
    (tables : List String) (room : Room) :
    (snapshot server config tables room).1 =
      room.taken (snapshot server config tables none).1 := by
  unfold snapshot
  split
  · exact (Room.taken_of_fits room.fits_zero).symm
  · exact (Room.taken_of_fits room.fits_zero).symm
  · rw [snapshotCollection_eq]
    apply Room.fst_sendGroups rfl
    intro room hleave
    exact of_decide_eq_true hleave

theorem Mysql.sent_snapshot (server : Server) (database : String)
    (tables : List String) (room : Room) :
    (snapshot server database tables room).sent =
      room.taken (snapshot server database tables none).sent := by
  have hnil : ([] : List Draft) = room.taken [] :=
    (Room.taken_of_fits room.fits_zero).symm
  simp only [snapshot]
  split
  · exact hnil
  · exact hnil
  · split
    · exact hnil
    · exact hnil
    · exact sent_snapshotTables server database _ room _

/-- The step is along the packets that are left. -/
theorem Mysql.sentOf_stream (json : JsonParser) (client : BinlogClient)
    (room : Room) :
    sentOf (stream json client room).1 =
      room.taken (sentOf (stream json client none).1) := by
  induction hn : client.stream.length using Nat.strong_induction_on
    generalizing client room with
  | _ n ih =>
      subst hn
      rw [stream_eq, stream_eq]
      rcases hnext : nextEvent json client with ⟨result, client'⟩
      rcases result with (_ | ⟨header, event⟩) | message | _
      · exact ih _ (length_lt_of_nextEvent_eq_ok hnext) client' room rfl
      · have hrest := fun room' : Room =>
          ih _ (length_lt_of_nextEvent_eq_ok hnext) client' room' rfl
        obtain ⟨hsent, hroom, -⟩ := @Room.sentOf_sendWhile Delivery _ room
          (changesOf client'.state.tables event)
        obtain ⟨hall, hstay, -⟩ := @Room.sentOf_sendWhile Delivery _ none
          (changesOf client'.state.tables event)
        change sentOf (_ ++ _) = room.taken (sentOf (_ ++ _))
        rw [sentOf_append, sentOf_append, hsent, hroom, hrest, hall, hstay]
        exact (Room.taken_append room _ _).symm
      · exact (Room.taken_of_fits room.fits_zero).symm
      · exact (Room.taken_of_fits room.fits_zero).symm

namespace ConnectorRun

/-- The run with another receiver. -/
def withRoom (room : Room) : ConnectorRun → ConnectorRun
  | postgresSnapshot client config tables _ =>
      postgresSnapshot client config tables room
  | postgresStream config ended state _ items =>
      postgresStream config ended state room items
  | mysqlSnapshot server database tables _ =>
      mysqlSnapshot server database tables room
  | mysqlStream json client _ => mysqlStream json client room
  | mongodbSnapshot server config tables _ =>
      mongodbSnapshot server config tables room
  | mongodbStream config ended _ items => mongodbStream config ended room items

/-- Whichever loop runs, and whenever its receiver goes: the receiver has got
the beginning of the events that one that stays gets, in the same order. -/
theorem sent_withRoom (run : ConnectorRun) (room : Room) :
    (run.withRoom room).sent = room.taken (run.withRoom none).sent := by
  cases run with
  | postgresSnapshot client config tables =>
      exact Postgres.sent_snapshot client config tables room
  | postgresStream config ended state _ items =>
      simp only [withRoom, sent, Postgres.processStream_eq_run]
      rw [Feed.sentOf_run, Room.map_taken]
  | mysqlSnapshot server database tables =>
      exact Mysql.sent_snapshot server database tables room
  | mysqlStream json client => exact Mysql.sentOf_stream json client room
  | mongodbSnapshot server config tables =>
      exact Mongodb.sent_snapshot server config tables room
  | mongodbStream config ended _ items =>
      simp only [withRoom, sent, Mongodb.run_eq_run]
      exact Feed.sentOf_run _ room _ _ _

end ConnectorRun

/-! ## Snapshots that return without an error -/

theorem finished_eq_ok_iff {x : List Draft × Outcome Error Unit}
    {sent : List Draft} {offset offset' : ConnectorOffset} :
    (x.1, (do x.2; return offset : Outcome Error ConnectorOffset)) =
        (sent, .ok offset') ↔
      x = (sent, .ok ()) ∧ offset' = offset := by
  rcases x with ⟨sent', _ | e | _⟩
  · simp [eq_comm]
  · simp
  · simp

/-- A Postgres snapshot returns an offset exactly if the LSN and the tables are
told, every row of every table is read, and all of them are taken. -/
theorem Postgres.returnsOffset_iff {client : SnapshotClient}
    {config : StreamerConfig} {tables : List String} {room : Room}
    {sent : List Draft} {offset : ConnectorOffset} :
    snapshot client config tables room = (sent, .ok offset) ↔
      ∃ snapshotLsn tableList values,
        snapshotPlan client tables = .ok (snapshotLsn, tableList) ∧
        Room.ReadAs (tableRows client config) tableList values ∧
        sent = values.flatten ∧ room.Fits sent.length ∧
        offset = .fromLsn snapshotLsn := by
  unfold snapshot
  rw [snapshotTable_eq]
  rcases snapshotPlan client tables with ⟨snapshotLsn, tableList⟩ | e | _
  · simp only [finished_eq_ok_iff, Room.sendGroups_stay_eq_ok_iff,
      Outcome.ok.injEq]
    constructor
    · rintro ⟨⟨values, hread, hsent, hfits⟩, hoffset⟩
      exact ⟨_, _, values, rfl, hread, hsent, hfits, hoffset⟩
    · rintro ⟨_, _, values, hplan, hread, hsent, hfits, hoffset⟩
      obtain ⟨rfl, rfl⟩ := Prod.mk.inj hplan
      exact ⟨⟨values, hread, hsent, hfits⟩, hoffset⟩
  · simp
  · simp

/-- A MongoDB snapshot returns without an error also if the receiver goes right
behind one of the collections; the ones behind it are not read. -/
theorem Mongodb.reportsDone_iff {server : Server} {config : SnapshotConfig}
    {tables : List String} {room : Room} {sent : List Draft}
    {offset : ConnectorOffset} :
    snapshot server config tables room = (sent, .ok offset) ↔
      ∃ collections front values,
        snapshotPlan server tables = .ok collections ∧
        front <+: collections ∧
        Room.ReadAs (collectionRows server config) front values ∧
        sent = values.flatten ∧ room.Fits sent.length ∧
        (front = collections ∨ room = some sent.length) ∧
        offset = .snapshotDone := by
  unfold snapshot
  rw [snapshotCollection_eq]
  rcases snapshotPlan server tables with collections | e | _
  · simp only [finished_eq_ok_iff, Room.sendGroups_leave_eq_ok_iff,
      Outcome.ok.injEq]
    constructor
    · rintro ⟨⟨front, values, hfront, hread, hsent, hfits, hend⟩, hoffset⟩
      exact ⟨_, front, values, rfl, hfront, hread, hsent, hfits, hend, hoffset⟩
    · rintro ⟨_, front, values, rfl, hfront, hread, hsent, hfits, hend, hoffset⟩
      exact ⟨⟨front, values, hfront, hread, hsent, hfits, hend⟩, hoffset⟩
  · simp
  · simp

end OpenCdc

import OpenCdc.Core.Offset
import OpenCdc.Mongodb.Stream

/-!
# The MongoDB snapshotter

A snapshot reads every document of its collections.  If it is given none, it
takes those of the database, less the ones of the system.
-/

namespace OpenCdc.Mongodb

open Foundation Json

/-- What a server answers; an error is the driver's text.  A cursor gives its
documents one after the other, and an error in the place of one. -/
structure Server where
  connect : Except String Unit
  collectionNames : Except String (List String)
  find : String → Except String (List (Except String Document))

/-- What a snapshotter is given: the database of its configuration, and the
driver's text of dates. -/
structure SnapshotConfig where
  database : String
  dateText : Int64 → String

def documentDraft (config : SnapshotConfig) (collectionName : String)
    (doc : Document) : Draft := fun clock =>
  ChangeEvent.snapshot (bsonDocToJson config.dateText doc)
    (sourceOf config.database collectionName clock) clock.event

/-- The documents of a collection, each as its event. -/
def collectionRows (server : Server) (config : SnapshotConfig)
    (collectionName : String) : Outcome Error (List (Outcome Error Draft)) := do
  let cursor ← orOther ("find " ++ collectionName) (server.find collectionName)
  return cursor.map fun item => do
    let doc ← orOther ("find cursor " ++ collectionName) item
    return documentDraft config collectionName doc

/-- The documents of a collection, up to the first that fails: the events that
the sink takes, the room after them and the result. -/
def snapshotCollection (server : Server) (config : SnapshotConfig)
    (collectionName : String) (room : Room) :
    List Draft × Room × Outcome Error Unit :=
  match collectionRows server config collectionName with
  | .error e => ([], room, .error e)
  | .panicked => ([], room, .panicked)
  | .ok rows => room.sendResults (.other "snapshot sink closed") rows

/-- The collections that a snapshot reads. -/
def snapshotPlan (server : Server) (tables : List String) :
    Outcome Error (List String) := do
  orOther "mongodb connect" server.connect
  if tables = [] then
    let allNames ← orOther "list collections" server.collectionNames
    return allNames.filter fun n => !n.startsWith "system."
  else return tables

/-- `MongoDbSnapshotter::run` -/
def snapshot (server : Server) (config : SnapshotConfig)
    (tables : List String) (room : Room) :
    List Draft × Outcome Error ConnectorOffset :=
  match snapshotPlan server tables with
  | .error e => ([], .error e)
  | .panicked => ([], .panicked)
  | .ok collections =>
      -- the loop is left if the sink is closed
      let (sent, result) := Room.sendGroups (fun room => room = some 0)
        (snapshotCollection server config) collections room
      (sent, do
        result
        return ConnectorOffset.snapshotDone)

/-! ## What is sent -/

theorem exists_documentDraft_of_mem_snapshotCollection {server : Server}
    {config : SnapshotConfig} {collectionName : String} {room : Room}
    {draft : Draft}
    (h : draft ∈ (snapshotCollection server config collectionName room).1) :
    ∃ doc, draft = documentDraft config collectionName doc := by
  unfold snapshotCollection at h
  split at h
  · cases h
  · cases h
  · next rows hrows =>
      have hmem := Room.ok_mem_of_mem_sendResults h
      obtain ⟨cursor, -, hmap⟩ := Outcome.bind_eq_ok.mp hrows
      rw [← Outcome.ok.inj hmap] at hmem
      obtain ⟨item, -, hitem⟩ := List.mem_map.mp hmem
      obtain ⟨doc, -, hdraft⟩ := Outcome.bind_eq_ok.mp hitem
      exact ⟨doc, (Outcome.ok.inj hdraft).symm⟩

/-- A snapshot sends documents of collections, whatever the server answers. -/
theorem exists_documentDraft_of_mem_snapshot {server : Server}
    {config : SnapshotConfig} {tables : List String} {room : Room}
    {draft : Draft} (h : draft ∈ (snapshot server config tables room).1) :
    ∃ collectionName doc, draft = documentDraft config collectionName doc := by
  unfold snapshot at h
  split at h
  · cases h
  · cases h
  · obtain ⟨collectionName, -, room', hsent⟩ := Room.exists_of_mem_sendGroups h
    exact ⟨collectionName,
      exists_documentDraft_of_mem_snapshotCollection hsent⟩

end OpenCdc.Mongodb

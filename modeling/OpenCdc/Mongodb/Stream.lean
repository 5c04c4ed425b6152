import OpenCdc.Core.ChangeEvent
import OpenCdc.Core.Error
import OpenCdc.Foundation.Feed
import OpenCdc.Mysql.Column

/-!
# The MongoDB streaming loop

Documents become JSON objects, and the loop of the streamer turns the events of
a change stream into change events.
-/

namespace OpenCdc.Mongodb

open Foundation Json

/-! ## Documents -/

/-- A BSON value; `other` is one of a kind that has no branch of its own, with
its `Debug` text. -/
inductive Bson where
  | double (pattern : ℕ)
  | string (s : String)
  | array (arr : List Bson)
  | document (doc : List (String × Bson))
  | boolean (b : Bool)
  | null
  | int32 (n : Int32)
  | int64 (n : Int64)
  | dateTime (millis : Int64)
  | objectId (bytes : Bytes)
  | binary (bytes : Bytes)
  | other (debug : String)

abbrev Document := List (String × Bson)

section BsonToJson

-- the text that the driver gives a date
variable (dateText : Int64 → String)

mutual

def bsonValueToJson : Bson → Value
  | .double v => Value.ofF64 v
  | .string v => .string v
  | .array arr => .array (bsonArrayToJson arr)
  | .document doc => .object (bsonEntriesToJson [] doc)
  | .boolean v => .bool v
  | .null => .null
  | .int32 v => Value.ofInt v.toInt
  | .int64 v => Value.ofInt v.toInt
  | .dateTime dt => .string (dateText dt)
  | .objectId oid => .string (Mysql.hexEncode oid)
  | .binary bin => .string (Mysql.hexEncode bin)
  | .other debug => .string debug

def bsonArrayToJson : List Bson → List Value
  | [] => []
  | bv :: arr => bsonValueToJson bv :: bsonArrayToJson arr

def bsonEntriesToJson (map : Map) : List (String × Bson) → Map
  | [] => map
  | (key, bv) :: doc =>
      bsonEntriesToJson (Map.insert map key (bsonValueToJson bv)) doc

end

def bsonDocToJson (doc : Document) : Value :=
  .object (bsonEntriesToJson dateText [] doc)

end BsonToJson

/-! ## Change stream events -/

inductive OperationType where
  | insert
  | update
  | replace
  | delete
  | other (name : String)
deriving DecidableEq, Repr

structure ChangeNamespace where
  db : String
  coll : Option String
deriving DecidableEq, Repr

structure ChangeStreamEvent where
  ns : Option ChangeNamespace
  operationType : OperationType
  fullDocument : Option Document
  fullDocumentBeforeChange : Option Document
  documentKey : Option Document

/-- What a streamer is given: the collections of its configuration, all if
there are none, and the driver's text of dates. -/
structure StreamerConfig where
  collections : List String
  dateText : Int64 → String

def sourceOf (dbName collName : String) (clock : ClockReading) : SourceInfo :=
  SourceInfo.new .mongodb dbName none collName clock.source

/-- The change event of an event on a collection. -/
def operationDraft (config : StreamerConfig) (event : ChangeStreamEvent)
    (dbName collName : String) : Option Draft :=
  let toJson := bsonDocToJson config.dateText
  match event.operationType with
  | .insert =>
      event.fullDocument.map fun doc clock =>
        ChangeEvent.create (toJson doc) (sourceOf dbName collName clock)
          clock.event
  | .update | .replace =>
      some fun clock =>
        ChangeEvent.update (event.fullDocumentBeforeChange.map toJson)
          ((event.fullDocument.map toJson).getD .null)
          (sourceOf dbName collName clock) clock.event
  | .delete =>
      some fun clock =>
        ChangeEvent.delete ((event.fullDocumentBeforeChange.map toJson).getD
            ((event.documentKey.map toJson).getD .null))
          (sourceOf dbName collName clock) clock.event
  | .other _ => none

/-- The change event that the loop sends for an event, if it sends one. -/
def changeOf (config : StreamerConfig) (event : ChangeStreamEvent) :
    Option Draft :=
  match event.ns with
  | none => none
  | some ns =>
      match ns.coll with
      | none => none
      | some collName =>
          if config.collections ≠ [] ∧ collName ∉ config.collections then none
          else operationDraft config event ns.db collName

/-! ## The loop -/

/-- `MongoDbStreamer::run` from the open cursor on, which ends behind the items
or waits. -/
def run (config : StreamerConfig) (ended : Bool) :
    Room → List (Except String ChangeStreamEvent) →
      List (Observation (Except String ChangeStreamEvent) Draft) ×
        Option (Outcome Error Unit)
  | _, [] => ([], if ended then some (.ok ()) else none)
  | room, item :: items =>
      match item with
      | .error e =>
          ([.read item], some (.error (.other ("change stream event: " ++ e))))
      | .ok event =>
          let (seen, room', refused) :=
            room.sendWhile (changeOf config event).toList
          -- the `break` that leaves the loop
          if refused then (.read item :: seen, some (.ok ()))
          else
            let (rest, result) := run config ended room' items
            (.read item :: (seen ++ rest), result)

/-- The loop as one that feeds a channel. -/
def streamFeed (config : StreamerConfig) :
    Feed (Except String ChangeStreamEvent) Draft Unit (Outcome Error Unit) where
  handle _ item :=
    match item with
    | .error e => ([], .inr (.error (.other ("change stream event: " ++ e))))
    | .ok event => ((changeOf config event).toList, .inl ())
  onRefusal := .leaveLoop
  closed := .ok ()

theorem run_eq_run (config : StreamerConfig) (ended : Bool) (room : Room)
    (items : List (Except String ChangeStreamEvent)) :
    run config ended room items =
      (streamFeed config).run (if ended then some (.ok ()) else none) () room
        items := by
  induction items generalizing room with
  | nil => rfl
  | cons item items ih =>
      rcases item with e | event
      · simp [run, Feed.run, streamFeed, Feed.sendItem, Room.sendWhile]
      · simp only [run, Feed.run, streamFeed, Feed.sendItem]
        rw [ih]
        rfl

end OpenCdc.Mongodb

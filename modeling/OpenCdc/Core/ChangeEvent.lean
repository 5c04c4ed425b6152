import OpenCdc.Core.Json

/-!
# Change events

The event every connector emits, with its source block and its schema.  The
clock is an argument of the constructors that read it.
-/

namespace OpenCdc

open Json

/-! ## Operations and source metadata -/

inductive Operation where
  | create
  | update
  | delete
  | read
  | truncate
  | message
deriving DecidableEq, Repr

inductive ConnectorType where
  | postgres
  | mysql
  | mongodb
  | sqlServer
  | oracle
  | db2
  | cassandra
  | vitess
deriving DecidableEq, Repr

namespace ConnectorType

def asStr : ConnectorType → String
  | postgres => "postgresql"
  | mysql => "mysql"
  | mongodb => "mongodb"
  | sqlServer => "sqlserver"
  | oracle => "oracle"
  | db2 => "db2"
  | cassandra => "cassandra"
  | vitess => "vitess"

def debeziumVersion (_ : ConnectorType) : String := "2.7.2.Final"

end ConnectorType

inductive SnapshotPhase where
  | true
  | false
  | last
  | incremental
deriving DecidableEq, Repr

def SnapshotPhase.isSnapshot (phase : SnapshotPhase) : Bool := phase ≠ .false

structure SourceInfo where
  version : String
  connector : String
  name : String
  tsMs : Option Int64
  snapshot : SnapshotPhase
  db : String
  schema : Option String
  table : String
  txId : Option Int64
  lsn : Option Int64
  xmin : Option Int64
  file : Option String
  pos : Option Int64
  gtid : Option String
  sequence : Option String
  rsId : Option Int64
  resumeToken : Option String
  extra : Option Map
deriving Repr

namespace SourceInfo

/-- `SourceInfo::new`; `now` is the clock in milliseconds. -/
def new (connectorType : ConnectorType) (db : String) (schema : Option String)
    (table : String) (now : Int64) : SourceInfo where
  version := connectorType.debeziumVersion
  connector := connectorType.asStr
  name := "opencdc"
  tsMs := some now
  snapshot := .false
  db := db
  schema := schema
  table := table
  txId := none
  lsn := none
  xmin := none
  file := none
  pos := none
  gtid := none
  sequence := none
  rsId := none
  resumeToken := none
  extra := none

def withSnapshot (source : SourceInfo) (phase : SnapshotPhase) : SourceInfo :=
  { source with snapshot := phase }

def withTxId (source : SourceInfo) (txId : Int64) : SourceInfo :=
  { source with txId := some txId }

end SourceInfo

/-! ## Schemas -/

inductive DebeziumSchemaType where
  | struct
  | array
  | map
  | string
  | bytes
  | int8
  | int16
  | int32
  | int64
  | float
  | double
  | boolean
  | decimal
  | timestamp
  | date
  | time
  | microTimestamp
  | microTime
  | nanoTimestamp
  | nanoTime
  | json
  | unknown (name : String)
deriving DecidableEq, Repr

structure DebeziumField where
  fieldName : String
  fieldType : Value
  fields : Option (List DebeziumField)
  optional : Option Bool
  name : Option String
  version : Option UInt32
  doc : Option String
  parameters : Option (List (String × String))
  default : Option Value

structure DebeziumSchema where
  schemaType : DebeziumSchemaType
  fields : Option (List DebeziumField)
  optional : Option Bool
  name : Option String
  version : Option UInt32
  doc : Option String
  field : Option String
  default : Option Value
  parameters : Option (List (String × String))

/-! ## Events -/

structure TransactionInfo where
  id : String
  totalOrder : Int64
  dataCollectionsOrder : Int64
deriving DecidableEq, Repr

structure ChangePayload where
  before : Option Value
  after : Option Value
  source : SourceInfo
  op : Operation
  tsMs : Option Int64
  transaction : Option TransactionInfo

structure ChangeEvent where
  schema : Option DebeziumSchema
  payload : ChangePayload

namespace ChangeEvent

def new (payload : ChangePayload) : ChangeEvent := ⟨none, payload⟩

def create (after : Value) (source : SourceInfo) (now : Int64) :
    ChangeEvent :=
  new {
    before := none
    after := some after
    source := source
    op := .create
    tsMs := some now
    transaction := none }

def update (before : Option Value) (after : Value) (source : SourceInfo)
    (now : Int64) : ChangeEvent :=
  new {
    before := before
    after := some after
    source := source
    op := .update
    tsMs := some now
    transaction := none }

def delete (before : Value) (source : SourceInfo) (now : Int64) :
    ChangeEvent :=
  new {
    before := some before
    after := none
    source := source
    op := .delete
    tsMs := some now
    transaction := none }

def snapshot (after : Value) (source : SourceInfo) (now : Int64) :
    ChangeEvent :=
  new {
    before := none
    after := some after
    source := source
    op := .read
    tsMs := some now
    transaction := none }

end ChangeEvent

/-- What the clock shows when an event is built: first for its source block,
then for the event itself. -/
structure ClockReading where
  source : Int64
  event : Int64
deriving DecidableEq, Repr

/-- A change event up to what the clock shows when it is built. -/
abbrev Draft := ClockReading → ChangeEvent

end OpenCdc

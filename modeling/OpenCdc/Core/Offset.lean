import OpenCdc.Core.ChangeEvent

/-!
# Connector offsets
-/

namespace OpenCdc

open Json

/-- A position to resume from; each connector fills the fields it knows. -/
structure ConnectorOffset where
  lsn : Option Int64 := none
  txId : Option Int64 := none
  tsMs : Option Int64 := none
  snapshot : Option Bool := none
  snapshotCompleted : Option Bool := none
  file : Option String := none
  pos : Option Int64 := none
  gtid : Option String := none
  resumeToken : Option String := none
  sourcePartition : Option String := none
  extra : Option Map := none
deriving Repr

namespace ConnectorOffset

def fromLsn (lsn : Int64) : ConnectorOffset := { lsn := some lsn }

def snapshotDone : ConnectorOffset where
  snapshot := some false
  snapshotCompleted := some true

end ConnectorOffset

/-! ## What the pipeline hands to a connector -/

structure ConnectorConfig where
  connectorType : ConnectorType
  name : String

structure SnapshotContext where
  tables : List String
deriving DecidableEq, Repr

structure StreamContext where
  offset : Option ConnectorOffset
  tables : List String

end OpenCdc

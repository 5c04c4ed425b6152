import OpenCdc.Core.Offset
import OpenCdc.Foundation.Registry

/-!
# The state of the MCP server

The connectors under management and the operations on them, each as the change
that it makes while it holds the lock of the connectors.
-/

namespace OpenCdc.Mcp

open Foundation

inductive ConnectorStatus where
  | stopped
  | starting
  | running
  | snapshotting
  | streaming
  | error (text : String)
deriving DecidableEq, Repr

structure ManagedConnector where
  config : Option ConnectorConfig
  status : ConnectorStatus
  offset : Option ConnectorOffset
  eventsReceived : UInt64
  error : Option String

/-- `u64::saturating_add` -/
def saturatingAdd (a b : UInt64) : UInt64 :=
  UInt64.ofNat (min (a.toNat + b.toNat) (2 ^ 64 - 1))

theorem toNat_saturatingAdd_le (a b : UInt64) :
    (saturatingAdd a b).toNat ≤ a.toNat + b.toNat := by
  unfold saturatingAdd
  rw [UInt64.toNat_ofNat']
  exact (Nat.mod_le _ _).trans (Nat.min_le_left _ _)

namespace ManagedConnector

/-- What a connector is registered as. -/
def registered : ManagedConnector where
  config := none
  status := .stopped
  offset := none
  eventsReceived := 0
  error := none

def withStatus (status : ConnectorStatus) (c : ManagedConnector) :
    ManagedConnector :=
  { c with status := status }

def received (count : UInt64) (c : ManagedConnector) : ManagedConnector :=
  { c with eventsReceived := saturatingAdd c.eventsReceived count }

/-- What the completion of a snapshot does to its connector. -/
def snapshotCompleted (count : UInt64) (c : ManagedConnector) :
    ManagedConnector :=
  { c with
    eventsReceived := saturatingAdd c.eventsReceived count
    status := .running
    offset := some .snapshotDone }

end ManagedConnector

structure AppState where
  connectors : Registry String ManagedConnector
  activeSinks : List String
  totalEventsReceived : UInt64
  /-- The permits of the semaphore that no tool call holds. -/
  rateLimiter : ℕ

/-- Why a snapshot is not started. -/
inductive Refusal where
  | invalidState (connector : String) (status : ConnectorStatus)
  | connectorNotFound (connector : String)
deriving DecidableEq, Repr

namespace AppState

/-- `maxConcurrentTools` is what the environment says, or ten. -/
def new (maxConcurrentTools : ℕ) : AppState where
  connectors := ∅
  activeSinks := []
  totalEventsReceived := 0
  rateLimiter := maxConcurrentTools

def registerConnector (name : String) (app : AppState) : AppState :=
  { app with connectors := app.connectors.register name .registered }

def updateStatus (name : String) (status : ConnectorStatus) (app : AppState) :
    AppState :=
  { app with connectors := app.connectors.modify name (.withStatus status) }

/-- `fetch_add` on the total, which wraps around. -/
def addTotal (count : UInt64) (app : AppState) : AppState :=
  { app with totalEventsReceived := app.totalEventsReceived + count }

/-- The locked part of `increment_events_received`. -/
def applyReceived (name : String) (count : UInt64) (app : AppState) :
    AppState :=
  { app with connectors := app.connectors.modify name (.received count) }

/-- The locked part of `McpService::connector_remove`. -/
def connectorRemove (name : String) (app : AppState) : AppState :=
  { app with connectors := app.connectors.erase name }

def shutdownAll (app : AppState) : AppState :=
  { app with
    connectors := Registry.mapValues (.withStatus .stopped) app.connectors
    activeSinks := [] }

/-- The status check of `McpService::snapshot_start`. -/
def acceptsSnapshot (name : String) (app : AppState) : Except Refusal Unit :=
  match (app.connectors.lookup name).map ManagedConnector.status with
  | some .running => .ok ()
  | some .stopped => .ok ()
  | some status => .error (.invalidState name status)
  | none => .error (.connectorNotFound name)

/-- The events that a snapshot of some tables counts for. -/
def snapshotCount (tables : List String) : UInt64 :=
  UInt64.ofNat (max tables.length 1) * 10

/-- The locked part of a background snapshot, up to the total. -/
def completeSnapshot (name : String) (count : UInt64) (app : AppState) :
    AppState :=
  { app with
    connectors := app.connectors.modify name (.snapshotCompleted count) }

/-! ## Looking connectors up -/

section Lookup

variable (app : AppState) (name other : String)

theorem lookup_registerConnector :
    (app.registerConnector name).connectors.lookup other =
      if other = name then
        some ((app.connectors.lookup name).getD .registered)
      else app.connectors.lookup other :=
  Registry.lookup_register name other _ app.connectors

theorem lookup_updateStatus (status : ConnectorStatus) :
    (app.updateStatus name status).connectors.lookup other =
      if other = name then
        (app.connectors.lookup name).map (.withStatus status)
      else app.connectors.lookup other :=
  Registry.lookup_modify name other _ app.connectors

theorem lookup_applyReceived (count : UInt64) :
    (app.applyReceived name count).connectors.lookup other =
      if other = name then (app.connectors.lookup name).map (.received count)
      else app.connectors.lookup other :=
  Registry.lookup_modify name other _ app.connectors

theorem lookup_connectorRemove :
    (app.connectorRemove name).connectors.lookup other =
      if other = name then none else app.connectors.lookup other :=
  Registry.lookup_erase_eq name other app.connectors

theorem lookup_shutdownAll :
    app.shutdownAll.connectors.lookup name =
      (app.connectors.lookup name).map (.withStatus .stopped) :=
  Registry.lookup_mapValues _ app.connectors name

theorem lookup_completeSnapshot (count : UInt64) :
    (app.completeSnapshot name count).connectors.lookup other =
      if other = name then
        (app.connectors.lookup name).map (.snapshotCompleted count)
      else app.connectors.lookup other :=
  Registry.lookup_modify name other _ app.connectors

end Lookup

theorem acceptsSnapshot_eq_ok_iff {name : String} {app : AppState} :
    app.acceptsSnapshot name = .ok () ↔
      ∃ c, app.connectors.lookup name = some c ∧
        (c.status = .running ∨ c.status = .stopped) := by
  unfold acceptsSnapshot
  cases app.connectors.lookup name with
  | none => simp
  | some c => cases hstatus : c.status <;> simp [hstatus]

end AppState
end OpenCdc.Mcp

import OpenCdc.Mcp.Server

/-!
# The total and the counters

The total of the server is raised before a counter by one operation and after
it by the other.  The result compares the two whenever no one writes.
-/

namespace OpenCdc.Mcp

open Foundation

namespace ManagedConnector

/-- The counter without its bound. -/
def events (c : ManagedConnector) : ℕ := c.eventsReceived.toNat

theorem events_received_le (count : UInt64) (c : ManagedConnector) :
    (c.received count).events ≤ c.events + count.toNat :=
  toNat_saturatingAdd_le _ _

theorem events_snapshotCompleted_le (count : UInt64) (c : ManagedConnector) :
    (c.snapshotCompleted count).events ≤ c.events + count.toNat :=
  toNat_saturatingAdd_le _ _

end ManagedConnector

namespace AppState

/-- The sum of `events_received` over the registered connectors. -/
def received (app : AppState) : ℕ :=
  Registry.total ManagedConnector.events app.connectors

variable (app : AppState) (name : String)

theorem received_registerConnector_le :
    (app.registerConnector name).received ≤ app.received := by
  have hregistered : ManagedConnector.registered.events = 0 := rfl
  exact Registry.total_register hregistered _ _

theorem received_connectorRemove_le :
    (app.connectorRemove name).received ≤ app.received :=
  Registry.total_erase_le _ _ _

theorem received_updateStatus (status : ConnectorStatus) :
    (app.updateStatus name status).received = app.received := by
  have hsame : ∀ c : ManagedConnector,
      (c.withStatus status).events = c.events := fun _ => rfl
  exact Registry.total_modify hsame _ _

theorem received_shutdownAll : app.shutdownAll.received = app.received := by
  have hsame : ∀ c : ManagedConnector,
      (c.withStatus .stopped).events = c.events := fun _ => rfl
  exact Registry.total_mapValues hsame _

theorem received_applyReceived_le (count : UInt64) :
    (app.applyReceived name count).received ≤ app.received + count.toNat :=
  Registry.total_modify_le (ManagedConnector.events_received_le count) _ _

theorem received_completeSnapshot_le (count : UInt64) :
    (app.completeSnapshot name count).received ≤ app.received + count.toNat :=
  Registry.total_modify_le (ManagedConnector.events_snapshotCompleted_le count)
    _ _

theorem received_completeSnapshot_of_none (count : UInt64)
    (h : app.connectors.lookup name = none) :
    (app.completeSnapshot name count).received = app.received := by
  rw [received, completeSnapshot, Registry.modify, h, received]

end AppState

namespace World

/-- What is in the total and not yet in the counters. -/
def pending (w : World) : ℕ := Registry.total Task.pending w.tasks

/-- What is in the counters and not yet in the total. -/
def held (w : World) : ℕ := w.writer.elim 0 UInt64.toNat

/-- Whenever no one writes, the total covers the counters, as long as it has
not wrapped around. -/
def TotalCovers (w : World) : Prop :=
  w.exactTotal < 2 ^ 64 → w.writer = none →
    w.app.received ≤ w.app.totalEventsReceived.toNat

/-- The exact total covers the counters up to what is under way. -/
structure Balanced (w : World) : Prop where
  wraps : w.app.totalEventsReceived.toNat = w.exactTotal % 2 ^ 64
  covers : w.app.received + w.pending ≤ w.exactTotal + w.held

variable {w w' : World}

theorem Balanced.totalCovers (h : w.Balanced) : w.TotalCovers := by
  intro hexact hlock
  have hcovers := h.covers
  have hheld : w.held = 0 := by rw [held, hlock, Option.elim_none]
  rw [h.wraps, Nat.mod_eq_of_lt hexact]
  omega

/-! ## Single steps -/

theorem toNat_add_wraps {total count : UInt64} {exact : ℕ}
    (h : total.toNat = exact % 2 ^ 64) :
    (total + count).toNat = (exact + count.toNat) % 2 ^ 64 := by
  rw [UInt64.toNat_add, h, Nat.mod_add_mod]

/-- A step that adds to no counter and no total. -/
theorem Balanced.of_le (h : w.Balanced)
    (htotal : w'.app.totalEventsReceived = w.app.totalEventsReceived)
    (hexact : w'.exactTotal = w.exactTotal) (hwriter : w'.writer = w.writer)
    (hreceived : w'.app.received ≤ w.app.received)
    (hpending : w'.pending ≤ w.pending) : w'.Balanced := by
  have hcovers := h.covers
  constructor
  · rw [htotal, hexact, h.wraps]
  · rw [held, hwriter, ← held, hexact]
    omega

theorem pending_insert_le (id : ℕ) {task : Task} (htask : task.pending = 0) :
    Registry.total Task.pending (w.tasks.insert id task) ≤ w.pending := by
  have hinsert := Registry.total_insert_le Task.pending w.tasks id task
  rwa [htask] at hinsert

theorem balanced_complete (h : w.Balanced) (hlock : w.writer = none) (id : ℕ)
    (name : String) (tables : List String) :
    (w.complete id name tables).Balanced := by
  have hcovers := h.covers
  have hheld : w.held = 0 := by rw [held, hlock, Option.elim_none]
  have hpending : (w.complete id name tables).pending ≤ w.pending :=
    Registry.total_erase_le _ _ _
  refine ⟨h.wraps, ?_⟩
  change _ ≤ w.exactTotal + _
  cases hc : w.app.connectors.lookup name with
  | none =>
      have hreceived : (w.complete id name tables).app.received =
          w.app.received := w.app.received_completeSnapshot_of_none name _ hc
      have hafter : (w.complete id name tables).held = 0 := by
        simp [held, complete, hc]
      omega
  | some c =>
      have hreceived : (w.complete id name tables).app.received ≤
          w.app.received + (AppState.snapshotCount tables).toNat :=
        w.app.received_completeSnapshot_le name _
      have hafter : (w.complete id name tables).held =
          (AppState.snapshotCount tables).toNat := by
        simp [held, complete, hc]
      omega

theorem balanced_finish (h : w.Balanced) {count : UInt64}
    (hlock : w.writer = some count) : (w.finish count).Balanced := by
  have hcovers := h.covers
  have hheld : w.held = count.toNat := by rw [held, hlock, Option.elim_some]
  refine ⟨toNat_add_wraps h.wraps, ?_⟩
  change w.app.received + w.pending ≤ w.exactTotal + count.toNat + 0
  omega

theorem balanced_add (h : w.Balanced) (id : ℕ) (name : String)
    (count : UInt64) : (w.add id name count).Balanced := by
  have hcovers := h.covers
  have hpending : (w.add id name count).pending ≤ w.pending + count.toNat :=
    Registry.total_insert_le _ _ _ _
  refine ⟨toNat_add_wraps h.wraps, ?_⟩
  change w.app.received + _ ≤ w.exactTotal + count.toNat + w.held
  omega

theorem balanced_apply (h : w.Balanced) {id : ℕ} {name : String}
    {count : UInt64} (htask : w.tasks.lookup id = some (.counted name count)) :
    (w.apply id name count).Balanced := by
  have hcovers := h.covers
  have hpending : (w.apply id name count).pending + count.toNat = w.pending :=
    Registry.total_erase Task.pending htask
  have hreceived : (w.apply id name count).app.received ≤
      w.app.received + count.toNat := w.app.received_applyReceived_le name count
  refine ⟨h.wraps, ?_⟩
  change _ ≤ w.exactTotal + w.held
  omega

theorem balanced_step {a : Action} (h : w.Balanced)
    (hstep : w.step a = some w') : w'.Balanced := by
  cases step_cases hstep with
  | register name =>
      exact h.of_le rfl rfl rfl (w.app.received_registerConnector_le name) le_rfl
  | remove name =>
      exact h.of_le rfl rfl rfl (w.app.received_connectorRemove_le name) le_rfl
  | updateStatus name status =>
      exact h.of_le rfl rfl rfl (w.app.received_updateStatus name status).le
        le_rfl
  | shutdownAll =>
      exact h.of_le rfl rfl rfl w.app.received_shutdownAll.le le_rfl
  | accept id name tables =>
      exact h.of_le rfl rfl rfl le_rfl (pending_insert_le id rfl)
  | refuse => exact h
  | setStatus id name tables =>
      exact h.of_le rfl rfl rfl
        (w.app.received_updateStatus name .snapshotting).le
        (pending_insert_le id rfl)
  | spawn id name tables =>
      exact h.of_le rfl rfl rfl le_rfl (pending_insert_le id rfl)
  | complete id name tables hlock => exact balanced_complete h hlock id name tables
  | finish count hlock => exact balanced_finish h hlock
  | add id name count => exact balanced_add h id name count
  | apply id name count hlock htask => exact balanced_apply h htask

/-! ## Runs -/

/-- In every interleaving on a new server the total covers the counters
whenever no one writes. -/
theorem throughout_totalCovers (maxConcurrentTools : ℕ) (actions : List Action) :
    Throughout step TotalCovers (idle (.new maxConcurrentTools)) actions := by
  have hnew : (idle (.new maxConcurrentTools)).Balanced := ⟨rfl, Nat.le_refl _⟩
  exact (throughout_of_invariant (fun _ _ _ h => balanced_step h) hnew actions).mono
    fun _ => Balanced.totalCovers

/-- Between the two parts of a completion the counter is ahead of the total. -/
example :
    (runFrom step (idle (.new 10))
      [.register "orders", .check 0 "orders" ["a", "b"], .setStatus 0, .spawn 0,
        .complete 0]).map (fun w =>
          (w.app.received, w.app.totalEventsReceived, w.writer)) =
      some (20, 0, some 20) := by
  decide

end World
end OpenCdc.Mcp
